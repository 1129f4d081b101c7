import HarnessIndex.Event
import HarnessIndex.Files.Entry
import HarnessIndex.Ordered
import HarnessIndex.Settings.Model
import HarnessIndex.Text.Order

/-!
# Finding source files

A search goes through a directory tree and comes to its source files in a fixed order: the files of
a directory by name, and after them what its subdirectories hold, again by name. Directories that
are hidden or excluded are not entered, and files over the size limit are reported instead of found.
-/

namespace HarnessIndex.Files

open Settings

/-- What a search comes to, with the names that lead to it from the root. -/
inductive Finding where
  | source (names : List Text)
  | tooLarge (names : List Text) (size : Nat)
  deriving DecidableEq, Repr, Inhabited

def isSourceName (scan : Scan) (name : Text) : Bool :=
  scan.extensions.any fun suffix => Text.endsWith suffix name

def isEntered (scan : Scan) (name : Text) : Bool :=
  !scan.excludeDirs.contains name && !Text.startsWith ['.'] name

/-- The largest size of a source in bytes. -/
def sizeLimit (scan : Scan) : Nat :=
  (scan.maxFileSizeKb * 1024).toNat

def byName {α : Type} (entries : List (Text × α)) : List (Text × α) :=
  Stable.sort (fun left right => Text.precedes left.1 right.1) entries

/-- The files among some entries, with their sizes. -/
def sizes (entries : List (Text × Entry)) : List (Text × Nat) :=
  entries.filterMap fun entry => entry.2.size?.map fun size => (entry.1, size)

/-- What a search makes of one file. -/
def finding? (scan : Scan) (above : List Text) (file : Text × Nat) : Option Finding :=
  if !isSourceName scan file.1 then none
  else if sizeLimit scan < file.2 then some (.tooLarge (above ++ [file.1]) file.2)
  else some (.source (above ++ [file.1]))

/-- What a search finds among the files of a directory. -/
def amongFiles (scan : Scan) (above : List Text) (entries : List (Text × Entry)) : List Finding :=
  (byName (sizes entries)).filterMap (finding? scan above)

mutual

/-- What a search finds in an entry that some names lead to. -/
def findings (scan : Scan) (above : List Text) : Entry → List Finding
  | .directory entries =>
      amongFiles scan above entries ++
        (byName (inSubdirectories scan above entries)).flatMap Prod.snd
  | _ => []

/-- What a search finds in each of the subdirectories of a directory that it enters. -/
def inSubdirectories (scan : Scan) (above : List Text) : List (Text × Entry) →
    List (Text × List Finding)
  | [] => []
  | (name, entry) :: rest =>
      if isEntered scan name then
        (name, findings scan (above ++ [name]) entry) :: inSubdirectories scan above rest
      else inSubdirectories scan above rest

end

/-- What a search of a directory tree comes to, in order. -/
def search (scan : Scan) (tree : Entry) : List Finding :=
  findings scan [] tree

def below (root : Path) (names : List Text) : Path :=
  names.foldl Path.child root

def Finding.event? (root : Path) (scan : Scan) : Finding → Option Event
  | .source _ => none
  | .tooLarge names size =>
      some (.fileSkippedTooLarge (below root names).toText size (sizeLimit scan))

/-- The path of a source that was found. -/
def Finding.path? (root : Path) : Finding → Option Path
  | .source names => some (below root names)
  | .tooLarge _ _ => none

def sources (root : Path) (scan : Scan) (tree : Entry) : List Path :=
  (search scan tree).filterMap (Finding.path? root)

/-- The reports of a search below a root. -/
def reports (root : Path) (scan : Scan) (tree : Entry) : List Event :=
  (search scan tree).filterMap (Finding.event? root scan)

@[simp] theorem search_file (scan : Scan) (size : Nat) : search scan (.file size) = [] := by
  simp [search, findings]

end HarnessIndex.Files
