import HarnessIndex.Text.Path

/-!
# Directory trees

What stands in a file system, as far as a search for sources looks at it. A link to a directory is
never entered, and a link that leads nowhere is no file.
-/

namespace HarnessIndex.Files

/-- What stands under a name. -/
inductive Entry where
  | file (size : Nat)
  | directory (entries : List (Text × Entry))
  | linkedDirectory
  | dangling
  deriving Repr, Inhabited

namespace Entry

/-- Whether an entry is a directory, if only by a link. -/
def isDirectory : Entry → Bool
  | directory _ => true
  | linkedDirectory => true
  | _ => false

def isFile : Entry → Bool
  | file _ => true
  | _ => false

def size? : Entry → Option Nat
  | file size => some size
  | _ => none

def entries : Entry → List (Text × Entry)
  | directory entries => entries
  | _ => []

/-- The entry that some names lead to, one directory at a time. Two dots lead to the directory
above; `above` holds the directories that were left behind. -/
def find? (above : List Entry) (entry : Entry) : (names : List Text) → Option Entry
  | [] => some entry
  | name :: rest =>
      if !entry.isDirectory then none
      else if name = ['.', '.'] then
        match above with
        | [] => none
        | parent :: above => find? above parent rest
      else
        match entry.entries.lookup name with
        | some next => find? (entry :: above) next rest
        | none => none

@[simp] theorem find?_nil (above : List Entry) (entry : Entry) :
    find? above entry [] = some entry := by
  rw [find?]

end Entry

end HarnessIndex.Files
