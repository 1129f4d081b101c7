import HarnessIndex.Text.Blank

/-!
# File paths

A path is a number of leading slashes and a list of parts. Reading a path drops empty parts and
single dots, keeps double dots, and keeps exactly two leading slashes apart from one; so the written
form of a path is its normal form.
-/

namespace HarnessIndex

/-- A file path in normal form. `slashes` is 0 for a relative path, else 1 or 2. -/
structure Path where
  slashes : Nat
  parts : List Text
  deriving DecidableEq, Repr, Inhabited

namespace Path

/-- How many leading slashes count: three or more count as one. -/
def rootOf : Text → Nat
  | ['/'] => 1
  | ['/', '/'] => 2
  | '/' :: '/' :: '/' :: _ => 1
  | '/' :: '/' :: _ => 2
  | '/' :: _ => 1
  | _ => 0

/-- The parts of a path that say something. -/
def partsOf (text : Text) : List Text :=
  (Text.splitOn '/' text).filter fun part => !(part.isEmpty || part = ['.'])

def ofText (text : Text) : Path :=
  ⟨rootOf text, partsOf text⟩

/-- Write a path; the path without any part is the dot. -/
def toText (path : Path) : Text :=
  if path.slashes = 0 && path.parts.isEmpty then ['.']
  else List.replicate path.slashes '/' ++ Text.join ['/'] path.parts

/-- Whether a path starts at the root. -/
def isAbsolute (path : Path) : Bool :=
  path.slashes ≠ 0

/-- The path of an entry of a directory. -/
def child (path : Path) (name : Text) : Path :=
  ⟨path.slashes, path.parts ++ [name]⟩

/-- The home directories of a machine: the user's own, and those of users with a name. -/
structure Homes where
  own : Text
  named : List (Text × Text)

/-- The home directory that `~` or `~name` stands for. -/
def Homes.find? (homes : Homes) (name : Text) : Option Text :=
  if name.isEmpty then some homes.own else homes.named.lookup name

/-- Replace a leading `~` or `~name` of a relative path by the home directory it stands for. The
answer is `none` when that user has no home. -/
def expandHome (homes : Homes) (path : Path) : Option Path :=
  if path.isAbsolute then some path
  else
    match path.parts with
    | ('~' :: name) :: rest => do
        let home := ofText (← homes.find? name)
        some ⟨home.slashes, home.parts ++ rest⟩
    | _ => some path

end Path

end HarnessIndex
