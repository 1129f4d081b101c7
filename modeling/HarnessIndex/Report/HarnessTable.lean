import HarnessIndex.Replay.Locate
import HarnessIndex.Report.Markup

/-!
# The table of harnesses

One row for each harness: its line, its qualified name, its kind and its attributes, and, when
generated tests are given, how many belong to it. The cells are texts with markup. An attribute that
is not understood is yellow and has a question mark.
-/

namespace HarnessIndex.Report

open Harness (Metadata Index)

/-- The side to which a column is aligned. -/
inductive Side where
  | left
  | right
  deriving DecidableEq, Repr, Inhabited

/-- A table; the cells, the headers and the title are texts with markup. -/
structure Table where
  title : Option Text
  columns : List (Text × Side)
  rows : List (List Text)
  deriving Repr, Inhabited

def badge (descriptor : Attribute.Descriptor) : Text :=
  let text := Markup.escape descriptor.text
  if descriptor.supported then text else Markup.tagged "yellow" (text ++ "?")

def kindCell : Harness.Kind → Text
  | .proof => "proof"
  | .unitTest => Markup.tagged "magenta" "unit test"

/-- The number of generated tests of a harness. -/
def replayCount (replays : Replay.Groups) (harness : Metadata) : Nat :=
  ((Assoc.get? harness.harnessName replays).getD []).length

def harnessRow (replays : Option Replay.Groups) (harness : Metadata) : List Text :=
  [Text.ofNat harness.startLine, harness.qualifiedName, kindCell harness.kind,
    Text.join " " (harness.attributes.map badge)] ++
  match replays with
  | some groups => [Text.ofNat (replayCount groups harness)]
  | none => []

/-- The columns of the table of harnesses. -/
def harnessColumns (withReplays : Bool) : List (Text × Side) :=
  let columns : List (Text × Side) :=
    [("line", .right), ("harness", .left), ("kind", .left), ("attributes", .left)]
  columns ++ (if withReplays then [(("replays" : Text), Side.right)] else [])

/-- The table of harnesses. -/
def harnessTable (harnesses : Index) (replays : Option Replay.Groups) (title : Option Text) :
    Table where
  title := title
  columns := harnessColumns replays.isSome
  rows := harnesses.map fun entry => harnessRow replays entry.2

end HarnessIndex.Report
