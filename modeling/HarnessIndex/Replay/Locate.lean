import HarnessIndex.Harness.Index
import HarnessIndex.Replay.Name

/-!
# Finding generated tests

A generated test is a function with a generated name whose body calls the replay runner. The harness
it belongs to is the one handed to the runner, or else the one its name tells.
-/

namespace HarnessIndex.Replay

open Syntax

/-- The functions that run a replay. -/
def runners : List Text :=
  ["kani::concrete_playback_run", "concrete_playback_run"]

/-- A generated test. `insertionLine` is the first line of the function with its attributes. -/
structure Record where
  testFunctionName : Text
  originatingHarnessName : Text
  insertionLine : Nat
  endLine : Nat
  playbackId : Option Text
  deriving DecidableEq, Repr, Inhabited

def isRunnerCall (node : Node) : Bool :=
  node.kind = .callExpression && node.callee?.any fun callee => runners.contains callee

/-- The first call of a runner in the body of a function, outside nested functions and closures. -/
def runnerCall? (function : Node) : Option Node := do
  let body ← function.field? .body
  (body.descendants Harness.isForeign).find? isRunnerCall

def lastSegment : Text → Text
  | [] => []
  | c :: rest =>
      if Text.occursIn "::" rest then lastSegment rest
      else (Text.after? "::" (c :: rest)).getD (c :: rest)

/-- The harness that a call hands to the runner as its second argument. -/
def harnessArgument? (call : Node) : Option Text := do
  let argument ← call.callArguments[1]?
  if argument.kind = .identifier || argument.kind = .scopedIdentifier then
    Node.nonempty? (lastSegment (Text.withoutBlanks argument.text))
  else none

/-- The line on which a function starts, its attributes included. -/
def insertionLine (function : Node) : Nat :=
  match function.attributes with
  | [] => function.startLine
  | first :: _ => first.startLine

/-- The generated test that a function is. -/
def record? (item : Item) : Option Record := do
  let name ← item.node.name?
  let generated ← GeneratedName.ofText? name
  let call ← runnerCall? item.node
  return {
    testFunctionName := generated.name
    originatingHarnessName := (harnessArgument? call).getD generated.harness
    insertionLine := insertionLine item.node
    endLine := item.node.endLine
    playbackId := generated.id }

/-- The generated tests of a file by the lines they start on. -/
def locate (root : Node) : List Record :=
  Stable.sortOn Record.insertionLine ((functionsOf root).filterMap record?)

/-- The generated tests of a source, and the reports made on the way. `parsed` is what the parser
makes of the source, or `none` when it gives no tree. -/
def extract (source : Text) (parsed : Option Parsed) : List Record × List Event :=
  if !Text.occursIn start source then ([], [])
  else
    match parsed with
    | none => ([], [Harness.noTree])
    | some parsed =>
        let records := locate parsed.root
        (records, [.generatedTestsExtracted records.length])

/-- Records under the harnesses they belong to. -/
abbrev Groups := List (Text × List Record)

def addToGroup (groups : Groups) (record : Record) : Groups :=
  let group := (Assoc.get? record.originatingHarnessName groups).getD []
  Assoc.put record.originatingHarnessName (group ++ [record]) groups

/-- Records under the harnesses they belong to, both in the order in which they come. -/
def groupByHarness (records : List Record) : Groups :=
  records.foldl addToGroup []

@[simp] theorem groupByHarness_nil : groupByHarness [] = [] := rfl

end HarnessIndex.Replay
