import HarnessIndex.Event
import HarnessIndex.Harness.Detect
import HarnessIndex.Ordered

/-!
# The harness index of a file

The index joins the harnesses found by attribute with those found by invocation, keeps one harness
for each name, and lists them in source order. When several functions have the same name, the first
one wins, except that a declared harness wins over one that is not; every function that loses is
reported.
-/

namespace HarnessIndex.Harness

open Syntax

/-- The path of the attribute of a unit test. -/
def testAttribute : Text := "test"

/-- How a candidate is run. -/
def kindOf (candidate : Candidate) : Kind :=
  if candidate.declaredByAttribute then .proof
  else if (candidate.attributes.any fun descriptor => descriptor.name = testAttribute) &&
      candidate.invocationCount = 1 then .unitTest
  else .proof

/-- A candidate with the span it is known by. -/
abbrev Spanned := (Syntax.Kind × Nat × Nat) × Candidate

/-- The candidates by their spans. -/
def bySpan (candidates : List Candidate) : List Spanned :=
  Assoc.ofList (candidates.map fun candidate => (candidate.node.span, candidate))

/-- Complete the declared candidates with what they invoke. What is left over is returned too. -/
def complete : (invoking : List Spanned) → (declared : List Candidate) →
    List Candidate × List Spanned
  | invoking, [] => ([], invoking)
  | invoking, candidate :: rest =>
      match Assoc.get? candidate.node.span invoking with
      | none =>
          let (completed, left) := complete invoking rest
          (candidate :: completed, left)
      | some found =>
          let (completed, left) := complete (Assoc.drop candidate.node.span invoking) rest
          ({ candidate with
              entryPoint := found.entryPoint, invocationCount := found.invocationCount } ::
            completed, left)

/-- Sort candidates by where they start. -/
def inSourceOrder (candidates : List Candidate) : List Candidate :=
  Stable.sortOn (fun candidate => candidate.node.startByte) candidates

/-- All candidates in source order, each function once. -/
def join (declared invoking : List Candidate) : List Candidate :=
  let (completed, left) := complete (bySpan invoking) declared
  inSourceOrder (completed ++ left.map Prod.snd)

/-- The candidates that hold their names, and the collisions so far. -/
structure Choice where
  chosen : List (Text × Candidate)
  collisions : List Event

/-- Whether a candidate takes the name from the one that holds it. -/
def takesOver (candidate current : Candidate) : Bool :=
  candidate.declaredByAttribute && !current.declaredByAttribute

/-- The report that one of two candidates with the same name was dropped. -/
def collision (kept dropped : Candidate) : Event :=
  .harnessNameCollision kept.name kept.node.startLine dropped.node.startLine

/-- Let one more candidate compete for its name. -/
def choose (choice : Choice) (candidate : Candidate) : Choice :=
  match Assoc.get? candidate.name choice.chosen with
  | none => { choice with chosen := Assoc.put candidate.name candidate choice.chosen }
  | some current =>
      if takesOver candidate current then
        ⟨Assoc.put candidate.name candidate choice.chosen,
          choice.collisions ++ [collision candidate current]⟩
      else { choice with collisions := choice.collisions ++ [collision current candidate] }

/-- Keep one candidate for each name. -/
def chooseAll (candidates : List Candidate) : Choice :=
  candidates.foldl choose ⟨[], []⟩

/-- The metadata of a candidate in a file with a number of proofs. -/
def describe (totalProofs : Nat) (candidate : Candidate) : Metadata where
  harnessName := candidate.name
  kind := kindOf candidate
  startLine := candidate.node.startLine
  endLine := candidate.node.endLine
  attributes := candidate.attributes
  totalProofs := totalProofs
  modulePath := candidate.modulePath
  doc := candidate.node.doc?
  entryPoint := candidate.entryPoint

/-- Harnesses by name, in source order. -/
abbrev Index := List (Text × Metadata)

/-- The index of some candidates of which no two have the same name. -/
def describeAll (candidates : List Candidate) : Index :=
  let totalProofs := candidates.countP fun candidate => kindOf candidate = .proof
  candidates.map fun candidate => (candidate.name, describe totalProofs candidate)

/-- The index of a syntax tree, and the collisions of names. -/
def collect (root : Node) : Index × List Event :=
  let choice := chooseAll (join (attributeHarnesses root) (invocationHarnesses root))
  (describeAll (inSourceOrder (choice.chosen.map Prod.snd)), choice.collisions)

/-- The report that a parser gave no tree. -/
def noTree : Event :=
  .sourceParseFailed "parser produced no tree"

/-- The index of a source, and the reports made on the way. `parsed` is what the parser makes of the
source, or `none` when it gives no tree. -/
def index (source : Text) (parsed : Option Parsed) : Index × List Event :=
  if (Text.trim source).isEmpty then ([], [])
  else
    match parsed with
    | none => ([], [noTree])
    | some parsed =>
        let (harnesses, collisions) := collect parsed.root
        let malformed :=
          if parsed.hasErrors then [.malformedSource parsed.errorCount parsed.totalNodes] else []
        (harnesses, malformed ++ collisions ++ [.harnessesExtracted harnesses.length])

end HarnessIndex.Harness
