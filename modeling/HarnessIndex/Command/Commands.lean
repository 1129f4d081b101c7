import HarnessIndex.Analysis
import HarnessIndex.Command.Place
import HarnessIndex.Files.Discovery
import HarnessIndex.Harness.Marker
import HarnessIndex.Report.Drawing
import HarnessIndex.Report.Values

/-!
# The commands

Each command as a script. A source is bound to the log while it is analysed and at no other time,
and a scan parses only the files that mention a proof.
-/

namespace HarnessIndex.Command

open Files Run Settings

def say (line : Text) : Run Unit :=
  act (.print (line ++ ['\n']))

def sayJson (value : Value) : Run Unit :=
  say (Json.write .tall value)

def sayTable (place : Place) (table : Report.Table) : Run Unit :=
  match Report.draw place.dialect table with
  | none => stop (.brokenDown .unmatchedTag)
  | some lines => act (.print (lines.flatMap fun line => line ++ ['\n']))

def readSource (place : Place) (path : Path) : Run Text := do
  act (.read path)
  match place.read path with
  | .ok bytes => return sourceText bytes
  | .error reason => stop (.refused (cannotRead path reason))

def findHarnesses (path : Path) (source : Text) : Run Harness.Index :=
  analyse (.findHarnesses path) fun registry => Analysis.harnesses registry source

def findTests (path : Path) (source : Text) : Run (List Replay.Record) :=
  analyse (.findTests path) fun registry => Analysis.generatedTests registry source

/-- Tell whether a file mentions a proof. The status is 1 if it does not. -/
def check (place : Place) (path : Path) : Run Nat := do
  let source ← readSource place path
  if Harness.mentionsProof source then
    say (path.toText ++ ": proofs found")
    return 0
  else
    say (path.toText ++ ": no proofs")
    return 1

/-- The title of the table of harnesses of a file. -/
def fileTitle (path : Path) (index : Harness.Index) : Text :=
  let total := (index.head?.map fun entry => entry.2.totalProofs).getD 0
  path.toText ++ " (" ++ Text.ofNat total ++ " proofs)"

/-- Show the harnesses of a file. -/
def harnesses (place : Place) (json : Bool) (path : Path) : Run Nat := do
  let index ← bound path do findHarnesses path (← readSource place path)
  if json then sayJson (Report.indexValue index)
  else if index.isEmpty then say (path.toText ++ ": no harnesses found")
  else sayTable place (Report.harnessTable index none (some (fileTitle path index)))
  return 0

/-- The lines that show generated tests under their harnesses. -/
def groupLines (groups : Replay.Groups) : List Text :=
  groups.flatMap fun (harness, records) =>
    (harness ++ [':']) :: records.map fun record =>
      "  " ++ Text.padStart 5 (Text.ofNat record.insertionLine) ++ "  " ++ record.testFunctionName

def sayAll : List Text → Run Unit
  | [] => pure ()
  | line :: rest => do
      say line
      sayAll rest

/-- Show the generated tests of a file. -/
def playback (place : Place) (json : Bool) (path : Path) : Run Nat := do
  let records ← bound path do findTests path (← readSource place path)
  if json then sayJson (Report.recordsValue records)
  else if records.isEmpty then say (path.toText ++ ": no generated tests")
  else sayAll (groupLines (Replay.groupByHarness records))
  return 0

/-- What a scan finds in a file. -/
structure Scanned where
  index : Harness.Index
  replays : Replay.Groups

/-- Look for harnesses in a file. A file that mentions no proof is left alone, and one without
harnesses is left out. -/
def scanFile (place : Place) (path : Path) : Run (Option Scanned) := do
  let source ← readSource place path
  if !Harness.mentionsProof source then return none
  let scanned ← bound path do
    let index ← findHarnesses path source
    let records ← findTests path source
    return ⟨index, Replay.groupByHarness records⟩
  return if scanned.index.isEmpty then none else some scanned

/-- The form of what a scan finds in a file. -/
def Scanned.toValue (scanned : Scanned) : Value :=
  .record [("harnesses", Report.indexValue scanned.index),
    ("generated_tests", Report.groupsValue scanned.replays)]

/-- What a scan finds in all files, by their names below the root. Unless the answer is JSON, each
file is shown at once. -/
def scanAll (place : Place) (scan : Scan) (root : Path) (json : Bool) :
    List Finding → Run (List (Text × Value))
  | [] => do
      act .search
      return []
  | .tooLarge names size :: rest => do
      act .search
      acts ((Finding.event? root scan (.tooLarge names size)).toList.map .report)
      scanAll place scan root json rest
  | .source names :: rest => do
      act .search
      match ← scanFile place (below root names) with
      | none => scanAll place scan root json rest
      | some scanned => do
          let title := Text.join ['/'] names
          if !json then
            sayTable place
              (Report.harnessTable scanned.index (some scanned.replays) (some title))
          let others ← scanAll place scan root json rest
          return (title, scanned.toValue) :: others

/-- Show the harnesses of all source files below a root. -/
def scan (place : Place) (settings : Scan) (json : Bool) (root : Path) (tree : Entry) :
    Run Nat := do
  let found ← scanAll place settings root json (search settings tree)
  if json then sayJson (.record found)
  else if found.isEmpty then say (root.toText ++ ": no harnesses found")
  return 0

end HarnessIndex.Command
