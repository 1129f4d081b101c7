import HarnessIndex.Value.Json

/-!
# Settings in the environment

Variables whose names begin with `PROOFSCAN__` hold settings; capitals do not matter. The variable
of a section holds JSON for the whole section. A longer name leads to a part of it, with two low
lines between the steps: lists hold JSON there, and everything else is a text. Capitals do not matter
in the names of settings within JSON either.
-/

namespace HarnessIndex.Settings

/-- The small form of a letter. Beside the capitals, the sign for kelvins is the one letter whose small
form is among a to z. -/
def smallLetter (c : Char) : Char :=
  if c = '\u212a' then 'k' else c.toLower

def smallName (name : Text) : Text :=
  name.map smallLetter

/-- The variables of a process, with their names in small letters. A name that comes again keeps its
place and takes the later text. -/
def namedVariables (environment : List (Text × Text)) : List (Text × Text) :=
  Assoc.ofList (environment.map fun entry => (smallName entry.1, entry.2))

/-- The parts of a text between double low lines. -/
def splitSteps : Text → List Text
  | [] => [[]]
  | '_' :: '_' :: rest => [] :: splitSteps rest
  | c :: rest =>
      match splitSteps rest with
      | [] => [[c]]
      | part :: parts => (c :: part) :: parts

/-- The settings that are lists, by their sections. -/
def listSettings : List (Text × List Text) :=
  [("logging", ["outputs"]), ("scan", ["extensions", "exclude_dirs"])]

/-- Whether a path of steps leads to a list. -/
def leadsToList (sectionName : Text) (steps : List Text) (last : Text) : Bool :=
  steps.isEmpty && ((listSettings.lookup sectionName).getD []).contains last

/-- Put a value where a path of steps leads. Where a step leads into something that is no record,
the value is dropped. -/
def putAt (value : Value) : (steps : List Text) → (last : Text) → List (Text × Value) →
    List (Text × Value)
  | [], last, entries => Assoc.put last value entries
  | step :: steps, last, entries =>
      match Assoc.get? step entries with
      | none => Assoc.put step (.record (putAt value steps last [])) entries
      | some (.record inner) => Assoc.put step (.record (putAt value steps last inner)) entries
      | some _ => entries

/-- Read the text of a variable as JSON, or fail for a section. -/
def readJson (sectionName : Text) (text : Text) : Except Text Value :=
  match Json.read? text with
  | some value => .ok value
  | none => .error sectionName

/-- Add a variable to what the variables before it set in a section. -/
def addVariable (sectionName : Text) (entries : List (Text × Value)) (name text : Text) :
    Except Text (List (Text × Value)) := do
  match Text.after? ("proofscan__" ++ sectionName ++ "__") name with
  | none => return entries
  | some steps =>
      let parts := splitSteps steps
      let last := parts.getLast?.getD []
      let front := parts.dropLast
      let value ←
        if leadsToList sectionName front last && !text.isEmpty then readJson sectionName text
        else pure (.text text)
      return putAt value front last entries

/-- What the longer variables set in a section, one after the other. -/
def addVariables (sectionName : Text) (entries : List (Text × Value)) :
    List (Text × Text) → Except Text (List (Text × Value))
  | [] => .ok entries
  | (name, text) :: rest => do
      let entries ← addVariable sectionName entries name text
      addVariables sectionName entries rest

/-- The settings by their sections. -/
def settingNames : List (Text × List Text) :=
  [("logging", ["level", "outputs"]), ("scan", ["max_file_size_kb", "extensions", "exclude_dirs"])]

/-- The name of the setting that a key of a section stands for. Any other key stands for itself. -/
def settingName (sectionName key : Text) : Text :=
  if ((settingNames.lookup sectionName).getD []).contains (smallName key) then smallName key else key

def bySetting (sectionName : Text) (entries : List (Text × Value)) : List (Text × Value) :=
  Assoc.ofList (entries.map fun entry => (settingName sectionName entry.1, entry.2))

/-- What the variables set for a section, if anything. The name of the section is the failure when
one of them is not JSON. -/
def sectionValue (known : List (Text × Text)) (sectionName : Text) :
    Except Text (Option Value) := do
  match Assoc.get? ("proofscan__" ++ sectionName) known with
  | none => do
      let entries ← addVariables sectionName [] known
      return if entries.isEmpty then none else some (.record (bySetting sectionName entries))
  | some text => do
      match ← readJson sectionName text with
      | .record entries => do
          let parts ← addVariables sectionName [] known
          return some (.record (bySetting sectionName (Value.mergeEntries entries parts)))
      | .null => return none
      | value => return some value

/-- What the variables set. -/
def fromEnvironment (environment : List (Text × Text)) : Except Text (List (Text × Value)) := do
  let known := namedVariables environment
  let logging ← sectionValue known "logging"
  let scan ← sectionValue known "scan"
  return (logging.toList.map fun value => (("logging" : Text), value)) ++
    (scan.toList.map fun value => (("scan" : Text), value))

end HarnessIndex.Settings
