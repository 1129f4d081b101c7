import HarnessIndex.Failure
import HarnessIndex.Settings.Environment
import HarnessIndex.Settings.Model
import HarnessIndex.Value.Document

/-!
# Loading settings

Settings come from four layers: the global file, the file of the project, the environment, and what
the caller passes. The two files are merged first, the layers above them are merged with each other,
and the upper half is merged over the lower one, entry by entry. The result is checked as a whole, and
the first issue of the check is the failure that is reported. Other troubles than failures are not
reported; they end whatever loads the settings.
-/

namespace HarnessIndex.Settings

/-- Why settings could not be loaded: a failure, which is reported, or else a file on which its
reader breaks down, a variable that is not JSON, a key of a file that is no text, a check that is
abandoned, or a value that cannot be written into the report on it. -/
inductive Trouble where
  | failure (failure : Failure)
  | unreadFile (path reason : Text)
  | badVariable (sectionName : Text)
  | otherKey (key : Text)
  | abandoned (reason : Text)
  | unwritable (field : Text)
  deriving Repr, Inhabited

namespace Trouble

/-- The report that a variable of a section is not JSON. -/
def variableText (sectionName : Text) : Text :=
  "error parsing value for field \x22" ++ sectionName ++
    "\x22 from source \x22EnvSettingsSource\x22"

end Trouble

/-- A settings file: its path, and what comes of reading it. An absent file is like an empty
mapping. -/
structure File where
  path : Text
  content : Document

/-- A file that is not there. -/
def File.absent (path : Text) : File :=
  ⟨path, .mapping [] []⟩

/-- The layers of settings. -/
structure Layers where
  globalFile : File
  projectFile : File
  environment : List (Text × Text)
  arguments : List (Text × Value)

/-- The entries of a settings file. A blank document counts as empty. -/
def fileEntries (file : File) : Except Trouble (List (Text × Value)) :=
  match file.content with
  | .mapping entries _ => .ok entries
  | .single value =>
      if value.isBlank then .ok []
      else .error (.failure (.configParse file.path "top-level value must be a mapping"))
  | .malformed reason => .error (.failure (.configParse file.path reason))
  | .unread reason => .error (.unreadFile file.path reason)

/-- The keys of a settings file that are no texts. -/
def otherKeys (file : File) : List Text :=
  match file.content with
  | .mapping _ otherKeys => otherKeys
  | _ => []

/-- Check that both files have no other keys than texts. -/
def onlyTextKeys (globalFile projectFile : File) : Except Trouble Unit :=
  match otherKeys globalFile ++ otherKeys projectFile with
  | [] => .ok ()
  | key :: _ => .error (.otherKey key)

def sectionNames : List Text :=
  ["logging", "scan"]

/-- The issues of entries that are no sections. -/
def extraIssues (entries : List (Text × Value)) : List Issue :=
  (entries.filter fun entry => !sectionNames.contains entry.1).map fun entry =>
    ⟨[.key entry.1], "extra_forbidden", "Extra inputs are not permitted", entry.2⟩

/-- Check that there are no entries but the sections. -/
def noExtras (entries : List (Text × Value)) : Checked Unit :=
  match extraIssues entries with
  | [] => .ok ()
  | first :: rest => .error (.issues first rest)

/-- Check the merged entries of all layers. -/
def checkEntries (homes : Path.Homes) (entries : List (Text × Value)) : Checked Config :=
  (Checked.both (Checked.sections homes entries) (noExtras entries)).map Prod.fst

def issueFailure (issue : Issue) : Failure :=
  .configValue issue.field issue.input issue.message

/-- The trouble that a rejection is reported as. The report holds the written form of the value. -/
def rejectionTrouble : Rejection → Trouble
  | .issues first _ =>
      if first.input.isWritable then .failure (issueFailure first) else .unwritable first.field
  | .abandoned reason => .abandoned reason

/-- The trouble that a rejection outside the reported check is. -/
def escapedTrouble : Rejection → Trouble
  | .issues first _ => .abandoned first.message
  | .abandoned reason => .abandoned reason

/-- The merged entries of all layers. -/
def mergeLayers (layers : Layers) : Except Trouble (List (Text × Value)) := do
  let globalEntries ← fileEntries layers.globalFile
  let projectEntries ← fileEntries layers.projectFile
  let environment ← (fromEnvironment layers.environment).mapError Trouble.badVariable
  onlyTextKeys layers.globalFile layers.projectFile
  let files := Value.mergeEntries globalEntries projectEntries
  return Value.mergeEntries files (Value.mergeEntries environment layers.arguments)

/-- Load the settings from all layers. What has been accepted is checked once more in its normal
form, and nothing reports what that check rejects. -/
def load (homes : Path.Homes) (layers : Layers) : Except Trouble Config := do
  let entries ← mergeLayers layers
  let config ← (checkEntries homes entries).mapError rejectionTrouble
  (Checked.config homes config.toValue).mapError escapedTrouble

end HarnessIndex.Settings
