import HarnessIndex.Command.Program
import HarnessIndex.Proofs.Settings.Troubles
import HarnessIndex.Value.Yaml

/-!
# Settings of a run

A run loads its settings before it looks at its command. A trouble that is reported ends the run with
one line and the status 1; the troubles that are not reported break it down. Nothing depends on what
the reader of documents makes of a text.
-/

namespace HarnessIndex.Command

open Settings

variable {place : Place} {layers : Layers}

/-- Whether a place holds the layers of its settings: both files as they are read, the environment,
and no arguments. -/
structure Finds (place : Place) (layers : Layers) : Prop where
  globalFile : place.settingsFile place.globalSettings place.globalSettings =
    .ok layers.globalFile
  projectFile : place.settingsFile
    ⟨place.directory.slashes, place.directory.parts ++ Place.projectSettings.parts⟩
    Place.projectSettings = .ok layers.projectFile
  environment : layers.environment = place.environment
  arguments : layers.arguments = []

theorem settings_eq (finds : Finds place layers) :
    place.settings = (load place.homes layers).mapError Place.stopFor := by
  have same : layers = ⟨layers.globalFile, layers.projectFile, place.environment, []⟩ := by
    rw [← finds.environment, ← finds.arguments]
  unfold Place.settings
  dsimp only
  rw [finds.globalFile]
  change (fileEntries layers.globalFile).mapError Place.stopFor >>= _ = _
  cases read : fileEntries layers.globalFile with
  | error trouble =>
      rw [load_of_unread (by rw [readLayers, read]; rfl)]
      rfl
  | ok entries =>
      rw [finds.projectFile, same]
      rfl

/-- What comes of a command line that asks for a command, once the settings have been loaded. -/
theorem run_eq {stamp : Text} {arguments rest : List Text} {verbose : Bool} {name : Name}
    (request : readRequest arguments = .ok (.run verbose name rest)) :
    run place stamp arguments =
      match place.settings with
      | .error reason => .stopped [] reason
      | .ok settings =>
          runCommand place stamp (if verbose then withDetails settings else settings) name rest := by
  cases arguments with
  | nil => cases request
  | cons first others =>
      rw [run, request]
      rfl

/-- One line that a refused run prints. -/
def refusal (failure : Failure) : Outcome :=
  ⟨1, [(.stderr, "Error: " ++ failure.text ++ "\n")], none⟩

theorem stopFor_of_isHidden {trouble : Trouble} (hidden : trouble.IsHidden) :
    ∃ breakdown, Place.stopFor trouble = .brokenDown breakdown := by
  cases trouble with
  | failure failure => exact hidden.elim
  | _ => exact ⟨_, rfl⟩

/-- Layers of nothing but variables and the file of the project. -/
def layersOf (environment : List (Text × Text)) (content : Document) : Layers where
  globalFile := .absent ['.']
  projectFile := ⟨Place.projectSettings.toText, content⟩
  environment := environment
  arguments := []

/-- A place with nothing in it but the file of the project. -/
def placeOf (environment : List (Text × Text)) (text : Text) : Place where
  program := []
  directory := ⟨0, []⟩
  globalSettings := ⟨0, []⟩
  homes := ⟨[], []⟩
  environment := environment
  package := Grammar.standardName
  dialect := .bare
  entry? path := if path = Place.projectSettings.toText then some (.file text.length) else none
  read _ := .ok (Text.encode text)
  document := Yaml.read

/-- The variable of a list that holds a bare word. -/
def bareWord : List (Text × Text) :=
  [("PROOFSCAN__SCAN__EXTENSIONS", "rs")]

/-- A size that is not allowed. -/
def noSize : List (Text × Text) :=
  [("PROOFSCAN__SCAN__MAX_FILE_SIZE_KB", "0")]

theorem finds_empty (environment : List (Text × Text)) :
    Finds (placeOf environment []) (layersOf environment (.single .null)) where
  globalFile := rfl
  projectFile := rfl
  environment := rfl
  arguments := rfl

/-- A key that is a truth value. -/
def truthKey : Text := "on: push"

theorem finds_truthKey : Finds (placeOf [] truthKey) (layersOf [] (.mapping [] ["True"])) where
  globalFile := rfl
  projectFile := rfl
  environment := rfl
  arguments := rfl

/-- What that size is among the entries of all layers. -/
def noSizeEntries : List (Text × Value) :=
  [("scan", .record [("max_file_size_kb", .text "0")])]

theorem refuses_noSize :
    ∃ failure, load ⟨[], []⟩ (layersOf noSize (.single .null)) = .error (.failure failure) := by
  have read : readLayers (layersOf noSize (.single .null)) = .ok ⟨[], [], noSizeEntries, []⟩ := rfl
  have merged : Stack.merged ⟨[], [], noSizeEntries, []⟩ = noSizeEntries := rfl
  -- The message of the issue stays closed, since it asks for the power that bounds written numbers.
  obtain ⟨message, rejected⟩ : ∃ message, checkEntries ⟨[], []⟩ noSizeEntries =
      .error (.issues ⟨[.key "scan", .key "max_file_size_kb"], "value_error", message,
        .text "0"⟩ []) :=
    ⟨_, rfl⟩
  have writable : (Value.text "0").isWritable = true := by simp [Value.isWritable]
  rw [load_eq read, merged, rejected, Except.mapError, rejectionTrouble, if_pos writable]
  exact ⟨_, rfl⟩

end HarnessIndex.Command
