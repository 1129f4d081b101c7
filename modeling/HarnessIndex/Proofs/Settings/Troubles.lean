import HarnessIndex.Proofs.Settings.Layers
import HarnessIndex.Proofs.Settings.Variables

/-!
# Which troubles are reported

Loading reports files that cannot be read as settings and values that are not allowed. Five troubles
are not reported: a file on which its reader breaks down, a variable that should hold JSON and does
not, a key of a file that is no text, a file of the log at a home that is not known, and a value that
is not allowed and has too long a number in it to be written into the report. The check that follows
the reported one has no trouble at all.
-/

namespace HarnessIndex.Settings

variable {homes : Path.Homes} {input : Value}

/-! ## Checks that are abandoned -/

namespace Checked

theorem isAbandoned_destination :
    IsAbandoned (destination homes input) ↔
      ∃ name, input = .text name ∧ Path.expandHome homes (Path.ofText name) = none := by
  rw [destination, isAbandoned_bind]
  constructor
  · rintro (never | ⟨name, named, abandoned⟩)
    · exact absurd never not_isAbandoned_text
    · refine ⟨name, text_eq_ok.mp named, ?_⟩
      split at abandoned
      · exact absurd abandoned (not_isAbandoned_ok _)
      · split at abandoned
        · exact absurd abandoned (not_isAbandoned_ok _)
        · cases expanded : Path.expandHome homes (Path.ofText name) with
          | none => rfl
          | some path =>
              rw [expanded] at abandoned
              dsimp only at abandoned
              split at abandoned
              · exact absurd abandoned (not_isAbandoned_ok _)
              · exact absurd abandoned (not_isAbandoned_rule _ _)
  · rintro ⟨name, rfl, unknown⟩
    refine .inr ⟨name, rfl, ?_⟩
    split
    · rename_i same
      rw [same] at unknown
      cases unknown
    · split
      · rename_i same
        rw [same] at unknown
        cases unknown
      · rw [unknown]
        exact ⟨_, rfl⟩

@[simp] theorem not_isAbandoned_optionalLevel : ¬ IsAbandoned (optionalLevel input) := by
  cases input <;> simp [optionalLevel, level]

theorem isAbandoned_output :
    IsAbandoned (output homes input) ↔ ∃ entries, input = .record entries ∧
      ∃ name, Assoc.get? ("destination" : Text) entries = some (.text name) ∧
        Path.expandHome homes (Path.ofText name) = none := by
  rw [output, isAbandoned_record_bind]
  simp only [isAbandoned_bind_pure, isAbandoned_both, isAbandoned_field,
    not_isAbandoned_optionalLevel, isAbandoned_destination, format, not_isAbandoned_oneOf,
    and_false, exists_false, false_or, or_false]
  constructor
  · rintro ⟨entries, same, value, found, name, rfl, unknown⟩
    exact ⟨entries, same, name, found, unknown⟩
  · rintro ⟨entries, same, name, found, unknown⟩
    exact ⟨entries, same, .text name, found, name, rfl, unknown⟩

theorem isAbandoned_logging :
    IsAbandoned (logging homes input) ↔ ∃ entries, input = .record entries ∧
      ∃ outputs, Assoc.get? ("outputs" : Text) entries = some (.list outputs) ∧
        ∃ value ∈ outputs, IsAbandoned (output homes value) := by
  rw [logging, isAbandoned_record_bind]
  simp only [isAbandoned_bind_pure, isAbandoned_both, isAbandoned_field, level,
    not_isAbandoned_oneOf, isAbandoned_list, and_false, exists_false, false_or]
  constructor
  · rintro ⟨entries, same, value, found, outputs, rfl, abandoned⟩
    exact ⟨entries, same, outputs, found, abandoned⟩
  · rintro ⟨entries, same, outputs, found, abandoned⟩
    exact ⟨entries, same, .list outputs, found, outputs, rfl, abandoned⟩

@[simp] theorem not_isAbandoned_int : ¬ IsAbandoned (int input) := by
  cases input with
  | null => exact not_isAbandoned_issue _ _ _
  | bool value => exact not_isAbandoned_ok _
  | int value => exact not_isAbandoned_ok _
  | real value =>
      rw [int]
      split
      · exact not_isAbandoned_issue _ _ _
      · split
        · split
          · exact not_isAbandoned_ok _
          · exact not_isAbandoned_issue _ _ _
        · exact not_isAbandoned_issue _ _ _
  | text value =>
      rw [int]
      split
      · split
        · exact not_isAbandoned_issue _ _ _
        · exact not_isAbandoned_ok _
      · exact not_isAbandoned_issue _ _ _
  | other written inside => exact not_isAbandoned_issue _ _ _
  | list items => exact not_isAbandoned_issue _ _ _
  | record entries => exact not_isAbandoned_issue _ _ _

@[simp] theorem not_isAbandoned_maxFileSize : ¬ IsAbandoned (maxFileSize input) := by
  rw [maxFileSize, isAbandoned_bind]
  rintro (never | ⟨size, -, abandoned⟩)
  · exact not_isAbandoned_int never
  · split at abandoned
    · exact not_isAbandoned_rule _ _ abandoned
    · exact not_isAbandoned_ok _ abandoned

@[simp] theorem not_isAbandoned_scan : ¬ IsAbandoned (scan input) := by
  rw [scan, isAbandoned_record_bind]
  simp only [isAbandoned_bind_pure, isAbandoned_both, isAbandoned_field, extensions,
    isAbandoned_list, not_isAbandoned_text, not_isAbandoned_maxFileSize, and_false, exists_false,
    or_false, not_false_eq_true]

end Checked

/-- Whether the log settings name a file at a home that is not known. -/
def UnknownHome (homes : Path.Homes) (entries : List (Text × Value)) : Prop :=
  ∃ logging outputs output name,
    Assoc.get? ("logging" : Text) entries = some (.record logging) ∧
      Assoc.get? ("outputs" : Text) logging = some (.list outputs) ∧ .record output ∈ outputs ∧
        Assoc.get? ("destination" : Text) output = some (.text name) ∧
          Path.expandHome homes (Path.ofText name) = none

theorem isAbandoned_noExtras {entries : List (Text × Value)} :
    ¬ Checked.IsAbandoned (noExtras entries) := by
  rw [noExtras]
  rintro ⟨reason, same⟩
  split at same <;> cases same

/-- The check of all layers is abandoned for a home that is not known, and for nothing else. -/
theorem isAbandoned_checkEntries {entries : List (Text × Value)} :
    Checked.IsAbandoned (checkEntries homes entries) ↔ UnknownHome homes entries := by
  rw [checkEntries, Checked.isAbandoned_map, Checked.isAbandoned_both, Checked.sections]
  simp only [Checked.isAbandoned_bind_pure, Checked.isAbandoned_both, Checked.isAbandoned_field,
    Checked.not_isAbandoned_scan, isAbandoned_noExtras, Checked.isAbandoned_logging,
    Checked.isAbandoned_output, and_false, exists_false, or_false]
  constructor
  · rintro ⟨value, found, logging, rfl, outputs, listed, value, member, output, rfl, name, named,
      unknown⟩
    exact ⟨logging, outputs, output, name, found, listed, member, named, unknown⟩
  · rintro ⟨logging, outputs, output, name, found, listed, member, named, unknown⟩
    exact ⟨.record logging, found, logging, rfl, outputs, listed, .record output, member, output,
      rfl, name, named, unknown⟩

/-! ## Files -/

/-- Whether a file is read as settings: it holds a mapping, or a value that counts as nothing. -/
def File.IsRead (file : File) : Prop :=
  (∃ entries otherKeys, file.content = .mapping entries otherKeys) ∨
    ∃ value, file.content = .single value ∧ value.isBlank = true

/-- Whether the reader breaks down on a file. -/
def File.IsUnread (file : File) : Prop :=
  ∃ reason, file.content = .unread reason

/-- Whether a file holds a mapping with a key that is no text. -/
def File.HasOtherKey (file : File) : Prop :=
  ∃ entries key rest, file.content = .mapping entries (key :: rest)

variable {file : File}

theorem exists_fileEntries_iff : (∃ entries, fileEntries file = .ok entries) ↔ file.IsRead := by
  rw [fileEntries, File.IsRead]
  cases file.content with
  | mapping entries otherKeys => simp
  | single value => cases blank : value.isBlank <;> simp [blank]
  | malformed reason => simp
  | unread reason => simp

theorem fileEntries_of_isUnread (unread : file.IsUnread) :
    ∃ reason, fileEntries file = .error (.unreadFile file.path reason) := by
  obtain ⟨reason, same⟩ := unread
  exact ⟨reason, by rw [fileEntries, same]⟩

/-- A file that is not read as settings is reported, unless the reader breaks down on it. -/
theorem fileEntries_eq_error {trouble : Trouble} (failed : fileEntries file = .error trouble) :
    (∃ failure, trouble = .failure failure ∧ failure.code = .configParseError) ∨
      ∃ reason, trouble = .unreadFile file.path reason ∧ file.IsUnread := by
  rw [fileEntries] at failed
  split at failed
  case h_1 => cases failed
  case h_2 =>
    split at failed
    · cases failed
    · cases failed
      exact .inl ⟨_, rfl, rfl⟩
  case h_3 =>
    cases failed
    exact .inl ⟨_, rfl, rfl⟩
  case h_4 reason same =>
    cases failed
    exact .inr ⟨reason, rfl, reason, same⟩

theorem otherKeys_eq_nil_iff : otherKeys file = [] ↔ ¬ file.HasOtherKey := by
  rw [otherKeys, File.HasOtherKey]
  cases file.content with
  | mapping entries otherKeys => cases otherKeys <;> simp
  | _ => simp

/-! ## Loading -/

/-- Whether loading gives settings, or reports a failure with one of the two codes for settings. -/
def Surfaces (outcome : Except Trouble Config) : Prop :=
  (∃ config, outcome = .ok config) ∨ ∃ failure, outcome = .error (.failure failure) ∧
    (failure.code = .configParseError ∨ failure.code = .configInvalidValue)

/-- Whether both files are read as settings. -/
structure FilesRead (layers : Layers) : Prop where
  globalFile : layers.globalFile.IsRead
  projectFile : layers.projectFile.IsRead

/-- Whether the first value that is not allowed has too long a number in it to be written. -/
def Unwritable (homes : Path.Homes) (entries : List (Text × Value)) : Prop :=
  ∃ first rest, checkEntries homes entries = .error (.issues first rest) ∧
    first.input.isWritable = false

/-- The troubles that loading does not report. The reader breaks down on a file; or both files are
read, but a variable is not JSON where JSON is expected, or a key of a file is no text; or the layers
are merged, but the log has a file at a home that is not known, or the first value that is not allowed
cannot be written. -/
inductive Escapes (homes : Path.Homes) (layers : Layers) : Prop where
  | globalFile : layers.globalFile.IsUnread → Escapes homes layers
  | projectFile : layers.globalFile.IsRead → layers.projectFile.IsUnread → Escapes homes layers
  | badVariable : FilesRead layers → AnyUnread layers.environment → Escapes homes layers
  | otherKey : FilesRead layers → layers.globalFile.HasOtherKey ∨ layers.projectFile.HasOtherKey →
      Escapes homes layers
  | home {stack : Stack} : readLayers layers = .ok stack → UnknownHome homes stack.merged →
      Escapes homes layers
  | value {stack : Stack} : readLayers layers = .ok stack → Unwritable homes stack.merged →
      Escapes homes layers

/-- A trouble that is not reported. -/
def Trouble.IsHidden : Trouble → Prop
  | .failure _ => False
  | _ => True

variable {layers : Layers} {trouble : Trouble}

theorem surfaces_ok (config : Config) : Surfaces (.ok config) :=
  .inl ⟨config, rfl⟩

theorem surfaces_failure {failure : Failure}
    (code : failure.code = .configParseError ∨ failure.code = .configInvalidValue) :
    Surfaces (.error (.failure failure)) :=
  .inr ⟨failure, rfl, code⟩

theorem not_surfaces_of_isHidden (hidden : trouble.IsHidden) : ¬ Surfaces (.error trouble) := by
  rintro (⟨config, same⟩ | ⟨failure, same, -⟩)
  · cases same
  · cases same
    exact hidden

theorem onlyTextKeys_eq_ok : onlyTextKeys layers.globalFile layers.projectFile = .ok () ↔
    ¬ (layers.globalFile.HasOtherKey ∨ layers.projectFile.HasOtherKey) := by
  rw [not_or, ← otherKeys_eq_nil_iff, ← otherKeys_eq_nil_iff, ← List.append_eq_nil_iff,
    onlyTextKeys]
  cases otherKeys layers.globalFile ++ otherKeys layers.projectFile <;> simp

theorem isHidden_of_onlyTextKeys
    (failed : onlyTextKeys layers.globalFile layers.projectFile = .error trouble) :
    trouble.IsHidden := by
  rw [onlyTextKeys] at failed
  split at failed
  · cases failed
  · cases failed
    trivial

/-! ### The outcome of loading -/

theorem load_of_globalFile (unread : fileEntries layers.globalFile = .error trouble) :
    load homes layers = .error trouble :=
  load_of_unread (by rw [readLayers, unread]; rfl)

theorem load_of_projectFile (globalFile : layers.globalFile.IsRead)
    (unread : fileEntries layers.projectFile = .error trouble) :
    load homes layers = .error trouble := by
  obtain ⟨entries, globalRead⟩ := exists_fileEntries_iff.mpr globalFile
  exact load_of_unread (by rw [readLayers, globalRead, unread]; rfl)

/-- Once both files have been read, the variables decide, and then the keys. -/
theorem readLayers_of_filesRead (files : FilesRead layers) :
    ∃ globalEntries projectEntries, readLayers layers = do
      let environment ← (fromEnvironment layers.environment).mapError Trouble.badVariable
      onlyTextKeys layers.globalFile layers.projectFile
      return ⟨globalEntries, projectEntries, environment, layers.arguments⟩ := by
  obtain ⟨globalEntries, globalRead⟩ := exists_fileEntries_iff.mpr files.globalFile
  obtain ⟨projectEntries, projectRead⟩ := exists_fileEntries_iff.mpr files.projectFile
  exact ⟨globalEntries, projectEntries, by rw [readLayers, globalRead, projectRead]; rfl⟩

theorem load_of_environment {name : Text} (files : FilesRead layers)
    (undecoded : fromEnvironment layers.environment = .error name) :
    load homes layers = .error (.badVariable name) := by
  obtain ⟨_, _, read⟩ := readLayers_of_filesRead files
  exact load_of_unread (by rw [read, undecoded]; rfl)

theorem load_of_onlyTextKeys {entries : List (Text × Value)} (files : FilesRead layers)
    (decoded : fromEnvironment layers.environment = .ok entries)
    (keys : onlyTextKeys layers.globalFile layers.projectFile = .error trouble) :
    load homes layers = .error trouble := by
  obtain ⟨_, _, read⟩ := readLayers_of_filesRead files
  exact load_of_unread (by rw [read, decoded, keys]; rfl)

/-- How loading ends: with the first layer that is not read, with a key that is no text, with
settings, or with what the check of the merged entries rejects. -/
inductive Loads (homes : Path.Homes) (layers : Layers) : Except Trouble Config → Prop where
  | globalFile {trouble : Trouble} : fileEntries layers.globalFile = .error trouble →
      Loads homes layers (.error trouble)
  | projectFile {trouble : Trouble} : layers.globalFile.IsRead →
      fileEntries layers.projectFile = .error trouble → Loads homes layers (.error trouble)
  | badVariable {name : Text} : FilesRead layers →
      fromEnvironment layers.environment = .error name →
      Loads homes layers (.error (.badVariable name))
  | otherKey {trouble : Trouble} : FilesRead layers →
      onlyTextKeys layers.globalFile layers.projectFile = .error trouble →
      Loads homes layers (.error trouble)
  | accepted (config : Config) : Loads homes layers (.ok config)
  | rejected {stack : Stack} {rejection : Rejection} {trouble : Trouble} :
      readLayers layers = .ok stack → checkEntries homes stack.merged = .error rejection →
      rejectionTrouble rejection = trouble → Loads homes layers (.error trouble)

theorem loads_load (homes : Path.Homes) (layers : Layers) :
    Loads homes layers (load homes layers) := by
  cases globalRead : fileEntries layers.globalFile with
  | error trouble => exact load_of_globalFile globalRead ▸ .globalFile globalRead
  | ok globalEntries =>
      have globalFile := exists_fileEntries_iff.mp ⟨_, globalRead⟩
      cases projectRead : fileEntries layers.projectFile with
      | error trouble =>
          exact load_of_projectFile globalFile projectRead ▸ .projectFile globalFile projectRead
      | ok projectEntries =>
          have files : FilesRead layers :=
            ⟨globalFile, exists_fileEntries_iff.mp ⟨_, projectRead⟩⟩
          cases decoded : fromEnvironment layers.environment with
          | error name => exact load_of_environment files decoded ▸ .badVariable files decoded
          | ok entries =>
              cases keys : onlyTextKeys layers.globalFile layers.projectFile with
              | error trouble => exact load_of_onlyTextKeys files decoded keys ▸ .otherKey files keys
              | ok _ =>
                  obtain ⟨_, _, read⟩ := readLayers_of_filesRead files
                  rw [decoded, keys] at read
                  rw [load_eq read]
                  cases outcome : checkEntries homes (Stack.merged _) with
                  | ok config => exact .accepted config
                  | error rejection => exact .rejected read outcome rfl

/-- A failure that loading reports has a code for settings. -/
theorem surfaces_of_failure {failure : Failure}
    (failed : load homes layers = .error (.failure failure)) : Surfaces (load homes layers) := by
  have ofFile {file : File} (unread : fileEntries file = .error (.failure failure)) :
      failure.code = .configParseError := by
    obtain ⟨_, same, code⟩ | ⟨_, same, -⟩ := fileEntries_eq_error unread
    · cases same
      exact code
    · cases same
  have loads := loads_load homes layers
  rw [failed] at loads ⊢
  cases loads with
  | globalFile unread => exact surfaces_failure (.inl (ofFile unread))
  | projectFile _ unread => exact surfaces_failure (.inl (ofFile unread))
  | otherKey _ keys => exact (isHidden_of_onlyTextKeys keys).elim
  | @rejected _ rejection _ _ _ same =>
      cases rejection with
      | issues first rest =>
          rw [rejectionTrouble] at same
          split at same
          · cases same
            exact surfaces_failure (.inr rfl)
          · cases same
      | abandoned reason => cases same

/-- What loading does not report is one of the five troubles. -/
theorem escapes_of_isHidden (failed : load homes layers = .error trouble)
    (hidden : trouble.IsHidden) : Escapes homes layers := by
  have loads := loads_load homes layers
  rw [failed] at loads
  cases loads with
  | globalFile unread =>
      obtain ⟨_, rfl, -⟩ | ⟨_, -, broken⟩ := fileEntries_eq_error unread
      · exact hidden.elim
      · exact .globalFile broken
  | projectFile globalFile unread =>
      obtain ⟨_, rfl, -⟩ | ⟨_, -, broken⟩ := fileEntries_eq_error unread
      · exact hidden.elim
      · exact .projectFile globalFile broken
  | badVariable files undecoded =>
      refine .badVariable files ?_
      by_contra none
      obtain ⟨entries, decoded⟩ := (exists_fromEnvironment_iff _).mpr none
      rw [decoded] at undecoded
      cases undecoded
  | otherKey files keys =>
      refine .otherKey files ?_
      by_contra none
      rw [onlyTextKeys_eq_ok.mpr none] at keys
      cases keys
  | @rejected _ rejection _ read outcome same =>
      cases rejection with
      | issues first rest =>
          refine .value read ⟨first, rest, outcome, ?_⟩
          by_contra writable
          rw [rejectionTrouble, if_pos (by simpa using writable)] at same
          cases same
          exact hidden
      | abandoned reason => exact .home read (isAbandoned_checkEntries.mp ⟨reason, outcome⟩)

/-- None of the five troubles is reported. -/
theorem exists_isHidden_of_escapes (escapes : Escapes homes layers) :
    ∃ trouble, load homes layers = .error trouble ∧ trouble.IsHidden := by
  cases escapes with
  | globalFile broken =>
      obtain ⟨reason, unread⟩ := fileEntries_of_isUnread broken
      exact ⟨_, load_of_globalFile unread, trivial⟩
  | projectFile globalFile broken =>
      obtain ⟨reason, unread⟩ := fileEntries_of_isUnread broken
      exact ⟨_, load_of_projectFile globalFile unread, trivial⟩
  | badVariable files undecoded =>
      cases decoded : fromEnvironment layers.environment with
      | ok entries => exact absurd undecoded ((exists_fromEnvironment_iff _).mp ⟨entries, decoded⟩)
      | error name => exact ⟨_, load_of_environment files decoded, trivial⟩
  | otherKey files other =>
      -- A variable that is not JSON comes first, and it is not reported either.
      cases decoded : fromEnvironment layers.environment with
      | error name => exact ⟨_, load_of_environment files decoded, trivial⟩
      | ok entries =>
          cases keys : onlyTextKeys layers.globalFile layers.projectFile with
          | ok _ => exact absurd other (onlyTextKeys_eq_ok.mp keys)
          | error trouble =>
              exact ⟨trouble, load_of_onlyTextKeys files decoded keys,
                isHidden_of_onlyTextKeys keys⟩
  | home read unknown =>
      obtain ⟨reason, abandoned⟩ := isAbandoned_checkEntries.mpr unknown
      exact ⟨.abandoned reason, by rw [load_eq read, abandoned]; rfl, trivial⟩
  | value read unwritable =>
      obtain ⟨first, rest, rejected, unwritable⟩ := unwritable
      refine ⟨.unwritable first.field, ?_, trivial⟩
      rw [load_eq read, rejected]
      simp [Except.mapError, rejectionTrouble, unwritable]

/-- Every trouble with the settings is reported but five, and these five never are. -/
theorem surfaces_load_iff (homes : Path.Homes) (layers : Layers) :
    Surfaces (load homes layers) ↔ ¬ Escapes homes layers := by
  constructor
  · intro reported escapes
    obtain ⟨trouble, failed, hidden⟩ := exists_isHidden_of_escapes escapes
    rw [failed] at reported
    exact not_surfaces_of_isHidden hidden reported
  · intro reported
    cases loaded : load homes layers with
    | ok config => exact surfaces_ok config
    | error trouble =>
        cases trouble with
        | failure failure => exact loaded ▸ surfaces_of_failure loaded
        | _ => exact absurd (escapes_of_isHidden loaded trivial) reported

end HarnessIndex.Settings
