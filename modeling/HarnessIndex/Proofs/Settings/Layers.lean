import HarnessIndex.Proofs.Settings.Normal
import HarnessIndex.Proofs.Value.Merge

/-!
# The highest layer that sets a setting

Every single setting is decided by the highest of the four layers that sets it, whatever the layers
below hold there, and by its standard value when no layer sets it. The layers are merged in two
halves, and the sections by their entries, so a layer that sets one setting of a section leaves the
others to the layers below.
-/

namespace HarnessIndex.Settings

/-! ## Single settings -/

/-- A single setting. -/
inductive Setting where
  | level
  | outputs
  | maxFileSizeKb
  | extensions
  | excludeDirs
  deriving DecidableEq, Repr

namespace Setting

def Content : Setting → Type
  | level => Level
  | outputs => List Output
  | maxFileSizeKb => Int
  | extensions => List Text
  | excludeDirs => List Text

def sectionName : Setting → Text
  | level => "logging"
  | outputs => "logging"
  | maxFileSizeKb => "scan"
  | extensions => "scan"
  | excludeDirs => "scan"

def name : Setting → Text
  | level => "level"
  | outputs => "outputs"
  | maxFileSizeKb => "max_file_size_kb"
  | extensions => "extensions"
  | excludeDirs => "exclude_dirs"

/-- What a setting holds when nothing is set. -/
def standard : (setting : Setting) → setting.Content
  | level => Logging.standard.level
  | outputs => Logging.standard.outputs
  | maxFileSizeKb => Scan.standard.maxFileSizeKb
  | extensions => Scan.standard.extensions
  | excludeDirs => Scan.standard.excludeDirs

def check (homes : Path.Homes) : (setting : Setting) → Value → Checked setting.Content
  | level => Checked.level
  | outputs => Checked.list (Checked.output homes)
  | maxFileSizeKb => Checked.maxFileSize
  | extensions => Checked.extensions
  | excludeDirs => Checked.list Checked.text

/-- What a setting holds in a configuration. -/
def of (config : Config) : (setting : Setting) → setting.Content
  | level => config.logging.level
  | outputs => config.logging.outputs
  | maxFileSizeKb => config.scan.maxFileSizeKb
  | extensions => config.scan.extensions
  | excludeDirs => config.scan.excludeDirs

/-- The value that entries give a setting. -/
def setIn (setting : Setting) (entries : List (Text × Value)) : Option Value :=
  (Assoc.get? setting.sectionName entries).bind (Value.field? setting.name)

/-- The outcome of checking a setting that may be set. -/
def decided (homes : Path.Homes) (setting : Setting) (value : Option Value) :
    Checked setting.Content :=
  (value.map (setting.check homes)).getD (.ok setting.standard)

theorem check_record_ne_ok {homes : Path.Homes} {setting : Setting}
    {entries : List (Text × Value)} {content : setting.Content} :
    setting.check homes (.record entries) ≠ .ok content := by
  intro accepted
  cases setting <;> cases accepted

theorem exists_of (contents : (setting : Setting) → setting.Content) :
    ∃ config, ∀ setting, of config setting = contents setting := by
  refine ⟨⟨⟨contents level, contents outputs⟩,
    ⟨contents maxFileSizeKb, contents extensions, contents excludeDirs⟩⟩, ?_⟩
  intro setting
  cases setting <;> rfl

theorem forall_iff {holds : Setting → Prop} :
    (∀ setting, holds setting) ↔ (holds level ∧ holds outputs) ∧
      holds maxFileSizeKb ∧ holds extensions ∧ holds excludeDirs := by
  constructor
  · intro every
    exact ⟨⟨every level, every outputs⟩, every maxFileSizeKb, every extensions, every excludeDirs⟩
  · rintro ⟨⟨level, outputs⟩, size, extensions, names⟩ setting
    cases setting <;> assumption

end Setting

/-! ## Entries by sections -/

/-- Entries without a repeated key whose sections are records without a repeated key. -/
structure Sectioned (entries : List (Text × Value)) : Prop where
  distinct : (Assoc.keys entries).Nodup
  records : ∀ name ∈ sectionNames, ∀ value, Assoc.get? name entries = some value →
    ∃ inner, value = .record inner ∧ (Assoc.keys inner).Nodup

/-- Entries with no other keys than the sections. -/
def OnlySections (entries : List (Text × Value)) : Prop :=
  ∀ name ∈ Assoc.keys entries, name ∈ sectionNames

variable {homes : Path.Homes} {base upper entries : List (Text × Value)} {setting : Setting}

/-- Whether a value is a record without a repeated key. -/
def isDistinctRecord : Value → Bool
  | .record entries => (Assoc.keys entries).Nodup
  | _ => false

theorem isDistinctRecord_iff {value : Value} :
    isDistinctRecord value = true ↔ ∃ inner, value = .record inner ∧ (Assoc.keys inner).Nodup := by
  cases value <;> simp [isDistinctRecord]

theorem sectioned_iff : Sectioned entries ↔ (Assoc.keys entries).Nodup ∧
    ∀ name ∈ sectionNames, (Assoc.get? name entries).all isDistinctRecord := by
  constructor
  · intro sectioned
    refine ⟨sectioned.distinct, fun name known => ?_⟩
    cases found : Assoc.get? name entries with
    | none => rfl
    | some value => exact isDistinctRecord_iff.mpr (sectioned.records name known value found)
  · rintro ⟨distinct, records⟩
    refine ⟨distinct, fun name known value found => isDistinctRecord_iff.mp ?_⟩
    have passed := records name known
    rw [found] at passed
    exact passed

instance : Decidable (Sectioned entries) :=
  decidable_of_iff _ sectioned_iff.symm

instance : Decidable (OnlySections entries) :=
  inferInstanceAs (Decidable (∀ name ∈ Assoc.keys entries, name ∈ sectionNames))

theorem Setting.sectionName_mem (setting : Setting) : setting.sectionName ∈ sectionNames := by
  cases setting <;> decide

theorem Sectioned.merge (lower : Sectioned base) (higher : Sectioned upper) :
    Sectioned (Value.mergeEntries base upper) where
  distinct := Value.nodup_keys_mergeEntries lower.distinct upper
  records name known value found := by
    rw [Value.get?_mergeEntries higher.distinct] at found
    cases above : Assoc.get? name upper with
    | none =>
        rw [above, Value.mergeAt_none_right] at found
        exact lower.records name known value found
    | some given =>
        obtain ⟨inner, rfl, distinct⟩ := higher.records name known given above
        cases below : Assoc.get? name base with
        | none =>
            rw [above, below] at found
            cases found
            exact ⟨inner, rfl, distinct⟩
        | some current =>
            obtain ⟨held, rfl, kept⟩ := lower.records name known current below
            rw [above, below, Value.mergeAt_some, Value.mergeOver_records] at found
            cases found
            exact ⟨_, rfl, Value.nodup_keys_mergeEntries kept inner⟩

theorem onlySections_merge :
    OnlySections (Value.mergeEntries base upper) ↔ OnlySections base ∧ OnlySections upper := by
  constructor
  · intro only
    exact ⟨fun name member => only name (Value.mem_keys_mergeEntries.mpr (.inl member)),
      fun name member => only name (Value.mem_keys_mergeEntries.mpr (.inr member))⟩
  · rintro ⟨lower, higher⟩ name member
    exact (Value.mem_keys_mergeEntries.mp member).elim (lower name) (higher name)

/-! ## What a merge holds for a setting -/

/-- A value up to the entries of a record. -/
def outline : Value → Value
  | .record _ => .record []
  | value => value

theorem outline_mergeOver (base upper : Value) :
    outline (Value.mergeOver base upper) = outline upper := by
  cases upper with
  | record entries => cases base <;> simp [Value.mergeOver, outline]
  | _ => simp [Value.mergeOver]

theorem outline_mergeAt (base upper : Option Value) :
    (Value.mergeAt base upper).map outline = (upper.or base).map outline := by
  cases upper with
  | none => rw [Value.mergeAt_none_right, Option.none_or]
  | some upper =>
      rw [Option.some_or]
      cases base with
      | none => rfl
      | some base => exact congrArg some (outline_mergeOver base upper)

/-- For a setting, the upper side of a merge comes before the lower one. Two records that are merged
where a setting stands are no more a setting than each of them. -/
theorem setIn_merge (lower : Sectioned base) (higher : Sectioned upper) (setting : Setting) :
    (setting.setIn (Value.mergeEntries base upper)).map outline =
      ((setting.setIn upper).or (setting.setIn base)).map outline := by
  have known := setting.sectionName_mem
  simp only [Setting.setIn]
  rw [Value.get?_mergeEntries higher.distinct]
  cases above : Assoc.get? setting.sectionName upper with
  | none => rw [Value.mergeAt_none_right, Option.bind_none, Option.none_or]
  | some given =>
      obtain ⟨inner, rfl, distinct⟩ := higher.records _ known given above
      cases below : Assoc.get? setting.sectionName base with
      | none => rw [Value.mergeAt_none_left, Option.bind_none, Option.or_none]
      | some current =>
          obtain ⟨held, rfl, -⟩ := lower.records _ known current below
          rw [Value.mergeAt_some, Value.mergeOver_records]
          simp only [Option.bind_some, Value.field?]
          rw [Value.get?_mergeEntries distinct, outline_mergeAt]

/-- A value that is no record is determined by its outline. -/
theorem eq_or_record_of_outline_eq {left right : Value} (same : outline left = outline right) :
    left = right ∨ ∃ entries, left = .record entries := by
  cases left with
  | record entries => exact .inr ⟨entries, rfl⟩
  | _ => cases right <;> first | exact .inl same | cases same

/-- Whether a setting is accepted, and with which content, depends on the outline of its value. -/
theorem decided_of_outline {left right : Option Value} {content : setting.Content}
    (same : left.map outline = right.map outline)
    (accepted : setting.decided homes left = .ok content) :
    setting.decided homes right = .ok content := by
  cases left with
  | none =>
      rw [Option.map_eq_none_iff.mp same.symm]
      exact accepted
  | some left =>
      obtain ⟨right, rfl, outlined⟩ := Option.map_eq_some_iff.mp same.symm
      rcases eq_or_record_of_outline_eq outlined.symm with rfl | ⟨entries, rfl⟩
      · exact accepted
      · exact absurd accepted Setting.check_record_ne_ok

theorem decided_eq_ok_iff_of_outline {left right : Option Value} {content : setting.Content}
    (same : left.map outline = right.map outline) :
    setting.decided homes left = .ok content ↔ setting.decided homes right = .ok content :=
  ⟨decided_of_outline same, decided_of_outline same.symm⟩

/-! ## The check of merged entries -/

theorem noExtras_eq_ok : noExtras entries = .ok () ↔ OnlySections entries := by
  have none : extraIssues entries = [] ↔ OnlySections entries := by
    rw [extraIssues, List.map_eq_nil_iff, List.filter_eq_nil_iff, OnlySections, Assoc.keys]
    simp
  rw [noExtras, ← none]
  cases extraIssues entries <;> simp

def inSection (name : Text) (entries : List (Text × Value)) : List (Text × Value) :=
  match Assoc.get? name entries with
  | some (.record inner) => inner
  | _ => []

theorem setIn_eq_get? (setting : Setting) (entries : List (Text × Value)) :
    setting.setIn entries = Assoc.get? setting.name (inSection setting.sectionName entries) := by
  rw [Setting.setIn, inSection]
  cases Assoc.get? setting.sectionName entries with
  | none => rfl
  | some value => cases value <;> rfl

/-- A section is checked by its entries, and one that is absent passes like one without entries. -/
theorem field_eq_ok_iff {α : Type} {check : Value → Checked α} {name : Text} {absent value : α}
    (sectioned : Sectioned entries) (known : name ∈ sectionNames)
    (standard : check (.record []) = .ok absent) :
    Checked.field name absent check entries = .ok value ↔
      check (.record (inSection name entries)) = .ok value := by
  rw [Checked.field_eq_ok, inSection]
  cases found : Assoc.get? name entries with
  | none => rw [Option.map_none, Option.getD_none, standard]
  | some given =>
      obtain ⟨inner, rfl, -⟩ := sectioned.records name known given found
      rfl

theorem decided_eq_ok {content : setting.Content} :
    setting.decided homes (setting.setIn entries) = .ok content ↔
      Checked.field setting.name setting.standard (setting.check homes)
        (inSection setting.sectionName entries) = .ok content := by
  rw [Checked.field_eq_ok, setIn_eq_get?, Setting.decided]

theorem logging_eq_ok_iff {config : Config} :
    Checked.logging homes (.record (inSection "logging" entries)) = .ok config.logging ↔
      Setting.level.decided homes (Setting.level.setIn entries) = .ok (Setting.level.of config) ∧
        Setting.outputs.decided homes (Setting.outputs.setIn entries) =
          .ok (Setting.outputs.of config) := by
  rw [decided_eq_ok, decided_eq_ok, Checked.logging_eq_ok]
  constructor
  · rintro ⟨inner, same, accepted⟩
    cases same
    exact accepted
  · intro accepted
    exact ⟨_, rfl, accepted⟩

theorem scan_eq_ok_iff {config : Config} :
    Checked.scan (.record (inSection "scan" entries)) = .ok config.scan ↔
      Setting.maxFileSizeKb.decided homes (Setting.maxFileSizeKb.setIn entries) =
          .ok (Setting.maxFileSizeKb.of config) ∧
        Setting.extensions.decided homes (Setting.extensions.setIn entries) =
            .ok (Setting.extensions.of config) ∧
          Setting.excludeDirs.decided homes (Setting.excludeDirs.setIn entries) =
            .ok (Setting.excludeDirs.of config) := by
  rw [decided_eq_ok, decided_eq_ok, decided_eq_ok, Checked.scan_eq_ok]
  constructor
  · rintro ⟨inner, same, accepted⟩
    cases same
    exact accepted
  · intro accepted
    exact ⟨_, rfl, accepted⟩

theorem sections_eq_ok_iff (sectioned : Sectioned entries) {config : Config} :
    Checked.sections homes entries = .ok config ↔ ∀ setting : Setting,
      setting.decided homes (setting.setIn entries) = .ok (setting.of config) := by
  have noLogging : Checked.logging homes (.record []) = .ok Config.standard.logging := rfl
  have noScan : Checked.scan (.record []) = .ok Config.standard.scan := rfl
  rw [Checked.sections_eq_ok, Setting.forall_iff, ← logging_eq_ok_iff, ← scan_eq_ok_iff]
  exact and_congr (field_eq_ok_iff sectioned (by decide) noLogging)
    (field_eq_ok_iff sectioned (by decide) noScan)

/-- Entries pass the check when they have no other keys than the sections and every setting is
accepted by itself. -/
theorem checkEntries_eq_ok (sectioned : Sectioned entries) {config : Config} :
    checkEntries homes entries = .ok config ↔ OnlySections entries ∧
      ∀ setting : Setting,
        setting.decided homes (setting.setIn entries) = .ok (setting.of config) := by
  rw [← sections_eq_ok_iff sectioned, ← noExtras_eq_ok, checkEntries, Checked.map_eq_ok]
  constructor
  · rintro ⟨⟨given, none⟩, accepted, same⟩
    cases same
    exact (Checked.both_eq_ok.mp accepted).symm
  · rintro ⟨only, accepted⟩
    exact ⟨(config, ()), Checked.both_eq_ok.mpr ⟨accepted, only⟩, rfl⟩

/-! ## Loading -/

/-- The entries that the four layers hold. -/
structure Stack where
  globalFile : List (Text × Value)
  projectFile : List (Text × Value)
  environment : List (Text × Value)
  arguments : List (Text × Value)

namespace Stack

/-- The layers of a stack, the highest one first. -/
def layers (stack : Stack) : List (List (Text × Value)) :=
  [stack.arguments, stack.environment, stack.projectFile, stack.globalFile]

/-- The value that the highest layer which sets a setting gives it. -/
def topmost (stack : Stack) (setting : Setting) : Option Value :=
  stack.layers.findSome? setting.setIn

def merged (stack : Stack) : List (Text × Value) :=
  Value.mergeEntries (Value.mergeEntries stack.globalFile stack.projectFile)
    (Value.mergeEntries stack.environment stack.arguments)

/-- No layer has other keys than the sections. -/
def OnlySections (stack : Stack) : Prop :=
  ∀ layer ∈ stack.layers, Settings.OnlySections layer

/-- The sections are records in all layers, and no key is repeated. -/
def Sectioned (stack : Stack) : Prop :=
  ∀ layer ∈ stack.layers, Settings.Sectioned layer

variable {stack : Stack}

instance : Decidable stack.OnlySections :=
  inferInstanceAs (Decidable (∀ layer ∈ stack.layers, Settings.OnlySections layer))

instance : Decidable stack.Sectioned :=
  inferInstanceAs (Decidable (∀ layer ∈ stack.layers, Settings.Sectioned layer))

theorem topmost_eq (stack : Stack) (setting : Setting) :
    stack.topmost setting =
      ((setting.setIn stack.arguments).or (setting.setIn stack.environment)).or
        ((setting.setIn stack.projectFile).or (setting.setIn stack.globalFile)) := by
  rw [topmost, layers]
  simp only [List.findSome?]
  cases setting.setIn stack.arguments <;> cases setting.setIn stack.environment <;>
    cases setting.setIn stack.projectFile <;> cases setting.setIn stack.globalFile <;> rfl

theorem sectioned_iff : stack.Sectioned ↔
    (Settings.Sectioned stack.arguments ∧ Settings.Sectioned stack.environment) ∧
      Settings.Sectioned stack.projectFile ∧ Settings.Sectioned stack.globalFile := by
  simp [Sectioned, layers, and_assoc]

theorem sectioned_merged (sectioned : stack.Sectioned) : Settings.Sectioned stack.merged := by
  obtain ⟨⟨arguments, environment⟩, projectFile, globalFile⟩ := sectioned_iff.mp sectioned
  exact (globalFile.merge projectFile).merge (environment.merge arguments)

theorem onlySections_merged :
    Settings.OnlySections stack.merged ↔ stack.OnlySections := by
  rw [merged, onlySections_merge, onlySections_merge, onlySections_merge, OnlySections, layers]
  simp only [List.forall_mem_cons]
  tauto

/-- For a setting, the merge of all layers holds what the highest layer that sets it holds. -/
theorem setIn_merged (sectioned : stack.Sectioned) (setting : Setting) :
    (setting.setIn stack.merged).map outline = (stack.topmost setting).map outline := by
  obtain ⟨⟨arguments, environment⟩, projectFile, globalFile⟩ := sectioned_iff.mp sectioned
  have upper := setIn_merge environment arguments setting
  have lower := setIn_merge globalFile projectFile setting
  rw [merged, setIn_merge (globalFile.merge projectFile) (environment.merge arguments),
    Option.map_or, upper, lower, ← Option.map_or, topmost_eq]

end Stack

/-- The entries that the layers hold, when the files and the variables can be read and all keys are
texts. -/
def readLayers (layers : Layers) : Except Trouble Stack := do
  let globalFile ← fileEntries layers.globalFile
  let projectFile ← fileEntries layers.projectFile
  let environment ← (fromEnvironment layers.environment).mapError Trouble.badVariable
  onlyTextKeys layers.globalFile layers.projectFile
  return ⟨globalFile, projectFile, environment, layers.arguments⟩

theorem mergeLayers_eq (layers : Layers) :
    mergeLayers layers = (readLayers layers).map Stack.merged := by
  rw [mergeLayers, readLayers]
  cases fileEntries layers.globalFile with
  | error trouble => rfl
  | ok globalFile =>
      cases fileEntries layers.projectFile with
      | error trouble => rfl
      | ok projectFile =>
          cases (fromEnvironment layers.environment).mapError Trouble.badVariable with
          | error trouble => rfl
          | ok environment =>
              cases onlyTextKeys layers.globalFile layers.projectFile with
              | error trouble => rfl
              | ok _ => rfl

theorem load_of_unread {layers : Layers} {trouble : Trouble}
    (unread : readLayers layers = .error trouble) : load homes layers = .error trouble := by
  rw [load, mergeLayers_eq, unread]
  rfl

/-- Once the layers have been read, loading checks the merged entries; the check that follows changes
nothing. -/
theorem load_eq {layers : Layers} {stack : Stack} (read : readLayers layers = .ok stack) :
    load homes layers = (checkEntries homes stack.merged).mapError rejectionTrouble :=
  load_of_mergeLayers (by rw [mergeLayers_eq, read]; rfl)

theorem load_eq_ok {layers : Layers} {stack : Stack} (read : readLayers layers = .ok stack)
    {config : Config} :
    load homes layers = .ok config ↔ checkEntries homes stack.merged = .ok config := by
  rw [load_eq read]
  cases checkEntries homes stack.merged <;> simp [Except.mapError]

/-- Loading gives a setting what the highest layer that sets it holds, in its normal form, or its
standard value when no layer sets it; and it fails only for such a value, or for a key that is no
section. So what the layers below hold for this setting never matters. -/
theorem load_decided_by_topmost {layers : Layers} {stack : Stack}
    (read : readLayers layers = .ok stack) (sectioned : stack.Sectioned) (homes : Path.Homes) :
    (∀ config, load homes layers = .ok config ↔ stack.OnlySections ∧
        ∀ setting : Setting,
          setting.decided homes (stack.topmost setting) = .ok (setting.of config)) ∧
      (stack.OnlySections →
        (∀ setting value, stack.topmost setting = some value →
          ∃ content, setting.check homes value = .ok content) →
        ∃ config, load homes layers = .ok config) := by
  have loads : ∀ config, load homes layers = .ok config ↔ stack.OnlySections ∧
      ∀ setting : Setting,
        setting.decided homes (stack.topmost setting) = .ok (setting.of config) := by
    intro config
    rw [load_eq_ok read, checkEntries_eq_ok (Stack.sectioned_merged sectioned),
      Stack.onlySections_merged]
    apply and_congr_right
    intro _
    apply forall_congr'
    intro setting
    exact decided_eq_ok_iff_of_outline (Stack.setIn_merged sectioned setting)
  refine ⟨loads, ?_⟩
  intro only valid
  have decides : ∀ setting : Setting, ∃ content,
      setting.decided homes (stack.topmost setting) = .ok content := by
    intro setting
    cases top : stack.topmost setting with
    | none => exact ⟨setting.standard, rfl⟩
    | some value => exact valid setting value top
  choose contents decides using decides
  obtain ⟨config, same⟩ := Setting.exists_of contents
  refine ⟨config, (loads config).mpr ⟨only, ?_⟩⟩
  intro setting
  rw [same setting]
  exact decides setting

/-- What four layers hold: an invalid size is set again above it, and three layers set the suffixes
or the level. -/
def overridden : Stack where
  globalFile := [("logging", .record [("level", .text "DEBUG")]),
    ("scan", .record [("max_file_size_kb", .text "big"), ("extensions", .int 5)])]
  projectFile := [("scan", .record [("max_file_size_kb", .int 20), ("extensions", .list [])])]
  environment := [("scan", .record [("extensions", .list [.text "in"])])]
  arguments := [("logging", .record [("level", .text "ERROR")])]

def overriddenLayers : Layers where
  globalFile := ⟨"global.yaml", .mapping overridden.globalFile []⟩
  projectFile := ⟨"project.yaml", .mapping overridden.projectFile []⟩
  environment := [("PROOFSCAN__SCAN__EXTENSIONS", "[\x22in\x22]")]
  arguments := overridden.arguments

theorem load_decided_by_topmost_overridden :
    readLayers overriddenLayers = .ok overridden ∧ overridden.Sectioned ∧
      load ⟨"/home/me", []⟩ overriddenLayers =
        .ok ⟨⟨.error, [.standard]⟩, ⟨20, [".in"], ["target", ".git"]⟩⟩ := by
  have read : readLayers overriddenLayers = .ok overridden := rfl
  have sectioned : overridden.Sectioned := by decide
  refine ⟨read, sectioned, ?_⟩
  obtain ⟨loads, -⟩ := load_decided_by_topmost read sectioned ⟨"/home/me", []⟩
  apply (loads _).mpr
  constructor
  · decide
  · intro setting
    cases setting <;> rfl

end HarnessIndex.Settings
