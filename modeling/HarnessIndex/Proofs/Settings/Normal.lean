import HarnessIndex.Proofs.Settings.Checks
import HarnessIndex.Proofs.Text.Path

/-!
# Normal forms of settings

What a check accepts is kept in a normal form. The check accepts this form again and gives the same
settings, so the check that follows the reported one can never fail.
-/

namespace HarnessIndex.Settings

variable {homes : Path.Homes} {input : Value}

namespace Destination

/-- A destination that a check can give: its path is absolute and in normal form. -/
def Normal : Destination → Prop
  | stderr => True
  | stdout => True
  | file name => ∃ path : Path, path.Normal ∧ path.isAbsolute = true ∧ name = path.toText

end Destination

/-- Log settings that a check can give. -/
def Logging.Normal (logging : Logging) : Prop :=
  ∀ output ∈ logging.outputs, output.destination.Normal

/-- Scan settings that a check can give. -/
structure Scan.Normal (scan : Scan) : Prop where
  positive : 0 < scan.maxFileSizeKb
  dotted : ∀ suffix ∈ scan.extensions, Text.startsWith ['.'] suffix = true

/-- Settings that a check can give. -/
structure Config.Normal (config : Config) : Prop where
  logging : config.logging.Normal
  scan : config.scan.Normal

namespace Checked

@[simp] theorem level_name (given : Level) : level (.text (levelName given)) = .ok given := by
  cases given <;> rfl

@[simp] theorem optionalLevel_name (given : Level) :
    optionalLevel (.text (levelName given)) = .ok (some given) := by
  cases given <;> rfl

@[simp] theorem format_name (given : Format) : format (.text given.name) = .ok given := by
  cases given <;> rfl

/-- A destination is one of the standard streams, or its path is written in normal form. -/
theorem normal_of_destination {result : Destination}
    (accepted : destination homes input = .ok result) : result.Normal := by
  obtain ⟨name, -, chosen⟩ := bind_eq_ok.mp accepted
  split at chosen
  · cases chosen
    trivial
  · split at chosen
    · cases chosen
      trivial
    · split at chosen
      · cases chosen
      · rename_i path found
        split at chosen
        · rename_i absolute
          cases chosen
          exact ⟨path, Path.normal_expandHome (Path.normal_ofText name) found, absolute, rfl⟩
        · cases chosen

theorem head?_toText {path : Path} (absolute : path.isAbsolute = true) :
    path.toText.head? = some '/' := by
  obtain ⟨slashes, parts⟩ := path
  cases slashes with
  | zero => simp [Path.isAbsolute] at absolute
  | succ slashes => simp [Path.toText, List.replicate]

theorem destination_name {given : Destination} (normal : given.Normal) :
    destination homes (.text given.name) = .ok given := by
  cases given with
  | stderr => rfl
  | stdout => rfl
  | file name =>
      obtain ⟨path, normal, absolute, rfl⟩ := normal
      have head := head?_toText absolute
      have notStderr : path.toText ≠ Destination.stderr.name := by
        intro same
        rw [same] at head
        cases head
      have notStdout : path.toText ≠ Destination.stdout.name := by
        intro same
        rw [same] at head
        cases head
      have expanded : Path.expandHome homes (Path.ofText path.toText) = some path := by
        rw [Path.ofText_toText normal, Path.expandHome, if_pos absolute]
      refine bind_eq_ok.mpr ⟨path.toText, rfl, ?_⟩
      simp only [if_neg notStderr, if_neg notStdout, expanded, if_pos absolute]
      rfl

theorem normal_of_output {result : Output} (accepted : output homes input = .ok result) :
    result.destination.Normal := by
  obtain ⟨entries, -, -, destination, -⟩ := output_eq_ok.mp accepted
  have standard : Output.standard.destination.Normal := trivial
  exact holds_of_field Destination.Normal standard (fun _ _ => normal_of_destination) destination

theorem output_toValue {given : Output} (normal : given.destination.Normal) :
    output homes given.toValue = .ok given := by
  refine output_eq_ok.mpr ⟨_, rfl, ?_, ?_, ?_⟩
  · exact under_eq_ok.mpr (format_name given.format)
  · exact under_eq_ok.mpr (destination_name normal)
  · rw [field_eq_ok]
    obtain ⟨_, _, level⟩ := given
    cases level with
    | none => rfl
    | some level => exact optionalLevel_name level

theorem normal_of_logging {result : Logging} (accepted : logging homes input = .ok result) :
    result.Normal := by
  obtain ⟨entries, -, -, outputs⟩ := logging_eq_ok.mp accepted
  apply holds_of_field (fun outputs => ∀ output ∈ outputs, output.destination.Normal) ?_ ?_ outputs
  · intro output member
    rw [List.mem_singleton.mp member]
    trivial
  · intro input results
    exact holds_of_list fun _ _ => normal_of_output

theorem logging_toValue {given : Logging} (normal : given.Normal) :
    logging homes given.toValue = .ok given := by
  refine logging_eq_ok.mpr ⟨_, rfl, ?_, ?_⟩
  · exact under_eq_ok.mpr (level_name given.level)
  · apply under_eq_ok.mpr
    refine list_eq_ok.mpr ⟨_, rfl, List.forall₂_map_left_iff.mpr (List.forall₂_same.mpr ?_)⟩
    intro output member
    exact output_toValue (normal output member)

theorem pos_of_maxFileSize {size : Int} (accepted : maxFileSize input = .ok size) : 0 < size := by
  obtain ⟨given, -, chosen⟩ := bind_eq_ok.mp accepted
  split at chosen
  · cases chosen
  · rename_i positive
    cases chosen
    exact Int.not_le.mp positive

theorem maxFileSize_int {size : Int} (positive : 0 < size) :
    maxFileSize (.int size) = .ok size := by
  refine bind_eq_ok.mpr ⟨size, rfl, ?_⟩
  rw [if_neg (Int.not_le.mpr positive)]
  rfl

theorem startsWith_withDot (suffix : Text) : Text.startsWith ['.'] (withDot suffix) = true := by
  rw [withDot]
  split
  · assumption
  · rfl

theorem withDot_of_startsWith {suffix : Text} (dotted : Text.startsWith ['.'] suffix = true) :
    withDot suffix = suffix :=
  if_pos dotted

theorem dotted_of_extensions {results : List Text} (accepted : extensions input = .ok results) :
    ∀ suffix ∈ results, Text.startsWith ['.'] suffix = true := by
  obtain ⟨given, -, dotted⟩ := bind_eq_ok.mp accepted
  cases dotted
  intro suffix member
  obtain ⟨raw, -, rfl⟩ := List.mem_map.mp member
  exact startsWith_withDot raw

theorem list_text (texts : List Text) : list text (.list (texts.map .text)) = .ok texts := by
  refine list_eq_ok.mpr ⟨_, rfl, List.forall₂_map_left_iff.mpr (List.forall₂_same.mpr ?_)⟩
  intro given _
  rfl

theorem extensions_texts {suffixes : List Text}
    (dotted : ∀ suffix ∈ suffixes, Text.startsWith ['.'] suffix = true) :
    extensions (.list (suffixes.map .text)) = .ok suffixes := by
  refine bind_eq_ok.mpr ⟨suffixes, list_text suffixes, congrArg Except.ok ?_⟩
  calc suffixes.map withDot
    _ = suffixes.map id := List.map_congr_left fun suffix member =>
        withDot_of_startsWith (dotted suffix member)
    _ = suffixes := List.map_id suffixes

theorem normal_of_scan {result : Scan} (accepted : scan input = .ok result) : result.Normal := by
  obtain ⟨entries, -, size, extensions, -⟩ := scan_eq_ok.mp accepted
  constructor
  · exact holds_of_field (0 < ·) (by decide) (fun _ _ => pos_of_maxFileSize) size
  · exact holds_of_field (fun suffixes => ∀ suffix ∈ suffixes, Text.startsWith ['.'] suffix = true)
      (by decide) (fun _ _ => dotted_of_extensions) extensions

theorem scan_toValue {given : Scan} (normal : given.Normal) : scan given.toValue = .ok given := by
  refine scan_eq_ok.mpr ⟨_, rfl, ?_, ?_, ?_⟩
  · exact under_eq_ok.mpr (maxFileSize_int normal.positive)
  · exact under_eq_ok.mpr (extensions_texts normal.dotted)
  · exact under_eq_ok.mpr (list_text given.excludeDirs)

theorem normal_of_sections {entries : List (Text × Value)} {result : Config}
    (accepted : sections homes entries = .ok result) : result.Normal := by
  obtain ⟨logging, scan⟩ := sections_eq_ok.mp accepted
  constructor
  · have standard : Checked.logging homes (.record []) = .ok Logging.standard := rfl
    exact holds_of_field Logging.Normal (normal_of_logging standard) (fun _ _ => normal_of_logging)
      logging
  · have standard : Checked.scan (.record []) = .ok Scan.standard := rfl
    exact holds_of_field Scan.Normal (normal_of_scan standard) (fun _ _ => normal_of_scan) scan

/-- Settings in normal form pass the check and stay as they are. -/
theorem config_toValue {given : Config} (normal : given.Normal) :
    config homes given.toValue = .ok given := by
  refine bind_eq_ok.mpr ⟨_, rfl, sections_eq_ok.mpr ⟨?_, ?_⟩⟩
  · exact under_eq_ok.mpr (logging_toValue normal.logging)
  · exact under_eq_ok.mpr (scan_toValue normal.scan)

end Checked

/-- What the reported check accepts passes the check that follows, and stays as it is. -/
theorem config_toValue_of_checkEntries {entries : List (Text × Value)} {config : Config}
    (accepted : checkEntries homes entries = .ok config) :
    Checked.config homes config.toValue = .ok config := by
  obtain ⟨⟨given, _⟩, checked, same⟩ := Checked.map_eq_ok.mp accepted
  cases same
  exact Checked.config_toValue (Checked.normal_of_sections (Checked.both_eq_ok.mp checked).1)

/-- Loading checks the merged entries of all layers; the check that follows changes nothing. -/
theorem load_of_mergeLayers {layers : Layers} {entries : List (Text × Value)}
    (merged : mergeLayers layers = .ok entries) :
    load homes layers = (checkEntries homes entries).mapError rejectionTrouble := by
  rw [load, merged]
  change ((checkEntries homes entries).mapError rejectionTrouble >>= fun config =>
    (Checked.config homes config.toValue).mapError escapedTrouble) = _
  cases accepted : checkEntries homes entries with
  | error rejection => rfl
  | ok config =>
      have again := config_toValue_of_checkEntries accepted
      simp [Except.mapError, bind, Except.bind, again]

/-- Checking settings again is the identity on what a check has accepted, whatever the home
directories are. A destination that was expanded and put in normal form is accepted as it is, and so
are suffixes that have their dots. So loading gives what the reported check gives, and nothing
escapes from the check that follows. -/
theorem checked_again (homes : Path.Homes) :
    (∀ entries config, checkEntries homes entries = .ok config →
        Checked.config homes config.toValue = .ok config) ∧
      (∀ input result, Checked.destination homes input = .ok result →
        Checked.destination homes (.text result.name) = .ok result) ∧
      (∀ input results, Checked.extensions input = .ok results →
        Checked.extensions (.list (results.map .text)) = .ok results) ∧
      ∀ layers entries, mergeLayers layers = .ok entries →
        load homes layers = (checkEntries homes entries).mapError rejectionTrouble := by
  refine ⟨?_, ?_, ?_, ?_⟩
  · intro entries config accepted
    exact config_toValue_of_checkEntries accepted
  · intro input result accepted
    exact Checked.destination_name (Checked.normal_of_destination accepted)
  · intro input results accepted
    exact Checked.extensions_texts (Checked.dotted_of_extensions accepted)
  · intro layers entries merged
    exact load_of_mergeLayers merged

/-- Homes of the user and of somebody else. -/
def twoHomes : Path.Homes :=
  ⟨"/home/me", [("ada", "//srv//ada/")]⟩

/-- Entries with three paths and three suffixes that are not in normal form, or only in part. -/
def untidyEntries : List (Text × Value) :=
  [("logging", .record [("outputs", .list (["~/./a.log", "~ada//b.log", "/var/../c.log/"].map
      fun name : String => .record [("destination", .text name)]))]),
    ("scan", .record [("extensions", .list [.text "", .text "rs", .text ".in"])])]

/-- The settings in these entries. -/
def tidyConfig : Config where
  logging := ⟨.warning, ["/home/me/a.log", "//srv/ada/b.log", "/var/../c.log"].map
    fun name : String => ⟨.console, .file name, none⟩⟩
  scan := ⟨1024, [".", ".rs", ".in"], ["target", ".git"]⟩

/-- The layers that hold them, two empty files and what the caller passes. -/
def untidyLayers : Layers where
  globalFile := ⟨"global.yaml", .single .null⟩
  projectFile := ⟨"project.yaml", .single .null⟩
  environment := []
  arguments := untidyEntries

theorem checked_again_untidy :
    checkEntries twoHomes untidyEntries = .ok tidyConfig ∧
      Checked.config twoHomes tidyConfig.toValue = .ok tidyConfig ∧
      Checked.destination twoHomes (.text "~ada//b.log") = .ok (.file "//srv/ada/b.log") ∧
      Checked.destination twoHomes (.text "//srv/ada/b.log") = .ok (.file "//srv/ada/b.log") ∧
      Checked.extensions (.list [.text "", .text "rs", .text ".in"]) = .ok [".", ".rs", ".in"] ∧
      Checked.extensions (.list [.text ".", .text ".rs", .text ".in"]) = .ok [".", ".rs", ".in"] ∧
      mergeLayers untidyLayers = .ok untidyEntries ∧
      load twoHomes untidyLayers = .ok tidyConfig := by
  obtain ⟨whole, destinations, suffixes, loads⟩ := checked_again twoHomes
  have accepted : checkEntries twoHomes untidyEntries = .ok tidyConfig := rfl
  have expanded : Checked.destination twoHomes (.text "~ada//b.log") =
      .ok (.file "//srv/ada/b.log") := rfl
  have dotted : Checked.extensions (.list [.text "", .text "rs", .text ".in"]) =
      .ok [".", ".rs", ".in"] := rfl
  have merged : mergeLayers untidyLayers = .ok untidyEntries := rfl
  refine ⟨accepted, whole _ _ accepted, expanded, destinations _ _ expanded, dotted,
    suffixes _ _ dotted, merged, ?_⟩
  rw [loads _ _ merged, accepted]
  rfl

end HarnessIndex.Settings
