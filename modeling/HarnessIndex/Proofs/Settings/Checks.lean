import HarnessIndex.Settings.Load
import Mathlib.Data.List.Forall2

/-!
# Outcomes of checks

A check ends in one of three ways: it accepts, it lists issues, or it is abandoned. A check that is
put together from others accepts when all of them do, and is abandoned when one of them is.
-/

namespace HarnessIndex.Settings

namespace Checked

variable {α β : Type}

/-! ## Accepted values -/

theorem bind_eq_ok {outcome : Checked α} {next : α → Checked β} {result : β} :
    outcome >>= next = .ok result ↔ ∃ value, outcome = .ok value ∧ next value = .ok result := by
  cases outcome with
  | error rejection => simp [bind, Except.bind]
  | ok value => simp [bind, Except.bind]

theorem map_eq_ok {outcome : Checked α} {image : α → β} {result : β} :
    outcome.map image = .ok result ↔ ∃ value, outcome = .ok value ∧ image value = result := by
  cases outcome with
  | error rejection => simp [Except.map]
  | ok value => simp [Except.map]

theorem under_eq_ok {step : Step} {outcome : Checked α} {value : α} :
    under step outcome = .ok value ↔ outcome = .ok value := by
  cases outcome with
  | ok given => simp [under]
  | error rejection => cases rejection <;> simp [under]

/-- Two checks accept together when each of them accepts. -/
theorem both_eq_ok {first : Checked α} {second : Checked β} {left : α} {right : β} :
    both first second = .ok (left, right) ↔ first = .ok left ∧ second = .ok right := by
  rcases first with (⟨_, _⟩ | _) | _ <;> rcases second with (⟨_, _⟩ | _) | _ <;> simp [both]

theorem field_eq_ok {name : Text} {absent : α} {check : Value → Checked α}
    {entries : List (Text × Value)} {value : α} :
    field name absent check entries = .ok value ↔
      ((Assoc.get? name entries).map check).getD (.ok absent) = .ok value := by
  rw [field]
  cases Assoc.get? name entries with
  | none => rfl
  | some input => exact under_eq_ok

theorem record_eq_ok {model : Text} {input : Value} {entries : List (Text × Value)} :
    record model input = .ok entries ↔ input = .record entries := by
  cases input <;> simp [record, issue]

theorem items_eq_ok {check : Value → Checked α} {position : Nat} {values : List Value}
    {results : List α} :
    items check position values = .ok results ↔
      List.Forall₂ (fun value result => check value = .ok result) values results := by
  induction values generalizing position results with
  | nil => cases results <;> simp [items]
  | cons value rest ih =>
      rw [items, map_eq_ok]
      constructor
      · rintro ⟨⟨first, later⟩, accepted, rfl⟩
        obtain ⟨here, there⟩ := both_eq_ok.mp accepted
        exact .cons (under_eq_ok.mp here) (ih.mp there)
      · intro accepted
        cases accepted with
        | cons here there => exact ⟨(_, _), both_eq_ok.mpr ⟨under_eq_ok.mpr here, ih.mpr there⟩, rfl⟩

theorem list_eq_ok {check : Value → Checked α} {input : Value} {results : List α} :
    list check input = .ok results ↔
      ∃ values, input = .list values ∧
        List.Forall₂ (fun value result => check value = .ok result) values results := by
  cases input <;> simp [list, issue, items_eq_ok]

/-- What holds of the standard value and of every value that a check gives holds of a field. -/
theorem holds_of_field (holds : α → Prop) {name : Text} {absent : α} {check : Value → Checked α}
    {entries : List (Text × Value)} {value : α} (standard : holds absent)
    (checked : ∀ input result, check input = .ok result → holds result)
    (accepted : field name absent check entries = .ok value) : holds value := by
  rw [field_eq_ok] at accepted
  cases found : Assoc.get? name entries with
  | none =>
      rw [found] at accepted
      cases accepted
      exact standard
  | some input =>
      rw [found] at accepted
      exact checked input value accepted

/-- What holds of every value that a check gives holds of all items of a list that passes it. -/
theorem holds_of_list {holds : α → Prop} {check : Value → Checked α} {input : Value}
    {results : List α} (checked : ∀ input result, check input = .ok result → holds result)
    (accepted : list check input = .ok results) : ∀ result ∈ results, holds result := by
  obtain ⟨values, -, each⟩ := list_eq_ok.mp accepted
  clear accepted
  induction each with
  | nil => exact List.forall_mem_nil holds
  | cons here _ later => exact List.forall_mem_cons.mpr ⟨checked _ _ here, later⟩

theorem text_eq_ok {input : Value} {value : Text} :
    text input = .ok value ↔ input = .text value := by
  cases input <;> simp [text, issue]

/-! ## Groups of settings -/

variable {homes : Path.Homes} {input : Value}

theorem output_eq_ok {result : Output} :
    output homes input = .ok result ↔ ∃ entries, input = .record entries ∧
      field "format" Output.standard.format format entries = .ok result.format ∧
      field "destination" Output.standard.destination (destination homes) entries =
        .ok result.destination ∧
      field "level" Output.standard.level optionalLevel entries = .ok result.level := by
  rw [output, bind_eq_ok]
  simp only [record_eq_ok, bind_eq_ok]
  refine exists_congr fun entries => and_congr_right fun _ => ⟨?_, ?_⟩
  · rintro ⟨⟨format, destination, level⟩, accepted, same⟩
    cases same
    simpa [both_eq_ok] using accepted
  · intro accepted
    exact ⟨(_, _, _), both_eq_ok.mpr ⟨accepted.1, both_eq_ok.mpr accepted.2⟩, rfl⟩

theorem logging_eq_ok {result : Logging} :
    logging homes input = .ok result ↔ ∃ entries, input = .record entries ∧
      field "level" Logging.standard.level level entries = .ok result.level ∧
      field "outputs" Logging.standard.outputs (list (output homes)) entries =
        .ok result.outputs := by
  rw [logging, bind_eq_ok]
  simp only [record_eq_ok, bind_eq_ok]
  refine exists_congr fun entries => and_congr_right fun _ => ⟨?_, ?_⟩
  · rintro ⟨⟨level, outputs⟩, accepted, same⟩
    cases same
    exact both_eq_ok.mp accepted
  · intro accepted
    exact ⟨(_, _), both_eq_ok.mpr accepted, rfl⟩

theorem scan_eq_ok {result : Scan} :
    scan input = .ok result ↔ ∃ entries, input = .record entries ∧
      field "max_file_size_kb" Scan.standard.maxFileSizeKb maxFileSize entries =
        .ok result.maxFileSizeKb ∧
      field "extensions" Scan.standard.extensions extensions entries = .ok result.extensions ∧
      field "exclude_dirs" Scan.standard.excludeDirs (list text) entries =
        .ok result.excludeDirs := by
  rw [scan, bind_eq_ok]
  simp only [record_eq_ok, bind_eq_ok]
  refine exists_congr fun entries => and_congr_right fun _ => ⟨?_, ?_⟩
  · rintro ⟨⟨size, extensions, names⟩, accepted, same⟩
    cases same
    simpa [both_eq_ok] using accepted
  · intro accepted
    exact ⟨(_, _, _), both_eq_ok.mpr ⟨accepted.1, both_eq_ok.mpr accepted.2⟩, rfl⟩

theorem sections_eq_ok {entries : List (Text × Value)} {result : Config} :
    sections homes entries = .ok result ↔
      field "logging" Config.standard.logging (logging homes) entries = .ok result.logging ∧
      field "scan" Config.standard.scan scan entries = .ok result.scan := by
  rw [sections, bind_eq_ok]
  constructor
  · rintro ⟨⟨logging, scan⟩, accepted, same⟩
    cases same
    exact both_eq_ok.mp accepted
  · intro accepted
    exact ⟨(_, _), both_eq_ok.mpr accepted, rfl⟩

/-! ## Abandoned checks -/

/-- Whether a check cannot be decided. -/
def IsAbandoned (outcome : Checked α) : Prop :=
  ∃ reason, outcome = .error (.abandoned reason)

@[simp] theorem not_isAbandoned_ok (value : α) : ¬ IsAbandoned (.ok value) := by
  rintro ⟨reason, same⟩
  cases same

@[simp] theorem not_isAbandoned_issue (code message : Text) (input : Value) :
    ¬ IsAbandoned (issue code message input : Checked α) := by
  rintro ⟨reason, same⟩
  cases same

@[simp] theorem not_isAbandoned_rule (message : Text) (input : Value) :
    ¬ IsAbandoned (rule message input : Checked α) :=
  not_isAbandoned_issue _ _ _

@[simp] theorem isAbandoned_map {outcome : Checked α} {image : α → β} :
    IsAbandoned (outcome.map image) ↔ IsAbandoned outcome := by
  cases outcome <;> simp [IsAbandoned, Except.map]

theorem isAbandoned_bind {outcome : Checked α} {next : α → Checked β} :
    IsAbandoned (outcome >>= next) ↔
      IsAbandoned outcome ∨ ∃ value, outcome = .ok value ∧ IsAbandoned (next value) := by
  cases outcome <;> simp [IsAbandoned, bind, Except.bind]

@[simp] theorem isAbandoned_bind_pure {outcome : Checked α} {image : α → β} :
    IsAbandoned (outcome >>= fun value => pure (image value)) ↔ IsAbandoned outcome := by
  cases outcome <;> simp [IsAbandoned, bind, Except.bind, pure, Except.pure]

@[simp] theorem isAbandoned_under {step : Step} {outcome : Checked α} :
    IsAbandoned (under step outcome) ↔ IsAbandoned outcome := by
  rcases outcome with (⟨_, _⟩ | _) | _ <;> simp [IsAbandoned, under]

@[simp] theorem isAbandoned_both {first : Checked α} {second : Checked β} :
    IsAbandoned (both first second) ↔ IsAbandoned first ∨ IsAbandoned second := by
  rcases first with (⟨_, _⟩ | _) | _ <;> rcases second with (⟨_, _⟩ | _) | _ <;>
    simp [IsAbandoned, both]

@[simp] theorem isAbandoned_field {name : Text} {absent : α} {check : Value → Checked α}
    {entries : List (Text × Value)} :
    IsAbandoned (field name absent check entries) ↔
      ∃ value, Assoc.get? name entries = some value ∧ IsAbandoned (check value) := by
  rw [field]
  cases Assoc.get? name entries with
  | none => simp
  | some input => simp

@[simp] theorem isAbandoned_items {check : Value → Checked α} {position : Nat}
    {values : List Value} :
    IsAbandoned (items check position values) ↔ ∃ value ∈ values, IsAbandoned (check value) := by
  induction values generalizing position with
  | nil => simp [items]
  | cons value rest ih => simp [items, ih]

@[simp] theorem isAbandoned_list {check : Value → Checked α} :
    IsAbandoned (list check input) ↔
      ∃ values, input = .list values ∧ ∃ value ∈ values, IsAbandoned (check value) := by
  cases input <;> simp [list]

@[simp] theorem not_isAbandoned_text : ¬ IsAbandoned (text input) := by
  cases input <;> simp [text]

@[simp] theorem not_isAbandoned_oneOf {choices : List (Text × α)} {message : Text} :
    ¬ IsAbandoned (oneOf choices message input) := by
  cases input with
  | text name => cases known : choices.lookup name <;> simp [oneOf, known]
  | _ => simp [oneOf]

/-- A record is checked by its entries, and anything else has an issue. -/
theorem isAbandoned_record_bind {model : Text} {next : List (Text × Value) → Checked α} :
    IsAbandoned (record model input >>= next) ↔
      ∃ entries, input = .record entries ∧ IsAbandoned (next entries) := by
  rw [isAbandoned_bind]
  cases input <;> simp [record, issue, IsAbandoned]

end Checked

end HarnessIndex.Settings
