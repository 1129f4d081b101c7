import HarnessIndex.Proofs.Ordered
import HarnessIndex.Proofs.Text.Part
import HarnessIndex.Settings.Environment

/-!
# What variables set

A variable of a section puts its value where its name leads. Reading the variables fails only where
JSON is expected and something else is found.
-/

namespace HarnessIndex.Settings

def sectionVariable (sectionName : Text) : Text :=
  "proofscan__" ++ sectionName

/-- The name of the variable that steps in a section lead to. -/
def variableAt (sectionName steps : Text) : Text :=
  "proofscan__" ++ sectionName ++ "__" ++ steps

/-! ## Steps -/

theorem splitSteps_ne_nil (text : Text) : splitSteps text ≠ [] := by
  unfold splitSteps
  split
  · simp
  · simp
  · split <;> simp

/-- The steps of a text with double low lines between them are the text. -/
theorem join_splitSteps (text : Text) : Text.join ['_', '_'] (splitSteps text) = text := by
  fun_induction splitSteps text with
  | case1 => rfl
  | case2 rest ih =>
      cases parts : splitSteps rest with
      | nil => exact absurd parts (splitSteps_ne_nil rest)
      | cons part parts' =>
          rw [parts] at ih
          rw [Text.join_cons_cons, ih]
          rfl
  | case3 c rest _ parts ih => exact absurd parts (splitSteps_ne_nil rest)
  | case4 c rest _ part parts split ih =>
      rw [split] at ih
      cases parts with
      | nil => rw [Text.join_singleton] at ih ⊢; rw [ih]
      | cons next more =>
          rw [Text.join_cons_cons] at ih ⊢
          rw [← ih]
          rfl

theorem eq_of_splitSteps {text last : Text} (steps : splitSteps text = [last]) : text = last := by
  have joined := join_splitSteps text
  rw [steps, Text.join_singleton] at joined
  exact joined.symm

/-! ## Texts that are not JSON -/

def listsIn (sectionName : Text) : List Text :=
  (listSettings.lookup sectionName).getD []

/-- Whether steps lead to a list and the text of their variable is not JSON. -/
structure Unread (sectionName steps text : Text) : Prop where
  member : steps ∈ listsIn sectionName
  given : text ≠ []
  unread : Json.read? text = none

theorem splitSteps_of_mem_listsIn {sectionName setting : Text}
    (member : setting ∈ listsIn sectionName) : splitSteps setting = [setting] := by
  have single : ∀ entry ∈ listSettings, ∀ name ∈ entry.2, splitSteps name = [name] := by decide
  rw [listsIn] at member
  cases found : listSettings.lookup sectionName with
  | none =>
      rw [found] at member
      cases member
  | some names =>
      rw [found] at member
      obtain ⟨front, back, same, -⟩ := List.lookup_eq_some_iff.mp found
      exact single (sectionName, names) (same ▸ by simp) setting member

/-- Steps lead to a list when they are the name of a list setting. -/
theorem leadsToList_iff {sectionName steps : Text} :
    leadsToList sectionName (splitSteps steps).dropLast ((splitSteps steps).getLast?.getD []) =
      true ↔ steps ∈ listsIn sectionName := by
  constructor
  · intro leads
    rw [leadsToList, Bool.and_eq_true, List.isEmpty_iff, List.contains_iff_mem] at leads
    obtain ⟨front, member⟩ := leads
    have whole := List.dropLast_append_getLast (splitSteps_ne_nil steps)
    rw [front, List.nil_append] at whole
    have same := eq_of_splitSteps whole.symm
    rw [List.getLast?_eq_some_getLast (splitSteps_ne_nil steps), Option.getD_some, ← same]
      at member
    exact member
  · intro member
    rw [splitSteps_of_mem_listsIn member, leadsToList, Bool.and_eq_true]
    exact ⟨rfl, List.contains_iff_mem.mpr member⟩

/-- What a variable holds at the steps that it leads to. -/
def variableValue (sectionName steps text : Text) : Except Text Value :=
  if steps ∈ listsIn sectionName ∧ text ≠ [] then readJson sectionName text else .ok (.text text)

/-- Put a value where all steps of a text lead. -/
def putSteps (value : Value) (steps : Text) (entries : List (Text × Value)) :
    List (Text × Value) :=
  putAt value (splitSteps steps).dropLast ((splitSteps steps).getLast?.getD []) entries

theorem addVariable_variableAt (sectionName : Text) (entries : List (Text × Value))
    (steps text : Text) :
    addVariable sectionName entries (variableAt sectionName steps) text =
      (variableValue sectionName steps text).map fun value => putSteps value steps entries := by
  have passed : Text.after? ("proofscan__" ++ sectionName ++ "__") (variableAt sectionName steps) =
      some steps := Text.after?_append _ _
  unfold addVariable
  rw [passed, variableValue]
  by_cases leads : leadsToList sectionName (splitSteps steps).dropLast
      ((splitSteps steps).getLast?.getD []) = true
  · have member := leadsToList_iff.mp leads
    cases text with
    | nil => simp [leads, putSteps, Except.map]; rfl
    | cons c rest =>
        simp only [leads, member]
        cases readJson sectionName (c :: rest) <;> rfl
  · have absent : steps ∉ listsIn sectionName := fun member => leads (leadsToList_iff.mpr member)
    rw [Bool.not_eq_true] at leads
    simp [leads, absent, putSteps, Except.map]
    rfl

theorem addVariable_of_forall_ne {sectionName name : Text}
    (other : ∀ steps, name ≠ variableAt sectionName steps) (entries : List (Text × Value))
    (text : Text) : addVariable sectionName entries name text = .ok entries := by
  have passed : Text.after? ("proofscan__" ++ sectionName ++ "__") name = none := by
    rw [Option.eq_none_iff_forall_not_mem]
    intro steps found
    exact other steps (Text.after?_eq_some.mp found)
  unfold addVariable
  rw [passed]
  rfl

theorem exists_readJson_iff {sectionName text : Text} :
    (∃ value, readJson sectionName text = .ok value) ↔ Json.read? text ≠ none := by
  rw [readJson]
  cases Json.read? text <;> simp

theorem exists_variableValue_iff {sectionName steps text : Text} :
    (∃ value, variableValue sectionName steps text = .ok value) ↔
      ¬ Unread sectionName steps text := by
  rw [variableValue]
  split
  · rename_i leads
    rw [exists_readJson_iff]
    constructor
    · intro read unread
      exact read unread.unread
    · intro read none
      exact read ⟨leads.1, leads.2, none⟩
  · rename_i leads
    constructor
    · intro _ unread
      exact leads ⟨unread.member, unread.given⟩
    · intro _
      exact ⟨.text text, rfl⟩

theorem exists_addVariable_iff {sectionName name text : Text} {entries : List (Text × Value)} :
    (∃ result, addVariable sectionName entries name text = .ok result) ↔
      ∀ steps, name = variableAt sectionName steps → ¬ Unread sectionName steps text := by
  constructor
  · rintro ⟨result, added⟩ steps rfl
    rw [addVariable_variableAt] at added
    apply exists_variableValue_iff.mp
    cases read : variableValue sectionName steps text with
    | ok value => exact ⟨value, rfl⟩
    | error failed =>
        rw [read] at added
        cases added
  · intro reads
    by_cases leads : ∃ steps, name = variableAt sectionName steps
    · obtain ⟨steps, rfl⟩ := leads
      obtain ⟨value, read⟩ := exists_variableValue_iff.mpr (reads steps rfl)
      rw [addVariable_variableAt, read]
      exact ⟨_, rfl⟩
    · exact ⟨entries, addVariable_of_forall_ne (not_exists.mp leads) entries text⟩

/-- The variables of a section are read when each of them is read by itself. -/
theorem exists_addVariables_iff {sectionName : Text} {known : List (Text × Text)}
    {entries : List (Text × Value)} :
    (∃ result, addVariables sectionName entries known = .ok result) ↔
      ∀ steps text, (variableAt sectionName steps, text) ∈ known →
        ¬ Unread sectionName steps text := by
  induction known generalizing entries with
  | nil => simp [addVariables]
  | cons first rest ih =>
      obtain ⟨name, text⟩ := first
      rw [addVariables]
      cases added : addVariable sectionName entries name text with
      | ok next =>
          have here := exists_addVariable_iff.mp ⟨next, added⟩
          refine Iff.trans ih ⟨?_, ?_⟩
          · intro later steps given member
            rcases List.mem_cons.mp member with same | member
            · obtain ⟨named, same⟩ := Prod.mk.inj same
              exact same ▸ here steps named.symm
            · exact later steps given member
          · intro every steps given member
            exact every steps given (List.mem_cons_of_mem _ member)
      | error failed =>
          have here : ¬ ∃ result, addVariable sectionName entries name text = .ok result := by
            rw [added]
            rintro ⟨result, same⟩
            cases same
          constructor
          · rintro ⟨result, same⟩
            cases same
          · intro every
            refine absurd (exists_addVariable_iff.mpr fun steps named => ?_) here
            exact every steps text (named ▸ List.mem_cons_self)

/-- Whether the variable of a list setting of a section holds a text that is not JSON. -/
def ListUnread (known : List (Text × Text)) (sectionName : Text) : Prop :=
  ∃ setting ∈ listsIn sectionName, ∃ text,
    Assoc.get? (variableAt sectionName setting) known = some text ∧ text ≠ [] ∧
      Json.read? text = none

/-- Whether a variable of a section is not JSON where JSON is expected. A whole section that is JSON
and no record hides the variables of its settings. -/
def SectionUnread (known : List (Text × Text)) (sectionName : Text) : Prop :=
  match Assoc.get? (sectionVariable sectionName) known with
  | none => ListUnread known sectionName
  | some text =>
      match Json.read? text with
      | none => True
      | some (.record _) => ListUnread known sectionName
      | some _ => False

/-- Whether some variable is not JSON where JSON is expected. -/
def AnyUnread (environment : List (Text × Text)) : Prop :=
  SectionUnread (namedVariables environment) "logging" ∨
    SectionUnread (namedVariables environment) "scan"

theorem exists_addVariables_iff_not_listUnread {sectionName : Text} {known : List (Text × Text)}
    (distinct : (Assoc.keys known).Nodup) {entries : List (Text × Value)} :
    (∃ result, addVariables sectionName entries known = .ok result) ↔
      ¬ ListUnread known sectionName := by
  rw [exists_addVariables_iff]
  constructor
  · rintro reads ⟨setting, member, text, found, given, unread⟩
    exact reads setting text (Assoc.mem_of_get? found) ⟨member, given, unread⟩
  · intro none steps text member unread
    exact none ⟨steps, unread.member, text, (Assoc.get?_eq_some distinct).mpr member,
      unread.given, unread.unread⟩

theorem exists_sectionValue_iff {sectionName : Text} {known : List (Text × Text)}
    (distinct : (Assoc.keys known).Nodup) :
    (∃ result, sectionValue known sectionName = .ok result) ↔
      ¬ SectionUnread known sectionName := by
  have lists (entries : List (Text × Value)) :=
    @exists_addVariables_iff_not_listUnread sectionName known distinct entries
  unfold sectionValue SectionUnread sectionVariable
  cases Assoc.get? ("proofscan__" ++ sectionName) known with
  | none =>
      simp only [← lists []]
      cases addVariables sectionName [] known <;> simp [bind, Except.bind, pure, Except.pure]
  | some text =>
      simp only [readJson]
      cases Json.read? text with
      | none => simp [bind, Except.bind]
      | some value =>
          cases value with
          | record entries =>
              simp only [← lists []]
              cases addVariables sectionName [] known <;>
                simp [bind, Except.bind, pure, Except.pure]
          | _ => simp [bind, Except.bind, pure, Except.pure]

/-- The variables are read when each of them that should hold JSON does. -/
theorem exists_fromEnvironment_iff (environment : List (Text × Text)) :
    (∃ entries, fromEnvironment environment = .ok entries) ↔ ¬ AnyUnread environment := by
  have distinct : (Assoc.keys (namedVariables environment)).Nodup :=
    Assoc.nodup_keys_ofList _
  rw [AnyUnread, not_or, ← exists_sectionValue_iff distinct, ← exists_sectionValue_iff distinct]
  change (∃ entries, (sectionValue (namedVariables environment) "logging" >>= fun logging =>
    sectionValue (namedVariables environment) "scan" >>= fun scan => pure
      ((logging.toList.map fun value => (("logging" : Text), value)) ++
        (scan.toList.map fun value => (("scan" : Text), value)))) = .ok entries) ↔ _
  cases sectionValue (namedVariables environment) "logging" <;>
    cases sectionValue (namedVariables environment) "scan" <;>
      simp [bind, Except.bind, pure, Except.pure]

end HarnessIndex.Settings
