import HarnessIndex.Harness.Index
import HarnessIndex.Proofs.Ordered
import Mathlib.Data.List.Induction

/-!
# Keeping one candidate for each name

The candidates compete for their names one after the other. Whatever the order in which declared
ones and others come, the one that holds a name in the end is the first declared one with that name,
or the first one of all when none of them is declared.
-/

namespace HarnessIndex.Harness

open Syntax

/-- The candidates that hold their names, by name. -/
abbrev Holders := List (Text × Candidate)

/-- The first declared candidate, or the first one of all. -/
def best? (candidates : List Candidate) : Option Candidate :=
  (candidates.find? fun candidate => candidate.declaredByAttribute).or candidates.head?

theorem mem_of_best? {candidates : List Candidate} {candidate : Candidate}
    (best : best? candidates = some candidate) : candidate ∈ candidates := by
  rw [best?] at best
  rcases Option.or_eq_some_iff.mp best with declared | ⟨-, first⟩
  · exact List.mem_of_find?_eq_some declared
  · exact List.mem_of_head? first

theorem exists_best? {candidates : List Candidate} (some : candidates ≠ []) :
    ∃ candidate, best? candidates = .some candidate := by
  cases candidates with
  | nil => exact absurd rfl some
  | cons first rest =>
      rw [best?, List.head?_cons]
      cases List.find? _ (first :: rest) with
      | none => exact ⟨first, rfl⟩
      | some candidate => exact ⟨candidate, rfl⟩

/-- The candidates with a name. -/
def namesakes (name : Text) (candidates : List Candidate) : List Candidate :=
  candidates.filter fun candidate => candidate.name = name

@[simp] theorem namesakes_nil (name : Text) : namesakes name [] = [] := rfl

theorem namesakes_append (name : Text) (front back : List Candidate) :
    namesakes name (front ++ back) = namesakes name front ++ namesakes name back :=
  List.filter_append front back

theorem namesakes_singleton (name : Text) (candidate : Candidate) :
    namesakes name [candidate] = if candidate.name = name then [candidate] else [] := by
  by_cases same : candidate.name = name <;> simp [namesakes, same]

/-- One more candidate wins only if there is none yet, or if it takes over. -/
theorem best?_append_singleton (candidates : List Candidate) (candidate : Candidate) :
    best? (candidates ++ [candidate]) =
      match best? candidates with
      | none => some candidate
      | some current => some (if takesOver candidate current then candidate else current) := by
  rw [best?, best?, List.find?_append]
  cases found : candidates.find? fun candidate => candidate.declaredByAttribute with
  | some current =>
      have declared := List.find?_some found
      simp [takesOver, declared]
  | none =>
      have undeclared := List.find?_eq_none.mp found
      cases candidates with
      | nil => cases declared : candidate.declaredByAttribute <;> simp [declared]
      | cons current rest =>
          have weak : current.declaredByAttribute = false := by
            simpa using undeclared current List.mem_cons_self
          cases declared : candidate.declaredByAttribute <;> simp [takesOver, declared, weak]

/-- How one more candidate changes who holds a name. -/
theorem get?_choose (choice : Choice) (candidate : Candidate) (name : Text) :
    Assoc.get? name (choose choice candidate).chosen =
      if candidate.name = name then
        match Assoc.get? name choice.chosen with
        | none => some candidate
        | some current => some (if takesOver candidate current then candidate else current)
      else Assoc.get? name choice.chosen := by
  rw [choose]
  by_cases same : candidate.name = name
  · subst same
    rw [if_pos rfl]
    cases holder : Assoc.get? candidate.name choice.chosen with
    | none => exact Assoc.get?_put_self _ _ _
    | some current =>
        cases wins : takesOver candidate current with
        | true => simp [wins]
        | false => simpa [wins] using holder
  · rw [if_neg same]
    split
    · exact Assoc.get?_put_of_ne same _ _
    · split
      · exact Assoc.get?_put_of_ne same _ _
      · rfl

theorem chooseAll_append_singleton (candidates : List Candidate) (candidate : Candidate) :
    chooseAll (candidates ++ [candidate]) = choose (chooseAll candidates) candidate := by
  rw [chooseAll, chooseAll, List.foldl_append]
  rfl

/-- The holder of a name is the best of the candidates with that name. -/
theorem get?_chooseAll (candidates : List Candidate) (name : Text) :
    Assoc.get? name (chooseAll candidates).chosen = best? (namesakes name candidates) := by
  induction candidates using List.reverseRecOn with
  | nil => rfl
  | append_singleton candidates candidate ih =>
      rw [chooseAll_append_singleton, get?_choose, namesakes_append, namesakes_singleton, ih]
      by_cases same : candidate.name = name
      · rw [if_pos same, if_pos same, best?_append_singleton]
      · rw [if_neg same, if_neg same, List.append_nil]

/-- What holds of the holders at first and after each candidate holds of them in the end. -/
theorem chosen_induction {motive : List Candidate → Holders → Prop} (start : motive [] [])
    (step : ∀ candidates candidate choice, motive candidates choice.chosen →
      motive (candidates ++ [candidate]) (choose choice candidate).chosen)
    (candidates : List Candidate) : motive candidates (chooseAll candidates).chosen := by
  induction candidates using List.reverseRecOn with
  | nil => exact start
  | append_singleton candidates candidate ih =>
      rw [chooseAll_append_singleton]
      exact step candidates candidate (chooseAll candidates) ih

/-- The three things that one more candidate can do: hold a new name, take over a name, or lose. -/
theorem chosen_choose_cases (choice : Choice) (candidate : Candidate) :
    (candidate.name ∉ Assoc.keys choice.chosen ∧
      (choose choice candidate).chosen = choice.chosen ++ [(candidate.name, candidate)]) ∨
    (∃ current, Assoc.get? candidate.name choice.chosen = some current ∧
      takesOver candidate current = true ∧
      (choose choice candidate).chosen = Assoc.put candidate.name candidate choice.chosen) ∨
    (candidate.name ∈ Assoc.keys choice.chosen ∧
      (choose choice candidate).chosen = choice.chosen) := by
  rw [choose]
  cases holder : Assoc.get? candidate.name choice.chosen with
  | none =>
      have fresh := Assoc.get?_eq_none.mp holder
      exact Or.inl ⟨fresh, Assoc.put_of_notMem fresh candidate⟩
  | some current =>
      have known : candidate.name ∈ Assoc.keys choice.chosen :=
        Assoc.mem_keys.mpr ⟨current, Assoc.mem_of_get? holder⟩
      cases wins : takesOver candidate current with
      | true => exact Or.inr (Or.inl ⟨current, rfl, wins, by simp [wins]⟩)
      | false => exact Or.inr (Or.inr ⟨known, by simp [wins]⟩)

theorem nodup_keys_chooseAll (candidates : List Candidate) :
    (Assoc.keys (chooseAll candidates).chosen).Nodup := by
  induction candidates using chosen_induction with
  | start => exact List.nodup_nil
  | step candidates candidate choice nodup =>
      rcases chosen_choose_cases choice candidate with
        ⟨fresh, same⟩ | ⟨current, -, -, same⟩ | ⟨-, same⟩
      · rw [same, ← Assoc.put_of_notMem fresh]
        exact Assoc.nodup_keys_put nodup _ _
      · rw [same]
        exact Assoc.nodup_keys_put nodup _ _
      · rw [same]
        exact nodup

/-- A holder is one of the candidates, and holds its own name. -/
theorem mem_chooseAll {candidates : List Candidate} {entry : Text × Candidate}
    (member : entry ∈ (chooseAll candidates).chosen) :
    entry.2 ∈ candidates ∧ entry.1 = entry.2.name := by
  have found := (Assoc.get?_eq_some (nodup_keys_chooseAll candidates)).mpr member
  rw [get?_chooseAll] at found
  obtain ⟨member, same⟩ := List.mem_filter.mp (mem_of_best? found)
  exact ⟨member, (of_decide_eq_true same).symm⟩

/-! ## The candidates that keep their names -/

/-- The candidates that hold their names in the end, in source order. -/
def winners (root : Node) : List Candidate :=
  inSourceOrder
    ((chooseAll (join (attributeHarnesses root) (invocationHarnesses root))).chosen.map Prod.snd)

theorem collect_index (root : Node) : (collect root).1 = describeAll (winners root) := rfl

/-- A candidate keeps its name when it is the best of those with that name. -/
theorem mem_winners {root : Node} {candidate : Candidate} :
    candidate ∈ winners root ↔
      best? (namesakes candidate.name
        (join (attributeHarnesses root) (invocationHarnesses root))) = some candidate := by
  rw [winners, inSourceOrder, Stable.sortOn, ← Stable.sortOn, Stable.mem_sortOn, ← get?_chooseAll,
    Assoc.get?_eq_some (nodup_keys_chooseAll _), List.mem_map]
  constructor
  · rintro ⟨entry, member, rfl⟩
    rw [← (mem_chooseAll member).2]
    exact member
  · intro member
    exact ⟨(candidate.name, candidate), member, rfl⟩

theorem nodup_names_winners (root : Node) :
    ((winners root).map fun candidate => candidate.name).Nodup := by
  have perm : (winners root).Perm
      ((chooseAll (join (attributeHarnesses root) (invocationHarnesses root))).chosen.map
        Prod.snd) :=
    Stable.perm_sortOn _ _
  rw [(perm.map _).nodup_iff, List.map_map]
  have names : ∀ entry ∈
      (chooseAll (join (attributeHarnesses root) (invocationHarnesses root))).chosen,
      (Candidate.name ∘ Prod.snd) entry = entry.1 := by
    intro entry member
    exact (mem_chooseAll member).2.symm
  rw [List.map_congr_left names]
  exact nodup_keys_chooseAll _

/-- The number of proofs among the candidates that hold their names. -/
def totalProofs (root : Node) : Nat :=
  (winners root).countP fun candidate => kindOf candidate = .proof

/-- The entry of a candidate that holds its name. -/
def entryOf (root : Node) (candidate : Candidate) : Text × Metadata :=
  (candidate.name, describe (totalProofs root) candidate)

theorem collect_entries (root : Node) : (collect root).1 = (winners root).map (entryOf root) := rfl

theorem keys_describeAll (candidates : List Candidate) :
    Assoc.keys (describeAll candidates) = candidates.map fun candidate => candidate.name := by
  rw [Assoc.keys, describeAll, List.map_map]
  rfl

/-- No name occurs twice in an index. -/
theorem nodup_keys_collect (root : Node) : (Assoc.keys (collect root).1).Nodup := by
  rw [collect_index, keys_describeAll]
  exact nodup_names_winners root

end HarnessIndex.Harness
