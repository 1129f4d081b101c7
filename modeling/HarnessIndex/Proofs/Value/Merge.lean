import HarnessIndex.Proofs.Ordered
import HarnessIndex.Value.Value

/-!
# Merging records

Entries are merged over others one after the other. What a key holds afterwards depends on what the
two sides hold there and on nothing else, and the keys are those of both sides.
-/

namespace HarnessIndex.Value

variable {base upper : List (Text × Value)} {key : Text}

/-- What a key holds after a merge, by what it holds on both sides. -/
def mergeAt : (base upper : Option Value) → Option Value
  | base, none => base
  | none, some upper => some upper
  | some base, some upper => some (mergeOver base upper)

@[simp] theorem mergeAt_none_right (base : Option Value) : mergeAt base none = base := by
  cases base <;> rfl

@[simp] theorem mergeAt_none_left (upper : Option Value) : mergeAt none upper = upper := by
  cases upper <;> rfl

@[simp] theorem mergeAt_some (base upper : Value) :
    mergeAt (some base) (some upper) = some (mergeOver base upper) := rfl

@[simp] theorem mergeOver_records (base upper : List (Text × Value)) :
    mergeOver (.record base) (.record upper) = .record (mergeEntries base upper) := by
  rw [mergeOver]

/-- Merge one entry over the entries of a record. -/
def mergeEntry (base : List (Text × Value)) (entry : Text × Value) : List (Text × Value) :=
  match Assoc.get? entry.1 base with
  | some current => Assoc.put entry.1 (mergeOver current entry.2) base
  | none => Assoc.put entry.1 entry.2 base

/-- Entries are merged one after the other. -/
theorem mergeEntries_cons (base : List (Text × Value)) (entry : Text × Value)
    (rest : List (Text × Value)) :
    mergeEntries base (entry :: rest) = mergeEntries (mergeEntry base entry) rest := by
  rw [mergeEntries]
  cases found : Assoc.get? entry.1 base <;> simp only [mergeEntry, found]

theorem mergeEntry_eq_put (base : List (Text × Value)) (entry : Text × Value) :
    ∃ value, mergeAt (Assoc.get? entry.1 base) (some entry.2) = some value ∧
      mergeEntry base entry = Assoc.put entry.1 value base := by
  rw [mergeEntry]
  cases Assoc.get? entry.1 base with
  | none => exact ⟨entry.2, rfl, rfl⟩
  | some current => exact ⟨mergeOver current entry.2, rfl, rfl⟩

theorem get?_mergeEntry_self (base : List (Text × Value)) (entry : Text × Value) :
    Assoc.get? entry.1 (mergeEntry base entry) =
      mergeAt (Assoc.get? entry.1 base) (some entry.2) := by
  obtain ⟨value, merged, put⟩ := mergeEntry_eq_put base entry
  rw [put, merged, Assoc.get?_put_self]

theorem get?_mergeEntry_of_ne {entry : Text × Value} (different : entry.1 ≠ key) :
    Assoc.get? key (mergeEntry base entry) = Assoc.get? key base := by
  obtain ⟨value, -, put⟩ := mergeEntry_eq_put base entry
  rw [put, Assoc.get?_put_of_ne different]

/-- A key that the upper side does not have keeps what it holds. -/
theorem get?_mergeEntries_of_notMem (absent : key ∉ Assoc.keys upper) :
    Assoc.get? key (mergeEntries base upper) = Assoc.get? key base := by
  induction upper generalizing base with
  | nil => rw [mergeEntries_nil]
  | cons entry rest ih =>
      rw [Assoc.keys_cons, List.mem_cons, not_or] at absent
      rw [mergeEntries_cons, ih absent.2, get?_mergeEntry_of_ne (Ne.symm absent.1)]

/-- What a key holds after a merge depends on what both sides hold there, and on nothing else. -/
theorem get?_mergeEntries (distinct : (Assoc.keys upper).Nodup) :
    Assoc.get? key (mergeEntries base upper) =
      mergeAt (Assoc.get? key base) (Assoc.get? key upper) := by
  induction upper generalizing base with
  | nil => rw [mergeEntries_nil, Assoc.get?_nil, mergeAt_none_right]
  | cons entry rest ih =>
      obtain ⟨fresh, distinct⟩ := List.nodup_cons.mp distinct
      rw [mergeEntries_cons, Assoc.get?]
      split
      · rename_i same
        subst same
        rw [get?_mergeEntries_of_notMem fresh, get?_mergeEntry_self]
      · rename_i different
        rw [ih distinct, get?_mergeEntry_of_ne different]

theorem nodup_keys_mergeEntries (distinct : (Assoc.keys base).Nodup)
    (upper : List (Text × Value)) : (Assoc.keys (mergeEntries base upper)).Nodup := by
  induction upper generalizing base with
  | nil =>
      rw [mergeEntries_nil]
      exact distinct
  | cons entry rest ih =>
      rw [mergeEntries_cons]
      apply ih
      obtain ⟨value, -, put⟩ := mergeEntry_eq_put base entry
      rw [put]
      exact Assoc.nodup_keys_put distinct entry.1 value

theorem mem_keys_mergeEntries :
    key ∈ Assoc.keys (mergeEntries base upper) ↔
      key ∈ Assoc.keys base ∨ key ∈ Assoc.keys upper := by
  induction upper generalizing base with
  | nil => simp
  | cons entry rest ih =>
      obtain ⟨value, -, put⟩ := mergeEntry_eq_put base entry
      have merged : key ∈ Assoc.keys (mergeEntry base entry) ↔
          key ∈ Assoc.keys base ∨ key = entry.1 := by
        rw [put, Assoc.keys_put]
        split
        · rename_i known
          exact ⟨Or.inl, fun either => either.elim id fun same => same ▸ known⟩
        · rw [List.mem_append, List.mem_singleton]
      rw [mergeEntries_cons, ih, merged, Assoc.keys_cons, List.mem_cons, or_assoc]

end HarnessIndex.Value
