import HarnessIndex.Ordered
import Mathlib.Data.List.Sort
import Mathlib.Data.Prod.Lex

/-!
# Laws of ordered collections

What association lists and the stable sort keep. A key that is put in twice still occurs once, and
putting in or taking out one key leaves the others alone. Sorting keeps the values, orders their
ranks, and keeps the order of values of equal rank; the value in front is therefore the first of
those with the least rank, and sorted results of equal rank stand in the order of what they were
read off.
-/

namespace HarnessIndex

namespace Assoc

variable {κ α : Type} [DecidableEq κ]

/-- The keys of an association list, in order. -/
def keys (entries : List (κ × α)) : List κ :=
  entries.map Prod.fst

omit [DecidableEq κ] in
@[simp] theorem keys_nil : keys ([] : List (κ × α)) = [] := rfl

omit [DecidableEq κ] in
@[simp] theorem keys_cons (entry : κ × α) (rest : List (κ × α)) :
    keys (entry :: rest) = entry.1 :: keys rest := rfl

omit [DecidableEq κ] in
@[simp] theorem keys_append (front back : List (κ × α)) :
    keys (front ++ back) = keys front ++ keys back :=
  List.map_append

omit [DecidableEq κ] in
theorem mem_keys {key : κ} {entries : List (κ × α)} :
    key ∈ keys entries ↔ ∃ value, (key, value) ∈ entries := by
  simp [keys]

theorem put_of_notMem {key : κ} {entries : List (κ × α)} (fresh : key ∉ keys entries)
    (value : α) : put key value entries = entries ++ [(key, value)] := by
  induction entries with
  | nil => rfl
  | cons entry rest ih =>
      simp only [keys_cons, List.mem_cons, not_or] at fresh
      rw [put, if_neg (Ne.symm fresh.1), ih fresh.2, List.cons_append]

theorem keys_put_of_mem {key : κ} {entries : List (κ × α)} (known : key ∈ keys entries)
    (value : α) : keys (put key value entries) = keys entries := by
  induction entries with
  | nil => simp at known
  | cons entry rest ih =>
      by_cases same : entry.1 = key
      · simp [put, same]
      · have later : key ∈ keys rest := by
          rcases List.mem_cons.mp known with here | later
          · exact absurd here.symm same
          · exact later
        simp [put, same, ih later]

/-- A key that is put in is added at the end unless it is there. -/
theorem keys_put (key : κ) (value : α) (entries : List (κ × α)) :
    keys (put key value entries) =
      if key ∈ keys entries then keys entries else keys entries ++ [key] := by
  by_cases known : key ∈ keys entries
  · rw [if_pos known, keys_put_of_mem known]
  · rw [if_neg known, put_of_notMem known, keys_append]
    rfl

theorem nodup_keys_put {entries : List (κ × α)} (nodup : (keys entries).Nodup) (key : κ)
    (value : α) : (keys (put key value entries)).Nodup := by
  rw [keys_put]
  split
  · exact nodup
  · rename_i fresh
    exact List.nodup_append.mpr ⟨nodup, List.nodup_singleton key, by
      intro other known last member
      rw [List.mem_singleton.mp member]
      exact fun same => fresh (same ▸ known)⟩

theorem mem_of_mem_put {key : κ} {value : α} {entry : κ × α} {entries : List (κ × α)}
    (member : entry ∈ put key value entries) : entry = (key, value) ∨ entry ∈ entries := by
  induction entries with
  | nil => exact Or.inl (List.mem_singleton.mp member)
  | cons next rest ih =>
      rw [put] at member
      split at member
      · rcases List.mem_cons.mp member with new | old
        · exact Or.inl new
        · exact Or.inr (List.mem_cons_of_mem next old)
      · rcases List.mem_cons.mp member with here | later
        · exact Or.inr (here ▸ List.mem_cons_self)
        · rcases ih later with new | old
          · exact Or.inl new
          · exact Or.inr (List.mem_cons_of_mem next old)

/-- What holds between the entries, and between each of them and a new one both ways, still holds
when the new one is put in. -/
theorem pairwise_put {related : κ × α → κ × α → Prop} {key : κ} {value : α}
    {entries : List (κ × α)} (held : entries.Pairwise related)
    (both : ∀ entry ∈ entries, related entry (key, value) ∧ related (key, value) entry) :
    (put key value entries).Pairwise related := by
  induction entries with
  | nil => exact List.pairwise_singleton _ _
  | cons entry rest ih =>
      obtain ⟨first, held⟩ := List.pairwise_cons.mp held
      obtain ⟨here, later⟩ := List.forall_mem_cons.mp both
      rw [put]
      split
      · exact List.pairwise_cons.mpr ⟨fun other member => (later other member).2, held⟩
      · refine List.pairwise_cons.mpr ⟨?_, ih held later⟩
        intro other member
        rcases mem_of_mem_put member with new | old
        · exact new ▸ here.1
        · exact first other old

/-- When a key takes a new value, the new value stands for the old one. -/
theorem perm_values_put {key : κ} {old : α} {entries : List (κ × α)}
    (found : get? key entries = some old) (value : α) :
    (old :: (put key value entries).map Prod.snd).Perm (value :: entries.map Prod.snd) := by
  induction entries with
  | nil => simp at found
  | cons entry rest ih =>
      rw [get?] at found
      rw [put]
      split at found
      · rename_i same
        rw [if_pos same, ← Option.some.inj found]
        exact List.Perm.swap _ _ _
      · rename_i different
        rw [if_neg different, List.map_cons, List.map_cons]
        have inner := (ih found).cons entry.2
        exact (List.Perm.swap _ _ _).trans (inner.trans (List.Perm.swap _ _ _))

theorem mem_of_get? {key : κ} {value : α} {entries : List (κ × α)}
    (found : get? key entries = some value) : (key, value) ∈ entries := by
  induction entries with
  | nil => simp at found
  | cons entry rest ih =>
      rw [get?] at found
      split at found
      · rename_i same
        rw [← Option.some.inj found, ← same]
        exact List.mem_cons_self
      · exact List.mem_cons_of_mem entry (ih found)

/-- Putting in what a key holds already changes nothing. -/
theorem put_eq_self {key : κ} {value : α} {entries : List (κ × α)}
    (found : get? key entries = some value) : put key value entries = entries := by
  induction entries with
  | nil => simp at found
  | cons entry rest ih =>
      rw [get?] at found
      rw [put]
      split at found
      · rename_i same
        rw [if_pos same, ← same, ← Option.some.inj found]
      · rename_i different
        rw [if_neg different, ih found]

theorem get?_eq_none {key : κ} {entries : List (κ × α)} :
    get? key entries = none ↔ key ∉ keys entries := by
  induction entries with
  | nil => simp
  | cons entry rest ih =>
      by_cases same : entry.1 = key
      · simp [get?, same]
      · simp [get?, same, ih, Ne.symm same]

/-- Where no key occurs twice, looking a key up finds every entry. -/
theorem get?_eq_some {key : κ} {value : α} {entries : List (κ × α)}
    (nodup : (keys entries).Nodup) :
    get? key entries = some value ↔ (key, value) ∈ entries := by
  refine ⟨mem_of_get?, ?_⟩
  intro member
  induction entries with
  | nil => simp at member
  | cons entry rest ih =>
      rw [keys_cons, List.nodup_cons] at nodup
      rcases List.mem_cons.mp member with here | later
      · simp [get?, ← here]
      · have different : entry.1 ≠ key := by
          intro same
          exact nodup.1 (same ▸ mem_keys.mpr ⟨value, later⟩)
        rw [get?, if_neg different]
        exact ih nodup.2 later

theorem drop_of_notMem {key : κ} {entries : List (κ × α)} (absent : key ∉ keys entries) :
    drop key entries = entries := by
  induction entries with
  | nil => rfl
  | cons entry rest ih =>
      simp only [keys_cons, List.mem_cons, not_or] at absent
      rw [drop, if_neg (Ne.symm absent.1), ih absent.2]

theorem get?_drop_of_ne {key other : κ} (different : other ≠ key) (entries : List (κ × α)) :
    get? other (drop key entries) = get? other entries := by
  induction entries with
  | nil => rfl
  | cons entry rest ih =>
      by_cases same : entry.1 = key
      · rw [drop, if_pos same, get?, if_neg (same ▸ Ne.symm different)]
      · rw [drop, if_neg same, get?, get?, ih]

theorem sublist_drop (key : κ) (entries : List (κ × α)) :
    (drop key entries).Sublist entries := by
  induction entries with
  | nil => exact List.nil_sublist _
  | cons entry rest ih =>
      rw [drop]
      split
      · exact List.sublist_cons_self entry rest
      · exact ih.cons_cons entry

/-- Where no key occurs twice, taking a key out leaves the entries with other keys. -/
theorem drop_eq_filter {key : κ} {entries : List (κ × α)} (nodup : (keys entries).Nodup) :
    drop key entries = entries.filter fun entry => entry.1 ≠ key := by
  induction entries with
  | nil => rfl
  | cons entry rest ih =>
      rw [keys_cons, List.nodup_cons] at nodup
      by_cases same : entry.1 = key
      · have others : ∀ later ∈ rest, later.1 ≠ key := by
          intro later member equal
          exact nodup.1 (same ▸ equal ▸ mem_keys.mpr ⟨later.2, member⟩)
        rw [drop, if_pos same, List.filter_cons_of_neg (by simp [same]),
          List.filter_eq_self.mpr (by simpa using others)]
      · rw [drop, if_neg same, List.filter_cons_of_pos (by simpa using same), ih nodup.2]

/-- Put several entries into a collection, one after the other. -/
def putAll (known entries : List (κ × α)) : List (κ × α) :=
  entries.foldl (fun known entry => put entry.1 entry.2 known) known

@[simp] theorem putAll_nil (known : List (κ × α)) : putAll known [] = known := rfl

@[simp] theorem putAll_cons (known : List (κ × α)) (entry : κ × α) (rest : List (κ × α)) :
    putAll known (entry :: rest) = putAll (put entry.1 entry.2 known) rest := rfl

theorem ofList_eq_putAll (entries : List (κ × α)) : ofList entries = putAll [] entries := rfl

theorem nodup_keys_putAll {known : List (κ × α)} (nodup : (keys known).Nodup)
    (entries : List (κ × α)) : (keys (putAll known entries)).Nodup := by
  induction entries generalizing known with
  | nil => exact nodup
  | cons entry rest ih => exact ih (nodup_keys_put nodup entry.1 entry.2)

theorem nodup_keys_ofList (entries : List (κ × α)) : (keys (ofList entries)).Nodup := by
  rw [ofList_eq_putAll]
  exact nodup_keys_putAll (by simp) entries

/-- Of the entries that are put in, the last one with a key counts. -/
theorem get?_putAll (key : κ) (known entries : List (κ × α)) :
    get? key (putAll known entries) = (get? key (ofList entries)).or (get? key known) := by
  induction entries generalizing known with
  | nil => rfl
  | cons entry rest ih =>
      rw [ofList_eq_putAll, putAll_cons, putAll_cons, ih, ih, Option.or_assoc]
      by_cases same : entry.1 = key
      · subst same
        rw [get?_put_self, get?_put_self, Option.some_or]
      · rw [get?_put_of_ne same, get?_put_of_ne same, get?_nil, Option.none_or]

theorem mem_of_mem_putAll {entry : κ × α} {known entries : List (κ × α)}
    (member : entry ∈ putAll known entries) : entry ∈ known ∨ entry ∈ entries := by
  induction entries generalizing known with
  | nil => exact Or.inl member
  | cons next rest ih =>
      rcases ih member with early | late
      · rcases mem_of_mem_put early with new | old
        · exact Or.inr (new ▸ List.mem_cons_self)
        · exact Or.inl old
      · exact Or.inr (List.mem_cons_of_mem next late)

theorem mem_of_mem_ofList {entry : κ × α} {entries : List (κ × α)}
    (member : entry ∈ ofList entries) : entry ∈ entries := by
  rcases mem_of_mem_putAll member with none | given
  · exact absurd none List.not_mem_nil
  · exact given

theorem keys_putAll_sublist (known entries : List (κ × α)) :
    (keys (putAll known entries)).Sublist (keys known ++ keys entries) := by
  induction entries generalizing known with
  | nil => simp
  | cons entry rest ih =>
      refine (ih (put entry.1 entry.2 known)).trans ?_
      rw [keys_put, keys_cons]
      split
      · exact (List.Sublist.refl (keys known)).append (List.sublist_cons_self entry.1 (keys rest))
      · simp

/-- The keys of a collection come in the order of their first entries. -/
theorem keys_ofList_sublist (entries : List (κ × α)) :
    (keys (ofList entries)).Sublist (keys entries) :=
  keys_putAll_sublist [] entries

theorem putAll_of_nodup {known entries : List (κ × α)}
    (nodup : (keys (known ++ entries)).Nodup) : putAll known entries = known ++ entries := by
  induction entries generalizing known with
  | nil => simp
  | cons entry rest ih =>
      have fresh : entry.1 ∉ keys known := by
        rw [keys_append, keys_cons, List.nodup_append] at nodup
        intro member
        exact nodup.2.2 _ member _ List.mem_cons_self rfl
      rw [putAll_cons, put_of_notMem fresh, ih (by simpa using nodup), List.append_assoc,
        List.singleton_append]

/-- A collection made of entries without a repeated key holds just these entries. -/
theorem ofList_of_nodup {entries : List (κ × α)} (nodup : (keys entries).Nodup) :
    ofList entries = entries :=
  putAll_of_nodup nodup

end Assoc

/-! ## The first of the least -/

section Least

variable {α β : Type} [Preorder β] {rank : α → β} {values : List α} {winner : α}

/-- A value of least rank, and the first one of that rank. -/
def IsFirstLeast (rank : α → β) (values : List α) (winner : α) : Prop :=
  ∃ front back, values = front ++ winner :: back ∧
    (∀ value ∈ front, rank winner < rank value) ∧ ∀ value ∈ back, rank winner ≤ rank value

namespace IsFirstLeast

theorem mem (least : IsFirstLeast rank values winner) : winner ∈ values := by
  obtain ⟨front, back, rfl, -, -⟩ := least
  simp

theorem le (least : IsFirstLeast rank values winner) :
    ∀ value ∈ values, rank winner ≤ rank value := by
  obtain ⟨front, back, rfl, before, after⟩ := least
  intro value member
  rcases List.mem_append.mp member with early | late
  · exact (before value early).le
  · rcases List.mem_cons.mp late with same | later
    · exact same ▸ le_refl (rank winner)
    · exact after value later

/-- A list has at most one first value of least rank. -/
theorem unique {other : α} (first : IsFirstLeast rank values winner)
    (second : IsFirstLeast rank values other) : other = winner := by
  have bound := first.le other second.mem
  have bound' := second.le winner first.mem
  obtain ⟨front, back, split, before, -⟩ := first
  obtain ⟨front', back', split', before', -⟩ := second
  rw [split] at split'
  rcases List.append_eq_append_iff.mp split' with ⟨between, ends, starts⟩ | ⟨between, ends, starts⟩
  · cases between with
    | nil =>
        rw [List.nil_append] at starts
        exact (List.cons.inj starts).1.symm
    | cons next between =>
        have early : winner ∈ front' := by
          rw [ends, (List.cons.inj starts).1]
          simp
        exact absurd (before' winner early) bound.not_gt
  · cases between with
    | nil =>
        rw [List.nil_append] at starts
        exact (List.cons.inj starts).1
    | cons next between =>
        have early : other ∈ front := by
          rw [ends, (List.cons.inj starts).1]
          simp
        exact absurd (before other early) bound'.not_gt

end IsFirstLeast

end Least

namespace IsFirstLeast

variable {α : Type} {rank : α → Nat} {preferred : α → Bool} {values : List α} {winner : α}

/-- The rank of a value among which the preferred ones come first. -/
def preferring (preferred : α → Bool) (rank : α → Nat) (value : α) : Bool ×ₗ Nat :=
  toLex (!preferred value, rank value)

theorem preferring_lt_of_preferred {value : α} (good : preferred winner = true)
    (bad : preferred value = false) :
    preferring preferred rank winner < preferring preferred rank value := by
  simp [preferring, Prod.Lex.toLex_lt_toLex, good, bad]

theorem preferring_lt_iff {value : α} (alike : preferred winner = preferred value) :
    preferring preferred rank winner < preferring preferred rank value ↔
      rank winner < rank value := by
  simp [preferring, Prod.Lex.toLex_lt_toLex, alike]

theorem preferring_le_iff {value : α} (alike : preferred winner = preferred value) :
    preferring preferred rank winner ≤ preferring preferred rank value ↔
      rank winner ≤ rank value := by
  simp [preferring, Prod.Lex.toLex_le_toLex, alike]

/-- Among the preferred values the first of the least is the first of the least of all. -/
theorem of_filter (least : IsFirstLeast rank (values.filter preferred) winner) :
    IsFirstLeast (preferring preferred rank) values winner := by
  have good : preferred winner = true := (List.mem_filter.mp least.mem).2
  obtain ⟨front, back, split, before, after⟩ := least
  obtain ⟨early, rest, rfl, rfl, ending⟩ := List.filter_eq_append_iff.mp split
  obtain ⟨dropped, late, rfl, bad, -, rfl⟩ := List.filter_eq_cons_iff.mp ending
  refine ⟨early ++ dropped, late, by simp, ?_, ?_⟩
  · intro value member
    cases kept : preferred value with
    | false => exact preferring_lt_of_preferred good kept
    | true =>
        rcases List.mem_append.mp member with member | member
        · exact (preferring_lt_iff (good.trans kept.symm)).mpr
            (before value (List.mem_filter.mpr ⟨member, kept⟩))
        · exact absurd kept (bad value member)
  · intro value member
    cases kept : preferred value with
    | false => exact (preferring_lt_of_preferred good kept).le
    | true =>
        exact (preferring_le_iff (good.trans kept.symm)).mpr
          (after value (List.mem_filter.mpr ⟨member, kept⟩))

/-- Where nothing is preferred, the first of the least is the first of the least of all. -/
theorem of_none_preferred (none : ∀ value ∈ values, preferred value = false)
    (least : IsFirstLeast rank values winner) :
    IsFirstLeast (preferring preferred rank) values winner := by
  have alike : ∀ value ∈ values, preferred winner = preferred value := by
    intro value member
    rw [none value member, none winner least.mem]
  obtain ⟨front, back, rfl, before, after⟩ := least
  refine ⟨front, back, rfl, ?_, ?_⟩
  · intro value member
    exact (preferring_lt_iff (alike value (by simp [member]))).mpr (before value member)
  · intro value member
    exact (preferring_le_iff (alike value (by simp [member]))).mpr (after value member)

end IsFirstLeast

/-! ## Stable sorting -/

namespace Stable

variable {α β : Type}

section Relation

variable (related : α → α → Prop) [DecidableRel related]

theorem insert_eq_orderedInsert (value : α) (values : List α) :
    insert (fun left right => related left right) value values =
      values.orderedInsert related value := by
  induction values with
  | nil => rfl
  | cons next rest ih => simp [insert, ih]

theorem sort_eq_insertionSort (values : List α) :
    sort (fun left right => related left right) values = values.insertionSort related := by
  induction values with
  | nil => rfl
  | cons value rest ih =>
      rw [List.insertionSort_cons, ← ih, ← insert_eq_orderedInsert]
      rfl

end Relation

variable (rank : α → Nat)

theorem sortOn_eq_insertionSort (values : List α) :
    sortOn rank values = values.insertionSort fun left right => rank left ≤ rank right :=
  sort_eq_insertionSort _ values

theorem perm_sortOn (values : List α) : (sortOn rank values).Perm values := by
  rw [sortOn_eq_insertionSort]
  exact List.perm_insertionSort _ values

@[simp] theorem mem_sortOn {value : α} {values : List α} :
    value ∈ sortOn rank values ↔ value ∈ values :=
  (perm_sortOn rank values).mem_iff

theorem pairwise_sortOn (values : List α) :
    (sortOn rank values).Pairwise fun left right => rank left ≤ rank right := by
  rw [sortOn_eq_insertionSort]
  have total : Std.Total fun left right : α => rank left ≤ rank right :=
    ⟨fun left right => Nat.le_total (rank left) (rank right)⟩
  have trans : IsTrans α fun left right => rank left ≤ rank right :=
    ⟨fun _ _ _ => Nat.le_trans⟩
  exact List.pairwise_insertionSort _ values

theorem sortOn_cons (value : α) (rest : List α) :
    sortOn rank (value :: rest) =
      insert (fun left right => rank left ≤ rank right) value (sortOn rank rest) := rfl

theorem map_sortOn (image : β → α) (values : List β) :
    sortOn rank (values.map image) = (sortOn (rank ∘ image) values).map image := by
  rw [sortOn_eq_insertionSort, sortOn_eq_insertionSort]
  exact (List.map_insertionSort _ _ image values (by simp)).symm

theorem insert_of_le {value : α} {values : List α}
    (least : ∀ next ∈ values, rank value ≤ rank next) :
    insert (fun left right => rank left ≤ rank right) value values = value :: values := by
  cases values with
  | nil => rfl
  | cons next rest => simp [insert, least next]

theorem filter_insert (keep : α → Bool) (value : α) {values : List α}
    (sorted : values.Pairwise fun left right => rank left ≤ rank right) :
    (insert (fun left right => rank left ≤ rank right) value values).filter keep =
      if keep value then
        insert (fun left right => rank left ≤ rank right) value (values.filter keep)
      else values.filter keep := by
  induction values with
  | nil => cases kept : keep value <;> simp [insert, kept]
  | cons next rest ih =>
      obtain ⟨least, sorted⟩ := List.pairwise_cons.mp sorted
      by_cases le : rank value ≤ rank next
      · have least : ∀ other ∈ (next :: rest).filter keep, rank value ≤ rank other := by
          intro other member
          rcases List.mem_cons.mp (List.mem_filter.mp member).1 with same | later
          · exact same ▸ le
          · exact le.trans (least other later)
        rw [insert_of_le rank least, insert, if_pos (by simpa using le), List.filter_cons]
      · rw [insert, if_neg (by simpa using le), List.filter_cons, List.filter_cons, ih sorted]
        cases keep value <;> cases keep next <;> simp [insert, le]

/-- Sorting keeps the order of the values that are kept by a filter, so the two can be exchanged. -/
theorem filter_sortOn (keep : α → Bool) (values : List α) :
    (sortOn rank values).filter keep = sortOn rank (values.filter keep) := by
  induction values with
  | nil => rfl
  | cons value rest ih =>
      rw [sortOn_cons, filter_insert rank keep value (pairwise_sortOn rank rest), ih,
        List.filter_cons]
      split
      · rw [sortOn_cons]
      · rfl

/-- What holds between values of equal rank in their order still holds after sorting. -/
theorem pairwise_ties_sortOn {related : α → α → Prop} {values : List α}
    (ties : values.Pairwise fun left right => rank left = rank right → related left right) :
    (sortOn rank values).Pairwise fun left right =>
      rank left = rank right → related left right := by
  induction values with
  | nil => exact List.Pairwise.nil
  | cons value rest ih =>
      obtain ⟨first, ties⟩ := List.pairwise_cons.mp ties
      rw [sortOn_cons]
      have within : ∀ next ∈ sortOn rank rest, rank value = rank next → related value next := by
        intro next member
        exact first next ((mem_sortOn rank).mp member)
      have sorted := ih ties
      generalize sortOn rank rest = later at within sorted
      induction later with
      | nil => simp [insert]
      | cons next later inner =>
          obtain ⟨head, tail⟩ := List.pairwise_cons.mp sorted
          rw [insert]
          split
          · exact List.pairwise_cons.mpr ⟨within, sorted⟩
          · rename_i greater
            refine List.pairwise_cons.mpr ⟨?_, inner
              (fun other member => within other (List.mem_cons_of_mem next member)) tail⟩
            intro other member
            rw [insert_eq_orderedInsert, List.mem_orderedInsert] at member
            rcases member with same | member
            -- The value passes only those of smaller rank.
            · subst same
              intro tie
              exact absurd (by simp [tie]) greater
            · exact head other member

/-- The value in front of a sorted list is the first of those with the least rank. -/
theorem isFirstLeast_of_head? {values : List α} {winner : α}
    (head : (sortOn rank values).head? = some winner) : IsFirstLeast rank values winner := by
  induction values generalizing winner with
  | nil => simp [sortOn] at head
  | cons value rest ih =>
      rw [sortOn_cons] at head
      cases sorted : sortOn rank rest with
      | nil =>
          have none : rest = [] := by
            have perm := perm_sortOn rank rest
            rw [sorted] at perm
            exact perm.nil_eq.symm
          rw [sorted] at head
          rw [none, ← Option.some.inj head]
          exact ⟨[], [], rfl, by simp, by simp⟩
      | cons next later =>
          have least := ih (by rw [sorted, List.head?_cons])
          rw [sorted, insert] at head
          split at head
          · rename_i le
            rw [← Option.some.inj head]
            refine ⟨[], rest, rfl, by simp, ?_⟩
            intro other member
            exact (of_decide_eq_true le).trans (least.le other member)
          · rename_i greater
            rw [← Option.some.inj head]
            obtain ⟨front, back, rfl, before, after⟩ := least
            refine ⟨value :: front, back, rfl, ?_, after⟩
            intro other member
            rcases List.mem_cons.mp member with same | member
            · rw [same]
              simpa using greater
            · exact before other member

/-! ### Sorting what is read off some values -/

/-- What is read off some values, each result with the position of the value. -/
def numbered (read : β → Option α) (values : List β) : List (Nat × α) :=
  values.zipIdx.filterMap fun entry => (read entry.1).map fun result => (entry.2, result)

variable (read : β → Option α) (values : List β)

theorem map_snd_numbered : (numbered read values).map Prod.snd = values.filterMap read := by
  have forget (entry : β × Nat) :
      ((read entry.1).map fun result => (entry.2, result)).map Prod.snd = read entry.1 := by
    rw [Option.map_map]
    exact Option.map_id'
  simp only [numbered, List.map_filterMap, forget]
  rw [← Function.comp_def, ← List.filterMap_map, List.zipIdx_map_fst]

theorem pairwise_fst_numbered :
    (numbered read values).Pairwise fun first later => first.1 < later.1 := by
  have positions : values.zipIdx.Pairwise fun first later => first.2 < later.2 := by
    rw [← List.pairwise_map, List.zipIdx_map_snd]
    exact List.pairwise_lt_range'
  rw [numbered, List.pairwise_filterMap]
  apply positions.imp
  intro entry entry' less first found later found'
  obtain ⟨_, -, rfl⟩ := Option.map_eq_some_iff.mp found
  obtain ⟨_, -, rfl⟩ := Option.map_eq_some_iff.mp found'
  exact less

theorem mem_numbered {index : Nat} {result : α} :
    (index, result) ∈ numbered read values ↔
      ∃ value, values[index]? = some value ∧ read value = some result := by
  rw [numbered, List.mem_filterMap]
  constructor
  · rintro ⟨⟨value, index⟩, member, found⟩
    obtain ⟨_, result, same⟩ := Option.map_eq_some_iff.mp found
    obtain ⟨rfl, rfl⟩ := Prod.mk.inj same
    exact ⟨value, List.mem_zipIdx_iff_getElem?.mp member, result⟩
  · rintro ⟨value, member, found⟩
    exact ⟨(value, index), List.mem_zipIdx_iff_getElem?.mpr member, by rw [found]; rfl⟩

/-- Sorted results, each with the position of what it was read off: no position occurs twice, and
results of equal rank stand in the order of their positions. -/
theorem exists_numbered_sortOn :
    ∃ placed : List (Nat × α),
      placed.map Prod.snd = sortOn rank (values.filterMap read) ∧
      (placed.map Prod.fst).Nodup ∧
      (placed.Pairwise fun first later => rank first.2 < rank later.2 ∨
        rank first.2 = rank later.2 ∧ first.1 < later.1) ∧
      ∀ index result, (index, result) ∈ placed ↔
        ∃ value, values[index]? = some value ∧ read value = some result := by
  refine ⟨sortOn (rank ∘ Prod.snd) (numbered read values), ?_, ?_, ?_, ?_⟩
  · rw [← map_sortOn, map_snd_numbered]
  · rw [((perm_sortOn _ _).map Prod.fst).nodup_iff, List.Nodup, List.pairwise_map]
    exact (pairwise_fst_numbered read values).imp Nat.ne_of_lt
  · have sorted := pairwise_sortOn (rank ∘ Prod.snd) (numbered read values)
    have ties : (sortOn (rank ∘ Prod.snd) (numbered read values)).Pairwise fun first later =>
        rank first.2 = rank later.2 → first.1 < later.1 := by
      apply pairwise_ties_sortOn
      refine (pairwise_fst_numbered read values).imp ?_
      exact fun less _ => less
    refine (sorted.and ties).imp ?_
    rintro first later ⟨le, tie⟩
    rcases Nat.lt_or_eq_of_le le with less | same
    · exact Or.inl less
    · exact Or.inr ⟨same, tie same⟩
  · intro index result
    rw [mem_sortOn, mem_numbered]

end Stable

end HarnessIndex
