import HarnessIndex.Proofs.Ordered
import HarnessIndex.Replay.Locate
import Mathlib.Algebra.GroupWithZero.Nat
import Mathlib.Data.List.Induction

/-!
# Grouping divides the records

Records are grouped by adding them one after the other to the group of their harness. The groups
then stand in the order in which their harnesses first come, each holds the records of its harness
in their order, and no record is lost or counted twice.
-/

namespace HarnessIndex.Replay

/-- The harnesses that some records belong to, as they come. -/
def originsOf (records : List Record) : List Text :=
  records.map Record.originatingHarnessName

/-- The records of a harness, as they come. -/
def recordsOf (harness : Text) (records : List Record) : List Record :=
  records.filter fun record => record.originatingHarnessName = harness

/-- Groups divide records by their harnesses. -/
structure Divides (records : List Record) (groups : Groups) : Prop where
  /-- A harness that comes earlier has its group earlier. -/
  firstSeen : (Assoc.keys groups).Pairwise fun harness later =>
    (originsOf records).idxOf harness < (originsOf records).idxOf later
  harness : ∀ harness, harness ∈ Assoc.keys groups ↔ harness ∈ originsOf records
  group : ∀ harness group, (harness, group) ∈ groups → group = recordsOf harness records

variable {records : List Record} {groups : Groups} {record : Record} {harness : Text}

theorem originsOf_append (front back : List Record) :
    originsOf (front ++ back) = originsOf front ++ originsOf back :=
  List.map_append

theorem recordsOf_append_self :
    recordsOf record.originatingHarnessName (records ++ [record]) =
      recordsOf record.originatingHarnessName records ++ [record] := by
  simp [recordsOf]

theorem recordsOf_append_of_ne (different : record.originatingHarnessName ≠ harness) :
    recordsOf harness (records ++ [record]) = recordsOf harness records := by
  simp [recordsOf, different]

theorem recordsOf_eq_nil : recordsOf harness records = [] ↔ harness ∉ originsOf records := by
  simp [recordsOf, originsOf]

namespace Divides

theorem nodup (divides : Divides records groups) : (Assoc.keys groups).Nodup := by
  apply divides.firstSeen.imp
  rintro harness _ less rfl
  exact Nat.lt_irrefl _ less

/-- What is found under a harness is its records, none when it has no group. -/
theorem getD_get? (divides : Divides records groups) (harness : Text) :
    (Assoc.get? harness groups).getD [] = recordsOf harness records := by
  cases found : Assoc.get? harness groups with
  | some group => exact divides.group harness group (Assoc.mem_of_get? found)
  | none =>
      rw [Assoc.get?_eq_none, divides.harness] at found
      exact (recordsOf_eq_nil.mpr found).symm

theorem ne_nil (divides : Divides records groups) {group : List Record}
    (member : (harness, group) ∈ groups) : group ≠ [] := by
  rw [divides.group harness group member, Ne, recordsOf_eq_nil, not_not, ← divides.harness]
  exact Assoc.mem_keys.mpr ⟨group, member⟩

theorem addToGroup (divides : Divides records groups) (record : Record) :
    Divides (records ++ [record]) (addToGroup groups record) := by
  have grown : Replay.addToGroup groups record = Assoc.put record.originatingHarnessName
      (recordsOf record.originatingHarnessName (records ++ [record])) groups := by
    rw [Replay.addToGroup, divides.getD_get?, recordsOf_append_self]
  have names : originsOf (records ++ [record]) =
      originsOf records ++ [record.originatingHarnessName] :=
    originsOf_append ..
  rw [grown]
  refine ⟨?_, ?_, ?_⟩
  · -- The first places of the harnesses that have been seen do not change.
    have kept : (Assoc.keys groups).Pairwise fun harness later =>
        (originsOf (records ++ [record])).idxOf harness <
          (originsOf (records ++ [record])).idxOf later := by
      refine divides.firstSeen.imp_of_mem ?_
      intro harness later known known' less
      rw [divides.harness] at known known'
      rwa [names, List.idxOf_append_of_mem known, List.idxOf_append_of_mem known']
    rw [Assoc.keys_put]
    split
    · exact kept
    · rename_i fresh
      refine List.pairwise_append.mpr ⟨kept, List.pairwise_singleton _ _, ?_⟩
      intro harness known last same
      rw [divides.harness] at known fresh
      rw [List.mem_singleton.mp same, names, List.idxOf_append_of_mem known,
        List.idxOf_append_of_notMem fresh]
      exact Nat.lt_add_right _ (List.idxOf_lt_length_iff.mpr known)
  · intro harness
    rw [Assoc.keys_put, names, List.mem_append, List.mem_singleton, ← divides.harness]
    split
    · rename_i known
      exact ⟨Or.inl, fun seen => seen.elim id (· ▸ known)⟩
    · rw [List.mem_append, List.mem_singleton]
  · intro harness group member
    rw [← Assoc.get?_eq_some (Assoc.nodup_keys_put divides.nodup _ _)] at member
    by_cases same : record.originatingHarnessName = harness
    · subst same
      rw [Assoc.get?_put_self] at member
      exact (Option.some.inj member).symm
    · rw [Assoc.get?_put_of_ne same] at member
      rw [recordsOf_append_of_ne same]
      exact divides.group harness group (Assoc.mem_of_get? member)

end Divides

theorem divides_nil : Divides [] [] :=
  ⟨List.Pairwise.nil, fun _ => Iff.rfl, fun _ _ member => absurd member List.not_mem_nil⟩

/-- Grouping divides the records. -/
theorem divides_groupByHarness (records : List Record) :
    Divides records (groupByHarness records) := by
  induction records using List.reverseRecOn with
  | nil => exact divides_nil
  | append_singleton records record ih =>
      rw [groupByHarness, List.foldl_append]
      exact ih.addToGroup record

/-! ## How many records there are -/

theorem countP_origin_cons {rest : List Text} (fresh : harness ∉ rest) (records : List Record) :
    (records.countP fun record => record.originatingHarnessName ∈ harness :: rest) =
      (recordsOf harness records).length +
        records.countP fun record => record.originatingHarnessName ∈ rest := by
  rw [recordsOf, ← List.countP_eq_length_filter]
  induction records with
  | nil => rfl
  | cons record records ih =>
      simp only [List.countP_cons, decide_eq_true_eq, List.mem_cons] at ih ⊢
      by_cases here : record.originatingHarnessName = harness
      · simp only [here, fresh, true_or, if_true, if_false]
        omega
      · simp only [here, false_or, if_false]
        omega

/-- When every harness is listed once, the numbers of their records add up to that of the records
that belong to one of them. -/
theorem sum_length_recordsOf {harnesses : List Text} (nodup : harnesses.Nodup)
    (records : List Record) :
    (harnesses.map fun harness => (recordsOf harness records).length).sum =
      records.countP fun record => record.originatingHarnessName ∈ harnesses := by
  induction harnesses with
  | nil => simp
  | cons harness rest ih =>
      obtain ⟨fresh, nodup⟩ := List.nodup_cons.mp nodup
      rw [List.map_cons, List.sum_cons, ih nodup, countP_origin_cons fresh]

namespace Divides

theorem sum_length (divides : Divides records groups) :
    (groups.map fun entry => entry.2.length).sum = records.length := by
  have lengths : (groups.map fun entry => entry.2.length) =
      (Assoc.keys groups).map fun harness => (recordsOf harness records).length := by
    rw [Assoc.keys, List.map_map]
    apply List.map_congr_left
    intro entry member
    exact congrArg List.length (divides.group entry.1 entry.2 member)
  rw [lengths, sum_length_recordsOf divides.nodup, List.countP_eq_length]
  intro record member
  rw [decide_eq_true_iff, divides.harness]
  exact List.mem_map_of_mem member

end Divides

end HarnessIndex.Replay
