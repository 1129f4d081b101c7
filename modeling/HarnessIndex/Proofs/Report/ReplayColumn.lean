import HarnessIndex.Proofs.Harness.Choosing
import HarnessIndex.Proofs.Replay.Groups
import HarnessIndex.Reader.Source
import HarnessIndex.Report.HarnessTable

/-!
# The column of generated tests

The table of harnesses has a column with the number of generated tests of each harness. The tests
are looked up in their groups by the name of the harness, and the groups divide the tests, so the
column counts every test whose harness is in the table once, and no other.
-/

namespace HarnessIndex.Report

open Replay (Record Divides recordsOf groupByHarness)

/-- The cells of a table below a header, one for each row. -/
def Table.cellsUnder (table : Table) (header : Text) : List (Option Text) :=
  table.rows.map fun row => row[table.columns.findIdx fun column => column.1 = header]?

/-- No name occurs twice in an index, and every harness stands under its own name. -/
structure IsKeyed (harnesses : Harness.Index) : Prop where
  nodup : (Assoc.keys harnesses).Nodup
  own : ∀ entry ∈ harnesses, entry.2.harnessName = entry.1

theorem isKeyed_collect (root : Syntax.Node) : IsKeyed (Harness.collect root).1 := by
  refine ⟨Harness.nodup_keys_collect root, ?_⟩
  intro entry member
  rw [Harness.collect_entries] at member
  obtain ⟨candidate, -, rfl⟩ := List.mem_map.mp member
  rfl

/-- The number of records that belong to each harness of an index. -/
def replayCounts (records : List Record) (harnesses : Harness.Index) : List Nat :=
  harnesses.map fun entry => (recordsOf entry.2.harnessName records).length

variable {records : List Record} {groups : Replay.Groups} {harnesses : Harness.Index}

theorem replayCount_eq (divides : Divides records groups) (harness : Harness.Metadata) :
    replayCount groups harness = (recordsOf harness.harnessName records).length := by
  rw [replayCount, divides.getD_get?]

theorem cellsUnder_replays (divides : Divides records groups) (harnesses : Harness.Index)
    (title : Option Text) :
    (harnessTable harnesses (some groups) title).cellsUnder "replays" =
      (replayCounts records harnesses).map fun count => some (Text.ofNat count) := by
  have last : ((harnessTable harnesses (some groups) title).columns.findIdx fun column =>
      column.1 = ("replays" : Text)) = 4 := by
    rfl
  rw [Table.cellsUnder, last, replayCounts, harnessTable, List.map_map, List.map_map]
  apply List.map_congr_left
  intro entry _
  rw [Function.comp_apply, Function.comp_apply, ← replayCount_eq divides]
  rfl

theorem sum_replayCounts (keyed : IsKeyed harnesses) (records : List Record) :
    (replayCounts records harnesses).sum =
      records.countP fun record => record.originatingHarnessName ∈ Assoc.keys harnesses := by
  have named : replayCounts records harnesses =
      (Assoc.keys harnesses).map fun harness => (recordsOf harness records).length := by
    rw [replayCounts, Assoc.keys, List.map_map]
    apply List.map_congr_left
    intro entry member
    rw [keyed.own entry member]
    rfl
  rw [named, Replay.sum_length_recordsOf keyed.nodup]

/-- Grouping divides the records, and the column of generated tests has the number of records of
each harness. In a keyed index these add up to the number of records whose harness is in it. -/
theorem replays_divided_and_counted (records : List Record) (harnesses : Harness.Index)
    (title : Option Text) :
    Divides records (groupByHarness records) ∧
      (∀ entry ∈ groupByHarness records, entry.2 ≠ []) ∧
      ((groupByHarness records).map fun entry => entry.2.length).sum = records.length ∧
      (harnessTable harnesses (some (groupByHarness records)) title).cellsUnder "replays" =
        (replayCounts records harnesses).map (fun count => some (Text.ofNat count)) ∧
      (IsKeyed harnesses → (replayCounts records harnesses).sum =
        records.countP fun record => record.originatingHarnessName ∈ Assoc.keys harnesses) := by
  have divides := Replay.divides_groupByHarness records
  refine ⟨divides, ?_, divides.sum_length, ?_, ?_⟩
  · exact fun entry member => divides.ne_nil member
  · exact cellsUnder_replays divides harnesses title
  · exact fun keyed => sum_replayCounts keyed records

def threeHarnesses : Harness.Index :=
  (Harness.collect
    (Reader.parse
      "#[kani::proof]fn f(){}#[kani::proof]fn g(){}#[kani::proof]fn h(){}").root).1

/-- Tests of two of these harnesses in turn, and one of a harness that is gone. -/
def interleavedRecords : List Record :=
  [⟨"g_1", "g", 4, 6, none⟩, ⟨"f_1", "f", 7, 9, none⟩, ⟨"x_1", "x", 10, 12, none⟩,
    ⟨"g_2", "g", 13, 15, none⟩]

theorem replays_divided_and_counted_interleaved :
    IsKeyed threeHarnesses ∧
      Assoc.keys (groupByHarness interleavedRecords) = ["g".toList, "f".toList, "x".toList] ∧
      (∀ entry ∈ groupByHarness interleavedRecords, entry.2 ≠ []) ∧
      (harnessTable threeHarnesses (some (groupByHarness interleavedRecords)) none).cellsUnder
        "replays" = [some "1".toList, some "2".toList, some "0".toList] ∧
      (interleavedRecords.countP fun record =>
        record.originatingHarnessName ∈ Assoc.keys threeHarnesses) = 3 := by
  have keyed : IsKeyed threeHarnesses := isKeyed_collect _
  obtain ⟨-, nonempty, -, cells, total⟩ :=
    replays_divided_and_counted interleavedRecords threeHarnesses none
  have counts : replayCounts interleavedRecords threeHarnesses = [1, 2, 0] := by
    decide +kernel
  refine ⟨keyed, by decide +kernel, nonempty, ?_, ?_⟩
  · rw [cells, counts]
    rfl
  · rw [← total keyed, counts]
    rfl

end HarnessIndex.Report
