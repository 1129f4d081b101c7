import HarnessIndex.Proofs.Harness.Choosing
import HarnessIndex.Proofs.Harness.Merging
import HarnessIndex.Reader.Source

/-!
# Which function a record describes

Of the functions with one name that are harnesses, the index describes the least in this order: a
declared one before one that is not, then by the first byte, then from top to bottom. What it says
of that function is read off the function alone, and never off one that lost its name to it.
-/

namespace HarnessIndex.Harness

open Syntax Attribute

/-- The harnesses of a file with a name, from top to bottom. -/
def harnessesNamed (root : Node) (name : Text) : List Item :=
  (harnessItems root).filter fun item => item.node.name? = some name

/-- The rank of a function among those with its name. -/
def precedence (item : Item) : Bool ×ₗ Nat :=
  IsFirstLeast.preferring isDeclared (fun item => item.node.startByte) item

/-- A record says of a function what stands there. -/
structure Records (record : Metadata) (item : Item) : Prop where
  startLine : record.startLine = item.node.startLine
  endLine : record.endLine = item.node.endLine
  attributes : record.attributes = classifyAll item.node
  modulePath : record.modulePath = item.modulePath
  doc : record.doc = item.node.doc?
  entryPoint : record.entryPoint = (invocations item.node).head?

theorem records_describe (totalProofs : Nat) (item : Item) :
    Records (describe totalProofs (candidateOf item)) item :=
  ⟨rfl, rfl, rfl, rfl, rfl, rfl⟩

/-- The harnesses with a name among the joined candidates, in the order in which they compete. -/
theorem namesakes_join {root : Node} (distinct : DistinctSpans root) (name : Text) :
    namesakes name (join (attributeHarnesses root) (invocationHarnesses root)) =
      (Stable.sortOn (fun item => item.node.startByte)
        ((harnessesNamed root name).filter isDeclared ++
          (harnessesNamed root name).filter fun item => !isDeclared item)).map candidateOf := by
  have named : ∀ item ∈ harnessItems root,
      decide ((candidateOf item).name = name) = decide (item.node.name? = some name) := by
    intro item member
    simp [name?_of_mem_harnessItems member]
  have kept (keep : Item → Bool) :
      ((harnessItems root).filter keep).filter (fun item => (candidateOf item).name = name) =
        (harnessesNamed root name).filter keep := by
    rw [harnessesNamed, List.filter_filter, List.filter_filter]
    apply List.filter_congr
    intro item member
    rw [named item member, Bool.and_comm]
  rw [namesakes, join_eq distinct, List.filter_map]
  congr 1
  refine (Stable.filter_sortOn _ _ _).trans ?_
  rw [List.filter_append]
  congr 2
  · exact kept _
  · exact kept _

/-- The best of some functions, when the declared ones come first and all are put in source order,
is the first of the least. -/
theorem isFirstLeast_of_best? {items : List Item} {candidate : Candidate}
    (best : best? ((Stable.sortOn (fun item => item.node.startByte)
      (items.filter isDeclared ++ items.filter fun item => !isDeclared item)).map candidateOf) =
        some candidate) :
    ∃ winner, candidate = candidateOf winner ∧ IsFirstLeast precedence items winner := by
  have declaredAmong : (items.filter isDeclared ++ items.filter fun item => !isDeclared item).filter
      isDeclared = items.filter isDeclared := by
    rw [List.filter_append, List.filter_filter, List.filter_filter]
    simp
  rw [best?, List.find?_map] at best
  rcases Option.or_eq_some_iff.mp best with declared | ⟨none, first⟩
  · obtain ⟨winner, found, rfl⟩ := Option.map_eq_some_iff.mp declared
    refine ⟨winner, rfl, ?_⟩
    have head := (List.head?_filter ..).trans found
    rw [Stable.filter_sortOn] at head
    exact IsFirstLeast.of_filter (Stable.isFirstLeast_of_head? _ (declaredAmong ▸ head))
  · have undeclared : ∀ item ∈ items, isDeclared item = false := by
      intro item member
      have absent := List.find?_eq_none.mp (Option.map_eq_none_iff.mp none) item
      cases declared : isDeclared item with
      | false => rfl
      | true =>
          refine absurd declared (absent ?_)
          simp [member, declared]
    have emptyFront : items.filter isDeclared = [] :=
      List.filter_eq_nil_iff.mpr fun item member => by simp [undeclared item member]
    have wholeBack : (items.filter fun item => !isDeclared item) = items :=
      List.filter_eq_self.mpr fun item member => by simp [undeclared item member]
    rw [emptyFront, wholeBack, List.nil_append, List.head?_map] at first
    obtain ⟨winner, found, rfl⟩ := Option.map_eq_some_iff.mp first
    exact ⟨winner, rfl, IsFirstLeast.of_none_preferred undeclared
      (Stable.isFirstLeast_of_head? _ found)⟩

/-- A candidate that keeps its name is the complete candidate of the function that comes first among
those with the name. -/
theorem exists_of_mem_winners {root : Node} (distinct : DistinctSpans root) {candidate : Candidate}
    (member : candidate ∈ winners root) :
    ∃ winner, candidate = candidateOf winner ∧
      IsFirstLeast precedence (harnessesNamed root candidate.name) winner := by
  rw [mem_winners, namesakes_join distinct] at member
  exact isFirstLeast_of_best? member

/-- A name is held as soon as one harness has it. -/
theorem exists_winner {root : Node} (distinct : DistinctSpans root) {name : Text}
    (named : ∃ item ∈ harnessItems root, item.node.name? = some name) :
    ∃ candidate ∈ winners root, candidate.name = name := by
  obtain ⟨item, member, named⟩ := named
  have competing : candidateOf item ∈
      namesakes name (join (attributeHarnesses root) (invocationHarnesses root)) := by
    have known : item ∈ harnessesNamed root name := List.mem_filter.mpr ⟨member, by simp [named]⟩
    rw [namesakes_join distinct]
    apply List.mem_map_of_mem
    rw [Stable.mem_sortOn]
    cases declared : isDeclared item <;> simp [known, declared]
  obtain ⟨candidate, best⟩ := exists_best? (List.ne_nil_of_mem competing)
  have same : candidate.name = name :=
    of_decide_eq_true (List.mem_filter.mp (mem_of_best? best)).2
  refine ⟨candidate, ?_, same⟩
  rw [mem_winners, same]
  exact best

/-- The index has a record for a name exactly when a harness has the name, one record for each name,
and the record tells of the harness that comes first among those with the name. -/
theorem collect_records_first (root : Node) (distinct : DistinctSpans root) :
    (Assoc.keys (collect root).1).Nodup ∧ ∀ name : Text,
      (name ∈ Assoc.keys (collect root).1 ↔
        ∃ item ∈ harnessItems root, item.node.name? = some name) ∧
      ∀ record, Assoc.get? name (collect root).1 = some record →
        ∃! winner, IsFirstLeast precedence (harnessesNamed root name) winner ∧
          Records record winner := by
  refine ⟨nodup_keys_collect root, ?_⟩
  intro name
  constructor
  · rw [collect_index, keys_describeAll, List.mem_map]
    constructor
    · rintro ⟨candidate, member, rfl⟩
      obtain ⟨winner, -, first⟩ := exists_of_mem_winners distinct member
      obtain ⟨harness, named⟩ := List.mem_filter.mp first.mem
      exact ⟨winner, harness, of_decide_eq_true named⟩
    · exact exists_winner distinct
  · intro record found
    have member := Assoc.mem_of_get? found
    rw [collect_index, describeAll] at member
    obtain ⟨candidate, holds, same⟩ := List.mem_map.mp member
    obtain ⟨rfl, rfl⟩ := Prod.mk.inj same
    obtain ⟨winner, complete, first⟩ := exists_of_mem_winners distinct holds
    refine ⟨winner, ⟨first, ?_⟩, ?_⟩
    · exact complete ▸ records_describe _ winner
    · rintro other ⟨least, -⟩
      exact first.unique least

/-- A file in which a name is first used by an undeclared harness, then by two declared ones. -/
def shadowed : Node :=
  (Reader.parse
    "fn f(){check!()}mod m{#[kani::proof]fn f(){}}#[kani::proof]fn f(){check!()}").root

theorem collect_records_first_shadowed :
    DistinctSpans shadowed ∧ Assoc.keys (collect shadowed).1 = ["f".toList] ∧
      ∃ record, Assoc.get? "f".toList (collect shadowed).1 = some record ∧
        record.modulePath = ["m".toList] ∧ record.entryPoint = none ∧
        ∃! winner, IsFirstLeast precedence (harnessesNamed shadowed "f") winner ∧
          Records record winner := by
  have facts : DistinctSpans shadowed ∧ Assoc.keys (collect shadowed).1 = ["f".toList] ∧
      (Assoc.get? "f".toList (collect shadowed).1).map (fun record =>
        (record.modulePath, record.entryPoint)) = some (["m".toList], none) := by
    decide +kernel
  obtain ⟨distinct, names, shown⟩ := facts
  obtain ⟨record, found, same⟩ := Option.map_eq_some_iff.mp shown
  obtain ⟨path, entry⟩ := Prod.mk.inj same
  exact ⟨distinct, names, record, found, path, entry,
    ((collect_records_first shadowed distinct).2 "f").2 record found⟩

end HarnessIndex.Harness
