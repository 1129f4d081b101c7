import HarnessIndex.Proofs.Harness.Candidates
import HarnessIndex.Proofs.Harness.Order
import HarnessIndex.Reader.Source

/-!
# The order of the index

The records of an index come by the first byte of their functions, so by their first lines. In a
well-formed tree that is also the order in which the functions are met from top to bottom, whatever
names collide: a candidate that takes over a name takes the place of the one that held it, but it is
declared, so it begins at no byte at which another candidate begins, and sorting puts it right.
-/

namespace HarnessIndex.Harness

open Syntax Attribute

/-! ## Candidates that begin at the same byte -/

/-- Of two candidates that begin at the same byte, the later one is met after the earlier one. -/
def TiesMet (first later : Candidate) : Prop :=
  first.node.startByte = later.node.startByte → MetAfter first.node later.node

/-- Sorted candidates are met one after the other when those that begin at the same byte are. -/
theorem pairwise_inSourceOrder {candidates : List Candidate} (ties : candidates.Pairwise TiesMet) :
    (inSourceOrder candidates).Pairwise fun first later => MetAfter first.node later.node := by
  have tied : (inSourceOrder candidates).Pairwise TiesMet :=
    Stable.pairwise_ties_sortOn (fun candidate : Candidate => candidate.node.startByte) ties
  apply ((Stable.pairwise_sortOn _ candidates).and tied).imp
  rintro first later ⟨starts, tie⟩
  rcases Nat.lt_or_eq_of_le starts with less | same
  · exact Or.inl less
  · exact tie same

section

variable {root : Node} (wellFormed : root.tree.WellFormed)
include wellFormed

/-- The declared candidates begin one after the other. -/
theorem pairwise_attributeHarnesses :
    (attributeHarnesses root).Pairwise fun first later =>
      first.node.startByte < later.node.startByte := by
  rw [attributeHarnesses_eq, List.pairwise_map, harnessItems, List.filter_filter]
  have met := List.pairwise_map.mp (pairwise_functionsOf wellFormed)
  refine (met.sublist List.filter_sublist).imp_of_mem ?_
  intro first later _ laterMem met
  have kept := (List.mem_filter.mp laterMem).2
  exact met.start_lt (Bool.and_eq_true_iff.mp kept).1

theorem nodup_declaredSpans :
    ((attributeHarnesses root).map fun candidate => candidate.node.span).Nodup := by
  rw [List.Nodup, List.pairwise_map]
  apply (pairwise_attributeHarnesses wellFormed).imp
  intro first later less same
  have starts : first.node.startByte = later.node.startByte :=
    congrArg (fun span : Syntax.Kind × Nat × Nat => span.2.1) same
  omega

/-- Of the invoking candidates that begin at the same byte, the longest comes first. -/
theorem pairwise_bySpan :
    (bySpan (invocationHarnesses root)).Pairwise fun first later =>
      first.1 ≠ later.1 ∧ (first.1.2.1 = later.1.2.1 → later.1.2.2 ≤ first.1.2.2) := by
  have met := List.pairwise_map.mp (pairwise_functionsOf wellFormed)
  have spans : (Assoc.keys ((invocationHarnesses root).map fun candidate =>
      (candidate.node.span, candidate))).Pairwise fun first later =>
        first.2.1 = later.2.1 → later.2.2 ≤ first.2.2 := by
    rw [Assoc.keys, List.map_map, List.pairwise_map, invocationHarnesses_eq, List.pairwise_map]
    refine ((met.sublist List.filter_sublist).sublist List.filter_sublist).imp ?_
    intro first later met tie
    rcases met with less | ⟨-, ends, -, -⟩
    · exact absurd tie (Nat.ne_of_lt less)
    · exact ends
  have sorted := spans.sublist (Assoc.keys_ofList_sublist _)
  have nodup := Assoc.nodup_keys_ofList ((invocationHarnesses root).map fun candidate =>
    (candidate.node.span, candidate))
  exact (List.pairwise_map.mp nodup).and (List.pairwise_map.mp sorted)

theorem pairwise_tiesMet_bySpan :
    (bySpan (invocationHarnesses root)).Pairwise fun first later => TiesMet first.2 later.2 := by
  refine (pairwise_bySpan wellFormed).imp_of_mem ?_
  rintro first later firstMem laterMem ⟨different, ends⟩ tie
  obtain ⟨firstKnown, firstSpan⟩ := mem_bySpan firstMem
  obtain ⟨laterKnown, laterSpan⟩ := mem_bySpan laterMem
  obtain ⟨item, itemMem, readOff⟩ := exists_of_mem_invocationHarnesses firstKnown
  obtain ⟨other, otherMem, readOff'⟩ := exists_of_mem_invocationHarnesses laterKnown
  rw [firstSpan, laterSpan] at different ends
  rw [readOff.node, readOff'.node] at different ends tie ⊢
  have apart : item.node ≠ other.node := by
    intro same
    exact different (by rw [same])
  rcases metAfter_or_metAfter wellFormed itemMem otherMem apart with met | met
  · exact met
  -- Met the other way round, the two would have the same span.
  · have le := ends tie
    rcases met with less | ⟨-, ge, -, -⟩
    · omega
    · refine absurd ?_ different
      have kind := (kind_and_source_of_mem_functionsOf itemMem).1
      have kind' := (kind_and_source_of_mem_functionsOf otherMem).1
      exact Prod.ext (kind.trans kind'.symm) (Prod.ext tie (Nat.le_antisymm ge le))

/-- A candidate that is left over is met after a declared one that begins at the same byte. -/
theorem tiesMet_of_leftOver {declared : Candidate} {entry : Spanned}
    (declaredMem : declared ∈ attributeHarnesses root)
    (entryMem : entry ∈ bySpan (invocationHarnesses root))
    (fresh : entry.1 ∉ (attributeHarnesses root).map fun candidate => candidate.node.span) :
    TiesMet declared entry.2 := by
  intro tie
  obtain ⟨entryKnown, span⟩ := mem_bySpan entryMem
  obtain ⟨item, itemMem, readOff, isDeclared⟩ := exists_of_mem_attributeHarnesses declaredMem
  obtain ⟨other, otherMem, readOff'⟩ := exists_of_mem_invocationHarnesses entryKnown
  have apart : item.node ≠ other.node := by
    intro same
    refine fresh (List.mem_map.mpr ⟨declared, declaredMem, ?_⟩)
    rw [span, readOff.node, readOff'.node, same]
  rw [readOff.node, readOff'.node] at tie ⊢
  rcases metAfter_or_metAfter wellFormed itemMem otherMem apart with met | met
  · exact met
  · exact absurd tie.symm (Nat.ne_of_lt (met.start_lt isDeclared))

/-- The candidates compete in the order in which their functions are met. -/
theorem pairwise_join :
    (join (attributeHarnesses root) (invocationHarnesses root)).Pairwise fun first later =>
      MetAfter first.node later.node := by
  have once : (Assoc.keys (bySpan (invocationHarnesses root))).Nodup := Assoc.nodup_keys_ofList _
  have ties : ((complete (bySpan (invocationHarnesses root)) (attributeHarnesses root)).1 ++
      (complete (bySpan (invocationHarnesses root)) (attributeHarnesses root)).2.map
        Prod.snd).Pairwise TiesMet := by
    rw [complete_eq once (nodup_declaredSpans wellFormed), List.pairwise_append]
    refine ⟨?_, ?_, ?_⟩
    · rw [List.pairwise_map]
      apply (pairwise_attributeHarnesses wellFormed).imp
      intro first later less
      rw [TiesMet, node_completedBy, node_completedBy]
      intro tie
      exact absurd tie (Nat.ne_of_lt less)
    · rw [List.pairwise_map]
      exact (pairwise_tiesMet_bySpan wellFormed).sublist List.filter_sublist
    · intro first firstMem later laterMem
      obtain ⟨declared, declaredMem, rfl⟩ := List.mem_map.mp firstMem
      obtain ⟨entry, entryMem, rfl⟩ := List.mem_map.mp laterMem
      obtain ⟨known, fresh⟩ := List.mem_filter.mp entryMem
      rw [TiesMet, node_completedBy]
      exact tiesMet_of_leftOver wellFormed declaredMem known (of_decide_eq_true fresh)
  exact pairwise_inSourceOrder ties

end

/-! ## The candidates that keep their names -/

/-- A candidate that takes over a name begins at no byte at which another one begins. -/
theorem tiesMet_takesOver {candidates : List Candidate} {candidate other : Candidate}
    (met : ∀ earlier ∈ candidates, MetAfter earlier.node candidate.node)
    (declared : declaresHarness (classifyAll candidate.node) = true) (member : other ∈ candidates) :
    TiesMet other candidate ∧ TiesMet candidate other := by
  have less := (met other member).start_lt declared
  exact ⟨fun tie => absurd tie (Nat.ne_of_lt less), fun tie => absurd tie (Nat.ne_of_gt less)⟩

/-- Whatever names collide, of two holders of names that begin at the same byte the later one is met
after the earlier one. -/
theorem pairwise_chosen {candidates : List Candidate}
    (met : candidates.Pairwise fun first later => MetAfter first.node later.node)
    (readOff : ∀ candidate ∈ candidates, ∃ item, ReadOff candidate item) :
    (chooseAll candidates).chosen.Pairwise fun first later => TiesMet first.2 later.2 := by
  induction candidates using List.reverseRecOn with
  | nil => exact List.Pairwise.nil
  | append_singleton candidates candidate ih =>
      obtain ⟨met, -, last⟩ := List.pairwise_append.mp met
      have earlier : ∀ other ∈ candidates, MetAfter other.node candidate.node := by
        intro other member
        exact last other member candidate (List.mem_singleton_self candidate)
      have holders := ih met (fun other member => readOff other (List.mem_append_left _ member))
      rw [chooseAll_append_singleton]
      rcases chosen_choose_cases (chooseAll candidates) candidate with
        ⟨-, same⟩ | ⟨current, -, wins, same⟩ | ⟨-, same⟩
      · rw [same, List.pairwise_append]
        refine ⟨holders, List.pairwise_singleton _ _, ?_⟩
        intro holder known new newMem _
        rw [List.mem_singleton.mp newMem]
        exact earlier holder.2 (mem_chooseAll known).1
      · obtain ⟨item, itemReadOff⟩ := readOff candidate (by simp)
        have declared : declaresHarness (classifyAll candidate.node) = true := by
          rw [itemReadOff.node]
          exact itemReadOff.declared (Bool.and_eq_true_iff.mp wins).1
        rw [same]
        apply Assoc.pairwise_put holders
        intro holder known
        exact tiesMet_takesOver earlier declared (mem_chooseAll known).1
      · rw [same]
        exact holders

/-- In a well-formed file the candidates that keep their names come in the order in which their
functions are met. -/
theorem pairwise_winners {root : Node} (wellFormed : root.tree.WellFormed) :
    ((winners root).map fun candidate => candidate.node).Pairwise MetAfter := by
  rw [List.pairwise_map]
  apply pairwise_inSourceOrder
  rw [List.pairwise_map]
  apply pairwise_chosen (pairwise_join wellFormed)
  intro candidate member
  obtain ⟨item, -, readOff⟩ := exists_of_mem_join member
  exact ⟨item, readOff⟩

/-- In a well-formed file the functions of the index are met in its order. -/
theorem sublist_winners {root : Node} (wellFormed : root.tree.WellFormed) :
    ((winners root).map fun candidate => candidate.node).Sublist
      ((functionsOf root).map fun item => item.node) := by
  have irrefl : Std.Irrefl MetAfter := ⟨fun _ met => met.asymm met⟩
  have antisymm : Std.Antisymm MetAfter := ⟨fun _ _ met back => absurd back met.asymm⟩
  have met := pairwise_winners wellFormed
  refine List.sublist_of_subperm_of_pairwise (List.subperm_of_subset met.nodup ?_) met
    (pairwise_functionsOf wellFormed)
  intro node member
  obtain ⟨candidate, known, rfl⟩ := List.mem_map.mp member
  obtain ⟨item, itemMem, readOff⟩ := exists_of_mem_winners_readOff known
  rw [readOff.node]
  exact List.mem_map_of_mem itemMem

/-- The records of an index describe functions of the file by where they begin, so by their first
lines. In a well-formed file they come in the order in which the functions are met. -/
theorem collect_inSourceOrder (root : Node) :
    (collect root).1 = describeAll (winners root) ∧
      (∀ candidate ∈ winners root, ∃ item ∈ functionsOf root, ReadOff candidate item) ∧
      ((winners root).Pairwise fun first later => first.node.startByte ≤ later.node.startByte) ∧
      ((collect root).1.Pairwise fun first later => first.2.startLine ≤ later.2.startLine) ∧
      (root.tree.WellFormed →
        ((winners root).map fun candidate => candidate.node).Sublist
          ((functionsOf root).map fun item => item.node)) := by
  have sorted : (winners root).Pairwise fun first later =>
      first.node.startByte ≤ later.node.startByte :=
    Stable.pairwise_sortOn _ _
  refine ⟨collect_index root, ?_, sorted, ?_, sublist_winners⟩
  · intro candidate
    exact exists_of_mem_winners_readOff
  · rw [collect_index, describeAll, List.pairwise_map]
    apply sorted.imp_of_mem
    intro first later firstMem laterMem starts
    obtain ⟨item, itemMem, readOff⟩ := exists_of_mem_winners_readOff firstMem
    obtain ⟨other, otherMem, readOff'⟩ := exists_of_mem_winners_readOff laterMem
    have source : first.node.source = later.node.source := by
      rw [readOff.node, readOff'.node, (kind_and_source_of_mem_functionsOf itemMem).2,
        (kind_and_source_of_mem_functionsOf otherMem).2]
    change first.node.startLine ≤ later.node.startLine
    rw [Node.startLine, Node.startLine, source]
    exact later.node.source.lineAt_mono starts

/-- A file in which the first name is taken over by a function below the second one. -/
def overtaken : Node :=
  (Reader.parse "fn f(){check!()}mod m{fn g(){check!()}}#[kani::proof]fn f(){}").root

theorem collect_inSourceOrder_overtaken :
    overtaken.tree.WellFormed ∧
      Assoc.keys (collect overtaken).1 = ["g".toList, "f".toList] ∧
      ((winners overtaken).map fun candidate => candidate.node).Sublist
        ((functionsOf overtaken).map fun item => item.node) := by
  have facts : overtaken.tree.WellFormed ∧
      Assoc.keys (collect overtaken).1 = ["g".toList, "f".toList] := by
    decide +kernel
  exact ⟨facts.1, facts.2, (collect_inSourceOrder overtaken).2.2.2.2 facts.1⟩

end HarnessIndex.Harness
