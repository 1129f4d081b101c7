import HarnessIndex.Proofs.Attribute.Classify
import HarnessIndex.Proofs.Harness.Candidates
import HarnessIndex.Proofs.Syntax.Walk
import HarnessIndex.Reader.Source

/-!
# Proofs and unit tests

The kind of a record is decided by the function that keeps the name: a unit test is not declared by
its attributes, carries the attribute of a test and invokes an entry point exactly once outside the
functions and closures in its body. The proofs are counted among the records of the index, so a
function that loses its name does not count. This holds of every tree, also of one in which
functions share a span.
-/

namespace HarnessIndex.Harness

open Syntax Attribute

/-! ## What a function invokes itself -/

/-- The nodes in the body of a function in pre-order, without those that stand inside a nested
function or a closure. -/
def ownNodes (function : Node) : List Node :=
  match function.field? .body with
  | none => []
  | some body => Node.below body.source isForeign body.tree

/-- How often a function itself invokes an entry point. -/
def ownInvocations (function : Node) : Nat :=
  (ownNodes function).countP fun node => (entryPoint? node).isSome

theorem entryPoint?_of_isForeign {node : Node} (foreign : isForeign node.kind = true) :
    entryPoint? node = none := by
  have noCall : node.callee? = none := by
    rw [Node.callee?, Node.calleeNode?]
    rw [isForeign, Bool.or_eq_true, decide_eq_true_iff, decide_eq_true_iff] at foreign
    rcases foreign with kind | kind <;> simp [kind]
  rw [entryPoint?, noCall]
  rfl

theorem statementInvocations_eq (statement : Node) :
    statementInvocations statement =
      (Node.withBelow isForeign statement).filterMap entryPoint? := by
  rw [statementInvocations, Node.withBelow, Node.descendants_eq_below]
  split
  · rename_i foreign
    simp [entryPoint?_of_isForeign foreign]
  · rfl

/-- The entry points that a function invokes are those of its own nodes. -/
theorem invocations_eq (function : Node) :
    invocations function = (ownNodes function).filterMap entryPoint? := by
  rw [invocations, ownNodes]
  cases function.field? .body with
  | none => rfl
  | some body =>
      simp only [Node.below_eq, List.filterMap_flatMap]
      exact congrArg (body.children.flatMap ·) (funext statementInvocations_eq)

theorem length_invocations (function : Node) :
    (invocations function).length = ownInvocations function := by
  rw [invocations_eq, List.length_filterMap_eq_countP, ownInvocations]

/-! ## Candidates tell of their own functions -/

/-- What decides the kind of a candidate is read off its own function. -/
structure Faithful (candidate : Candidate) : Prop where
  attributes : candidate.attributes = classifyAll candidate.node
  declared : candidate.declaredByAttribute = declaresHarness (classifyAll candidate.node)
  invoked : candidate.declaredByAttribute = false →
    candidate.invocationCount = ownInvocations candidate.node

theorem faithful_of_mem_attributeHarnesses {root : Node} {candidate : Candidate}
    (member : candidate ∈ attributeHarnesses root) : Faithful candidate := by
  rw [attributeHarnesses_eq] at member
  obtain ⟨item, kept, rfl⟩ := List.mem_map.mp member
  have declared : isDeclared item = true := (List.mem_filter.mp kept).2
  refine ⟨rfl, rfl, ?_⟩
  intro undeclared
  exact absurd (declared.symm.trans undeclared) (by decide)

/-- A candidate stays faithful when it is completed, whatever entry completes it. -/
theorem Faithful.completedBy {candidate : Candidate} (faithful : Faithful candidate)
    (declared : candidate.declaredByAttribute = true) (invoking : List Spanned) :
    Faithful (completedBy invoking candidate) := by
  rw [Harness.completedBy]
  split
  · exact faithful
  · refine ⟨faithful.attributes, faithful.declared, ?_⟩
    intro undeclared
    exact absurd (declared.symm.trans undeclared) (by decide)

theorem notMem_of_mem_complete {invoking : List Spanned} {declared : List Candidate}
    {entry : Spanned} (once : (Assoc.keys invoking).Nodup)
    (member : entry ∈ (complete invoking declared).2) :
    entry.1 ∉ declared.map fun candidate => candidate.node.span := by
  induction declared generalizing invoking with
  | nil => simp
  | cons candidate rest ih =>
      rw [complete_cons] at member
      have onceLeft : (Assoc.keys (Assoc.drop candidate.node.span invoking)).Nodup :=
        once.sublist ((Assoc.sublist_drop _ invoking).map Prod.fst)
      have left := (sublist_complete _ rest).subset member
      rw [Assoc.drop_eq_filter once] at left
      rw [List.map_cons, List.mem_cons, not_or]
      exact ⟨of_decide_eq_true (List.mem_filter.mp left).2, ih onceLeft member⟩

theorem faithful_of_leftOver {root : Node} {entry : Spanned}
    (member : entry ∈ (complete (bySpan (invocationHarnesses root)) (attributeHarnesses root)).2) :
    Faithful entry.2 := by
  have fresh := notMem_of_mem_complete (Assoc.nodup_keys_ofList _) member
  obtain ⟨known, span⟩ := mem_bySpan ((sublist_complete _ _).subset member)
  rw [invocationHarnesses_eq] at known
  obtain ⟨item, kept, same⟩ := List.mem_map.mp known
  have undeclared : isDeclared item = false := by
    rw [Bool.eq_false_iff]
    intro declared
    refine fresh ?_
    rw [declaredSpans_eq, span, ← same]
    exact List.mem_map.mpr
      ⟨item, List.mem_filter.mpr ⟨(List.mem_filter.mp kept).1, declared⟩, rfl⟩
  rw [← same]
  exact ⟨rfl, undeclared.symm, fun _ => length_invocations item.node⟩

theorem faithful_of_mem_winners {root : Node} {candidate : Candidate}
    (member : candidate ∈ winners root) : Faithful candidate := by
  rw [mem_winners] at member
  have competing := (List.mem_filter.mp (mem_of_best? member)).1
  rw [join_def, Stable.mem_sortOn] at competing
  rcases List.mem_append.mp competing with completed | left
  · obtain ⟨original, known, entries, rfl⟩ := mem_complete completed
    have declared : original.declaredByAttribute = true := by
      rw [attributeHarnesses_eq] at known
      obtain ⟨item, kept, rfl⟩ := List.mem_map.mp known
      exact (List.mem_filter.mp kept).2
    exact (faithful_of_mem_attributeHarnesses known).completedBy declared entries
  · obtain ⟨entry, known, rfl⟩ := List.mem_map.mp left
    exact faithful_of_leftOver known

/-! ## Kinds -/

/-- A function is a unit test: its attributes declare no harness, one of them is written as the
attribute of a test or wraps it, and it invokes an entry point exactly once. -/
structure IsUnitTest (function : Node) : Prop where
  undeclared : declaresHarness (classifyAll function) = false
  test : ∃ attached ∈ function.attributes, Carries testAttribute attached
  once : ownInvocations function = 1

namespace Faithful

variable {candidate : Candidate} (faithful : Faithful candidate)
include faithful

/-- A faithful candidate has the attribute of a test when its function carries it. -/
theorem exists_test :
    (∃ descriptor ∈ candidate.attributes, descriptor.name = testAttribute) ↔
      ∃ attached ∈ candidate.node.attributes, Carries testAttribute attached := by
  have different : testAttribute ≠ conditional := by decide
  rw [faithful.attributes, exists_named_classifyAll]
  simp only [exists_named_classify different]

/-- A faithful candidate is a unit test when its function is one. -/
theorem kindOf_eq_unitTest : kindOf candidate = .unitTest ↔ IsUnitTest candidate.node := by
  rw [kindOf]
  cases declared : candidate.declaredByAttribute with
  | true =>
      have declares := faithful.declared.symm.trans declared
      refine ⟨fun proof => absurd proof (by simp), fun unitTest => ?_⟩
      exact absurd (declares.symm.trans unitTest.undeclared) (by decide)
  | false =>
      have undeclared := faithful.declared.symm.trans declared
      rw [if_neg Bool.false_ne_true]
      have decided :
          ((candidate.attributes.any fun descriptor => descriptor.name = testAttribute) &&
            candidate.invocationCount = 1) = true ↔ IsUnitTest candidate.node := by
        simp only [Bool.and_eq_true, List.any_eq_true, decide_eq_true_iff]
        rw [faithful.exists_test, faithful.invoked declared]
        exact ⟨fun both => ⟨undeclared, both.1, both.2⟩,
          fun unitTest => ⟨unitTest.test, unitTest.once⟩⟩
      rw [← decided, ite_eq_left_iff, not_imp_comm]
      exact ⟨fun forced => forced (by simp), fun both _ => both⟩

end Faithful

theorem totalProofs_eq (root : Node) :
    totalProofs root = (collect root).1.countP fun entry => entry.2.isProof := by
  rw [collect_entries, List.countP_map]
  rfl

/-- Every record carries the number of the proofs among the records, and is a unit test exactly when
the function that keeps the name is one. -/
theorem collect_kinds (root : Node) :
    (∀ entry ∈ (collect root).1,
      entry.2.totalProofs = (collect root).1.countP fun other => other.2.isProof) ∧
    (collect root).1 = (winners root).map (entryOf root) ∧
    ∀ candidate ∈ winners root, ∃ item ∈ functionsOf root, ReadOff candidate item ∧
      (entryOf root candidate).2.attributes = classifyAll item.node ∧
      ((∃ descriptor ∈ (entryOf root candidate).2.attributes, descriptor.name = testAttribute) ↔
        ∃ attached ∈ item.node.attributes, Carries testAttribute attached) ∧
      ((entryOf root candidate).2.kind = .unitTest ↔ IsUnitTest item.node) := by
  refine ⟨?_, collect_entries root, ?_⟩
  · intro entry member
    rw [collect_entries] at member
    obtain ⟨candidate, -, rfl⟩ := List.mem_map.mp member
    exact totalProofs_eq root
  · intro candidate member
    have faithful := faithful_of_mem_winners member
    obtain ⟨item, itemMem, readOff⟩ := exists_of_mem_winners_readOff member
    refine ⟨item, itemMem, readOff, ?_, ?_, ?_⟩
    · rw [← readOff.node]
      exact faithful.attributes
    · rw [← readOff.node]
      exact faithful.exists_test
    · rw [← readOff.node]
      exact faithful.kindOf_eq_unitTest

/-- A file with two unit tests, of which one invokes an entry point in a closure too and one is a
test only for the verifier, and with two proofs that are tests as well. -/
def tested : Node :=
  (Reader.parse
    ("#[test]fn f(){check!();|x|check!()}#[cfg_attr(kani,test)]fn g(){check!()}" ++
      "#[test]fn h(){check!();check!()}#[kani::proof]#[test]fn k(){check!()}")).root

theorem collect_kinds_tested :
    ((collect tested).1.map fun entry => (entry.1, entry.2.kind, entry.2.totalProofs)) =
        [("f".toList, .unitTest, 2), ("g".toList, .unitTest, 2), ("h".toList, .proof, 2),
          ("k".toList, .proof, 2)] ∧
      ∃ candidate ∈ winners tested, candidate.name = "g".toList ∧
        ∃ item ∈ functionsOf tested, ReadOff candidate item ∧ IsUnitTest item.node := by
  have facts : ((collect tested).1.map fun entry =>
        (entry.1, entry.2.kind, entry.2.totalProofs)) =
        [("f".toList, .unitTest, 2), ("g".toList, .unitTest, 2), ("h".toList, .proof, 2),
          ("k".toList, .proof, 2)] ∧
      ((winners tested).any fun candidate =>
        candidate.name = "g".toList && kindOf candidate = .unitTest) = true := by
    decide +kernel
  obtain ⟨candidate, member, named⟩ := List.any_eq_true.mp facts.2
  simp only [Bool.and_eq_true, decide_eq_true_iff] at named
  obtain ⟨item, itemMem, readOff, -, -, kind⟩ := (collect_kinds tested).2.2 candidate member
  exact ⟨facts.1, candidate, member, named.1, item, itemMem, readOff, kind.mp named.2⟩

end HarnessIndex.Harness
