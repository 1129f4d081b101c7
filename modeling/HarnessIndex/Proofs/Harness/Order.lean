import HarnessIndex.Proofs.Attribute.Classify
import HarnessIndex.Proofs.Harness.Merging
import HarnessIndex.Proofs.Syntax.Spans
import Mathlib.Data.List.Pairwise

/-!
# The order in which functions are met

In a well-formed tree the functions of a file are met in the order in which they begin. Two of them
begin at the same byte only when one stands in the other, at a place that does not follow the
grammar; the inner one is then not declared, because an attribute would stand before it.
-/

namespace HarnessIndex.Harness

open Syntax Attribute

/-! ## Functions in a well-formed tree -/

/-- One function is met after another: it begins later, or it begins where the other one begins and
is an undeclared part of it. -/
def MetAfter (first later : Node) : Prop :=
  first.startByte < later.startByte ∨
    (first.startByte = later.startByte ∧ later.endByte ≤ first.endByte ∧
      later.tree.size < first.tree.size ∧ declaresHarness (classifyAll later) = false)

theorem MetAfter.start_le {first later : Node} (met : MetAfter first later) :
    first.startByte ≤ later.startByte := by
  rcases met with less | ⟨tie, -, -, -⟩
  · exact Nat.le_of_lt less
  · exact Nat.le_of_eq tie

/-- A declared function begins later than those that are met before it. -/
theorem MetAfter.start_lt {first later : Node} (met : MetAfter first later)
    (declared : declaresHarness (classifyAll later) = true) :
    first.startByte < later.startByte := by
  rcases met with less | ⟨-, -, -, undeclared⟩
  · exact less
  · rw [declared] at undeclared
    simp at undeclared

theorem MetAfter.asymm {first later : Node} (met : MetAfter first later)
    (back : MetAfter later first) : False := by
  have start := met.start_le
  have start' := back.start_le
  rcases met with less | ⟨-, -, size, -⟩
  · omega
  · rcases back with less | ⟨-, -, size', -⟩
    · omega
    · omega

/-- A function lies in a span; a declared one has an attribute before it there. -/
structure LiesIn (start stop : Nat) (item : Item) : Prop where
  start_le : start ≤ item.node.startByte
  nonempty : item.node.startByte < item.node.endByte
  le_stop : item.node.endByte ≤ stop
  start_lt : isDeclared item = true → start < item.node.startByte

theorem LiesIn.mono {start stop start' stop' : Nat} {item : Item} (lies : LiesIn start stop item)
    (startLe : start' ≤ start) (stopLe : stop ≤ stop') : LiesIn start' stop' item :=
  ⟨startLe.trans lies.start_le, lies.nonempty, lies.le_stop.trans stopLe,
    fun declared => lt_of_le_of_lt startLe (lies.start_lt declared)⟩

/-- A text that is read off a node takes some bytes. -/
theorem start_lt_stop_of_text {node : Node} (some : node.text ≠ []) :
    node.startByte < node.endByte := by
  by_contra le
  exact some (node.source.slice_of_le (Nat.le_of_not_lt le))

theorem start_lt_stop_of_attributePath? {item : Node} {name : Text}
    (wellFormed : item.tree.WellFormed) (found : item.attributePath? = some name) :
    item.startByte < item.endByte := by
  obtain ⟨body, path, inner, first, -, spelled, some⟩ := Node.exists_of_attributePath? found
  have bodyMem := (Node.mem_children (Node.attributeBody?_mem inner).2).2
  have bodySpan := wellFormed.child_span bodyMem
  have pathMem := (Node.mem_children (List.mem_of_head? first)).2
  have pathSpan := (wellFormed.of_mem_children bodyMem).child_span pathMem
  have text : path.text ≠ [] := by
    intro empty
    rw [empty] at spelled
    exact some spelled.symm
  have taken := start_lt_stop_of_text text
  rw [Node.startByte, Node.endByte] at *
  omega

/-- A declared function stands after a sibling that takes some bytes. -/
theorem exists_before_of_isDeclared {item : Item} (declared : isDeclared item = true)
    (wellFormed : ∀ tree ∈ item.node.before, tree.WellFormed) :
    ∃ tree ∈ item.node.before, tree.start < tree.stop := by
  obtain ⟨descriptor, member, -⟩ := declaresHarness_eq_true.mp declared
  obtain ⟨found, -, earlier, member⟩ := exists_of_mem_classifyAll member
  obtain ⟨name, named, -⟩ := exists_of_mem_classify member
  exact ⟨found.tree, earlier, start_lt_stop_of_attributePath? (wellFormed _ earlier) named⟩

theorem liesIn_of_mem_within {source : Source} {path : List Text} {item : Item} (tree : Tree)
    (wellFormed : tree.WellFormed)
    (member : item ∈ Item.within source .functionItem path tree) :
    LiesIn tree.start tree.stop item ∧ item.node.tree.size < tree.size := by
  induction tree using Tree.size_induction generalizing path with
  | step tree ih =>
      obtain ⟨front, child, back, split, -, own | ⟨container, path', holds, inner⟩⟩ :=
        Item.mem_within member
      all_goals
        have childMem : child ∈ tree.children := by
          rw [split]
          simp
        have span := wellFormed.child_span childMem
        have smaller := Tree.size_lt_of_mem_children childMem
      · obtain ⟨function, rfl⟩ := own
        refine ⟨⟨span.1, (wellFormed.of_mem_children childMem).start_lt_stop function, span.2, ?_⟩,
          smaller⟩
        intro declared
        have earlier : ∀ sibling ∈ Node.passed [] front, sibling ∈ front := by
          intro sibling passed
          rcases Node.mem_of_mem_passed passed with none | known
          · simp at none
          · exact known
        obtain ⟨sibling, passed, taken⟩ := exists_before_of_isDeclared declared (by
          intro sibling passed
          apply wellFormed.of_mem_children
          rw [split]
          exact List.mem_append_left _ (earlier sibling passed))
        have known := earlier sibling passed
        have siblingMem : sibling ∈ tree.children := by
          rw [split]
          exact List.mem_append_left _ known
        have siblingSpan := wellFormed.child_span siblingMem
        have inOrder := wellFormed.siblings_inOrder
        rw [split] at inOrder
        have apart := (List.pairwise_append.mp inOrder).2.2 sibling known child List.mem_cons_self
        exact lt_of_le_of_lt siblingSpan.1 (lt_of_lt_of_le taken apart)
      · obtain ⟨inside, startLe, stopLe⟩ := (wellFormed.of_mem_children childMem).of_holds holds
        obtain ⟨lies, less⟩ := ih container (lt_of_le_of_lt holds.size_le smaller) inside inner
        have sizeLe := holds.size_le
        exact ⟨lies.mono (span.1.trans startLe) (stopLe.trans span.2), by omega⟩

theorem exists_child_of_mem_among {source : Source} {path : List Text} {before trees : List Tree}
    {item : Item} (wellFormed : ∀ child ∈ trees, child.WellFormed)
    (member : item ∈ Item.among source .functionItem path before trees) :
    ∃ child ∈ trees, child.start ≤ item.node.startByte ∧ item.node.startByte < child.stop := by
  obtain ⟨front, child, back, rfl, -, own | ⟨container, path', holds, inner⟩⟩ :=
    Item.mem_among member
  all_goals
    have childMem : child ∈ front ++ child :: back := by simp
    refine ⟨child, childMem, ?_⟩
  · obtain ⟨function, rfl⟩ := own
    exact ⟨Nat.le_refl _, (wellFormed child childMem).start_lt_stop function⟩
  · obtain ⟨inside, startLe, stopLe⟩ := (wellFormed child childMem).of_holds holds
    have lies := (liesIn_of_mem_within container inside inner).1
    exact ⟨startLe.trans lies.start_le,
      lt_of_lt_of_le lies.nonempty (lies.le_stop.trans stopLe)⟩

theorem metAfter_of_holds {source : Source} {path : List Text} {child container : Tree}
    {own item : Item} (wellFormed : child.WellFormed) (same : own.node.tree = child)
    (holds : Item.Holds child container)
    (inner : item ∈ Item.within source .functionItem path container) :
    MetAfter own.node item.node := by
  obtain ⟨inside, startLe, stopLe⟩ := wellFormed.of_holds holds
  obtain ⟨lies, less⟩ := liesIn_of_mem_within container inside inner
  have starts : own.node.startByte ≤ item.node.startByte := by
    rw [Node.startByte, same]
    exact startLe.trans lies.start_le
  rcases Nat.lt_or_eq_of_le starts with later | tie
  · exact Or.inl later
  · refine Or.inr ⟨tie, ?_, ?_, ?_⟩
    · subst same
      exact lies.le_stop.trans stopLe
    · rw [same]
      exact lt_of_lt_of_le less holds.size_le
    · cases declared : declaresHarness (classifyAll item.node) with
      | false => rfl
      | true =>
          have start := lies.start_lt declared
          rw [Node.startByte, same] at tie
          omega

/-- The functions among some children are met one after the other. -/
theorem pairwise_among {source : Source} {path : List Text} {before trees : List Tree}
    (wellFormed : ∀ child ∈ trees, child.WellFormed)
    (inOrder : trees.Pairwise fun left right => left.stop ≤ right.start)
    (within : ∀ child ∈ trees, ∀ container path', Item.Holds child container →
      (Item.within source .functionItem path' container).Pairwise fun first later =>
        MetAfter first.node later.node) :
    (Item.among source .functionItem path before trees).Pairwise fun first later =>
      MetAfter first.node later.node := by
  induction trees generalizing before with
  | nil => simp
  | cons child rest ih =>
      obtain ⟨apart, inOrder⟩ := List.pairwise_cons.mp inOrder
      obtain ⟨formed, formedRest⟩ := List.forall_mem_cons.mp wellFormed
      obtain ⟨withinChild, withinRest⟩ := List.forall_mem_cons.mp within
      rw [Item.among_cons_eq_append, List.pairwise_append]
      refine ⟨?_, ih formedRest inOrder withinRest, ?_⟩
      · rw [Item.among_cons, Item.among_nil, List.append_nil]
        split
        · rw [List.pairwise_append]
          refine ⟨by split <;> simp, ?_, ?_⟩
          · rcases @Item.inside_cases source .functionItem path before child with
              none | ⟨container, path', holds, same⟩
            · simp [none]
            · exact same ▸ withinChild container path' holds
          · intro own ownMem item inner
            split at ownMem
            · rw [List.mem_singleton] at ownMem
              obtain ⟨container, path', holds, inner⟩ := Item.exists_of_mem_inside inner
              exact metAfter_of_holds formed (by rw [ownMem]) holds inner
            · simp at ownMem
        · exact List.Pairwise.nil
      · intro first firstMem later laterMem
        obtain ⟨only, onlyMem, -, ends⟩ :=
          exists_child_of_mem_among (fun tree member => List.mem_singleton.mp member ▸ formed)
            firstMem
        obtain ⟨sibling, siblingMem, starts, -⟩ := exists_child_of_mem_among formedRest laterMem
        rw [List.mem_singleton.mp onlyMem] at ends
        exact Or.inl (lt_of_lt_of_le ends ((apart sibling siblingMem).trans starts))

/-- The functions of a well-formed container are met one after the other. -/
theorem pairwise_within {source : Source} {path : List Text} (tree : Tree)
    (wellFormed : tree.WellFormed) :
    (Item.within source .functionItem path tree).Pairwise fun first later =>
      MetAfter first.node later.node := by
  induction tree using Tree.size_induction generalizing path with
  | step tree ih =>
      rw [Item.within_eq]
      refine pairwise_among (fun child => wellFormed.of_mem_children) wellFormed.siblings_inOrder ?_
      intro child member container path' holds
      have smaller := Tree.size_lt_of_mem_children member
      exact ih container (lt_of_le_of_lt holds.size_le smaller)
        ((wellFormed.of_mem_children member).of_holds holds).1

/-- The functions of a well-formed file are met one after the other. -/
theorem pairwise_functionsOf {root : Node} (wellFormed : root.tree.WellFormed) :
    ((functionsOf root).map fun item => item.node).Pairwise MetAfter := by
  rw [List.pairwise_map]
  exact pairwise_within root.tree wellFormed

/-- Of two functions of a well-formed file one is met after the other. -/
theorem metAfter_or_metAfter {root : Node} (wellFormed : root.tree.WellFormed)
    {first second : Item} (firstMem : first ∈ functionsOf root)
    (secondMem : second ∈ functionsOf root) (different : first.node ≠ second.node) :
    MetAfter first.node second.node ∨ MetAfter second.node first.node := by
  have symmetric : Std.Symm fun left right : Node => MetAfter left right ∨ MetAfter right left :=
    ⟨fun _ _ => Or.symm⟩
  have either : ((functionsOf root).map fun item => item.node).Pairwise fun left right =>
      MetAfter left right ∨ MetAfter right left :=
    (pairwise_functionsOf wellFormed).imp Or.inl
  exact either.forall (List.mem_map_of_mem firstMem) (List.mem_map_of_mem secondMem) different

end HarnessIndex.Harness
