import HarnessIndex.Proofs.Syntax.Items
import HarnessIndex.Syntax.Walk

/-!
# What stands in a tree

Everything that the analysis looks at is a subtree of the tree that the parser gave: the items and
their attributes, and what stands below a node.
-/

namespace HarnessIndex.Syntax

namespace Tree

mutual

/-- A tree and everything below it. -/
def subtrees : Tree → List Tree
  | tree@⟨_, _, _, _, _, _, children⟩ => tree :: allSubtrees children

/-- Some trees and everything below them. -/
def allSubtrees : List Tree → List Tree
  | [] => []
  | tree :: rest => subtrees tree ++ allSubtrees rest

end

theorem allSubtrees_eq_flatMap (trees : List Tree) :
    allSubtrees trees = trees.flatMap subtrees := by
  induction trees with
  | nil => rw [allSubtrees, List.flatMap_nil]
  | cons tree rest ih => rw [allSubtrees, List.flatMap_cons, ih]

theorem subtrees_eq (tree : Tree) : tree.subtrees = tree :: tree.children.flatMap subtrees := by
  cases tree
  rw [subtrees, allSubtrees_eq_flatMap]

theorem mem_subtrees {tree root : Tree} :
    tree ∈ root.subtrees ↔ tree = root ∨ ∃ child ∈ root.children, tree ∈ child.subtrees := by
  rw [subtrees_eq, List.mem_cons, List.mem_flatMap]

theorem mem_subtrees_self (tree : Tree) : tree ∈ tree.subtrees :=
  mem_subtrees.mpr (Or.inl rfl)

theorem mem_subtrees_of_mem_children {child tree : Tree} (member : child ∈ tree.children) :
    child ∈ tree.subtrees :=
  mem_subtrees.mpr (Or.inr ⟨child, member, mem_subtrees_self child⟩)

theorem mem_subtrees_trans {tree inner root : Tree} (outer : inner ∈ root.subtrees)
    (member : tree ∈ inner.subtrees) : tree ∈ root.subtrees := by
  induction root using Tree.size_induction with
  | step root ih =>
      rcases mem_subtrees.mp outer with rfl | ⟨child, childMem, below⟩
      · exact member
      · exact mem_subtrees.mpr
          (Or.inr ⟨child, childMem, ih child (size_lt_of_mem_children childMem) below⟩)

end Tree

theorem Item.Holds.mem_subtrees {child container : Tree} (holds : Item.Holds child container) :
    container ∈ child.subtrees := by
  cases holds with
  | body _ member => exact Tree.mem_subtrees_of_mem_children member
  | error _ => exact Tree.mem_subtrees_self child

theorem Item.mem_subtrees_of_mem_within {source : Source} {kind : Kind} {path : List Text}
    {item : Item} (tree : Tree) (member : item ∈ Item.within source kind path tree) :
    item.node.tree ∈ tree.subtrees ∧ ∀ sibling ∈ item.node.before, sibling ∈ tree.subtrees := by
  induction tree using Tree.size_induction generalizing path with
  | step tree ih =>
      obtain ⟨front, child, back, split, -, own | ⟨container, path', holds, inner⟩⟩ :=
        Item.mem_within member
      · obtain ⟨-, rfl⟩ := own
        refine ⟨Tree.mem_subtrees_of_mem_children (by simp [split]), ?_⟩
        intro sibling passed
        rcases Node.mem_of_mem_passed passed with none | known
        · simp at none
        · exact Tree.mem_subtrees_of_mem_children (by simp [split, known])
      · have childMem : child ∈ tree.children := by simp [split]
        have smaller := Tree.size_lt_of_mem_children childMem
        have outer := Tree.mem_subtrees_trans (Tree.mem_subtrees_of_mem_children childMem)
          holds.mem_subtrees
        obtain ⟨below, siblings⟩ := ih container (Nat.lt_of_le_of_lt holds.size_le smaller) inner
        exact ⟨Tree.mem_subtrees_trans outer below,
          fun sibling known => Tree.mem_subtrees_trans outer (siblings sibling known)⟩

namespace Node

/-- A node stands in another one, in the same source. -/
def StandsIn (node outer : Node) : Prop :=
  node.source = outer.source ∧ node.tree ∈ outer.tree.subtrees

theorem StandsIn.refl (node : Node) : StandsIn node node :=
  ⟨rfl, Tree.mem_subtrees_self node.tree⟩

theorem StandsIn.trans {node inner outer : Node} (first : StandsIn node inner)
    (second : StandsIn inner outer) : StandsIn node outer :=
  ⟨first.1.trans second.1, Tree.mem_subtrees_trans second.2 first.2⟩

theorem standsIn_of_mem_children {node child : Node} (member : child ∈ node.children) :
    StandsIn child node := by
  obtain ⟨source, below⟩ := mem_children member
  exact ⟨source, Tree.mem_subtrees_of_mem_children below⟩

theorem standsIn_of_field? {node child : Node} {field : Field}
    (filled : node.field? field = some child) : StandsIn child node := by
  obtain ⟨source, below⟩ := field?_mem filled
  exact ⟨source, Tree.mem_subtrees_of_mem_children below⟩

/-- Every node that is visited stands in one of those that were pending. -/
theorem exists_of_mem_visit {prune : Kind → Bool} {steps : Nat} {pending : List Node} {node : Node}
    (member : node ∈ visit prune steps pending) : ∃ outer ∈ pending, StandsIn node outer := by
  induction steps generalizing pending with
  | zero => simp [visit] at member
  | succ steps ih =>
      cases pending with
      | nil => simp at member
      | cons first pending =>
          rw [visit] at member
          rcases List.mem_cons.mp member with same | later
          · exact ⟨first, List.mem_cons_self, same ▸ StandsIn.refl first⟩
          · obtain ⟨outer, known, stands⟩ := ih later
            split at known
            · exact ⟨outer, List.mem_cons_of_mem first known, stands⟩
            · rcases List.mem_append.mp known with child | old
              · exact ⟨first, List.mem_cons_self, stands.trans (standsIn_of_mem_children child)⟩
              · exact ⟨outer, List.mem_cons_of_mem first old, stands⟩

theorem standsIn_of_mem_descendants {prune : Kind → Bool} {node outer : Node}
    (member : node ∈ outer.descendants prune) : StandsIn node outer := by
  obtain ⟨child, childMem, stands⟩ := exists_of_mem_visit member
  exact stands.trans (standsIn_of_mem_children childMem)

/-- The callee of a call or a macro invocation stands in it. -/
theorem standsIn_of_calleeNode? {node callee : Node} (found : node.calleeNode? = some callee) :
    StandsIn callee node := by
  rw [calleeNode?] at found
  split at found
  · exact standsIn_of_field? found
  · split at found
    · obtain ⟨target, filled, same⟩ := Option.bind_eq_some_iff.mp found
      split at same
      · exact (standsIn_of_field? same).trans (standsIn_of_field? filled)
      · rw [← Option.some.inj same]
        exact standsIn_of_field? filled
    · simp at found

end Node

end HarnessIndex.Syntax
