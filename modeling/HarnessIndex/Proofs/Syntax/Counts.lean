import HarnessIndex.Proofs.Syntax.Reachable
import HarnessIndex.Proofs.Syntax.Subtrees
import HarnessIndex.Proofs.Syntax.Walk

/-!
# Every node counts once

The subtrees of a tree stand at its positions, each position once. The walk that takes stock of a
tree counts them all, named or not and comments included, and among them those that mark an error;
the walk below a node visits what the recursion on its tree lists.
-/

namespace HarnessIndex.Syntax

/-! ## Subtrees by positions -/

namespace Tree

mutual

/-- A tree has as many nodes as subtrees. -/
theorem length_subtrees : (tree : Tree) → tree.subtrees.length = tree.size
  | ⟨_, _, _, _, _, _, children⟩ => by
      rw [subtrees, List.length_cons, length_allSubtrees children, size, Nat.add_comm]

theorem length_allSubtrees : (trees : List Tree) → (allSubtrees trees).length = sizes trees
  | [] => by rw [allSubtrees, List.length_nil, sizes_nil]
  | tree :: rest => by
      rw [allSubtrees, List.length_append, length_subtrees tree, length_allSubtrees rest,
        sizes_cons]

end

mutual

/-- The nodes that mark an error are the subtrees that do. -/
theorem countP_subtrees : (tree : Tree) → tree.subtrees.countP isError = tree.errorCount
  | ⟨_, _, _, _, _, _, children⟩ => by
      rw [subtrees, List.countP_cons, countP_allSubtrees children, errorCount_eq, Nat.add_comm]

theorem countP_allSubtrees :
    (trees : List Tree) → (allSubtrees trees).countP isError = errorCounts trees
  | [] => by rw [allSubtrees, List.countP_nil, errorCounts_nil]
  | tree :: rest => by
      rw [allSubtrees, List.countP_append, countP_subtrees tree, countP_allSubtrees rest,
        errorCounts_cons]

end

end Tree

namespace Node

/-- A tree stands at a position on the way down from a node. -/
def StandsAt (node : Node) (position : Position) (tree : Tree) : Prop :=
  (node.nodeAt? position).map Node.tree = some tree

/-- The first step to a tree below a node leads to a child. -/
theorem standsAt_iff {node : Node} {position : Position} {tree : Tree} :
    node.StandsAt position tree ↔ (position = [] ∧ tree = node.tree) ∨
      ∃ index child rest, node.allChildren[index]? = some child ∧ position = index :: rest ∧
        child.StandsAt rest tree := by
  cases position with
  | nil => simp [StandsAt, nodeAt?, eq_comm]
  | cons index rest =>
      rw [StandsAt, nodeAt?, Option.map_bind, Option.bind_eq_some_iff]
      simp [StandsAt]

/-- The subtrees are what stands at some position, each position counting once, in pre-order. -/
theorem inPreorder_subtrees (node : Node) : InPreorder node.StandsAt node.tree.subtrees := by
  induction node using child_induction with
  | step node ih =>
      have split : node.tree.subtrees =
          [node.tree] ++ node.allChildren.flatMap fun child => child.tree.subtrees := by
        rw [Tree.subtrees_eq, List.singleton_append, ← map_tree_allChildren, List.flatMap_map]
      rw [split]
      refine ((InPreorder.singleton node.tree).append (InPreorder.flatMap ih) ?_).congr
        fun position tree => standsAt_iff.symm
      rintro _ _ position _ ⟨rfl, -⟩ ⟨index, child, rest, -, rfl, -⟩
      exact List.nil_lt_cons index rest

end Node

/-! ## Walking and counting -/

/-- A walk with a pending list does what the recursion does, for every tree and whatever is pruned.
Below a node it visits just what is reached through named children, without comments and without
what stands below a pruned node, each position once, in pre-order. Counting reaches the trees at all
positions, each once, and tells those that mark an error; so errors are reported just when some node
anywhere is an error or missing. -/
theorem walks_eq_recursion (prune : Kind → Bool) (node : Node) (source : Source) (tree : Tree) :
    (node.descendants prune = Node.below node.source prune node.tree ∧
      InPreorder (Node.IsVisited prune node) (node.descendants prune)) ∧
    InPreorder (Node.root source tree).StandsAt tree.subtrees ∧
    (Parsed.ofTree source tree).totalNodes = tree.subtrees.length ∧
    (Parsed.ofTree source tree).errorCount = tree.subtrees.countP Tree.isError ∧
    ((Parsed.ofTree source tree).hasErrors = true ↔
      ∃ inner ∈ tree.subtrees, inner.kind = .error ∨ inner.missing = true) := by
  refine ⟨⟨Node.descendants_eq_below prune node, Node.inPreorder_descendants prune node⟩,
    Node.inPreorder_subtrees (Node.root source tree), ?_, ?_, ?_⟩
  · rw [Parsed.totalNodes_ofTree, Tree.length_subtrees]
  · rw [Parsed.errorCount_ofTree, Tree.countP_subtrees]
  · rw [Parsed.hasErrors_ofTree, decide_eq_true_iff, ← Tree.countP_subtrees, List.countP_pos_iff]
    simp [Tree.isError]

end HarnessIndex.Syntax
