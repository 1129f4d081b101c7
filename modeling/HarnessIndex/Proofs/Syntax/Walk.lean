import HarnessIndex.Proofs.Syntax.Items
import HarnessIndex.Proofs.Syntax.Position
import HarnessIndex.Syntax.Walk

/-!
# Walks with a pending list

A walk that keeps the nodes still to be visited in a list does what the recursion on the tree does:
it visits the pending nodes one after the other, each with everything below it. The number of steps
that a walk is given is the number of nodes that can ever be pending, so it always runs to its end.
-/

namespace HarnessIndex.Syntax

namespace Tree

theorem sizes_append (front back : List Tree) :
    sizes (front ++ back) = sizes front + sizes back := by
  induction front with
  | nil => simp
  | cons tree front ih => rw [List.cons_append, sizes_cons, sizes_cons, ih, Nat.add_assoc]

theorem sizes_reverse (trees : List Tree) : sizes trees.reverse = sizes trees := by
  induction trees with
  | nil => rfl
  | cons tree rest ih =>
      rw [List.reverse_cons, sizes_append, ih, sizes_cons, sizes_cons, sizes_nil]
      omega

theorem sizes_le_of_sublist {fewer trees : List Tree} (sublist : fewer.Sublist trees) :
    sizes fewer ≤ sizes trees := by
  induction sublist with
  | slnil => exact Nat.le_refl _
  | cons tree _ ih =>
      rw [sizes_cons]
      exact Nat.le_trans ih (Nat.le_add_left _ _)
  | cons_cons tree _ ih =>
      rw [sizes_cons, sizes_cons]
      exact Nat.add_le_add_left ih _

theorem errorCounts_append (front back : List Tree) :
    errorCounts (front ++ back) = errorCounts front + errorCounts back := by
  induction front with
  | nil => simp
  | cons tree front ih =>
      rw [List.cons_append, errorCounts_cons, errorCounts_cons, ih, Nat.add_assoc]

theorem errorCounts_reverse (trees : List Tree) :
    errorCounts trees.reverse = errorCounts trees := by
  induction trees with
  | nil => rfl
  | cons tree rest ih =>
      rw [List.reverse_cons, errorCounts_append, ih, errorCounts_cons, errorCounts_cons,
        errorCounts_nil]
      omega

end Tree

open Syntax.Tree

/-! ## Counting nodes -/

/-- Counting with a pending list counts every pending tree with everything below it. -/
theorem tally_eq {steps : Nat} {pending : List Tree} (enough : sizes pending ≤ steps)
    (nodes errors : Nat) :
    tally steps pending nodes errors = (nodes + sizes pending, errors + errorCounts pending) := by
  induction steps generalizing pending nodes errors with
  | zero =>
      cases pending with
      | nil => simp [tally]
      | cons tree pending =>
          rw [sizes_cons, size_eq] at enough
          omega
  | succ steps ih =>
      cases pending with
      | nil => simp [tally]
      | cons tree pending =>
          rw [sizes_cons, size_eq] at enough
          have fewer : sizes (tree.children.reverse ++ pending) ≤ steps := by
            rw [sizes_append, sizes_reverse]
            omega
          rw [tally, ih fewer, sizes_append, sizes_reverse, errorCounts_append,
            errorCounts_reverse, sizes_cons, errorCounts_cons, size_eq, errorCount_eq]
          refine Prod.ext ?_ ?_
          · simp only
            omega
          · simp only
            split <;> omega

namespace Parsed

variable (source : Source) (tree : Tree)

@[simp] theorem root_ofTree : (ofTree source tree).root = .root source tree := rfl

@[simp] theorem totalNodes_ofTree : (ofTree source tree).totalNodes = tree.size := by
  rw [ofTree, tally_eq (by simp)]
  simp

@[simp] theorem errorCount_ofTree : (ofTree source tree).errorCount = tree.errorCount := by
  rw [ofTree, tally_eq (by simp)]
  simp

@[simp] theorem hasErrors_ofTree :
    (ofTree source tree).hasErrors = decide (0 < tree.errorCount) := by
  rw [hasErrors, errorCount_ofTree]

end Parsed

/-! ## Visiting nodes -/

namespace Node

/-- A node and what stands below it in pre-order, as a walk lists them. -/
def withBelow (prune : Kind → Bool) (node : Node) : List Node :=
  node :: if prune node.kind then [] else below node.source prune node.tree

theorem belowAll_eq (source : Source) (prune : Kind → Bool) (before trees : List Tree) :
    belowAll source prune before trees =
      ((place source before trees).filter fun child => child.tree.isVisible).flatMap
        (withBelow prune) := by
  induction trees generalizing before with
  | nil => rw [belowAll, place_nil, List.filter_nil, List.flatMap_nil]
  | cons child rest ih =>
      rw [belowAll, place_cons, List.filter_cons, ih]
      split
      · rw [List.flatMap_cons]
        rfl
      · rw [List.nil_append]

theorem below_eq (prune : Kind → Bool) (node : Node) :
    below node.source prune node.tree = node.children.flatMap (withBelow prune) := by
  obtain ⟨source, ⟨kind, start, stop, named, missing, field, children⟩, before⟩ := node
  rw [below, belowAll_eq]
  rfl

/-- The number of nodes in the trees of some nodes. -/
def totalSize (nodes : List Node) : Nat :=
  Tree.sizes (nodes.map Node.tree)

theorem totalSize_cons (node : Node) (rest : List Node) :
    totalSize (node :: rest) = 1 + Tree.sizes node.tree.children + totalSize rest := by
  rw [totalSize, List.map_cons, sizes_cons, size_eq, totalSize]

theorem totalSize_append (front back : List Node) :
    totalSize (front ++ back) = totalSize front + totalSize back := by
  rw [totalSize, List.map_append, sizes_append, totalSize, totalSize]

theorem totalSize_children_le (node : Node) :
    totalSize node.children ≤ Tree.sizes node.tree.children := by
  have visible : (node.children.map Node.tree).Sublist (node.allChildren.map Node.tree) :=
    List.filter_sublist.map Node.tree
  rw [map_tree_allChildren] at visible
  exact sizes_le_of_sublist visible

/-- A walk visits the pending nodes one after the other, each with what stands below it. -/
theorem visit_eq (prune : Kind → Bool) {steps : Nat} {pending : List Node}
    (enough : totalSize pending ≤ steps) :
    visit prune steps pending = pending.flatMap (withBelow prune) := by
  induction steps generalizing pending with
  | zero =>
      cases pending with
      | nil => rfl
      | cons node pending =>
          rw [totalSize_cons] at enough
          omega
  | succ steps ih =>
      cases pending with
      | nil => rfl
      | cons node pending =>
          have fits := totalSize_children_le node
          rw [totalSize_cons] at enough
          rw [visit, List.flatMap_cons, withBelow]
          split
          · rw [ih (by omega)]
            rfl
          · have fewer : totalSize (node.children ++ pending) ≤ steps := by
              rw [totalSize_append]
              omega
            rw [ih fewer, List.flatMap_append, below_eq, List.cons_append]

/-- The walk below a node is the pre-order of the recursion on its tree. -/
theorem descendants_eq_below (prune : Kind → Bool) (node : Node) :
    node.descendants prune = below node.source prune node.tree := by
  rw [descendants, visit_eq prune (totalSize_children_le node), below_eq]

/-! ## Positions of visited nodes -/

/-- A node stands below another one at a position. Every step on the way leads to a named child, and
no node between the two is of a kind that stops the way. -/
inductive StandsBelow (stops : Kind → Bool) : (outer : Node) → Position → Node → Prop where
  | child {outer node : Node} {index : Nat} : outer.allChildren[index]? = some node →
      node.tree.named = true → StandsBelow stops outer [index] node
  | deeper {outer between node : Node} {index : Nat} {rest : Position} :
      outer.allChildren[index]? = some between → between.tree.named = true →
      stops between.kind = false → StandsBelow stops between rest node →
      StandsBelow stops outer (index :: rest) node

/-- Where a walk stops: at nodes that it does not enter, and at comments. -/
def endsWalk (prune : Kind → Bool) (kind : Kind) : Bool :=
  prune kind || kind.isComment

/-- A walk visits a node at a position: the node stands there, no node on the way ends the walk, and
it is no comment itself. -/
def IsVisited (prune : Kind → Bool) (outer : Node) (position : Position) (node : Node) : Prop :=
  StandsBelow (endsWalk prune) outer position node ∧ node.isComment = false

variable {prune : Kind → Bool} {outer node : Node} {position : Position}

/-- What a walk visits from a child: the child itself if it is visible, and what it visits below the
child if it enters it. -/
def IsVisitedFrom (prune : Kind → Bool) (child : Node) (position : Position) (node : Node) : Prop :=
  child.tree.isVisible = true ∧ (position = [] ∧ node = child ∨
    prune child.kind = false ∧ IsVisited prune child position node)

/-- The first step to a visited node leads to a child. -/
theorem isVisited_iff :
    IsVisited prune outer position node ↔
      ∃ index child rest, outer.allChildren[index]? = some child ∧ position = index :: rest ∧
        IsVisitedFrom prune child rest node := by
  have visible_iff (child : Node) : child.tree.isVisible = true ↔
      child.tree.named = true ∧ child.isComment = false := by
    rw [Tree.isVisible, Bool.and_eq_true, Bool.not_eq_true']
    rfl
  constructor
  · rintro ⟨stands, code⟩
    cases stands with
    | @child _ _ index found named =>
        exact ⟨index, node, [], found, rfl, (visible_iff node).mpr ⟨named, code⟩,
          Or.inl ⟨rfl, rfl⟩⟩
    | @deeper _ between _ index rest found named passes below =>
        rw [endsWalk, Bool.or_eq_false_iff] at passes
        exact ⟨index, between, rest, found, rfl, (visible_iff between).mpr ⟨named, passes.2⟩,
          Or.inr ⟨passes.1, below, code⟩⟩
  · rintro ⟨index, child, rest, found, rfl, visible, ⟨rfl, rfl⟩ | ⟨enters, below, code⟩⟩
    · obtain ⟨named, code⟩ := (visible_iff node).mp visible
      exact ⟨.child found named, code⟩
    · obtain ⟨named, childCode⟩ := (visible_iff child).mp visible
      exact ⟨.deeper found named (Bool.or_eq_false_iff.mpr ⟨enters, childCode⟩) below, code⟩

/-- Nothing is visited at the position of the node that the walk starts from. -/
theorem IsVisited.ne_nil (visited : IsVisited prune outer position node) : position ≠ [] := by
  obtain ⟨index, child, rest, -, rfl, -⟩ := isVisited_iff.mp visited
  exact List.cons_ne_nil index rest

/-- What is done for every visible child is done for every child, the others giving nothing. -/
theorem flatMap_children {α : Type} (each : Node → List α) (node : Node) :
    node.children.flatMap each =
      node.allChildren.flatMap fun child => if child.tree.isVisible then each child else [] := by
  rw [children]
  induction node.allChildren with
  | nil => rfl
  | cons child rest ih =>
      rw [List.filter_cons, List.flatMap_cons, ← ih]
      split
      · rw [List.flatMap_cons]
      · rw [List.nil_append]

theorem inPreorder_withBelow {child : Node}
    (entered : InPreorder (IsVisited prune child) (child.descendants prune)) :
    InPreorder (IsVisitedFrom prune child)
      (if child.tree.isVisible then withBelow prune child else []) := by
  split
  · rename_i visible
    have later : InPreorder
        (fun position node => prune child.kind = false ∧ IsVisited prune child position node)
        (if prune child.kind then [] else below child.source prune child.tree) := by
      split
      · rename_i pruned
        apply InPreorder.nil
        rintro position node ⟨enters, -⟩
        exact absurd (pruned.symm.trans enters) (by decide)
      · rename_i enters
        rw [← descendants_eq_below]
        exact entered.congr fun _ _ => (and_iff_right (Bool.eq_false_iff.mpr enters)).symm
    refine ((InPreorder.singleton child).append later ?_).congr ?_
    · rintro _ _ position _ ⟨rfl, -⟩ ⟨-, visited⟩
      obtain ⟨first, rest, split⟩ := List.exists_cons_of_ne_nil visited.ne_nil
      rw [split]
      exact List.nil_lt_cons first rest
    · intro position node
      rw [IsVisitedFrom, and_iff_right visible]
  · rename_i hidden
    apply InPreorder.nil
    rintro position node ⟨visible, -⟩
    exact hidden visible

/-- A walk lists what it visits, each position once, in pre-order. -/
theorem inPreorder_descendants (prune : Kind → Bool) (outer : Node) :
    InPreorder (IsVisited prune outer) (outer.descendants prune) := by
  induction outer using child_induction with
  | step outer ih =>
      have entered : ∀ child ∈ outer.allChildren,
          InPreorder (IsVisitedFrom prune child)
            (if child.tree.isVisible then withBelow prune child else []) :=
        fun child member => inPreorder_withBelow (ih child member)
      rw [descendants_eq_below, below_eq, flatMap_children]
      exact (InPreorder.flatMap entered).congr fun _ _ => isVisited_iff.symm

end Node

end HarnessIndex.Syntax
