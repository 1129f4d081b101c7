import HarnessIndex.Syntax.Node

/-!
# Walking a tree

`Node.descendants` lists what stands below a node in pre-order. The walk keeps the nodes that are
still to be visited in a list of its own, so that the depth of the tree costs no call depth; every
step takes one node from that list and puts the children of the node in its place. `Node.below` and
`Node.belowAll` say the same by recursion on the tree.
-/

namespace HarnessIndex.Syntax

namespace Node

mutual

/-- The nodes below a node in pre-order, by recursion: comments are left out with everything below
them, and a node of a pruned kind is listed but not entered. -/
def below (source : Source) (prune : Kind → Bool) : Tree → List Node
  | ⟨_, _, _, _, _, _, children⟩ => belowAll source prune [] children

/-- The nodes of some children in pre-order, when the named ones in `before` have been passed. -/
def belowAll (source : Source) (prune : Kind → Bool) (before : List Tree) :
    List Tree → List Node
  | [] => []
  | child :: rest =>
      (if child.isVisible then
        ⟨source, child, before⟩ :: (if prune child.kind then [] else below source prune child)
      else []) ++
        belowAll source prune (pass child before) rest

end

/-- Visit pending nodes one after the other, each before its children, for at most `steps` steps. -/
def visit (prune : Kind → Bool) : (steps : Nat) → (pending : List Node) → List Node
  | 0, _ => []
  | _, [] => []
  | steps + 1, node :: pending =>
      node :: visit prune steps (if prune node.kind then pending else node.children ++ pending)

/-- The nodes below a node in pre-order, without comments. A node of a pruned kind is listed but not
entered. -/
def descendants (prune : Kind → Bool) (node : Node) : List Node :=
  visit prune (Tree.sizes node.tree.children) node.children

/-- Prune nothing. -/
def everywhere (_ : Kind) : Bool :=
  false

@[simp] theorem visit_nil (prune : Kind → Bool) (steps : Nat) : visit prune steps [] = [] := by
  cases steps <;> rfl

end Node

/-- The number of nodes in a stack of pending trees, and how many of them mark an error, for at most
`steps` steps. The children of a tree go on top of the stack, the last one topmost. -/
def tally : (steps : Nat) → (pending : List Tree) → (nodes errors : Nat) → Nat × Nat
  | 0, _, nodes, errors => (nodes, errors)
  | _, [], nodes, errors => (nodes, errors)
  | steps + 1, tree :: pending, nodes, errors =>
      tally steps (tree.children.reverse ++ pending) (nodes + 1)
        (if tree.isError then errors + 1 else errors)

/-- A source with its syntax tree, and how many nodes the tree has and how many mark an error. -/
structure Parsed where
  root : Node
  totalNodes : Nat
  errorCount : Nat

namespace Parsed

/-- Take stock of a tree. -/
def ofTree (source : Source) (tree : Tree) : Parsed :=
  let counts := tally tree.size [tree] 0 0
  { root := .root source tree, totalNodes := counts.1, errorCount := counts.2 }

/-- Whether the source does not follow the grammar somewhere. -/
def hasErrors (parsed : Parsed) : Bool :=
  0 < parsed.errorCount

end Parsed

end HarnessIndex.Syntax
