import HarnessIndex.Syntax.Kind

/-!
# Syntax trees

A syntax tree as a parser delivers it: every node has a kind, a span of bytes in the source, and its
children in order. Anonymous nodes such as punctuation are children that are not named. A node of
kind `error`, and one that the parser inserted because it was missing, marks a place where the
source does not follow the grammar.

Trees are arbitrary: spans need not be nested or ordered, and a field may occur more than once.
-/

namespace HarnessIndex.Syntax

/-- A node with everything below it. -/
structure Tree where
  kind : Kind
  start : Nat
  stop : Nat
  named : Bool
  missing : Bool
  field : Option Field
  children : List Tree
  deriving Repr, Inhabited, BEq

namespace Tree

/-- Whether a node marks a place that does not follow the grammar. -/
def isError (tree : Tree) : Bool :=
  tree.kind = .error || tree.missing

/-- Whether a node takes part in the analysis: it is named and no comment. -/
def isVisible (tree : Tree) : Bool :=
  tree.named && !tree.kind.isComment

mutual

/-- The number of nodes of a tree. -/
def size : Tree → Nat
  | ⟨_, _, _, _, _, _, children⟩ => 1 + sizes children

/-- The number of nodes of some trees. -/
def sizes : List Tree → Nat
  | [] => 0
  | tree :: rest => size tree + sizes rest

end

mutual

/-- The number of nodes of a tree that mark an error. -/
def errorCount : Tree → Nat
  | ⟨kind, _, _, _, missing, _, children⟩ =>
      (if kind = .error || missing then 1 else 0) + errorCounts children

/-- The number of nodes of some trees that mark an error. -/
def errorCounts : List Tree → Nat
  | [] => 0
  | tree :: rest => errorCount tree + errorCounts rest

end

@[simp] theorem sizes_nil : sizes [] = 0 := by rw [sizes]

@[simp] theorem sizes_cons (tree : Tree) (rest : List Tree) :
    sizes (tree :: rest) = size tree + sizes rest := by rw [sizes]

theorem size_eq (tree : Tree) : size tree = 1 + sizes tree.children := by
  cases tree
  rw [size]

@[simp] theorem errorCounts_nil : errorCounts [] = 0 := by rw [errorCounts]

@[simp] theorem errorCounts_cons (tree : Tree) (rest : List Tree) :
    errorCounts (tree :: rest) = errorCount tree + errorCounts rest := by rw [errorCounts]

theorem errorCount_eq (tree : Tree) :
    errorCount tree = (if tree.isError then 1 else 0) + errorCounts tree.children := by
  cases tree
  rw [errorCount, isError]

end Tree

end HarnessIndex.Syntax
