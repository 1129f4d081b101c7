import HarnessIndex.Syntax.Tree
import HarnessIndex.Text.Utf8

/-!
# Nodes in their place

A `Node` is a tree together with the source it spans and its earlier named siblings, nearest first.
That is all the analysis ever asks of a place: the text and the lines of the node, what stands below
it, and what stands before it in the same parent.
-/

namespace HarnessIndex.Syntax

/-- The bytes of a source text. -/
structure Source where
  bytes : Array UInt8
  deriving Repr, Inhabited

namespace Source

def ofText (text : Text) : Source :=
  ⟨(Text.encode text).toArray⟩

/-- The text between two offsets; bytes that are not UTF-8 are replaced. -/
def slice (source : Source) (start stop : Nat) : Text :=
  Text.decode (source.bytes.extract start stop).toList

/-- The line, counted from 1, on which an offset lies. -/
def lineAt (source : Source) (offset : Nat) : Nat :=
  (source.bytes.extract 0 offset).toList.countP (· = 0x0a) + 1

end Source

/-- A node of a syntax tree in its place. -/
structure Node where
  source : Source
  tree : Tree
  before : List Tree
  deriving Inhabited

namespace Node

def root (source : Source) (tree : Tree) : Node :=
  ⟨source, tree, []⟩

/-- The grammar rule of a node. -/
def kind (node : Node) : Kind :=
  node.tree.kind

/-- The offset of the first byte of a node. -/
def startByte (node : Node) : Nat :=
  node.tree.start

/-- The offset after the last byte of a node. -/
def endByte (node : Node) : Nat :=
  node.tree.stop

def startLine (node : Node) : Nat :=
  node.source.lineAt node.startByte

def endLine (node : Node) : Nat :=
  node.source.lineAt node.endByte

def text (node : Node) : Text :=
  node.source.slice node.startByte node.endByte

/-- Whether a node marks a place that does not follow the grammar. -/
def isError (node : Node) : Bool :=
  node.tree.isError

def isComment (node : Node) : Bool :=
  node.kind.isComment

/-- The kind and the span of a node. Two nodes are taken for the same when these agree. -/
def span (node : Node) : Kind × Nat × Nat :=
  (node.kind, node.startByte, node.endByte)

/-- The earlier named siblings as they are seen after one more child. -/
def pass (child : Tree) (before : List Tree) : List Tree :=
  if child.named then child :: before else before

/-- Put children in their places, when the named ones in `before` have been passed. -/
def place (source : Source) (before : List Tree) : List Tree → List Node
  | [] => []
  | child :: rest => ⟨source, child, before⟩ :: place source (pass child before) rest

/-- All children of a node. -/
def allChildren (node : Node) : List Node :=
  place node.source [] node.tree.children

/-- The named children of a node that are no comments. -/
def children (node : Node) : List Node :=
  node.allChildren.filter fun child => child.tree.isVisible

/-- The first child that fills a field. -/
def field? (node : Node) (field : Field) : Option Node :=
  node.allChildren.find? fun child => child.tree.field = some field

/-- The nearest of some earlier siblings. -/
def nearest? (source : Source) : List Tree → Option Node
  | [] => none
  | tree :: before => some ⟨source, tree, before⟩

/-- The nearest earlier sibling that is named, comments included. -/
def previous? (node : Node) : Option Node :=
  nearest? node.source node.before

@[simp] theorem place_nil (source : Source) (before : List Tree) : place source before [] = [] :=
  rfl

@[simp] theorem place_cons (source : Source) (before : List Tree) (child : Tree)
    (rest : List Tree) :
    place source before (child :: rest) =
      ⟨source, child, before⟩ :: place source (pass child before) rest := rfl

@[simp] theorem length_place (source : Source) (before trees : List Tree) :
    (place source before trees).length = trees.length := by
  induction trees generalizing before with
  | nil => rfl
  | cons child rest ih => simp [ih]

@[simp] theorem map_tree_place (source : Source) (before trees : List Tree) :
    (place source before trees).map Node.tree = trees := by
  induction trees generalizing before with
  | nil => rfl
  | cons child rest ih => simp [ih]

end Node

end HarnessIndex.Syntax
