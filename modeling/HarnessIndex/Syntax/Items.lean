import HarnessIndex.Syntax.Walk
import HarnessIndex.Text.Lines
import HarnessIndex.Attribute.Arguments

/-!
# Reading items

What can be read off one node: its name, its attributes, its documentation, the path of an attribute
and its arguments, the callee of a call. Every reading is total; on a node of another shape it gives
nothing. `itemsOf` finds the items of a file, in modules and in places that do not follow the
grammar.
-/

namespace HarnessIndex.Syntax

namespace Node

/-- `text` unless it is empty. -/
def nonempty? (text : Text) : Option Text :=
  if text.isEmpty then none else some text

/-- The declared name of an item. -/
def name? (item : Node) : Option Text := do
  let name ← item.field? .name
  if name.isError then none else nonempty? name.text

/-- The attributes among earlier siblings, nearest first, up to the first sibling that is neither an
attribute nor a comment; the answer is in source order. -/
def attributesBefore (source : Source) : List Tree → List Node
  | [] => []
  | tree :: before =>
      if tree.kind = .attributeItem then
        attributesBefore source before ++ [⟨source, tree, before⟩]
      else if tree.kind.isComment then attributesBefore source before
      else []

/-- The attributes attached to an item, in source order. -/
def attributes (item : Node) : List Node :=
  attributesBefore item.source item.before

/-- The attribute inside an attribute item. -/
def attributeBody? (item : Node) : Option Node :=
  if item.kind = .attributeItem then item.children.find? fun child => child.kind = .attributeBody
  else none

/-- The path of an attribute, without blanks. -/
def attributePath? (item : Node) : Option Text := do
  let body ← item.attributeBody?
  let path ← body.children.head?
  if path.kind.isPath then nonempty? (Text.withoutBlanks path.text) else none

/-- The argument texts of an attribute: those of its token text, or its value. -/
def literalArguments (item : Node) : List Text :=
  match item.attributeBody? with
  | none => []
  | some body =>
      match body.field? .arguments with
      | some arguments => Attribute.splitArguments arguments.text
      | none =>
          match body.field? .value with
          | some value => Attribute.trimmedPieces [value.text]
          | none => []

/-- Drop the stars at the front of a text. -/
def withoutStars (text : Text) : Text :=
  text.dropWhile (· = '*')

/-- The inside of a block comment of documentation. -/
def blockDoc (text : Text) : Text :=
  let body := if Text.endsWith "*/" text then (text.drop 3).dropLast.dropLast else text.drop 3
  let lines := (Text.lines body).map fun line => Text.trim (withoutStars (Text.trim line))
  Text.join ['\n'] (lines.filter fun line => !line.isEmpty)

/-- What a comment documents about the item below it. -/
def docText? (comment : Text) : Option Text :=
  let text := Text.trim comment
  if Text.startsWith "///" text && !Text.startsWith "////" text then
    some (Text.trim (text.drop 3))
  else if Text.startsWith "/**" text && !Text.startsWith "/***" text then
    some (blockDoc text)
  else none

/-- The documentation among earlier siblings, nearest first, up to the first sibling that is neither
a comment nor an attribute; the answer is in source order. -/
def docBefore (source : Source) : List Tree → List Text
  | [] => []
  | tree :: before =>
      if tree.kind.isComment then
        docBefore source before ++ (docText? (source.slice tree.start tree.stop)).toList
      else if tree.kind = .attributeItem then docBefore source before
      else []

/-- The documentation written above an item. -/
def doc? (item : Node) : Option Text :=
  nonempty? (Text.trim (Text.join ['\n'] (docBefore item.source item.before)))

/-- The identifiers in the body of an item, each at its first place. -/
def identifiers (item : Node) : List Text :=
  match item.field? .body with
  | none => []
  | some body =>
      (((body.descendants everywhere).filter fun node => node.kind = .identifier).map
        Node.text).eraseDups

/-- The node that a call or a macro invocation names as its callee. -/
def calleeNode? (node : Node) : Option Node :=
  if node.kind = .macroInvocation then node.field? .macroPath
  else if node.kind = .callExpression then do
    let target ← node.field? .function
    if target.kind = .genericFunction then target.field? .function else some target
  else none

/-- The path of the callee of a call or a macro invocation, without blanks. -/
def callee? (node : Node) : Option Text := do
  let target ← node.calleeNode?
  if target.kind.isPath then nonempty? (Text.withoutBlanks target.text) else none

def callArguments (node : Node) : List Node :=
  if node.kind = .callExpression then
    match node.field? .arguments with
    | some arguments => arguments.children
    | none => []
  else []

end Node

/-- An item and the names of the modules it stands in, outermost first. -/
structure Item where
  node : Node
  modulePath : List Text

namespace Item

def moduleName (node : Node) : Text :=
  node.name?.getD "_"

mutual

/-- The items of one kind in a container. -/
def within (source : Source) (kind : Kind) (path : List Text) : Tree → List Item
  | ⟨_, _, _, _, _, _, children⟩ => among source kind path [] children

/-- The items of one kind among the children of a container, when the named ones in `before` have
been passed. The body of a module and a node that marks an error are containers too. -/
def among (source : Source) (kind : Kind) (path : List Text) (before : List Tree) :
    List Tree → List Item
  | [] => []
  | child :: rest =>
      (if child.isVisible then
        (if child.kind = kind then [⟨⟨source, child, before⟩, path⟩] else []) ++
          (if child.kind = .modItem then
            inModule source kind (path ++ [moduleName ⟨source, child, before⟩]) child
          else if child.isError then within source kind path child
          else [])
      else []) ++
        among source kind path (Node.pass child before) rest

def inModule (source : Source) (kind : Kind) (path : List Text) : Tree → List Item
  | ⟨_, _, _, _, _, _, children⟩ => inBody source kind path children

/-- The items of one kind in the first child that is a body. -/
def inBody (source : Source) (kind : Kind) (path : List Text) : List Tree → List Item
  | [] => []
  | child :: rest =>
      if child.field = some .body then within source kind path child
      else inBody source kind path rest

end

end Item

/-- The items of one kind in a file, from top to bottom. -/
def itemsOf (kind : Kind) (root : Node) : List Item :=
  Item.within root.source kind [] root.tree

def functionsOf (root : Node) : List Item :=
  itemsOf .functionItem root

end HarnessIndex.Syntax
