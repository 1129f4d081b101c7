import HarnessIndex.Text.Blank

/-!
# Node kinds and field names

Every node of a syntax tree has a kind, the grammar rule it comes from, and may fill a named field
of its parent. The kinds and fields that the analysis looks at have constructors of their own; all
others are kept by name. `ofName` never uses `other` for a name that has a constructor, so two names
give the same kind only when they are equal.
-/

namespace HarnessIndex.Syntax

/-- The grammar rule of a node. -/
inductive Kind where
  | sourceFile
  | functionItem
  | modItem
  | attributeItem
  | attributeBody
  | lineComment
  | blockComment
  | identifier
  | scopedIdentifier
  | crateRoot
  | selfModule
  | superModule
  | metavariable
  | callExpression
  | macroInvocation
  | genericFunction
  | closureExpression
  | error
  | other (name : Text)
  deriving DecidableEq, Repr, Inhabited

namespace Kind

/-- The names of the kinds that have constructors. -/
def known : List (Text × Kind) :=
  [("source_file", sourceFile), ("function_item", functionItem), ("mod_item", modItem),
    ("attribute_item", attributeItem), ("attribute", attributeBody), ("line_comment", lineComment),
    ("block_comment", blockComment), ("identifier", identifier),
    ("scoped_identifier", scopedIdentifier), ("crate", crateRoot), ("self", selfModule),
    ("super", superModule), ("metavariable", metavariable), ("call_expression", callExpression),
    ("macro_invocation", macroInvocation), ("generic_function", genericFunction),
    ("closure_expression", closureExpression), ("ERROR", error)]

def ofName (name : Text) : Kind :=
  (known.lookup name).getD (other name)

def name : Kind → Text
  | sourceFile => "source_file"
  | functionItem => "function_item"
  | modItem => "mod_item"
  | attributeItem => "attribute_item"
  | attributeBody => "attribute"
  | lineComment => "line_comment"
  | blockComment => "block_comment"
  | identifier => "identifier"
  | scopedIdentifier => "scoped_identifier"
  | crateRoot => "crate"
  | selfModule => "self"
  | superModule => "super"
  | metavariable => "metavariable"
  | callExpression => "call_expression"
  | macroInvocation => "macro_invocation"
  | genericFunction => "generic_function"
  | closureExpression => "closure_expression"
  | error => "ERROR"
  | other name => name

def isComment : Kind → Bool
  | lineComment | blockComment => true
  | _ => false

/-- Whether a node of this kind is a path that names an item. -/
def isPath : Kind → Bool
  | identifier | scopedIdentifier | crateRoot | selfModule | superModule | metavariable => true
  | _ => false

end Kind

/-- The part that a node plays in its parent. -/
inductive Field where
  | name
  | body
  | arguments
  | value
  | macroPath
  | function
  | other (name : Text)
  deriving DecidableEq, Repr, Inhabited

namespace Field

/-- The names of the fields that have constructors. -/
def known : List (Text × Field) :=
  [("name", name), ("body", body), ("arguments", arguments), ("value", value),
    ("macro", macroPath), ("function", function)]

def ofName (text : Text) : Field :=
  (known.lookup text).getD (other text)

end Field

end HarnessIndex.Syntax
