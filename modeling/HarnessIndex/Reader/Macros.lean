import HarnessIndex.Attribute.Arguments
import HarnessIndex.Reader.Words

/-!
# Token trees and attributes

What stands in the brackets of a macro invocation or of an attribute is not read as code: it is a
flat run of tokens with nested brackets. Names, literals and nested brackets become nodes.
-/

namespace HarnessIndex.Reader

open Syntax

/-- The closing bracket of the next token. -/
def closerOf (tokens : List Token) : Option Char :=
  match tokens with
  | token :: _ =>
      if token.shape = .mark then token.text.head?.bind Attribute.closer? else none
  | [] => none

/-- Whether the next token closes a bracket or ends the source. -/
def atCloser (tokens : List Token) : Bool :=
  atFinish tokens || startsMark ')' tokens || startsMark ']' tokens || startsMark '\x7d' tokens

namespace Rule

def treeToken : Rule := do
  let start ← here
  let token ← take
  match token.shape with
  | .word =>
      if token.isWord "true" || token.isWord "false" then
        return [tree (kind "boolean_literal") start token.stop []]
      else if token.isWord "mut" then
        return [tree (kind "mutable_specifier") start token.stop []]
      else if token.isPrimitive then return [tree (kind "primitive_type") start token.stop []]
      else if treeKeywords.contains token.text then return []
      else return [tree (segmentKind token) start token.stop []]
  | .rawWord => return [tree .identifier start token.stop []]
  | .lifetime => return [tree .identifier (start + 1) token.stop []]
  | .mark => return []
  | .finish => reject
  | _ => return [tree (literalKind token) start token.stop []]

/-- Read a variable of a macro definition. -/
def metavariable : Rule :=
  node .metavariable (both (mark '$') pass)

/-- Read what stands in the brackets of a token tree. -/
def treeContent (scope : Scope) (definition : Bool) : Rule :=
  scope.repeated (fun tokens => !atCloser tokens) (do
    let tokens ← look
    if startsBracket tokens then scope.rule (.tokenTree definition)
    else if definition && startsMark '$' tokens && startsSecond Token.isAnyWord tokens then
      metavariable
    else treeToken)

/-- Read a token tree with its brackets. -/
def tokenTree (scope : Scope) (definition : Bool) : Rule :=
  node (kind "token_tree") (do
    match closerOf (← look) with
    | none => reject
    | some closer => inOrder [pass, treeContent scope definition, mark closer])

/-- Read the rest of a macro invocation whose path has been read. -/
def macroCall (scope : Scope) (start : Nat) (path : Forest) : Rule :=
  extendNode .macroInvocation start (path.map fun tree => { tree with field := some .macroPath })
    (both (mark '!') (scope.rule (.tokenTree false)))

/-- Read further segments of a path of names, of which the first ones have been read. -/
def moreSegments (start : Nat) : (bound : Nat) → (path : Forest) → Rule
  | 0, path => return path
  | bound + 1, path => do
      let tokens ← look
      if startsOperator "::" tokens && starts Token.isAnyWord (tokens.drop 2) then
        let extended ← extendNode .scopedIdentifier start path
          (both (operator "::") (asField .name anyName))
        moreSegments start bound extended
      else return path

/-- Read a path of names in which every word may occur. -/
def plainPath (scope : Scope) : Rule := do
  let start ← here
  if startsOperator "::" (← look) then
    let first ← node .scopedIdentifier (both (operator "::") (asField .name anyName))
    moreSegments start scope.bound first
  else
    let first ← leafIf Token.isAnyWord segmentKind
    moreSegments start scope.bound first

/-- Read an attribute without its brackets. -/
def attributeBody (scope : Scope) : Rule :=
  node .attributeBody (do
    let path ← plainPath scope
    let tokens ← look
    if startsMark '=' tokens then
      let value ← both (mark '=') (asField .value (scope.rule (.expression false)))
      return path ++ value
    else if startsBracket tokens then
      let arguments ← asField .arguments (scope.rule (.tokenTree false))
      return path ++ arguments
    else return path)

/-- Read an attribute of an item. -/
def outerAttribute (scope : Scope) : Rule :=
  node .attributeItem (both (mark '#') (bracketed '[' ']' (attributeBody scope)))

/-- Read an attribute of the container it stands in. -/
def innerAttribute (scope : Scope) : Rule :=
  node (kind "inner_attribute_item")
    (inOrder [mark '#', mark '!', bracketed '[' ']' (attributeBody scope)])

/-- Whether an attribute of an item follows. -/
def startsOuterAttribute (tokens : List Token) : Bool :=
  startsMark '#' tokens && startsMark '[' (tokens.drop 1)

/-- Whether an attribute of a container follows. -/
def startsInnerAttribute (tokens : List Token) : Bool :=
  startsMark '#' tokens && startsMark '!' (tokens.drop 1) && startsMark '[' (tokens.drop 2)

/-- Read the attributes before an element. -/
def attributes (scope : Scope) : Rule :=
  scope.repeated startsOuterAttribute (outerAttribute scope)

/-- Whether a macro invocation goes on after its path. -/
def startsMacroCall (tokens : List Token) : Bool :=
  startsMark '!' tokens && startsBracket (tokens.drop 1)

end Rule

end HarnessIndex.Reader
