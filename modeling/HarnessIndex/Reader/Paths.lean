import HarnessIndex.Reader.Types

/-!
# Paths of values

Paths as they occur in expressions and patterns: names with double colons between them, which may
begin with a type in angle brackets and hold the arguments of types after a double colon.
-/

namespace HarnessIndex.Reader

open Syntax

/-- A path that has been read, and the type arguments after its last name. -/
structure ValuePath where
  start : Nat
  path : Forest
  arguments : Forest

/-- A node with another kind when it is a name. -/
def asTypeName (tree : Tree) : Tree :=
  if tree.kind = .identifier then { tree with kind := Rule.kind "type_identifier" } else tree

/-- The path of a value taken as the path of a type. -/
def asTypePath (tree : Tree) : Tree :=
  if tree.kind = .scopedIdentifier then
    { tree with
      kind := Rule.kind "scoped_type_identifier"
      children := tree.children.map fun child =>
        if child.field = some .name then asTypeName child else child }
  else asTypeName tree

namespace Rule

/-- Read the next name of a path. -/
def nextSegment (start : Nat) (front : Forest) : Rule :=
  extendNode .scopedIdentifier start front
    (both (operator "::") (asField .name (leafIf Token.isSegment segmentKind)))

/-- Read the names of a path after those that have been read. -/
def moreOfPath (scope : Scope) (start : Nat) : (bound : Nat) → (front : Forest) → Reading ValuePath
  | 0, _ => reject
  | bound + 1, front => do
      let tokens ← look
      if startsSegment tokens then
        let longer ← nextSegment start front
        moreOfPath scope start bound longer
      else if startsOperator "::" tokens && startsMark '<' (tokens.drop 2) then
        let _ ← operator "::"
        let arguments ← typeArguments scope
        if startsSegment (← look) then
          let stop := (← get).last
          let whole := tree (kind "generic_type") start stop (front.map asTypeName ++ arguments)
          let longer ← nextSegment start [whole]
          moreOfPath scope start bound longer
        else return ⟨start, front, arguments⟩
      else return ⟨start, front, []⟩

def valuePath (scope : Scope) : Reading ValuePath := do
  let start ← here
  let tokens ← look
  let front ←
    if startsMark '<' tokens then
      let type ← qualifiedType scope
      nextSegment start type
    else if startsOperator "::" tokens then nextSegment start []
    else leafIf Token.isSegment segmentKind
  moreOfPath scope start scope.bound front

def startsValuePath (tokens : List Token) : Bool :=
  starts Token.isSegment tokens || startsMark '<' tokens || startsOperator "::" tokens

/-- Read the rest of a struct whose path has been read. -/
def afterStructName (kindName : String) (path : ValuePath) (body : Rule) : Rule :=
  let name :=
    if path.arguments.isEmpty then path.path.map asTypePath
    else path.path.map asTypeName ++ path.arguments
  extendNode (kind kindName) path.start name body

end Rule

end HarnessIndex.Reader
