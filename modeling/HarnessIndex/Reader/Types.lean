import HarnessIndex.Reader.Macros

/-!
# Types

The rules for types, their arguments and bounds, and the parameters of functions.
-/

namespace HarnessIndex.Reader

open Syntax

/-- A path that is being read: the place where it begins and the nodes of its front. -/
structure PathFront where
  start : Nat
  front : Forest

namespace Rule

/-- Make the name of a type of the last segment of a path. -/
def scopedType (path : PathFront) (last : Rule) : Rule :=
  if path.front.isEmpty then last
  else extendNode (kind "scoped_type_identifier") path.start path.front last

/-- Whether another segment of a path follows. -/
def startsSegment (tokens : List Token) : Bool :=
  startsOperator "::" tokens && starts Token.isSegment (tokens.drop 2)

/-- Read the bounds that a colon announces. -/
def colonBounds (bounds : Rule) : Rule := do
  let tokens ← look
  if startsMark ':' tokens && !startsOperator "::" tokens then
    node (kind "trait_bounds") (both (mark ':') bounds)
  else nothing

/-- Read bounds with plus signs between them. -/
def plusSeparated (element : Rule) : (bound : Nat) → Rule
  | 0 => nothing
  | bound + 1 => do
      let front ← element
      if startsMark '+' (← look) then
        let _ ← pass
        let tokens ← look
        if starts (fun token => token.isMark ',' || token.isMark '>' || token.isMark '\x7b' ||
            token.isMark ';' || token.isMark '=' || token.isMark ')') tokens then return front
        else
          let back ← plusSeparated element bound
          return front ++ back
      else return front

/-- Read the parameters of a type or of a quantifier, as lifetimes, types and constants. -/
def typeParameter (scope : Scope) (bounds : Rule) : Rule := do
  let _ ← attributes scope
  let tokens ← look
  if starts (fun token => token.shape = .lifetime) tokens then
    node (kind "lifetime_parameter") (both (asField .name lifetime) (colonBounds bounds))
  else if startsWord "const" tokens then
    node (kind "const_parameter") (inOrder [keyword "const", asField .name name, mark ':',
      scope.rule .type, readIf (startsMark '=') (both (mark '=')
        (do if startsMark '\x7b' (← look) then scope.rule .block
            else scope.rule (.operand true)))])
  else
    node (kind "type_parameter") (inOrder [asField .name typeName, colonBounds bounds,
      readIf (startsMark '=') (both (mark '=') (scope.rule .type))])

/-- Read the parameters in angle brackets. -/
def typeParameters (scope : Scope) (bounds : Rule) : Rule :=
  node (kind "type_parameters") (scope.commaList '<' '>' (typeParameter scope bounds))

/-- Read a quantifier over lifetimes. -/
def forLifetimes (scope : Scope) (bounds : Rule) : Rule :=
  both (keyword "for") (typeParameters scope bounds)

def oneBound (scope : Scope) (bounds : Rule) : Rule := do
  let tokens ← look
  if starts (fun token => token.shape = .lifetime) tokens then lifetime
  else if startsMark '?' tokens then
    node (kind "removed_trait_bound") (both (mark '?') (scope.rule .type))
  else if startsMark '~' tokens then inOrder [pass, keyword "const", scope.rule .type]
  else if startsWord "const" tokens || startsWord "async" tokens then both pass (scope.rule .type)
  else if startsWord "use" tokens then
    both pass (scope.commaList '<' '>' (either lifetime (either typeName pass)))
  else if startsWord "for" tokens && startsMark '<' (tokens.drop 1) then
    node (kind "higher_ranked_trait_bound")
      (both (forLifetimes scope bounds) (scope.rule .type))
  else scope.rule .type

/-- Read bounds, for quantifiers nested at most as deep as the first number. -/
def boundsWithin (scope : Scope) : (depth : Nat) → Rule
  | 0 => reject
  | depth + 1 =>
      plusSeparated (oneBound scope (fun stream => boundsWithin scope depth stream)) scope.bound

def bounds (scope : Scope) : Rule :=
  boundsWithin scope scope.bound

def typeArgument (scope : Scope) : Rule := do
  let tokens ← look
  if starts (fun token => token.shape = .lifetime) tokens then
    both lifetime (colonBounds (bounds scope))
  else if startsMark '\x7b' tokens then scope.rule .block
  else if starts Token.isLiteral tokens then literal
  else if startsMark '-' tokens then
    node (kind "negative_literal") (both (mark '-') literal)
  else
    let start ← here
    let front ← scope.rule .type
    let tokens ← look
    if startsMark '=' tokens then
      extendNode (kind "type_binding") start front (both (mark '=')
        (do
          let tokens ← look
          if startsMark '\x7b' tokens then scope.rule .block
          else if starts Token.isLiteral tokens then literal
          else scope.rule .type))
    else if startsMark ':' tokens then
      let back ← colonBounds (bounds scope)
      return front ++ back
    else if startsMark '+' tokens then
      extendNode (kind "bounded_type") start front (both (mark '+') (bounds scope))
    else return front

def typeArguments (scope : Scope) : Rule :=
  node (kind "type_arguments") (scope.commaList '<' '>' (typeArgument scope))

/-- Whether a parameter of a method stands for its object. -/
def startsSelf (tokens : List Token) : Bool :=
  let afterLifetime (tokens : List Token) :=
    if starts (fun token => token.shape = .lifetime) tokens then tokens.drop 1 else tokens
  let afterMut (tokens : List Token) :=
    if startsWord "mut" tokens then tokens.drop 1 else tokens
  let tokens := if startsMark '&' tokens then afterLifetime (tokens.drop 1) else tokens
  let tokens := afterMut tokens
  startsWord "self" tokens && !startsOperator "::" (tokens.drop 1)

/-- Read the parameter that stands for the object of a method. -/
def selfParameter (scope : Scope) : Rule :=
  node (kind "self_parameter") (inOrder [optionalMark '&',
    readIf (starts fun token => token.shape = .lifetime) lifetime,
    readIf (startsWord "mut") (leaf (kind "mutable_specifier")), leaf .selfModule,
    readIf (startsMark ':') (both (mark ':') (scope.rule .type))])

/-- Read a parameter with a pattern and a type. -/
def namedParameter (scope : Scope) : Rule :=
  node (kind "parameter") (do
    let front ← scope.rule .singlePattern
    let tokens ← look
    if startsMark ':' tokens && !startsOperator "::" tokens then
      let _ ← pass
      if startsOperator "..." (← look) then
        let _ ← passMany 3
        return front
      else
        let back ← scope.rule .type
        return front ++ back
    else reject)

/-- Read a parameter of a function. -/
def parameter (scope : Scope) : Rule := do
  let front ← attributes scope
  let tokens ← look
  let back ←
    if startsSelf tokens then selfParameter scope
    else if startsOperator "..." tokens then node (kind "variadic_parameter") (passMany 3)
    else either (namedParameter scope) (scope.rule .type)
  return front ++ back

/-- Read the parameters of a function. -/
def parameters (scope : Scope) : Rule :=
  node (kind "parameters") (scope.commaList '(' ')' (parameter scope))

/-- Read the result type of a function, if it has one. -/
def resultType (scope : Scope) : Rule :=
  readIf (startsOperator "->") (both (operator "->") (scope.rule .type))

/-- Read the rest of a type that is the name of a function trait. -/
def functionTrait (scope : Scope) (start : Nat) (front : Forest) : Rule :=
  extendNode (kind "function_type") start front (both (parameters scope) (resultType scope))

/-- Make the last name of a path a part of it that more segments may follow. -/
def pathSegment (path : PathFront) (token : Token) : Reading PathFront := do
  let leafKind := segmentKind token
  let last ← leaf leafKind
  if path.front.isEmpty then return { path with front := last }
  else
    let stop := (← get).last
    return { path with front := [tree .scopedIdentifier path.start stop
      (path.front ++ last.map fun tree => { tree with field := some .name })] }

mutual

/-- Read a type that is named by a path, when a front of the path has been read. -/
def namedType (scope : Scope) : (bound : Nat) → PathFront → Rule
  | 0, _ => reject
  | bound + 1, path => do
      match ← look with
      | token :: rest =>
          if !token.isSegment then reject
          else if startsSegment rest then
            let longer ← pathSegment path token
            let _ ← operator "::"
            namedType scope bound longer
          else if startsMacroCall rest then
            let whole ← pathSegment path token
            macroCall scope path.start whole.front
          else
            let primitive := path.front.isEmpty && token.isPrimitive
            let last ← scopedType path
              (leafIf Token.isSegment fun _ =>
                if primitive then kind "primitive_type" else kind "type_identifier")
            let tokens ← look
            if startsMark '(' tokens then functionTrait scope path.start last
            else if primitive then return last
            else if startsMark '<' tokens && !startsOperator "<=" tokens then
              argumentsAfter scope bound path.start last
            else if startsOperator "::" tokens && startsMark '<' (tokens.drop 2) then
              let _ ← operator "::"
              argumentsAfter scope bound path.start last
            else return last
      | [] => reject

/-- Read the arguments of a type whose name has been read, and what follows them. -/
def argumentsAfter (scope : Scope) : (bound : Nat) → (start : Nat) → (front : Forest) → Rule
  | 0, _, _ => reject
  | bound + 1, start, front => do
      let whole ← extendNode (kind "generic_type") start front (typeArguments scope)
      if startsSegment (← look) then
        let _ ← operator "::"
        namedType scope bound ⟨start, whole⟩
      else return whole

end

/-- Read a type in angle brackets that a path begins with. -/
def qualifiedType (scope : Scope) : Rule :=
  node (kind "bracketed_type") (bracketed '<' '>' (do
    let start ← here
    let front ← scope.rule .type
    if startsWord "as" (← look) then
      extendNode (kind "qualified_type") start front (both (keyword "as") (scope.rule .type))
    else return front))

def functionType (scope : Scope) : Rule :=
  node (kind "function_type") (do
    let quantifier ← readIf (startsWord "for") (forLifetimes scope (bounds scope))
    let tokens ← look
    if startsWord "fn" tokens || startsWord "unsafe" tokens || startsWord "extern" tokens then
      let rest ← inOrder [optionalKeyword "unsafe",
        readIf (startsWord "extern") (node (kind "extern_modifier") (both pass
          (readIf (starts Token.isLiteral) literal))),
        keyword "fn", parameters scope, resultType scope]
      return quantifier ++ rest
    else
      let rest ← scope.rule .type
      return quantifier ++ rest)

/-- Read a tuple of types, a type in parentheses, or the empty tuple. -/
def tupleType (scope : Scope) : Rule := do
  if startsMark ')' ((← look).drop 1) then node (kind "unit_type") (passMany 2)
  else node (kind "tuple_type") (scope.commaList '(' ')' (typeArgument scope))

/-- Read the type of an array or a slice. -/
def arrayType (scope : Scope) : Rule :=
  node (kind "array_type") (bracketed '[' ']' (both (scope.rule .type)
    (readIf (startsMark ';') (both (mark ';') (scope.rule (.expression false))))))

/-- Read a type that is not named by a path. -/
def type (scope : Scope) : Rule := do
  let tokens ← look
  let start ← here
  if startsMark '(' tokens then tupleType scope
  else if startsMark '[' tokens then arrayType scope
  else if startsMark '&' tokens then
    node (kind "reference_type") (inOrder [mark '&',
      readIf (starts fun token => token.shape = .lifetime) lifetime,
      readIf (startsWord "mut") (leaf (kind "mutable_specifier")), scope.rule .type])
  else if startsMark '*' tokens then
    node (kind "pointer_type") (inOrder [mark '*', optionalKeyword "const",
      readIf (startsWord "mut") (leaf (kind "mutable_specifier")), scope.rule .type])
  else if startsMark '!' tokens then leaf (kind "never_type")
  else if startsMark '?' tokens then
    node (kind "removed_trait_bound") (both (mark '?') (scope.rule .type))
  else if startsWord "_" tokens then pass
  else if starts (fun token => token.shape = .lifetime) tokens then lifetime
  else if startsWord "impl" tokens then
    node (kind "abstract_type") (both pass (bounds scope))
  else if startsWord "dyn" tokens then
    node (kind "dynamic_type") (both pass (bounds scope))
  else if startsWord "fn" tokens || startsWord "unsafe" tokens || startsWord "extern" tokens ||
      startsWord "for" tokens then functionType scope
  else if startsMark '$' tokens then metavariable
  else if startsMark '<' tokens then
    let front ← qualifiedType scope
    let _ ← operator "::"
    namedType scope scope.bound ⟨start, front⟩
  else if startsOperator "::" tokens then
    let _ ← operator "::"
    namedType scope scope.bound ⟨start, []⟩
  else namedType scope scope.bound ⟨start, []⟩

end Rule

end HarnessIndex.Reader
