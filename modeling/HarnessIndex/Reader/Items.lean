import HarnessIndex.Reader.Expressions

/-!
# Items and statements

The rules for items, statements and blocks. Comments become nodes among the items of a file and of a
module, because what stands before an item documents it; inside blocks they are passed.
-/

namespace HarnessIndex.Reader

open Syntax

/-- What may stand before the keyword of a function: some words, and the name of a calling
convention. -/
def isFunctionModifier (token : Token) : Bool :=
  token.isWord "async" || token.isWord "const" || token.isWord "unsafe" ||
    token.isWord "default" || token.isWord "safe" || token.isWord "gen" ||
    token.isWord "extern" || token.shape = .string || token.shape = .rawString

def startsFunction (tokens : List Token) : Bool :=
  startsWord "fn" (tokens.dropWhile isFunctionModifier)

/-- Whether an item follows that one of two words before its keyword may modify. -/
def startsModified (first second keyword : Text) (tokens : List Token) : Bool :=
  let tokens := if startsWord first tokens then tokens.drop 1 else tokens
  let tokens := if startsWord second tokens then tokens.drop 1 else tokens
  startsWord keyword tokens

namespace Rule

def visibility (scope : Scope) : Rule :=
  readIf (startsWord "pub") (node (kind "visibility_modifier") (both pass
    (readIf (fun tokens => startsMark '(' tokens && startsSecond (fun token =>
        token.isWord "crate" || token.isWord "self" || token.isWord "super" ||
          token.isWord "in") tokens)
      (bracketed '(' ')' (both (optionalKeyword "in") (plainPath scope))))))

/-- Read a condition on types. -/
def wherePredicate (scope : Scope) : Rule :=
  node (kind "where_predicate") (do
    let tokens ← look
    let front ←
      if starts (fun token => token.shape = .lifetime) tokens then lifetime
      else if startsWord "for" tokens then
        node (kind "higher_ranked_trait_bound")
          (both (forLifetimes scope (bounds scope)) (scope.rule .type))
      else scope.rule .type
    let back ← colonBounds (bounds scope)
    return front ++ back)

/-- Read the conditions on types. -/
def whereClause (scope : Scope) : Rule :=
  readIf (startsWord "where") (node (kind "where_clause") (both pass
    (separated (fun tokens => startsMark '\x7b' tokens || startsMark ';' tokens ||
      startsMark '=' tokens || startsMark '(' tokens) (wherePredicate scope) scope.bound)))

/-- Read the parameters for types, if there are any. -/
def generics (scope : Scope) : Rule :=
  readIf (startsMark '<') (typeParameters scope (bounds scope))

def functionModifiers (scope : Scope) : Rule :=
  readIf (fun tokens => !startsWord "fn" tokens) (node (kind "function_modifiers")
    (scope.repeated (fun tokens => !startsWord "fn" tokens) (do
      if startsWord "extern" (← look) then
        node (kind "extern_modifier") (both pass (readIf (starts Token.isLiteral) literal))
      else pass)))

def function (scope : Scope) (start : Nat) (front : Forest) : Rule := do
  let head ← inOrder [functionModifiers scope, keyword "fn", asField .name anyName,
    generics scope, parameters scope, resultType scope, whereClause scope]
  if startsMark ';' (← look) then
    extendNode (kind "function_signature_item") start (front ++ head) pass
  else
    extendNode .functionItem start (front ++ head) (asField .body (scope.rule .block))

/-- Read the comments before the next token as nodes. -/
def comments : Rule := do
  match ← look with
  | token :: _ => return token.comments
  | [] => nothing

/-- Read items with the comments between them, up to a closing brace. -/
def declarations (scope : Scope) : Rule :=
  both (scope.repeated (fun tokens => !startsMark '\x7d' tokens && !atFinish tokens)
    (both comments (scope.rule .statement))) comments

/-- Read items in braces. -/
def declarationList (scope : Scope) : Rule :=
  node (kind "declaration_list") (bracketed '\x7b' '\x7d' (declarations scope))

def module (scope : Scope) (start : Nat) (front : Forest) : Rule := do
  let head ← inOrder [optionalKeyword "unsafe", keyword "mod", asField .name anyName]
  if startsMark ';' (← look) then extendNode .modItem start (front ++ head) pass
  else extendNode .modItem start (front ++ head) (asField .body (declarationList scope))

/-- Read a field of a struct with names. -/
def fieldDeclaration (scope : Scope) : Rule := do
  let front ← attributes scope
  let back ← node (kind "field_declaration") (inOrder [visibility scope,
    asField .name (leafIf Token.isAnyWord fun _ => kind "field_identifier"), mark ':',
    scope.rule .type,
    readIf (startsMark '=') (both (mark '=') (scope.rule (.expression false)))])
  return front ++ back

/-- Read the fields of a struct with names. -/
def fieldDeclarations (scope : Scope) : Rule :=
  node (kind "field_declaration_list") (scope.commaList '\x7b' '\x7d' (fieldDeclaration scope))

/-- Read the fields of a struct without names. -/
def orderedFields (scope : Scope) : Rule :=
  node (kind "ordered_field_declaration_list")
    (scope.commaList '(' ')' (inOrder [attributes scope, visibility scope, scope.rule .type]))

/-- Read a struct or a union. -/
def struct (scope : Scope) (kindName : String) (start : Nat) (front : Forest) : Rule :=
  extendNode (kind kindName) start front (inOrder [pass, asField .name typeName, generics scope,
    whereClause scope, do
      let tokens ← look
      if startsMark '\x7b' tokens then asField .body (fieldDeclarations scope)
      else if startsMark '(' tokens then
        inOrder [asField .body (orderedFields scope), whereClause scope, mark ';']
      else mark ';'])

/-- Read a variant of an enumeration. -/
def variant (scope : Scope) : Rule := do
  let front ← attributes scope
  let back ← node (kind "enum_variant") (inOrder [visibility scope, asField .name name,
    do
      let tokens ← look
      if startsMark '\x7b' tokens then asField .body (fieldDeclarations scope)
      else if startsMark '(' tokens then asField .body (orderedFields scope)
      else nothing,
    readIf (startsMark '=') (both (mark '=') (asField .value (scope.rule (.expression false))))])
  return front ++ back

def enumeration (scope : Scope) (start : Nat) (front : Forest) : Rule :=
  extendNode (kind "enum_item") start front (inOrder [pass, asField .name typeName, generics scope,
    whereClause scope, asField .body
      (node (kind "enum_variant_list") (scope.commaList '\x7b' '\x7d' (variant scope)))])

/-- Read a value after an equals sign, if there is one. -/
def initializer (scope : Scope) : Rule :=
  readIf (startsMark '=') (both (mark '=') (asField .value (scope.rule (.expression false))))

def constant (scope : Scope) (start : Nat) (front : Forest) : Rule :=
  extendNode (kind "const_item") start front (inOrder [optionalKeyword "default", keyword "const",
    asField .name anyName, readIf (startsMark ':') (both (mark ':') (scope.rule .type)),
    initializer scope, mark ';'])

/-- Read a static variable. -/
def staticItem (scope : Scope) (start : Nat) (front : Forest) : Rule :=
  extendNode (kind "static_item") start front (inOrder [optionalKeyword "unsafe",
    optionalKeyword "safe", keyword "static", optionalKeyword "ref",
    readIf (startsWord "mut") (leaf (kind "mutable_specifier")), asField .name anyName,
    readIf (startsMark ':') (both (mark ':') (scope.rule .type)), initializer scope, mark ';'])

/-- Read a name for a type. -/
def typeItem (scope : Scope) (start : Nat) (front : Forest) : Rule := do
  let head ← inOrder [optionalKeyword "default", keyword "type", asField .name typeName,
    generics scope, colonBounds (bounds scope), whereClause scope]
  if startsMark '=' (← look) then
    extendNode (kind "type_item") start (front ++ head)
      (inOrder [mark '=', scope.rule .type, whereClause scope, mark ';'])
  else extendNode (kind "associated_type") start (front ++ head) (mark ';')

def implementation (scope : Scope) (start : Nat) (front : Forest) : Rule :=
  extendNode (kind "impl_item") start front (inOrder [optionalKeyword "default",
    optionalKeyword "unsafe", keyword "impl", generics scope, optionalKeyword "const",
    optionalMark '!', scope.rule .type,
    readIf (startsWord "for") (both (keyword "for") (scope.rule .type)), whereClause scope,
    do if startsMark ';' (← look) then pass else asField .body (declarationList scope)])

def traitItem (scope : Scope) (start : Nat) (front : Forest) : Rule :=
  extendNode (kind "trait_item") start front (inOrder [optionalKeyword "unsafe",
    optionalKeyword "auto", keyword "trait", asField .name typeName, generics scope,
    colonBounds (bounds scope), whereClause scope,
    do
      if startsMark '=' (← look) then
        inOrder [mark '=', bounds scope, whereClause scope, mark ';']
      else asField .body (declarationList scope)])

/-- Read the rest of a list of imports. -/
def useList (scope : Scope) : Rule :=
  node (kind "use_list") (scope.commaList '\x7b' '\x7d' (scope.rule .useTree))

/-- Read one import. -/
def useTree (scope : Scope) : Rule := do
  let start ← here
  let tokens ← look
  let _ ← if startsOperator "::" tokens then operator "::" else nothing
  let tokens ← look
  if startsMark '*' tokens then node (kind "use_wildcard") pass
  else if startsMark '\x7b' tokens then useList scope
  else
    let first ← leafIf Token.isAnyWord segmentKind
    let path ← moreSegments start scope.bound first
    let tokens ← look
    if startsOperator "::" tokens then
      let _ ← operator "::"
      if startsMark '*' (← look) then extendNode (kind "use_wildcard") start path pass
      else extendNode (kind "scoped_use_list") start path (useList scope)
    else if startsWord "as" tokens then
      extendNode (kind "use_as_clause") start path (both (keyword "as") anyName)
    else return path

/-- Read imports. -/
def useDeclaration (scope : Scope) (start : Nat) (front : Forest) : Rule :=
  extendNode (kind "use_declaration") start front
    (inOrder [keyword "use", scope.rule .useTree, mark ';'])

/-- Read the declaration of another crate. -/
def crateDeclaration (start : Nat) (front : Forest) : Rule :=
  extendNode (kind "extern_crate_declaration") start front (inOrder [keyword "extern",
    leaf .crateRoot, asField .name anyName,
    readIf (startsWord "as") (both (keyword "as") anyName), mark ';'])

/-- Read declarations of foreign functions. -/
def foreignItems (scope : Scope) (start : Nat) (front : Forest) : Rule :=
  extendNode (kind "foreign_mod_item") start front (inOrder [optionalKeyword "unsafe",
    node (kind "extern_modifier")
      (both (keyword "extern") (readIf (starts Token.isLiteral) literal)),
    do if startsMark ';' (← look) then pass else asField .body (declarationList scope)])

def macroDefinition (scope : Scope) : Rule :=
  node (kind "macro_definition") (inOrder [pass, mark '!', asField .name anyName,
    scope.rule (.tokenTree true), optionalMark ';'])

/-- Read an item after its visibility, or nothing of it when no item follows. -/
def itemRule? (scope : Scope) (start : Nat) (front : Forest) (tokens : List Token) :
    Option Rule :=
  if startsFunction tokens then some (function scope start front)
  else if startsModified "unsafe" "unsafe" "mod" tokens then some (module scope start front)
  else if startsWord "struct" tokens then some (struct scope "struct_item" start front)
  else if startsWord "union" tokens && startsSecond Token.isName tokens then
    some (struct scope "union_item" start front)
  else if startsWord "enum" tokens then some (enumeration scope start front)
  else if startsModified "unsafe" "auto" "trait" tokens then some (traitItem scope start front)
  else if startsModified "default" "unsafe" "impl" tokens then
    some (implementation scope start front)
  else if startsWord "use" tokens then some (useDeclaration scope start front)
  else if startsModified "default" "default" "type" tokens then some (typeItem scope start front)
  else if startsWord "extern" tokens && startsWord "crate" (tokens.drop 1) then
    some (crateDeclaration start front)
  else if startsModified "unsafe" "unsafe" "extern" tokens then
    some (foreignItems scope start front)
  else if startsModified "unsafe" "safe" "static" tokens && !startsClosure tokens then
    some (staticItem scope start front)
  else if startsModified "default" "default" "const" tokens && !startsBlockLike tokens &&
      !startsClosure tokens then some (constant scope start front)
  else none

/-- Read a declaration of variables. -/
def letDeclaration (scope : Scope) : Rule :=
  node (kind "let_declaration") (inOrder [keyword "let", scope.rule .pattern,
    readIf (startsMark ':') (both (mark ':') (scope.rule .type)), initializer scope,
    readIf (startsWord "else") (both (keyword "else") (scope.rule .block)), mark ';'])

/-- Read the end of a statement that has been read. -/
def endStatement (start : Nat) (front : Forest) : Rule := do
  if startsMark ';' (← look) then extendNode (kind "expression_statement") start front pass
  else return front

/-- Read operators and members after the beginning of a statement, and its end. -/
def continueStatement (scope : Scope) (start : Nat) (front : Forest) : Rule := do
  let longer ← suffixes scope start scope.bound front
  let whole ← operators scope false start scope.bound longer
  endStatement start whole

def isMacroCall : Forest → Bool
  | [tree] => tree.kind = .macroInvocation
  | _ => false

/-- Read a statement that is an expression. It ends with its block, or with the braces of a macro
invocation, unless something is read from its value. -/
def expressionStatement (scope : Scope) : Rule := do
  let start ← here
  let tokens ← look
  if startsBlockLike tokens then
    let front ← blockLike scope
    if startsMember (← look) then continueStatement scope start front
    else endStatement start front
  else if startsValuePath tokens && !startsClosure tokens then
    let front ← pathExpression scope false
    let stream ← get
    if isMacroCall front && stream.closed && !startsMember stream.tokens then
      endStatement start front
    else continueStatement scope start front
  else
    let front ← scope.rule (.expression false)
    endStatement start front

/-- Read a statement or an item. -/
def statement (scope : Scope) : Rule := do
  let tokens ← look
  let start ← here
  if startsMark ';' tokens then leaf (kind "empty_statement")
  else if startsOuterAttribute tokens then outerAttribute scope
  else if startsInnerAttribute tokens then innerAttribute scope
  else if startsWord "let" tokens then letDeclaration scope
  else if startsWord "macro_rules" tokens && startsMark '!' (tokens.drop 1) &&
      starts Token.isAnyWord (tokens.drop 2) then macroDefinition scope
  else
    let front ← visibility scope
    match itemRule? scope start front (← look) with
    | some rule => rule
    | none => if front.isEmpty then expressionStatement scope else reject

/-- Read the statements of a block. -/
def statements (scope : Scope) : Rule :=
  scope.repeated (fun tokens => !startsMark '\x7d' tokens && !atFinish tokens)
    (scope.rule .statement)

/-- Read a block. When its statements cannot be read, its tokens are passed. -/
def block (scope : Scope) : Rule :=
  node (kind "block") (either (bracketed '\x7b' '\x7d' (statements scope))
    (bracketed '\x7b' '\x7d' (treeContent scope false)))

end Rule

end HarnessIndex.Reader
