import HarnessIndex.Reader.Patterns

/-!
# Expressions

The rules for expressions. Operators are read from left to right without regard to how strongly they
bind: which operand belongs to which operator makes no difference for what the nodes of an
expression are and in which order they come.
-/

namespace HarnessIndex.Reader

open Syntax

/-- The operators between two operands, longer ones before those they begin with. -/
def binaryOperators : List Text :=
  ["<<=", ">>=", "&&", "||", "==", "!=", "<=", ">=", "+=", "-=", "*=", "/=", "%=", "^=", "&=", "|=",
    "<<", ">>", "+", "-", "*", "/", "%", "^", "&", "|", "<", ">", "="]

def binaryOperator? (tokens : List Token) : Option Text :=
  if startsOperator "=>" tokens then none
  else binaryOperators.find? fun operator => startsOperator operator tokens

def operatorKind (operator : Text) : Kind :=
  if operator = ['='] then Rule.kind "assignment_expression"
  else if operator.getLast? = some '=' &&
      !([['=', '='], ['!', '='], ['<', '='], ['>', '=']] : List Text).contains operator then
    Rule.kind "compound_assignment_expr"
  else Rule.kind "binary_expression"

/-- The words that an operand can begin with although they are no names. -/
def operandWords : List Text :=
  ["if", "match", "while", "loop", "for", "unsafe", "async", "return", "break", "continue", "move",
    "static", "const", "yield", "let", "true", "false", "self", "super", "crate", "_"]

/-- Drop the words that may stand before the bars of a closure. -/
def afterClosureWords (tokens : List Token) : List Token :=
  tokens.dropWhile fun token =>
    token.isWord "static" || token.isWord "async" || token.isWord "move" || token.isWord "const"

def startsClosure (tokens : List Token) : Bool :=
  startsMark '|' (afterClosureWords tokens) ||
    (startsWord "for" tokens && startsMark '<' (tokens.drop 1))

/-- Whether a block with a word before it follows. -/
def startsWordBlock (word : Text) (tokens : List Token) : Bool :=
  startsWord word tokens && startsMark '\x7b' (tokens.drop 1)

/-- Whether an expression follows that ends with its block. -/
def startsBlockLike (tokens : List Token) : Bool :=
  !startsClosure tokens &&
  (startsMark '\x7b' tokens || startsWord "if" tokens || startsWord "match" tokens ||
    startsWord "while" tokens || startsWord "loop" tokens || startsWord "for" tokens ||
    startsWordBlock "unsafe" tokens || startsWordBlock "async" tokens ||
    (startsWord "async" tokens && startsWordBlock "move" (tokens.drop 1)) ||
    startsWordBlock "const" tokens || startsWordBlock "try" tokens ||
    startsWordBlock "gen" tokens ||
    (starts (fun token => token.shape = .lifetime) tokens && startsMark ':' (tokens.drop 1)))

def startsOperand (bare : Bool) (tokens : List Token) : Bool :=
  (startsMark '\x7b' tokens && !bare) ||
    starts (fun token =>
      token.isLiteral || token.isName || token.shape = .lifetime ||
        (token.shape = .word && operandWords.contains token.text) ||
        token.isMark '(' || token.isMark '[' || token.isMark '&' || token.isMark '*' ||
        token.isMark '-' || token.isMark '!' || token.isMark '|' || token.isMark '<' ||
        token.isMark '$') tokens ||
    startsOperator "::" tokens || startsOperator ".." tokens

/-- Whether something follows that is read from a value with a dot or a question mark. -/
def startsMember (tokens : List Token) : Bool :=
  (startsMark '.' tokens && !startsOperator ".." tokens) || startsMark '?' tokens

namespace Rule

def callArguments (scope : Scope) : Rule :=
  node (kind "arguments")
    (scope.commaList '(' ')' (both (attributes scope) (scope.rule (.expression false))))

/-- Read what follows a dot. -/
def member (scope : Scope) (start : Nat) (front : Forest) : Rule := do
  let _ ← mark '.'
  if startsWord "await" (← look) then
    extendNode (kind "await_expression") start front pass
  else
    let whole ← extendNode (kind "field_expression") start
      (front.map fun tree => { tree with field := some .value }) fieldName
    let tokens ← look
    if startsOperator "::" tokens && startsMark '<' (tokens.drop 2) then
      extendNode .genericFunction start
        (whole.map fun tree => { tree with field := some .function })
        (both (operator "::") (typeArguments scope))
    else return whole

/-- Read calls, indices, members and question marks after a value. -/
def suffixes (scope : Scope) (start : Nat) : (bound : Nat) → (front : Forest) → Rule
  | 0, front => return front
  | bound + 1, front => do
      let tokens ← look
      if startsMark '(' tokens then
        let longer ← extendNode .callExpression start
          (front.map fun tree => { tree with field := some .function })
          (asField .arguments (callArguments scope))
        suffixes scope start bound longer
      else if startsMark '[' tokens then
        let longer ← extendNode (kind "index_expression") start front
          (bracketed '[' ']' (scope.rule (.expression false)))
        suffixes scope start bound longer
      else if startsMark '?' tokens then
        let longer ← extendNode (kind "try_expression") start front (mark '?')
        suffixes scope start bound longer
      else if startsMember tokens then
        let longer ← member scope start front
        suffixes scope start bound longer
      else return front

def operators (scope : Scope) (bare : Bool) (start : Nat) : (bound : Nat) → (front : Forest) → Rule
  | 0, front => return front
  | bound + 1, front => do
      let tokens ← look
      if startsWord "as" tokens then
        let longer ← extendNode (kind "type_cast_expression") start front
          (both (keyword "as") (scope.rule .type))
        operators scope bare start bound longer
      else if startsOperator ".." tokens then
        let longer ← extendNode (kind "range_expression") start front
          (both rangeOperator (readIf (startsOperand bare) (scope.rule (.operand bare))))
        operators scope bare start bound longer
      else
        match binaryOperator? tokens with
        | some text =>
            let longer ← extendNode (operatorKind text) start front
              (both (passMany text.length) (scope.rule (.operand bare)))
            operators scope bare start bound longer
        | none => return front

/-- Read a field of a struct expression. -/
def fieldInitializer (scope : Scope) : Rule := do
  let tokens ← look
  if startsOperator ".." tokens then
    node (kind "base_field_initializer")
      (both (operator "..") (readIf (startsOperand false) (scope.rule (.expression false))))
  else
    let start ← here
    let front ← attributes scope
    let rest := (← look).drop 1
    if startsMark ':' rest && !startsOperator "::" rest then
      extendNode (kind "field_initializer") start front (inOrder [fieldName, mark ':',
        asField .value (scope.rule (.expression false))])
    else extendNode (kind "shorthand_field_initializer") start front name

/-- Read an expression that begins with a path. -/
def pathExpression (scope : Scope) (bare : Bool) : Rule := do
  let path ← valuePath scope
  let tokens ← look
  if startsMark '\x7b' tokens && !bare then
    afterStructName "struct_expression" path (asField .body
      (node (kind "field_initializer_list")
        (scope.commaList '\x7b' '\x7d' (fieldInitializer scope))))
  else if !path.arguments.isEmpty then
    return [tree .genericFunction path.start (← get).last
      (path.path.map (fun tree => { tree with field := some .function }) ++ path.arguments)]
  else if startsMacroCall tokens then macroCall scope path.start path.path
  else return path.path

/-- Read what stands in parentheses. -/
def parenthesized (scope : Scope) : Rule := do
  let start ← here
  let _ ← mark '('
  let front ← attributes scope
  if startsMark ')' (← look) then extendNode (kind "unit_expression") start front pass
  else
    let first ← scope.rule (.expression false)
    let front := front ++ first
    if startsMark ')' (← look) then
      extendNode (kind "parenthesized_expression") start front pass
    else
      extendNode (kind "tuple_expression") start front (inOrder [mark ',',
        separated (startsMark ')') (both (attributes scope) (scope.rule (.expression false)))
          scope.bound, mark ')'])

def array (scope : Scope) : Rule :=
  node (kind "array_expression") (bracketed '[' ']' (do
    let front ← separated (fun tokens => startsMark ']' tokens || startsMark ';' tokens)
      (both (attributes scope) (scope.rule (.expression false))) scope.bound
    let back ← readIf (startsMark ';') (both (mark ';') (scope.rule (.expression false)))
    return front ++ back))

/-- Read a condition with several branches; `depth` bounds how many follow. -/
def conditional (scope : Scope) : (depth : Nat) → Rule
  | 0 => reject
  | depth + 1 => do
      let start ← here
      let head ← inOrder [keyword "if", scope.rule (.expression true), scope.rule .block]
      if startsWord "else" (← look) then
        let elseStart ← here
        let _ ← keyword "else"
        let branch ←
          if startsWord "if" (← look) then conditional scope depth else scope.rule .block
        let stop := (← get).last
        return [tree (kind "if_expression") start stop
          (head ++ [tree (kind "else_clause") elseStart stop branch])]
      else return [tree (kind "if_expression") start (← get).last head]

/-- Read the body of an arm of a match, which needs no comma when it ends with a block. -/
def armBody (scope : Scope) (blockLike : Rule) : Rule := do
  if startsBlockLike (← look) then
    let start ← here
    let front ← blockLike
    if startsMember (← look) then
      let longer ← suffixes scope start scope.bound front
      operators scope false start scope.bound longer
    else return front
  else scope.rule (.expression false)

def matchArm (scope : Scope) (blockLike : Rule) : Rule :=
  node (kind "match_arm") (inOrder [attributes scope,
    node (kind "match_pattern") (both (scope.rule .pattern)
      (readIf (startsWord "if") (both (keyword "if") (scope.rule (.expression false))))),
    operator "=>", asField .value (armBody scope blockLike), optionalMark ','])

/-- Read the arms of a match. -/
def matchBlock (scope : Scope) (blockLike : Rule) : Rule :=
  node (kind "match_block") (bracketed '\x7b' '\x7d'
    (both (scope.repeated startsInnerAttribute (innerAttribute scope))
      (scope.repeated (fun tokens => !startsMark '\x7d' tokens) (matchArm scope blockLike))))

/-- Read an expression that ends with its block, for blocks nested in labels or arms at most as deep
as the number. -/
def blockLikeWithin (scope : Scope) : (depth : Nat) → Rule
  | 0 => reject
  | depth + 1 => do
      let tokens ← look
      if startsWord "if" tokens then conditional scope scope.bound
      else if startsWord "match" tokens then
        node (kind "match_expression") (inOrder [keyword "match",
          asField .value (scope.rule (.expression true)),
          asField .body (matchBlock scope fun stream => blockLikeWithin scope depth stream)])
      else if startsWord "while" tokens then
        node (kind "while_expression") (inOrder [keyword "while",
          scope.rule (.expression true), asField .body (scope.rule .block)])
      else if startsWord "loop" tokens then
        node (kind "loop_expression")
          (both (keyword "loop") (asField .body (scope.rule .block)))
      else if startsWord "for" tokens then
        node (kind "for_expression") (inOrder [keyword "for", scope.rule .pattern,
          keyword "in", asField .value (scope.rule (.expression true)),
          asField .body (scope.rule .block)])
      else if startsWord "unsafe" tokens then
        node (kind "unsafe_block") (both pass (scope.rule .block))
      else if startsWord "async" tokens then
        node (kind "async_block") (inOrder [pass, optionalKeyword "move", scope.rule .block])
      else if startsWord "const" tokens then
        node (kind "const_block") (both pass (asField .body (scope.rule .block)))
      else if startsWord "try" tokens || startsWord "gen" tokens then
        node (kind "try_block") (both pass (scope.rule .block))
      else if starts (fun token => token.shape = .lifetime) tokens then
        let start ← here
        let label ← labelled
        match ← blockLikeWithin scope depth with
        | body :: rest =>
            return { body with start, children := label ++ body.children } :: rest
        | [] => reject
      else scope.rule .block

/-- Read an expression that ends with its block. -/
def blockLike (scope : Scope) : Rule :=
  blockLikeWithin scope scope.bound

def closureParameter (scope : Scope) : Rule := do
  let front ← attributes scope
  let start ← here
  let pattern ← scope.rule .singlePattern
  let back ←
    if startsMark ':' (← look) then
      extendNode (kind "parameter") start pattern (both (mark ':') (scope.rule .type))
    else return pattern
  return front ++ back

def closure (scope : Scope) (bare : Bool) : Rule :=
  node .closureExpression (inOrder [
    readIf (startsWord "for") (forLifetimes scope (bounds scope)),
    scope.repeated (fun tokens => !startsMark '|' tokens && startsClosure tokens) pass,
    node (kind "closure_parameters")
      (bracketed '|' '|' (separated (startsMark '|') (closureParameter scope) scope.bound)),
    do
      if startsOperator "->" (← look) then
        inOrder [operator "->", scope.rule .type, asField .body (scope.rule .block)]
      else asField .body (scope.rule (.expression bare))])

/-- Read an expression that leaves its place. -/
def jump (scope : Scope) (bare : Bool) (kindName : String) : Rule :=
  node (kind kindName) (inOrder [pass,
    readIf (fun tokens => starts (fun token => token.shape = .lifetime) tokens &&
      !startsMark ':' (tokens.drop 1)) (lifetimeAs (kind "label")),
    readIf (startsOperand bare) (scope.rule (.expression bare))])

/-- Read an operand without what follows it. -/
def primary (scope : Scope) (bare : Bool) : Rule := do
  let tokens ← look
  if startsBlockLike tokens then blockLike scope
  else if starts Token.isLiteral tokens then literal
  else if startsMark '(' tokens then parenthesized scope
  else if startsMark '[' tokens then array scope
  else if startsWord "_" tokens then pass
  else if startsMark '$' tokens then metavariable
  else pathExpression scope bare

/-- Read a reference to an operand. -/
def reference (scope : Scope) (bare : Bool) : Rule :=
  node (kind "reference_expression") (inOrder [mark '&',
    readIf (fun tokens => startsWord "raw" tokens &&
      (startsWord "const" (tokens.drop 1) || startsWord "mut" (tokens.drop 1))) (passMany 1),
    readIf (fun tokens => startsWord "const" tokens && !startsBlockLike tokens &&
      !startsClosure tokens) pass,
    readIf (startsWord "mut") (leaf (kind "mutable_specifier")),
    asField .value (scope.rule (.operand bare))])

/-- Read an operand with the operators before it and what is read from it. -/
def operand (scope : Scope) (bare : Bool) : Rule := do
  let tokens ← look
  if startsMark '-' tokens || startsMark '!' tokens || startsMark '*' tokens then
    node (kind "unary_expression") (both pass (scope.rule (.operand bare)))
  else if startsMark '&' tokens then reference scope bare
  else if startsWord "let" tokens then
    node (kind "let_condition") (inOrder [keyword "let", scope.rule .pattern, mark '=',
      asField .value (scope.rule (.operand bare))])
  else if startsOperator ".." tokens then
    node (kind "range_expression") (both rangeOperator
      (readIf (startsOperand bare) (scope.rule (.operand bare))))
  else if startsClosure tokens then closure scope bare
  else if startsWord "return" tokens then jump scope bare "return_expression"
  else if startsWord "break" tokens then jump scope bare "break_expression"
  else if startsWord "continue" tokens then jump scope bare "continue_expression"
  else if startsWord "yield" tokens && startsOperand bare (tokens.drop 1) then
    jump scope bare "yield_expression"
  else
    let start ← here
    let front ← primary scope bare
    suffixes scope start scope.bound front

def expression (scope : Scope) (bare : Bool) : Rule := do
  let start ← here
  let front ← scope.rule (.operand bare)
  operators scope bare start scope.bound front

end Rule

end HarnessIndex.Reader
