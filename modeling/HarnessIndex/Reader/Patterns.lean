import HarnessIndex.Reader.Paths

/-!
# Patterns

The rules for patterns, with and without alternatives at the top.
-/

namespace HarnessIndex.Reader

open Syntax

namespace Rule

def signedLiteral : Rule := do
  if startsMark '-' (← look) then node (kind "negative_literal") (both (mark '-') literal)
  else literal

/-- Whether a literal with its sign follows. -/
def startsLiteral (tokens : List Token) : Bool :=
  starts Token.isLiteral tokens || startsMark '-' tokens

def rangeOperator : Rule := do
  let tokens ← look
  if startsOperator "..=" tokens || startsOperator "..." tokens then passMany 3
  else operator ".."

/-- Read the end of a range in a pattern. -/
def rangeEnd (scope : Scope) : Rule := do
  let tokens ← look
  if startsLiteral tokens then signedLiteral
  else if startsValuePath tokens then return (← valuePath scope).path
  else nothing

/-- Read the rest of a range if a value is the beginning of one. -/
def afterRangeStart (scope : Scope) (start : Nat) (front : Forest) : Rule := do
  if startsOperator ".." (← look) then
    extendNode (kind "range_pattern") start front (both rangeOperator (rangeEnd scope))
  else return front

/-- Read a field of a struct pattern. -/
def fieldPattern (scope : Scope) : Rule := do
  let front ← attributes scope
  let back ←
    if startsOperator ".." (← look) then node (kind "remaining_field_pattern") (passMany 2)
    else node (kind "field_pattern") (do
      let _ ← optionalKeyword "ref"
      let specifier ← readIf (startsWord "mut") (leaf (kind "mutable_specifier"))
      let rest := (← look).drop 1
      if startsMark ':' rest && !startsOperator "::" rest then
        let back ← inOrder [asField .name fieldName, mark ':', scope.rule .pattern]
        return specifier ++ back
      else
        let back ← asField .name (leafIf Token.isName fun _ => kind "shorthand_field_identifier")
        return specifier ++ back)
  return front ++ back

/-- Read the fields of a struct pattern. -/
def fieldPatterns (scope : Scope) : Rule :=
  scope.commaList '\x7b' '\x7d' (fieldPattern scope)

/-- Read a pattern that begins with a path. -/
def pathPattern (scope : Scope) : Rule := do
  let path ← valuePath scope
  let tokens ← look
  let stop := (← get).last
  let whole :=
    if path.arguments.isEmpty then path.path
    else [tree (kind "generic_type") path.start stop (path.path.map asTypeName ++ path.arguments)]
  if startsMacroCall tokens then macroCall scope path.start path.path
  else if startsMark '(' tokens then
    extendNode (kind "tuple_struct_pattern") path.start whole
      (scope.commaList '(' ')' (scope.rule .pattern))
  else if startsMark '\x7b' tokens then
    afterStructName "struct_pattern" path (fieldPatterns scope)
  else if startsMark '@' tokens then
    extendNode (kind "captured_pattern") path.start whole
      (both (mark '@') (scope.rule .singlePattern))
  else afterRangeStart scope path.start whole

/-- Read a pattern without alternatives at the top. -/
def singlePattern (scope : Scope) : Rule := do
  let tokens ← look
  let start ← here
  if startsWord "_" tokens then pass
  else if startsOperator ".." tokens then
    if startsOperator "..=" tokens || startsLiteral (tokens.drop 2) then
      node (kind "range_pattern") (both rangeOperator (rangeEnd scope))
    else node (kind "remaining_field_pattern") (passMany 2)
  else if startsMark '&' tokens then
    node (kind "reference_pattern") (inOrder [mark '&',
      readIf (startsWord "mut") (leaf (kind "mutable_specifier")), scope.rule .singlePattern])
  else if startsMark '(' tokens then
    node (kind "tuple_pattern") (scope.commaList '(' ')' (scope.rule .pattern))
  else if startsMark '[' tokens then
    node (kind "slice_pattern") (scope.commaList '[' ']' (scope.rule .pattern))
  else if startsWord "ref" tokens then
    node (kind "ref_pattern") (both pass (scope.rule .singlePattern))
  else if startsWord "mut" tokens then
    node (kind "mut_pattern")
      (both (leaf (kind "mutable_specifier")) (scope.rule .singlePattern))
  else if startsWord "const" tokens then
    node (kind "const_block") (both pass (asField .body (scope.rule .block)))
  else if startsLiteral tokens then
    let front ← signedLiteral
    afterRangeStart scope start front
  else if startsMark '$' tokens then metavariable
  else pathPattern scope

/-- Read further alternatives of a pattern. -/
def moreAlternatives (scope : Scope) (start : Nat) : (bound : Nat) → (front : Forest) → Rule
  | 0, front => return front
  | bound + 1, front => do
      if startsMark '|' (← look) then
        let longer ← extendNode (kind "or_pattern") start front
          (both (mark '|') (scope.rule .singlePattern))
        moreAlternatives scope start bound longer
      else return front

def pattern (scope : Scope) : Rule := do
  let start ← here
  let _ ← optionalMark '|'
  let front ← scope.rule .singlePattern
  moreAlternatives scope start scope.bound front

end Rule

end HarnessIndex.Reader
