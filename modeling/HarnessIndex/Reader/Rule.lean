import HarnessIndex.Reader.Token

/-!
# Rules

A rule reads tokens from a stream and gives the syntax nodes it makes of them, or fails and leaves
the stream as it was. Only named nodes are made: words such as `fn` and punctuation are read without
a trace. Rules that need each other are tied together by their goals: a rule calls for a goal
through a `Scope`, which also bounds how often anything may be repeated.
-/

namespace HarnessIndex.Reader

open Syntax

/-- The tokens that are left, where the last token read ends, and whether it closes a brace. -/
structure Stream where
  tokens : List Token
  last : Nat
  closed : Bool

/-- Nodes side by side. -/
abbrev Forest := List Tree

/-- A reading that may fail. -/
abbrev Reading := StateT Stream Option

/-- A reading that gives nodes. -/
abbrev Rule := Reading Forest

/-- What can be read at a place in a source. `bare` expressions have no braces after a path, as in
the head of a loop. -/
inductive Goal where
  | expression (bare : Bool)
  | operand (bare : Bool)
  | pattern
  | singlePattern
  | type
  | block
  | statement
  | tokenTree (definition : Bool)
  | useTree
  deriving DecidableEq, Repr

/-- The rules of all goals, and a bound for repetitions. -/
structure Scope where
  bound : Nat
  rule : Goal → Rule

namespace Rule

def look : Reading (List Token) := do
  return (← get).tokens

def reject {α : Type} : Reading α :=
  fun _ => none

def nothing : Rule :=
  return []

def take : Reading Token := do
  match (← get).tokens with
  | token :: rest =>
      if token.shape = .finish then reject
      else do
        set (Stream.mk rest token.stop (token.isMark '\x7d'))
        return token
  | [] => reject

/-- Read one token without a trace. -/
def pass : Rule := do
  let _ ← take
  return []

/-- Read several tokens without a trace. -/
def passMany : Nat → Rule
  | 0 => nothing
  | count + 1 => do
      let _ ← take
      passMany count

def mark (c : Char) : Rule := do
  if startsMark c (← look) then pass else reject

/-- Read marks that touch and spell an operator. -/
def operator (text : Text) : Rule := do
  if startsOperator text (← look) then passMany text.length else reject

def keyword (word : Text) : Rule := do
  if startsWord word (← look) then pass else reject

def optionalMark (c : Char) : Rule := do
  if startsMark c (← look) then pass else nothing

def optionalKeyword (word : Text) : Rule := do
  if startsWord word (← look) then pass else nothing

/-- Read with a rule if the tokens that are left have a property. -/
def readIf (test : List Token → Bool) (rule : Rule) : Rule := do
  if test (← look) then rule else nothing

/-- Read with two rules, one after the other. -/
def both (first second : Rule) : Rule := do
  let front ← first
  let back ← second
  return front ++ back

/-- Read with some rules, one after the other. -/
def inOrder : List Rule → Rule
  | [] => nothing
  | rule :: rest => both rule (inOrder rest)

/-- Repeat a rule while the tokens that are left have a property. -/
def repeatWhile (test : List Token → Bool) (rule : Rule) : (bound : Nat) → Rule
  | 0 => nothing
  | bound + 1 => do
      if test (← look) then both rule (repeatWhile test rule bound) else nothing

/-- Read elements with commas between them, up to a place where the tokens that are left have a
property. -/
def separated (stop : List Token → Bool) (element : Rule) : (bound : Nat) → Rule
  | 0 => nothing
  | bound + 1 => do
      if stop (← look) then nothing
      else
        let front ← element
        if startsMark ',' (← look) then
          let _ ← pass
          let back ← separated stop element bound
          return front ++ back
        else return front

/-- The place of the next token. -/
def here : Reading Nat := do
  match ← look with
  | token :: _ => return token.start
  | [] => reject

/-- A named node. -/
def tree (kind : Kind) (start stop : Nat) (children : Forest) : Tree :=
  { kind, start, stop, named := true, missing := false, field := none, children }

/-- Make a node of what a rule reads, with nodes that have been read before it. -/
def extendNode (kind : Kind) (start : Nat) (front : Forest) (rule : Rule) : Rule := do
  let back ← rule
  return [tree kind start (← get).last (front ++ back)]

/-- Make a node of what a rule reads. -/
def node (kind : Kind) (rule : Rule) : Rule := do
  extendNode kind (← here) [] rule

/-- Make a node of one token. -/
def leaf (kind : Kind) : Rule :=
  node kind pass

/-- Let the first node that a rule gives fill a field. -/
def asField (field : Field) (rule : Rule) : Rule := do
  match ← rule with
  | first :: rest => return { first with field := some field } :: rest
  | [] => return []

/-- Try one rule, and another one if it fails. -/
def either (first second : Rule) : Rule :=
  fun stream => (first stream).or (second stream)

def bracketed (opener closer : Char) (rule : Rule) : Rule :=
  inOrder [mark opener, rule, mark closer]

/-- The kind of a node that the analysis does not look at. -/
def kind (name : String) : Kind :=
  Kind.ofName name.toList

end Rule

namespace Scope

/-- Elements with commas between them in brackets. -/
def commaList (scope : Scope) (opener closer : Char) (element : Rule) : Rule :=
  Rule.bracketed opener closer (Rule.separated (startsMark closer) element scope.bound)

/-- Repeat a rule while a property holds. -/
def repeated (scope : Scope) (test : List Token → Bool) (rule : Rule) : Rule :=
  Rule.repeatWhile test rule scope.bound

end Scope

end HarnessIndex.Reader
