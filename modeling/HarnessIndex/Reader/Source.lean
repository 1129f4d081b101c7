import HarnessIndex.Reader.Items
import HarnessIndex.Reader.Lexer
import HarnessIndex.Syntax.Walk

/-!
# Reading a source

`read` gives the syntax tree of a source. Where no rule applies at the level of items, one token is
left as a node that marks an error, and reading goes on after it.
-/

namespace HarnessIndex.Reader

open Syntax

/-- The rule of a goal, when the rules of all goals are given. -/
def ruleOf (scope : Scope) : Goal → Rule
  | .expression bare => Rule.expression scope bare
  | .operand bare => Rule.operand scope bare
  | .pattern => Rule.pattern scope
  | .singlePattern => Rule.singlePattern scope
  | .type => Rule.type scope
  | .block => Rule.block scope
  | .statement => Rule.statement scope
  | .tokenTree definition => Rule.tokenTree scope definition
  | .useTree => Rule.useTree scope

/-- The rules of all goals, for goals nested at most as deep as the number. -/
def scopeWithin : (depth : Nat) → Scope
  | 0 => ⟨0, fun _ => Rule.reject⟩
  | depth + 1 => ⟨depth, fun goal => ruleOf (scopeWithin depth) goal⟩

def errorToken : Rule :=
  Rule.leaf .error

/-- Read the items of a file, with the comments between them. -/
def fileContent (scope : Scope) : Rule :=
  Rule.both (scope.repeated (fun tokens => !atFinish tokens)
    (Rule.both Rule.comments (Rule.either (scope.rule .statement) errorToken))) Rule.comments

/-- How deep goals may be nested in a source with a number of tokens. -/
def depthFor (count : Nat) : Nat :=
  12 * count + 24

def read (source : Text) : Tree :=
  let all := tokens source
  let size := byteLength source
  let start := (all.head?.map Token.start).getD size
  let content := fileContent (scopeWithin (depthFor all.length)) ⟨all, start, false⟩
  { kind := .sourceFile, start, stop := size, named := true, missing := false, field := none
    children := (content.map Prod.fst).getD [] }

/-- A text with its syntax tree. -/
def parse (source : Text) : Parsed :=
  Parsed.ofTree (Source.ofText source) (read source)

end HarnessIndex.Reader
