import HarnessIndex.Reader.Rule

/-!
# Words

Which words are keywords, which are names, and the rules for a single name, a literal or a lifetime.
-/

namespace HarnessIndex.Reader

open Syntax

/-- The words that cannot be names. -/
def reserved : List Text :=
  (["as", "async", "await", "break", "const", "continue", "crate", "dyn", "else", "enum", "extern",
    "false", "fn", "for", "if", "impl", "in", "let", "loop", "match", "mod", "move", "mut", "pub",
    "ref", "return", "self", "static", "struct", "super", "trait", "true", "type", "unsafe", "use",
    "where", "while", "_"] : List String).map String.toList

/-- The keywords that stay keywords inside a token tree. The others are names there. -/
def treeKeywords : List Text :=
  (["as", "async", "await", "break", "const", "continue", "default", "enum", "fn", "for", "gen",
    "if", "impl", "let", "loop", "match", "mod", "pub", "return", "static", "struct", "trait",
    "type", "union", "unsafe", "use", "where", "while", "_"] : List String).map String.toList

/-- The names of the primitive types. -/
def primitives : List Text :=
  (["u8", "i8", "u16", "i16", "u32", "i32", "u64", "i64", "u128", "i128", "isize", "usize", "f32",
    "f64", "bool", "str", "char"] : List String).map String.toList

namespace Token

def isName (token : Token) : Bool :=
  token.shape = .rawWord || (token.shape = .word && !reserved.contains token.text)

/-- Whether a token can be a segment of a path. -/
def isSegment (token : Token) : Bool :=
  token.isName || token.isWord "self" || token.isWord "super" || token.isWord "crate"

def isAnyWord (token : Token) : Bool :=
  token.shape = .word || token.shape = .rawWord

/-- Whether a token is the name of a primitive type. -/
def isPrimitive (token : Token) : Bool :=
  token.shape = .word && primitives.contains token.text

def isLiteral (token : Token) : Bool :=
  token.shape = .string || token.shape = .rawString || token.shape = .character ||
    token.shape = .integer || token.shape = .float || token.isWord "true" || token.isWord "false"

end Token

/-- Whether the next token has a property. -/
def starts (test : Token → Bool) : List Token → Bool
  | token :: _ => test token
  | [] => false

/-- Whether the token after the next one has a property. -/
def startsSecond (test : Token → Bool) (tokens : List Token) : Bool :=
  starts test (tokens.drop 1)

def segmentKind (token : Token) : Kind :=
  if token.isWord "self" then .selfModule
  else if token.isWord "super" then .superModule
  else if token.isWord "crate" then .crateRoot
  else .identifier

def literalKind (token : Token) : Kind :=
  match token.shape with
  | .string => Rule.kind "string_literal"
  | .rawString => Rule.kind "raw_string_literal"
  | .character => Rule.kind "char_literal"
  | .integer => Rule.kind "integer_literal"
  | .float => Rule.kind "float_literal"
  | _ => Rule.kind "boolean_literal"

namespace Rule

/-- Read a token that has a property as a node of its own. -/
def leafIf (test : Token → Bool) (kind : Token → Kind) : Rule := do
  let start ← here
  let token ← take
  if test token then return [tree (kind token) start token.stop []] else reject

def name : Rule :=
  leafIf Token.isName fun _ => .identifier

/-- Read any word as a name. -/
def anyName : Rule :=
  leafIf Token.isAnyWord fun _ => .identifier

def typeName : Rule :=
  leafIf Token.isName fun _ => kind "type_identifier"

def fieldName : Rule :=
  leafIf (fun token => token.isAnyWord || token.shape = .integer) fun token =>
    if token.shape = .integer then kind "integer_literal" else kind "field_identifier"

def literal : Rule :=
  leafIf Token.isLiteral literalKind

/-- Read a lifetime; its name is a node of its own. -/
def lifetimeAs (kind : Kind) : Rule := do
  let start ← here
  let token ← take
  if token.shape = .lifetime then
    return [tree kind start token.stop [tree .identifier (start + 1) token.stop []]]
  else reject

def lifetime : Rule :=
  lifetimeAs (kind "lifetime")

/-- Read a label with its colon. -/
def labelled : Rule := do
  both (lifetimeAs (kind "label")) (mark ':')

end Rule

end HarnessIndex.Reader
