import HarnessIndex.Syntax.Tree

/-!
# Tokens

The tokens of a source with their places. Punctuation comes one character at a time; whether two
marks touch tells an operator such as `>=` from its parts. The comments before a token stay with it,
as the syntax nodes they become.
-/

namespace HarnessIndex.Reader

open Syntax

/-- The class of a token. -/
inductive Shape where
  | word
  | rawWord
  | lifetime
  | string
  | rawString
  | character
  | integer
  | float
  | mark
  | finish
  deriving DecidableEq, Repr, Inhabited

/-- A token. `joined` tells that nothing stands between the token and the one before. -/
structure Token where
  shape : Shape
  text : Text
  start : Nat
  stop : Nat
  joined : Bool
  comments : List Tree
  deriving Repr, Inhabited

namespace Token

def isMark (c : Char) (token : Token) : Bool :=
  token.shape = .mark && token.text = [c]

def isWord (word : Text) (token : Token) : Bool :=
  token.shape = .word && token.text = word

end Token

def startsMark (c : Char) : List Token → Bool
  | token :: _ => token.isMark c
  | [] => false

/-- Whether the next token is a plain word. -/
def startsWord (word : Text) : List Token → Bool
  | token :: _ => token.isWord word
  | [] => false

/-- Whether the next tokens are marks that touch and spell an operator. -/
def startsOperator : (operator : Text) → List Token → Bool
  | [], _ => true
  | c :: rest, token :: tokens =>
      token.isMark c &&
        match rest, tokens with
        | [], _ => true
        | _, next :: _ => next.joined && startsOperator rest tokens
        | _, [] => false
  | _ :: _, [] => false

/-- Whether the next token opens a bracket. -/
def startsBracket (tokens : List Token) : Bool :=
  startsMark '(' tokens || startsMark '[' tokens || startsMark '\x7b' tokens

/-- Whether the source is at its end. -/
def atFinish : List Token → Bool
  | token :: _ => token.shape = .finish
  | [] => true

end HarnessIndex.Reader
