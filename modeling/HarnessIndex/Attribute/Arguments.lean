import HarnessIndex.Text.Blank
import HarnessIndex.Text.Word
import HarnessIndex.Text.Quoted

/-!
# Argument lists

The arguments of an attribute are written as a delimited token text such as `(a, "b, c", [d, e])`.
`splitArguments` takes that text apart at the commas that stand outside every bracket and outside
every string or character literal. Nothing is evaluated: an argument is the text between two commas,
trimmed at its ends.

The cutting is a single pass over the text. It carries how many characters of a literal are still
to be copied, how many brackets are open, and the character before, because a raw string begins only
where no word is being continued.
-/

namespace HarnessIndex.Attribute

open Text

/-- The bracket that closes an opening bracket. -/
def closer? : Char → Option Char
  | '(' => some ')'
  | '[' => some ']'
  | '\x7b' => some '\x7d'
  | _ => none

/-- Whether a character opens a bracket. -/
def isOpener (c : Char) : Bool :=
  (closer? c).isSome

/-- Whether a character closes a bracket. -/
def isCloser (c : Char) : Bool :=
  c = ')' || c = ']' || c = '\x7d'

/-- The number of open brackets after one more character. A bracket that closes nothing is
ignored. -/
def depthAfter (depth : Nat) (c : Char) : Nat :=
  if isOpener c then depth + 1 else if isCloser c then depth - 1 else depth

/-- What stands between the delimiters of a token text. A text that does not begin with an opening
bracket is its own inside, and a missing closing bracket at the end is tolerated. -/
def undelimited (text : Text) : Text :=
  match trim text with
  | [] => []
  | first :: rest =>
      match closer? first with
      | none => first :: rest
      | some closer => if rest.getLast? = some closer then rest.dropLast else rest

/-- The length of a string literal after its opening quote, with the closing quote. A string that is
not closed reaches to the end. -/
def stringLength : Text → Nat
  | [] => 0
  | c :: rest =>
      if c = backslash then
        match rest with
        | [] => 1
        | _ :: after => 2 + stringLength after
      else if c = doubleQuote then 1
      else 1 + stringLength rest

/-- The length of a raw string after its opening quote, with the closing quote and its hashes. A raw
string that is not closed reaches to the end. -/
def rawStringLength (hashes : Text) : Text → Nat
  | [] => 0
  | c :: rest =>
      if c = doubleQuote && startsWith hashes rest then 1 + hashes.length
      else 1 + rawStringLength hashes rest

/-- The length of a raw string after its `r`. -/
def rawTailLength? (text : Text) : Option Nat :=
  let hashes := text.takeWhile (· = '#')
  match text.drop hashes.length with
  | quote :: rest =>
      if quote = doubleQuote then some (hashes.length + 1 + rawStringLength hashes rest) else none
  | [] => none

/-- The length of the raw string, plain or of bytes, that a text begins with. -/
def rawLength? : Text → Option Nat
  | 'b' :: 'r' :: rest => (rawTailLength? rest).map (2 + ·)
  | 'r' :: rest => (rawTailLength? rest).map (1 + ·)
  | _ => none

/-- How many hexadecimal digits a text begins with. -/
def hexCount (text : Text) : Nat :=
  (text.takeWhile isHex).length

/-- Whether a text begins with the single quote that ends a character literal. -/
def endsQuote : Text → Bool
  | c :: _ => c = singleQuote
  | [] => false

/-- The length of a Unicode escape after its `u`: hexadecimal digits in braces. -/
def unicodeEscapeLength? : Text → Option Nat
  | '\x7b' :: rest =>
      let digits := hexCount rest
      match rest.drop digits with
      | '\x7d' :: _ => if digits = 0 then none else some (digits + 2)
      | _ => none
  | _ => none

/-- The length of the character literal that a text begins with, after its opening quote and with
its closing one. -/
def charTailLength? : Text → Option Nat
  | [] => none
  | c :: rest =>
      if c = backslash then
        match rest with
        | [] => none
        | escape :: after =>
            if escape = 'x' && 2 ≤ hexCount (after.take 2) && endsQuote (after.drop 2) then some 5
            else
              match (if escape = 'u' then unicodeEscapeLength? after else none) with
              | some size => if endsQuote (after.drop size) then some (size + 3) else none
              | none => if escape ≠ '\n' && endsQuote after then some 3 else none
      else if c = singleQuote || c = '\n' then none
      else if endsQuote rest then some 2
      else none

/-- The length of the literal that a text begins with, if it begins with one. `previous` is the
character before the text: after a letter, a number or a low line no raw string can begin. -/
def literalLength? (previous : Option Char) : Text → Option Nat
  | [] => none
  | c :: rest =>
      if c = 'b' || c = 'r' then
        if previous.any isWord then none else rawLength? (c :: rest)
      else if c = doubleQuote then some (1 + stringLength rest)
      else if c = singleQuote then (charTailLength? rest).map (1 + ·)
      else none

/-- Put a character in front of the first piece. -/
def extendFirst (c : Char) : List Text → List Text
  | [] => [[c]]
  | piece :: pieces => (c :: piece) :: pieces

/-- Cut a text at its top-level commas. `pending` characters of a literal are still to be copied,
`depth` brackets are open, and `previous` is the character before. -/
def cut (pending depth : Nat) (previous : Option Char) : Text → List Text
  | [] => [[]]
  | c :: rest =>
      match pending with
      | pending + 1 => extendFirst c (cut pending depth (some c) rest)
      | 0 =>
          match literalLength? previous (c :: rest) with
          | some size => extendFirst c (cut (size - 1) depth (some c) rest)
          | none =>
              if c = ',' && depth = 0 then [] :: cut 0 0 (some c) rest
              else extendFirst c (cut 0 (depthAfter depth c) (some c) rest)

/-- Trim pieces of text and drop those that are blank. -/
def trimmedPieces (pieces : List Text) : List Text :=
  (pieces.map trim).filter fun piece => !piece.isEmpty

/-- The arguments of a delimited token text. -/
def splitArguments (text : Text) : List Text :=
  trimmedPieces (cut 0 0 none (undelimited text))

@[simp] theorem cut_nil (pending depth : Nat) (previous : Option Char) :
    cut pending depth previous [] = [[]] := by
  rw [cut]

@[simp] theorem splitArguments_nil : splitArguments [] = [] := rfl

end HarnessIndex.Attribute
