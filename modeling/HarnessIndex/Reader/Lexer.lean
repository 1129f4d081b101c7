import HarnessIndex.Attribute.Arguments
import HarnessIndex.Reader.Token
import HarnessIndex.Text.Utf8

/-!
# Cutting a source into tokens

A source is cut from its beginning. At each place blanks and comments are passed, and then one token
is taken: a literal, a word, a lifetime, a number, or a single mark. What a number is depends on
what stands before it: after a dot it is the index of a tuple and has no fraction.
-/

namespace HarnessIndex.Reader

open Syntax Text

def byteLength (text : Text) : Nat :=
  text.foldr (fun c size => (encodeChar c).length + size) 0

/-- A character of which words are made. Outside ASCII every character that is not blank counts. -/
def isNameChar (c : Char) : Bool :=
  isWord c || (0x80 ≤ c.toNat && !isBlank c)

/-- A character that a word can begin with. -/
def startsName (c : Char) : Bool :=
  isNameChar c && !isAsciiDigit c

def nameLength (text : Text) : Nat :=
  (text.takeWhile isNameChar).length

/-- The length of a character literal after its opening quote, with its closing one, when it begins
with a backslash. -/
def escapedLength : Text → Nat
  | [] => 0
  | c :: rest =>
      if c = backslash then
        match rest with
        | [] => 1
        | _ :: after => 2 + escapedLength after
      else if c = singleQuote then 1
      else 1 + escapedLength rest

/-- The length of a block comment after its first two characters, with its last two. Comments may
hold comments; `depth` of them are open inside. -/
def blockCommentLength (depth : Nat) : Text → Nat
  | [] => 0
  | '*' :: '/' :: rest =>
      match depth with
      | 0 => 2
      | depth + 1 => 2 + blockCommentLength depth rest
  | '/' :: '*' :: rest => 2 + blockCommentLength (depth + 1) rest
  | _ :: rest => 1 + blockCommentLength depth rest

/-- A character of which numbers are made. -/
def isNumberChar (c : Char) : Bool :=
  isAsciiDigit c || c = '_'

/-- The length of a fraction with its dot. A dot before a letter or another dot is no fraction. -/
def fractionLength : Text → Nat
  | '.' :: rest =>
      match rest with
      | next :: _ =>
          if (startsName next && next ≠ '_') || next = '.' then 0
          else 1 + (rest.takeWhile isNumberChar).length
      | [] => 1
  | _ => 0

/-- The length of a power of ten with its letter. -/
def exponentLength : Text → Nat
  | e :: rest =>
      if e = 'e' || e = 'E' then
        let sign :=
          match rest with
          | '+' :: _ => 1
          | '-' :: _ => 1
          | _ => 0
        let digits := ((rest.drop sign).takeWhile isNumberChar).length
        if digits = 0 then 0 else 1 + sign + digits
      else 0
  | [] => 0

def numberLength (afterDot : Bool) (text : Text) : Shape × Nat :=
  let digits := (text.takeWhile isNumberChar).length
  let rest := text.drop digits
  let fraction := if afterDot then 0 else fractionLength rest
  let exponent := if afterDot then 0 else exponentLength (rest.drop fraction)
  if fraction + exponent = 0 then (.integer, nameLength text)
  else
    let size := digits + fraction + exponent
    (.float, size + nameLength (text.drop size))

/-- The class and the length of a word, or of the literal that its first letters announce. -/
def wordLength (text : Text) : Shape × Nat :=
  match text with
  | 'b' :: '\x27' :: rest => (.character, 2 + escapedLength rest)
  | 'b' :: '\x22' :: rest => (.string, 2 + Attribute.stringLength rest)
  | 'c' :: '\x22' :: rest => (.string, 2 + Attribute.stringLength rest)
  | _ =>
      let raw :=
        match text with
        | 'c' :: 'r' :: rest => (Attribute.rawTailLength? rest).map (2 + ·)
        | _ => Attribute.rawLength? text
      match raw with
      | some size => (.rawString, size)
      | none =>
          match text with
          | 'r' :: '#' :: rest =>
              if rest.head?.any startsName then (.rawWord, 2 + nameLength rest)
              else (.word, nameLength text)
          | _ => (.word, nameLength text)

/-- The class and the length of what a single quote begins. -/
def quoteLength : Text → Shape × Nat
  | '\x5c' :: rest => (.character, 1 + escapedLength ('\x5c' :: rest))
  | _ :: '\x27' :: _ => (.character, 3)
  | rest => (.lifetime, 1 + nameLength rest)

/-- The class and the length of the token that a text begins with. -/
def tokenLength (afterDot : Bool) : Text → Shape × Nat
  | [] => (.finish, 0)
  | c :: rest =>
      if c = doubleQuote then (.string, 1 + Attribute.stringLength rest)
      else if c = singleQuote then quoteLength rest
      else if isAsciiDigit c then numberLength afterDot (c :: rest)
      else if startsName c then wordLength (c :: rest)
      else (.mark, 1)

/-- The class and the length of the comment that a text begins with. -/
def commentLength? : Text → Option (Kind × Nat)
  | '/' :: '/' :: rest =>
      some (.lineComment, 2 + (rest.takeWhile (· ≠ '\n')).length)
  | '/' :: '*' :: rest => some (.blockComment, 2 + blockCommentLength 0 rest)
  | _ => none

def commentTree (kind : Kind) (start stop : Nat) : Tree :=
  { kind, start, stop, named := true, missing := false, field := none, children := [] }

/-- Cut a text that begins at the byte `offset`, in at most `steps` steps. `last` is where the token
before ends, `afterDot` tells that it is a dot by itself, and `comments` have been passed since. -/
def tokensFrom (steps offset last : Nat) (afterDot : Bool) (comments : List Tree) (text : Text) :
    List Token :=
  match steps, text with
  | 0, _ | _, [] =>
      [{ shape := .finish, text := [], start := offset, stop := offset, joined := false, comments }]
  | steps + 1, c :: rest =>
      if isBlank c then
        tokensFrom steps (offset + byteLength [c]) last afterDot comments rest
      else
        match commentLength? text with
        | some (kind, size) =>
            let stop := offset + byteLength (text.take size)
            tokensFrom steps stop last afterDot (comments ++ [commentTree kind offset stop])
              (text.drop size)
        | none =>
            let (shape, size) := tokenLength afterDot text
            let size := max size 1
            let word := text.take size
            let stop := offset + byteLength word
            { shape, text := word, start := offset, stop, joined := offset = last, comments } ::
              tokensFrom steps stop stop (word = ['.'] && !afterDot) [] (text.drop size)

def byteOrderMark : Char := '\uFEFF'

/-- The length of a line that names an interpreter, with its end. -/
def interpreterLength? : Text → Option Nat
  | '#' :: '!' :: rest =>
      let line := rest.takeWhile (· ≠ '\n')
      match line.dropWhile isBlank with
      | '[' :: _ => none
      | _ => if line.length < rest.length then some (line.length + 3) else none
  | _ => none

/-- The node of a line that names an interpreter. -/
def interpreterTree (start stop : Nat) : Tree :=
  { kind := Kind.other "shebang", start, stop, named := true, missing := false, field := none
    children := [] }

/-- The tokens of a source. A byte order mark is passed, and a first line that names an interpreter
is kept with the first token like a comment. -/
def tokens (source : Text) : List Token :=
  let (offset, text) :=
    match source with
    | c :: rest => if c = byteOrderMark then (byteLength [c], rest) else (0, source)
    | [] => (0, source)
  match interpreterLength? text with
  | some size =>
      let stop := offset + byteLength (text.take size)
      tokensFrom (text.length + 1) stop 0 false [interpreterTree offset stop] (text.drop size)
  | none => tokensFrom (text.length + 1) offset 0 false [] text

end HarnessIndex.Reader
