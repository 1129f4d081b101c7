import HarnessIndex.Report.Emoji
import HarnessIndex.Text.Quoted

/-!
# Markup

Texts for the terminal may hold tags such as `[yellow]` and `[/yellow]`. A tag begins with a bracket
and a lower-case letter, a hash, a slash or an at sign, and reaches to the next closing bracket with
no opening one between. A backslash before a tag takes its meaning away, and two backslashes before
a tag stand for one.

`escape` makes a text show as it is; `render` gives what is shown on a terminal, which has a `Dialect`
of its own: it compares the names of tags by their meaning, and puts signs for the codes of emoji.
-/

namespace HarnessIndex.Markup

open Text

/-- A character that a tag can begin with. -/
def startsTag (c : Char) : Bool :=
  ('a' ≤ c && c ≤ 'z') || c = '#' || c = '/' || c = '@'

/-- The length of the inside of a tag, in a text that begins after the opening bracket. -/
def tagLength? : Text → Option Nat
  | [] => none
  | first :: rest =>
      if startsTag first then
        let inside := rest.takeWhile fun c => c ≠ ']' && c ≠ '['
        match rest.drop inside.length with
        | ']' :: _ => some (inside.length + 1)
        | _ => none
      else none

/-- Escape a text, when `slashes` backslashes have just been read and the next `copied` characters
belong to a tag. -/
def escapeFrom (slashes copied : Nat) : Text → Text
  | [] => List.replicate slashes backslash
  | c :: rest =>
      match copied with
      | copied + 1 => c :: escapeFrom 0 copied rest
      | 0 =>
          if c = backslash then escapeFrom (slashes + 1) 0 rest
          else if c = '[' then
            match tagLength? rest with
            | some size =>
                List.replicate (2 * slashes + 1) backslash ++ c :: escapeFrom 0 (size + 1) rest
            | none => List.replicate slashes backslash ++ c :: escapeFrom 0 0 rest
          else List.replicate slashes backslash ++ c :: escapeFrom 0 0 rest

/-- Whether a text ends in one backslash and not in two. -/
def endsInOneBackslash (text : Text) : Bool :=
  endsWith [backslash] text && !endsWith [backslash, backslash] text

/-- Escape a text, so that it is shown as it is. -/
def escape (text : Text) : Text :=
  let escaped := escapeFrom 0 0 text
  if endsInOneBackslash escaped then escaped ++ [backslash] else escaped

/-- A piece of a text with markup: a run of text, what a backslash keeps from being a tag, or a
tag. -/
inductive Piece where
  | plain (text : Text)
  | kept (text : Text)
  | tag (inside : Text)
  deriving DecidableEq, Repr, Inhabited

/-- Put a text in front of pieces, joined to the first one when that is a run of text. -/
def addPlain (text : Text) (pieces : List Piece) : List Piece :=
  if text.isEmpty then pieces
  else
    match pieces with
    | .plain more :: rest => .plain (text ++ more) :: rest
    | _ => .plain text :: pieces

/-- Take a text apart, when `slashes` backslashes have just been read and the next `skipped`
characters belong to a tag. -/
def piecesFrom (slashes skipped : Nat) : Text → List Piece
  | [] => addPlain (List.replicate slashes backslash) []
  | c :: rest =>
      match skipped with
      | skipped + 1 => piecesFrom 0 skipped rest
      | 0 =>
          if c = backslash then piecesFrom (slashes + 1) 0 rest
          else if c = '[' then
            match tagLength? rest with
            | some size =>
                .kept (List.replicate (slashes / 2) backslash) ::
                  (if slashes % 2 = 1 then .kept (c :: rest.take (size + 1))
                  else .tag (rest.take size)) :: piecesFrom 0 (size + 1) rest
            | none =>
                addPlain
                  (if slashes = 0 then [c] else List.replicate (slashes - 1) backslash ++ [c])
                  (piecesFrom 0 0 rest)
          else addPlain (List.replicate slashes backslash ++ [c]) (piecesFrom 0 0 rest)

/-- The pieces of a text with markup. -/
def pieces (text : Text) : List Piece :=
  piecesFrom 0 0 text

/-- The name of a tag: what stands before an equals sign. -/
def tagName (inside : Text) : Text :=
  inside.takeWhile (· ≠ '=')

/-- What follows the name of a tag and its equals sign. -/
def tagValue (inside : Text) : Text :=
  inside.drop ((tagName inside).length + 1)

/-- What a terminal makes of names and values. `normal` gives the form in which the names of tags are
compared, `sign?` the sign that the name of an emoji stands for, and `reads` tells whether the value
of a tag that begins with an at sign can be read. -/
structure Dialect where
  normal : Text → Text
  sign? : Text → Option Text
  reads : Text → Bool

namespace Dialect

/-- Names are compared without regard to capitals, no emoji is known, and every value is read. -/
def bare : Dialect where
  normal name := (trim name).map Char.toLower
  sign? _ := none
  reads _ := true

variable (dialect : Dialect)

/-- Whether a tag can be closed: the value of one that begins with an at sign has to be read. -/
def canClose (inside : Text) : Bool :=
  !startsWith ['@'] inside || (tagValue inside).isEmpty || dialect.reads (tagValue inside)

/-- The tags that are open after one has been closed, the last one first: the last one with a name,
or the last one of all for an empty name. -/
def close? (name : Text) (opened : List Text) : Option (List Text) := do
  let isMeant (inside : Text) : Bool :=
    name.isEmpty || dialect.normal (tagName inside) = dialect.normal name
  let inside ← opened.find? isMeant
  if dialect.canClose inside then some (opened.eraseP isMeant) else none

end Dialect

variable (dialect : Dialect)

/-- What pieces show, when the tags in `opened` have been opened, the last one first. The answer is
`none` when a tag is closed that has not been opened or cannot be closed. Codes of emoji are looked
for in each piece by itself. -/
def renderPieces (opened : List Text) : List Piece → Option Text
  | [] => some []
  | .plain text :: rest | .kept text :: rest =>
      (renderPieces opened rest).map (Emoji.replace dialect.sign? text ++ ·)
  | .tag inside :: rest =>
      match tagName inside with
      | '/' :: closed => do renderPieces (← dialect.close? (trim closed) opened) rest
      | _ => renderPieces (inside :: opened) rest

/-- What a text with markup shows, or `none` when its tags do not match. -/
def render (text : Text) : Option Text :=
  renderPieces dialect [] (pieces text)

/-- A text inside a pair of tags. -/
def tagged (name text : Text) : Text :=
  '[' :: name ++ ']' :: text ++ "[/" ++ name ++ [']']

@[simp] theorem escape_nil : escape [] = [] := rfl

@[simp] theorem pieces_nil : pieces [] = [] := rfl

@[simp] theorem render_nil : render dialect [] = some [] := rfl

end HarnessIndex.Markup
