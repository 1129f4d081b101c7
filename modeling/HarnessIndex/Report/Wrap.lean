import HarnessIndex.Text.Display
import HarnessIndex.Text.Blank

/-!
# Lines for the terminal

A text is shown in lines of a fixed number of terminal columns. It is cut at its line feeds, and a
line that is too wide is broken before a word, the blanks after a word staying with it. A word that
is wider than a line is cut into pieces, or else shortened with an ellipsis.
-/

namespace HarnessIndex.Report

open Text (width columns isBlank)

/-- What becomes of a word that is wider than a line. -/
inductive Excess where
  | fold
  | ellipsis
  deriving DecidableEq, Repr, Inhabited

/-- Whether a terminal acts on a character in a way that would spoil a line. -/
def spoilsLine (c : Char) : Bool :=
  c.toNat = 7 || c.toNat = 8 || (11 ≤ c.toNat && c.toNat ≤ 13)

/-- A text without the characters that would spoil a line. -/
def printable (text : Text) : Text :=
  text.filter fun c => !spoilsLine c

/-- The words of a text with the blanks around them, when `word` has been read; `solid` says whether
it holds more than blanks, and `closed` whether blanks follow that. -/
def wordsFrom (word : Text) (solid closed : Bool) : Text → List Text
  | [] => if solid then [word] else []
  | c :: rest =>
      if isBlank c then wordsFrom (word ++ [c]) solid solid rest
      else if closed then word :: wordsFrom [c] true false rest
      else wordsFrom (word ++ [c]) true false rest

/-- The words of a text with the blanks around them. -/
def words (text : Text) : List Text :=
  wordsFrom [] false false text

/-- Cut a text into pieces of at most `size` columns, when `piece` has been read. -/
def chopFrom (size : Nat) (piece : Text) : Text → List Text
  | [] => [piece]
  | c :: rest =>
      if size < width piece + columns c then piece :: chopFrom size [c] rest
      else chopFrom size (piece ++ [c]) rest

/-- Cut a text into pieces of at most `size` columns. -/
def chop (size : Nat) (text : Text) : List Text :=
  chopFrom size [] text

/-- Lines that are being filled: those that are full, the one that is not, and the columns it
takes. -/
structure Filling where
  full : List Text
  line : Text
  used : Nat

namespace Filling

/-- Whether nothing has been written. -/
def isFresh (filling : Filling) : Bool :=
  filling.full.isEmpty && filling.line.isEmpty

def onNewLine (filling : Filling) (text : Text) : Filling :=
  ⟨filling.full ++ [filling.line], text, width text⟩

/-- Write pieces, each on a line of its own. -/
def addPieces (filling : Filling) : List Text → Filling
  | [] => filling
  | piece :: rest =>
      addPieces (if filling.isFresh then ⟨[], piece, width piece⟩ else filling.onNewLine piece) rest

/-- Write one more word. -/
def addWord (excess : Excess) (size : Nat) (filling : Filling) (word : Text) : Filling :=
  let needed := width (Text.trimEnd word)
  if filling.used + needed ≤ size then
    ⟨filling.full, filling.line ++ word, filling.used + width word⟩
  else if size < needed then
    match excess with
    | .fold => filling.addPieces (chop size word)
    | .ellipsis => filling.addPieces [word]
  else filling.onNewLine word

def lines (filling : Filling) : List Text :=
  filling.full ++ [filling.line]

end Filling

def breakLine (excess : Excess) (size : Nat) (line : Text) : List Text :=
  match words line with
  | [] => [line]
  | found => (found.foldl (Filling.addWord excess size) ⟨[], [], 0⟩).lines

/-- Replace tabs by blanks up to the next multiple of eight columns, when `used` columns have been
written. -/
def expandTabs (used : Nat) : Text → Text
  | [] => []
  | c :: rest =>
      if c = '\t' then
        let next := used / 8 * 8 + 8
        List.replicate (next - used) ' ' ++ expandTabs next rest
      else c :: expandTabs (used + columns c) rest

/-- Drop blanks at the back of a line that has more characters than `size`, but not below that. -/
def trimToSize (size : Nat) (line : Text) : Text :=
  let blanks := line.length - (Text.trimEnd line).length
  line.take (line.length - min blanks (line.length - size))

/-- The longest front of a line that takes at most `size` columns. -/
def fitting (size : Nat) : Text → Text
  | [] => []
  | c :: rest => if columns c ≤ size then c :: fitting (size - columns c) rest else []

/-- A line filled up with blanks on the right. -/
def padEnd (size : Nat) (line : Text) : Text :=
  line ++ List.replicate (size - width line) ' '

/-- A line filled up with blanks on the left. -/
def padFront (size : Nat) (line : Text) : Text :=
  List.replicate (size - width line) ' ' ++ line

/-- Shorten a line that is too wide. -/
def shorten (excess : Excess) (size : Nat) (line : Text) : Text :=
  if width line ≤ size then line
  else
    match excess with
    | .fold => padEnd size (fitting size line)
    | .ellipsis => padEnd (size - 1) (fitting (size - 1) line) ++ ['…']

/-- The lines of a text, each of at most `size` columns. -/
def wrap (excess : Excess) (size : Nat) (text : Text) : List Text :=
  (Text.splitOn '\n' text).flatMap fun line =>
    (breakLine excess size (expandTabs 0 line)).map fun part =>
      shorten excess size (trimToSize size part)

end HarnessIndex.Report
