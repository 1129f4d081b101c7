import HarnessIndex.Text.Blank

/-!
# Lines

The lines of a text. A line ends at any of the Unicode line boundaries, a carriage return followed
by a line feed counting once, and the end of the text closes the last line.
-/

namespace HarnessIndex.Text

def isLineEnd (c : Char) : Bool :=
  let code := c.toNat
  (0x0a ≤ code && code ≤ 0x0d) || (0x1c ≤ code && code ≤ 0x1e) || code = 0x85 ||
    code = 0x2028 || code = 0x2029

/-- The lines of `text`, without their ends, when `line` has already been read. -/
def linesFrom (line : Text) : Text → List Text
  | [] => if line.isEmpty then [] else [line]
  | '\r' :: '\n' :: rest => line :: linesFrom [] rest
  | c :: rest => if isLineEnd c then line :: linesFrom [] rest else linesFrom (line ++ [c]) rest

/-- The lines of `text`, without their ends. -/
def lines (text : Text) : List Text :=
  linesFrom [] text

/-- Every line end written by hand, `\r\n` or `\r`, replaced by `\n`. -/
def unixLines : Text → Text
  | [] => []
  | '\r' :: '\n' :: rest => '\n' :: unixLines rest
  | '\r' :: rest => '\n' :: unixLines rest
  | c :: rest => c :: unixLines rest

end HarnessIndex.Text
