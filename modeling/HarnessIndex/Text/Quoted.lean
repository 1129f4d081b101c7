import HarnessIndex.Text.Blank
import HarnessIndex.Text.Display

/-!
# Quoted texts

The quoted form of a text: single quotes, or double quotes when the text holds a single quote and no
double one. The quote in use, the backslash and every character without a visible form are escaped.
-/

namespace HarnessIndex.Text

def singleQuote : Char := '\x27'

def doubleQuote : Char := '\x22'

def backslash : Char := '\x5c'

/-- A number in hexadecimal, with zeros in front up to `size` digits. -/
def hex (size : Nat) (n : Nat) : Text :=
  let digits := Nat.toDigits 16 n
  List.replicate (size - digits.length) '0' ++ digits

/-- One character inside quotes. -/
def quoteChar (quote : Char) (c : Char) : Text :=
  if c = quote || c = backslash then [backslash, c]
  else if c = '\n' then [backslash, 'n']
  else if c = '\r' then [backslash, 'r']
  else if c = '\t' then [backslash, 't']
  else if isVisible c then [c]
  else if c.toNat < 0x100 then backslash :: 'x' :: hex 2 c.toNat
  else if c.toNat < 0x10000 then backslash :: 'u' :: hex 4 c.toNat
  else backslash :: 'U' :: hex 8 c.toNat

def quoteFor (text : Text) : Char :=
  if text.contains singleQuote && !text.contains doubleQuote then doubleQuote else singleQuote

def quoted (text : Text) : Text :=
  let quote := quoteFor text
  quote :: (text.flatMap (quoteChar quote) ++ [quote])

end HarnessIndex.Text
