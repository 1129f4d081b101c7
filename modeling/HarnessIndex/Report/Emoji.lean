import HarnessIndex.Text.Blank

/-!
# Codes of emoji

A terminal shows a sign for a code such as `:smile:`: a name without blanks between two colons. The
name may end in `-emoji` or `-text`, which selects a variant of the sign. A code ends at the first
colon that can end it, and the search goes on behind that colon, so that `::` by itself is passed
over as a code without a name. What stands for a name, if anything, is up to the terminal.
-/

namespace HarnessIndex.Emoji

open Text

/-- A code behind its first colon: its name, the character that selects its variant, and the number
of its characters. -/
structure Code where
  name : Text
  variant : Text
  size : Nat
  deriving DecidableEq, Repr

/-- The code that goes on with a text when `name` has been read of it. -/
def codeFrom? (name : Text) : Text → Option Code
  | [] => none
  | c :: rest =>
      if c = ':' then some ⟨name, [], name.length + 1⟩
      else if startsWith "-emoji:" (c :: rest) then some ⟨name, ['\uFE0F'], name.length + 7⟩
      else if startsWith "-text:" (c :: rest) then some ⟨name, ['\uFE0E'], name.length + 6⟩
      else if isBlank c then none
      else codeFrom? (name ++ [c]) rest

variable (sign? : Text → Option Text)

/-- What stands for a code, or the code as it is. -/
def shown (code : Code) (written : Text) : Text :=
  match sign? code.name with
  | some sign => sign ++ code.variant
  | none => written

/-- Put signs for codes, when the next `skipped` characters belong to a code. -/
def replaceFrom (skipped : Nat) : Text → Text
  | [] => []
  | c :: rest =>
      match skipped with
      | skipped + 1 => replaceFrom skipped rest
      | 0 =>
          match if c = ':' then codeFrom? [] rest else none with
          | some code => shown sign? code (c :: rest.take code.size) ++ replaceFrom code.size rest
          | none => c :: replaceFrom 0 rest

/-- Put signs for the codes in a text. -/
def replace (text : Text) : Text :=
  replaceFrom sign? 0 text

end HarnessIndex.Emoji
