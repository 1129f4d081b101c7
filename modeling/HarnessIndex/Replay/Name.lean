import HarnessIndex.Text.Blank
import HarnessIndex.Text.Word

/-!
# Names of generated tests

A test generated from a counterexample is called `kani_concrete_playback_`, then the name of its
harness, then often a low line and a number. The number is cut off when a harness name is left in
front of it; it may use the decimal digits of any script.
-/

namespace HarnessIndex.Replay

open Text

/-- What every generated name begins with. -/
def start : Text := "kani_concrete_playback_"

/-- A generated name taken apart. -/
structure GeneratedName where
  name : Text
  harness : Text
  id : Option Text
  deriving DecidableEq, Repr, Inhabited

/-- Drop one line feed at the end. -/
def withoutFinalNewline (text : Text) : Text :=
  if text.getLast? = some '\n' then text.dropLast else text

/-- The decimal digits at the end of a text. -/
def finalDigits (text : Text) : Text :=
  (text.reverse.takeWhile isDecimal).reverse

/-- Split a text into a harness name and a number, when the text has that form. -/
def splitNumber? (text : Text) : Option (Text × Text) :=
  let digits := finalDigits text
  let front := text.take (text.length - digits.length)
  if digits.isEmpty || front.getLast? ≠ some '_' || front.length ≤ 1 then none
  else some (front.dropLast, digits)

namespace GeneratedName

/-- Take a generated name apart. -/
def ofText? (text : Text) : Option GeneratedName := do
  let name := withoutFinalNewline text
  let encoded ← after? start name
  if encoded.isEmpty || !encoded.all isWord then none
  else
    match splitNumber? encoded with
    | some (harness, digits) => some ⟨name, harness, some digits⟩
    | none => some ⟨name, encoded, none⟩

end GeneratedName

end HarnessIndex.Replay
