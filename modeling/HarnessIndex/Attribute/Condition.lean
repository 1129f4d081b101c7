import HarnessIndex.Text.Blank
import HarnessIndex.Text.Word

/-!
# Conditions of conditional attributes

A conditional attribute applies its attributes only under a predicate. `enablesUnderKani` decides
from the text of the predicate whether the verifier's option turns it on: the option is named as a
whole word, and the predicate as a whole is not a negation.
-/

namespace HarnessIndex.Attribute

open Text

/-- The verifier's own option. -/
def kaniOption : Text := "kani"

/-- Whether a text begins with a character that does not continue a word. -/
def endsWord : Text → Bool
  | [] => true
  | c :: _ => !isWord c

/-- Whether `word` occurs in a text as a whole word, when `previous` is the character before. -/
def hasWordAfter (word : Text) (previous : Option Char) : Text → Bool
  | [] => false
  | c :: rest =>
      (!previous.any isWord &&
        match after? word (c :: rest) with
        | some following => endsWord following
        | none => false) ||
      hasWordAfter word (some c) rest

/-- Whether `word` occurs in a text as a whole word. -/
def hasWord (word text : Text) : Bool :=
  hasWordAfter word none text

/-- Whether a predicate holds when the verifier runs. -/
def enablesUnderKani (predicate : Text) : Bool :=
  let condition := withoutBlanks predicate
  hasWord kaniOption condition && !startsWith "not(" condition

@[simp] theorem enablesUnderKani_nil : enablesUnderKani [] = false := rfl

end HarnessIndex.Attribute
