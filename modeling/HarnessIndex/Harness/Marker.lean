import HarnessIndex.Attribute.Condition

/-!
# The textual pre-check

`mentionsProof` decides without parsing whether a source can hold a harness: it looks for the path
of a proof attribute, the qualified path of the framework's entry point, or the entry point called
as a bare macro. Blanks may stand between the tokens of each.
-/

namespace HarnessIndex.Harness

open Text Attribute

/-- What follows a word, blanks and a separator at the front of a text. -/
def afterPath? (word separator : Text) (text : Text) : Option Text := do
  let following ← after? word text
  let following ← after? separator (trimStart following)
  return trimStart following

/-- Whether a text begins with the path of a proof attribute. -/
def startsProofAttribute (text : Text) : Bool :=
  match afterPath? "kani" "::" text with
  | some following => startsWith "proof" following
  | none => false

/-- Whether a text begins with the qualified entry point. -/
def startsQualifiedCheck (text : Text) : Bool :=
  match (afterPath? "bolero" "::" text).bind (after? "check") with
  | some following => endsWord following
  | none => false

/-- Whether a text begins with the bare entry point, called as a macro and not compared. -/
def startsBareCheck (text : Text) : Bool :=
  match (after? "check" text).bind fun following => after? "!" (trimStart following) with
  | some following => !startsWith "=" following
  | none => false

def startsMarker (text : Text) : Bool :=
  startsProofAttribute text || startsQualifiedCheck text || startsBareCheck text

/-- Whether a marker stands in a text at the beginning of a word, when `previous` is the character
before. -/
def mentionsProofAfter (previous : Option Char) : Text → Bool
  | [] => false
  | c :: rest =>
      (!previous.any isWord && startsMarker (c :: rest)) || mentionsProofAfter (some c) rest

/-- Whether a source mentions a proof or an entry point. -/
def mentionsProof (source : Text) : Bool :=
  mentionsProofAfter none source

@[simp] theorem mentionsProof_nil : mentionsProof [] = false := rfl

end HarnessIndex.Harness
