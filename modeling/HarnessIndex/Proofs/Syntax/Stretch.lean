import HarnessIndex.Proofs.Text.Utf8
import HarnessIndex.Syntax.Node

/-!
# Stretches of a source

A node spans bytes. Where its first and its last byte are those of characters, it covers a stretch
of the text that was parsed, and its text is that stretch.
-/

namespace HarnessIndex.Syntax

open Text

/-- Split a text after a number of bytes, unless they end inside a character. -/
def splitAtByte? : (size : Nat) → Text → Option (Text × Text)
  | 0, text => some ([], text)
  | _ + 1, [] => none
  | size + 1, c :: rest =>
      if (encodeChar c).length ≤ size + 1 then
        (splitAtByte? (size + 1 - (encodeChar c).length) rest).map fun split =>
          (c :: split.1, split.2)
      else none

/-- A part of a text with what stands before it and after it. -/
structure Stretch where
  before : Text
  part : Text
  after : Text

/-- The stretch of a text between two bytes, if they are at the edges of characters. -/
def stretch? (source : Text) (start stop : Nat) : Option Stretch := do
  let (before, rest) ← splitAtByte? start source
  let (part, after) ← splitAtByte? (stop - start) rest
  return { before, part, after }

theorem splitAtByte?_eq_some {size : Nat} {text front back : Text}
    (split : splitAtByte? size text = some (front, back)) :
    text = front ++ back ∧ (encode front).length = size := by
  induction text generalizing size front with
  | nil =>
      cases size with
      | zero =>
          obtain ⟨rfl, rfl⟩ := Prod.mk.inj (Option.some.inj split)
          exact ⟨rfl, rfl⟩
      | succ size => simp [splitAtByte?] at split
  | cons c rest ih =>
      cases size with
      | zero =>
          obtain ⟨rfl, rfl⟩ := Prod.mk.inj (Option.some.inj split)
          exact ⟨rfl, rfl⟩
      | succ size =>
          rw [splitAtByte?] at split
          split at split
          · rename_i fits
            obtain ⟨⟨inner, after⟩, found, same⟩ := Option.map_eq_some_iff.mp split
            obtain ⟨rfl, rfl⟩ := Prod.mk.inj same
            obtain ⟨rfl, length⟩ := ih found
            refine ⟨rfl, ?_⟩
            rw [encode, List.flatMap_cons, List.length_append, ← encode, length]
            omega
          · simp at split

theorem stretch?_eq_some {source : Text} {start stop : Nat} {stretch : Stretch}
    (found : stretch? source start stop = some stretch) :
    source = stretch.before ++ stretch.part ++ stretch.after ∧
      (encode stretch.before).length = start ∧ (encode stretch.part).length = stop - start := by
  obtain ⟨⟨before, rest⟩, first, inner⟩ := Option.bind_eq_some_iff.mp found
  obtain ⟨⟨part, after⟩, second, whole⟩ := Option.bind_eq_some_iff.mp inner
  obtain ⟨rfl, startLength⟩ := splitAtByte?_eq_some first
  obtain ⟨rfl, partLength⟩ := splitAtByte?_eq_some second
  rw [← Option.some.inj whole]
  exact ⟨(List.append_assoc ..).symm, startLength, partLength⟩

/-- The text between two bytes of a source is the stretch between them. -/
theorem slice_of_stretch? {source : Text} {start stop : Nat} {stretch : Stretch}
    (found : stretch? source start stop = some stretch) :
    (Source.ofText source).slice start stop = stretch.part := by
  obtain ⟨split, startLength, partLength⟩ := stretch?_eq_some found
  rw [Source.slice, Source.ofText, Array.toList_extract, List.extract_eq_take_drop,
    List.toList_toArray, split, encode_append, encode_append, List.append_assoc,
    List.drop_left' startLength, List.take_left' partLength, decode_encode]

end HarnessIndex.Syntax
