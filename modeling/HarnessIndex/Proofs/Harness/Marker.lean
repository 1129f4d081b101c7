import HarnessIndex.Harness.Marker
import HarnessIndex.Proofs.Text.Part
import HarnessIndex.Proofs.Text.Spelling
import HarnessIndex.Proofs.Text.Trim
import HarnessIndex.Proofs.Text.Word
import Mathlib.Data.List.Basic

/-!
# Where the pre-check finds a marker

The pre-check finds a marker wherever its tokens are spelled, blanks or not, and no word is
continued before them. Where it finds one, the tokens of a marker are spelled.
-/

namespace HarnessIndex.Harness

open Text Attribute

/-- The beginning of the path of a proof attribute. -/
def proofTokens : List Text :=
  ["kani", "::", "proof"]

/-- The qualified entry point. -/
def qualifiedTokens : List Text :=
  ["bolero", "::", "check"]

/-- The bare entry point up to its exclamation mark. -/
def bareTokens : List Text :=
  ["check", "!"]

/-- What the pre-check looks for. -/
def markers : List (List Text) :=
  [proofTokens, qualifiedTokens, bareTokens]

/-- The character before a place, when another one is put in front of what has been passed. -/
theorem getLast?_cons_or (c : Char) (before : Text) (previous : Option Char) :
    (c :: before).getLast?.or previous = before.getLast?.or (some c) := by
  rw [List.getLast?_cons]
  cases before.getLast? with
  | none => rfl
  | some _ => rfl

/-- A marker is found at every place at which no word is continued. -/
theorem mentionsProofAfter_append {before text : Text} {previous : Option Char}
    (noWord : (before.getLast?.or previous).any isWord = false)
    (starts : startsMarker text = true) : mentionsProofAfter previous (before ++ text) = true := by
  induction before generalizing previous with
  | nil =>
      rw [List.nil_append]
      cases text with
      | nil => exact absurd starts (by decide)
      | cons c rest =>
          rw [List.getLast?_nil, Option.none_or] at noWord
          rw [mentionsProofAfter, noWord, starts]
          rfl
  | cons c before ih =>
      rw [getLast?_cons_or] at noWord
      rw [List.cons_append, mentionsProofAfter, ih noWord, Bool.or_true]

theorem mentionsProof_append {before text : Text} (noWord : endsInWord before = false)
    (starts : startsMarker text = true) : mentionsProof (before ++ text) = true :=
  mentionsProofAfter_append (by rw [Option.or_none]; exact noWord) starts

/-- A path of two words is passed up to its second word. -/
theorem afterPath?_spelled {word gap gap' rest : Text} {c : Char}
    (blank : ∀ b ∈ gap, isBlank b = true) (blank' : ∀ b ∈ gap', isBlank b = true)
    (solid : isBlank c = false) :
    afterPath? word "::" (word ++ (gap ++ ':' :: ':' :: (gap' ++ c :: rest))) =
      some (c :: rest) := by
  have colons : ("::" : Text) = [':', ':'] := rfl
  rw [afterPath?, after?_append]
  simp only [Option.bind_eq_bind, Option.bind_some]
  rw [trimStart_blanks blank (by decide), colons]
  simp only [after?, if_true, Option.bind_some]
  rw [trimStart_blanks blank' solid]
  rfl

/-- A path whose two words are spelled is passed up to its second word. -/
theorem exists_of_spells_path {first second tail text rest : Text} {c : Char}
    (spells : Spells [first, "::", second] text rest) (shape : second = c :: tail)
    (solid : isBlank c = false) :
    ∃ blanks marker, text = blanks ++ marker ∧ (∀ b ∈ blanks, isBlank b = true) ∧
      ∀ after, afterPath? first "::" (marker ++ after) = some (second ++ (rest ++ after)) := by
  cases spells with
  | @cons blanks _ _ _ _ blank spells =>
      cases spells with
      | @cons gap _ _ _ _ blank' spells =>
          cases spells with
          | @cons gap' _ _ _ _ blank'' spells =>
              cases spells
              refine ⟨blanks, _, List.append_assoc .., blank, ?_⟩
              intro after
              have passed : afterPath? first "::" (first ++ (gap ++ ':' :: ':' ::
                  (gap' ++ c :: (tail ++ (rest ++ after))))) =
                    some (c :: (tail ++ (rest ++ after))) :=
                afterPath?_spelled blank' blank'' solid
              have colons : ("::" : Text) = [':', ':'] := rfl
              rw [colons, shape] at *
              simpa using passed

/-- The beginning of a proof attribute's path is a marker, whatever follows. -/
theorem exists_marker_of_proof {text rest : Text} (spells : Spells proofTokens text rest) :
    ∃ blanks marker, text = blanks ++ marker ∧ (∀ c ∈ blanks, isBlank c = true) ∧
      ∀ after, startsMarker (marker ++ after) = true := by
  obtain ⟨blanks, marker, split, blank, passed⟩ := exists_of_spells_path spells rfl (by decide)
  refine ⟨blanks, marker, split, blank, ?_⟩
  intro after
  have starts : startsProofAttribute (marker ++ after) = true := by
    rw [startsProofAttribute, passed]
    rfl
  rw [startsMarker, starts]
  rfl

/-- The qualified entry point is a marker, where no word goes on after it. -/
theorem exists_marker_of_qualified {text rest : Text}
    (spells : Spells qualifiedTokens text rest) (ends : ∀ c ∈ rest, isBlank c = true) :
    ∃ blanks marker, text = blanks ++ marker ∧ (∀ c ∈ blanks, isBlank c = true) ∧
      ∀ after, endsWord after = true → startsMarker (marker ++ after) = true := by
  obtain ⟨blanks, marker, split, blank, passed⟩ := exists_of_spells_path spells rfl (by decide)
  refine ⟨blanks, marker, split, blank, ?_⟩
  intro after noWord
  have starts : startsQualifiedCheck (marker ++ after) = true := by
    rw [startsQualifiedCheck, passed, Option.bind_some, after?_append]
    exact endsWord_append_blanks ends noWord
  rw [startsMarker, starts, Bool.or_true]
  rfl

/-- The bare entry point is a marker, where only blanks stand before its exclamation mark. -/
theorem exists_marker_of_bare {text rest : Text} (spells : Spells ["check"] text rest)
    (ends : ∀ c ∈ rest, isBlank c = true) :
    ∃ blanks marker, text = blanks ++ marker ∧ (∀ c ∈ blanks, isBlank c = true) ∧
      ∀ gap following, (∀ c ∈ gap, isBlank c = true) → startsWith "=" following = false →
        startsMarker (marker ++ gap ++ '!' :: following) = true := by
  cases spells with
  | @cons blanks _ _ _ _ blank spells =>
      cases spells
      refine ⟨blanks, _, List.append_assoc .., blank, ?_⟩
      intro gap following blank' noEqual
      have starts : startsBareCheck ("check".toList ++ rest ++ gap ++ '!' :: following) = true := by
        have blanks : ∀ c ∈ rest ++ gap, isBlank c = true :=
          List.forall_mem_append.mpr ⟨ends, blank'⟩
        have passed : after? "!" ('!' :: following) = some following := rfl
        rw [startsBareCheck, List.append_assoc, List.append_assoc, after?_append,
          Option.bind_some, ← List.append_assoc, trimStart_blanks blanks (by decide), passed]
        change (!startsWith "=" following) = true
        rw [noEqual, Bool.not_false]
      rw [startsMarker, starts, Bool.or_true]

/-! ## What a marker spells -/

/-- A text that begins with a word passes up to what comes after the word and blanks. -/
theorem exists_of_after?_trimStart {word text rest : Text}
    (passed : after? word (trimStart text) = some rest) :
    ∃ blanks, text = blanks ++ word ++ rest ∧ ∀ c ∈ blanks, isBlank c = true := by
  refine ⟨text.takeWhile isBlank, ?_, fun c member => List.mem_takeWhile_imp member⟩
  rw [List.append_assoc, ← after?_eq_some.mp passed, trimStart, List.takeWhile_append_dropWhile]

theorem spells_of_afterPath? {first second text following rest : Text}
    (passed : afterPath? first "::" text = some following)
    (ends : after? second following = some rest) : Spells [first, "::", second] text rest := by
  obtain ⟨behind, word, passed⟩ := Option.bind_eq_some_iff.mp passed
  obtain ⟨after, separator, same⟩ := Option.bind_eq_some_iff.mp passed
  obtain ⟨gap, rfl, blank⟩ := exists_of_after?_trimStart separator
  rw [← Option.some.inj same] at ends
  obtain ⟨gap', rfl, blank'⟩ := exists_of_after?_trimStart ends
  rw [after?_eq_some.mp word]
  exact .cons (List.forall_mem_nil _) (.cons blank (.cons blank' .nil))

theorem exists_spells_of_startsMarker {text : Text} (starts : startsMarker text = true) :
    ∃ tokens ∈ markers, ∃ rest, Spells tokens text rest := by
  rw [startsMarker, Bool.or_eq_true, Bool.or_eq_true] at starts
  obtain (proof | qualified) | bare := starts
  · rw [startsProofAttribute] at proof
    split at proof
    · rename_i following passed
      obtain ⟨rest, rfl⟩ := List.isPrefixOf_iff_prefix.mp proof
      exact ⟨_, .head _, rest, spells_of_afterPath? passed (after?_append _ rest)⟩
    · simp at proof
  · rw [startsQualifiedCheck] at qualified
    split at qualified
    · rename_i rest passed
      obtain ⟨following, passed, ends⟩ := Option.bind_eq_some_iff.mp passed
      exact ⟨_, .tail _ (.head _), rest, spells_of_afterPath? passed ends⟩
    · simp at qualified
  · rw [startsBareCheck] at bare
    split at bare
    · rename_i rest passed
      obtain ⟨following, word, mark⟩ := Option.bind_eq_some_iff.mp passed
      obtain ⟨gap, rfl, blank⟩ := exists_of_after?_trimStart mark
      rw [after?_eq_some.mp word]
      exact ⟨_, .tail _ (.tail _ (.head _)), rest,
        .cons (List.forall_mem_nil _) (.cons blank .nil)⟩
    · simp at bare

theorem solid_of_mem_markers : ∀ tokens ∈ markers, ∀ token ∈ tokens, Solid token := by
  decide +kernel

/-- A text that begins with a marker spells the one that has its first character. -/
theorem spells_of_startsMarker {text : Text} {marker : List Text} (known : marker ∈ markers)
    (starts : startsMarker text = true)
    (same : (withoutBlanks text).head? = marker.flatten.head?) :
    ∃ rest, Spells marker text rest := by
  have apart : ∀ first ∈ markers, first.flatten ≠ [] ∧ ∀ second ∈ markers,
      first.flatten.head? = second.flatten.head? → first = second := by
    decide +kernel
  obtain ⟨tokens, member, rest, spells⟩ := exists_spells_of_startsMarker starts
  obtain ⟨some, only⟩ := apart tokens member
  rw [spells.withoutBlanks (solid_of_mem_markers tokens member),
    List.head?_append_of_ne_nil _ some] at same
  exact only marker known same ▸ ⟨rest, spells⟩

end HarnessIndex.Harness
