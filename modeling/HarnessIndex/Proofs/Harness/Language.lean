import HarnessIndex.Proofs.Harness.Marker

/-!
# The language of the pre-check

Which texts the pre-check accepts, told by how markers are spelled and what may stand around them,
without the search that finds them. A search that gives up after a marker that breaks off would miss
one that begins inside it, such as the last of `kani kani::proof`; this one misses none.
-/

namespace HarnessIndex.Harness

open Text Attribute

/-- A run of blanks, which may be empty. -/
def IsGap (gap : Text) : Prop :=
  ∀ c ∈ gap, isBlank c = true

/-- A text is a marker where it stands before another one: the beginning of the path of a proof
attribute, the qualified entry point where no word goes on, or the bare entry point where no
comparison follows. -/
inductive IsMarker : (marker after : Text) → Prop where
  | proof {gap gap' after : Text} :
      IsGap gap → IsGap gap' → IsMarker ("kani" ++ gap ++ "::" ++ gap' ++ "proof") after
  | qualified {gap gap' after : Text} :
      IsGap gap → IsGap gap' → endsWord after = true →
      IsMarker ("bolero" ++ gap ++ "::" ++ gap' ++ "check") after
  | bare {gap after : Text} :
      IsGap gap → startsWith "=" after = false → IsMarker ("check" ++ gap ++ "!") after

variable {text rest : Text}

/-- A path and the word after it are passed when they are spelled with gaps around the colons. -/
theorem bind_afterPath?_eq_some (second : Text) {first tail : Text} {c : Char}
    (shape : second = c :: tail) (solid : isBlank c = false) :
    (afterPath? first "::" text).bind (after? second) = some rest ↔
      ∃ gap gap', IsGap gap ∧ IsGap gap' ∧
        text = first ++ gap ++ "::" ++ gap' ++ second ++ rest := by
  constructor
  · intro passed
    obtain ⟨following, path, ends⟩ := Option.bind_eq_some_iff.mp passed
    obtain ⟨behind, word, path⟩ := Option.bind_eq_some_iff.mp path
    obtain ⟨after, separator, same⟩ := Option.bind_eq_some_iff.mp path
    rw [← Option.some.inj same] at ends
    obtain ⟨gap, rfl, blank⟩ := exists_of_after?_trimStart separator
    obtain ⟨gap', rfl, blank'⟩ := exists_of_after?_trimStart ends
    refine ⟨gap, gap', blank, blank', ?_⟩
    rw [after?_eq_some.mp word]
    simp only [List.append_assoc]
  · rintro ⟨gap, gap', blank, blank', rfl⟩
    have path : afterPath? first "::"
        (first ++ (gap ++ ':' :: ':' :: (gap' ++ c :: (tail ++ rest)))) =
          some (c :: (tail ++ rest)) :=
      afterPath?_spelled blank blank' solid
    have spelled : first ++ gap ++ "::" ++ gap' ++ second ++ rest =
        first ++ (gap ++ ':' :: ':' :: (gap' ++ c :: (tail ++ rest))) := by
      rw [shape]
      simp
    rw [spelled, path, Option.bind_some, ← List.cons_append, ← shape, after?_append]

theorem startsProofAttribute_iff :
    startsProofAttribute text = true ↔
      ∃ rest, (afterPath? "kani" "::" text).bind (after? "proof") = some rest := by
  rw [startsProofAttribute]
  cases afterPath? "kani" "::" text with
  | none => simp
  | some following => simp [startsWith_iff, after?_eq_some]

theorem startsQualifiedCheck_iff :
    startsQualifiedCheck text = true ↔
      ∃ rest, (afterPath? "bolero" "::" text).bind (after? "check") = some rest ∧
        endsWord rest = true := by
  rw [startsQualifiedCheck]
  cases (afterPath? "bolero" "::" text).bind (after? "check") with
  | none => simp
  | some following => simp

/-- The bare entry point and its exclamation mark are passed when they are spelled with a gap
between them. -/
theorem startsBareCheck_iff :
    startsBareCheck text = true ↔
      ∃ gap rest, IsGap gap ∧ text = "check" ++ gap ++ "!" ++ rest ∧
        startsWith "=" rest = false := by
  constructor
  · intro starts
    rw [startsBareCheck] at starts
    split at starts
    · rename_i rest passed
      obtain ⟨following, word, mark⟩ := Option.bind_eq_some_iff.mp passed
      obtain ⟨gap, rfl, blank⟩ := exists_of_after?_trimStart mark
      refine ⟨gap, rest, blank, ?_, by simpa using starts⟩
      rw [after?_eq_some.mp word]
      simp only [List.append_assoc]
    · cases starts
  · rintro ⟨gap, rest, blank, rfl, differs⟩
    have solid : isBlank '!' = false := by decide
    have mark : after? "!" ('!' :: rest) = some rest := rfl
    have spelled : "check" ++ gap ++ "!" ++ rest = "check".toList ++ (gap ++ '!' :: rest) := by
      simp
    rw [startsBareCheck, spelled, after?_append, Option.bind_some, trimStart_blanks blank solid,
      mark]
    change (!startsWith "=" rest) = true
    rw [differs, Bool.not_false]

/-- A text begins with a marker when its front is one before the rest. -/
theorem startsMarker_iff :
    startsMarker text = true ↔ ∃ marker after, text = marker ++ after ∧ IsMarker marker after := by
  rw [startsMarker, Bool.or_eq_true, Bool.or_eq_true, startsProofAttribute_iff,
    startsQualifiedCheck_iff, startsBareCheck_iff]
  simp only [bind_afterPath?_eq_some "proof" rfl (by decide),
    bind_afterPath?_eq_some "check" rfl (by decide)]
  constructor
  · rintro ((⟨after, gap, gap', blank, blank', same⟩ |
      ⟨after, ⟨gap, gap', blank, blank', same⟩, ends⟩) | ⟨gap, after, blank, same, differs⟩)
    · exact ⟨_, after, same, .proof blank blank'⟩
    · exact ⟨_, after, same, .qualified blank blank' ends⟩
    · exact ⟨_, after, same, .bare blank differs⟩
  · rintro ⟨marker, after, same, isMarker⟩
    cases isMarker with
    | proof blank blank' => exact .inl (.inl ⟨after, _, _, blank, blank', same⟩)
    | qualified blank blank' ends => exact .inl (.inr ⟨after, ⟨_, _, blank, blank', same⟩, ends⟩)
    | bare blank differs => exact .inr ⟨_, after, blank, same, differs⟩

/-- The search comes to every place at which no word is continued. -/
theorem mentionsProofAfter_iff {previous : Option Char} :
    mentionsProofAfter previous text = true ↔
      ∃ before rest, text = before ++ rest ∧ (before.getLast?.or previous).any isWord = false ∧
        startsMarker rest = true := by
  constructor
  · intro found
    induction text generalizing previous with
    | nil => cases found
    | cons c text ih =>
        rw [mentionsProofAfter, Bool.or_eq_true, Bool.and_eq_true] at found
        rcases found with ⟨noWord, starts⟩ | later
        · exact ⟨[], c :: text, rfl, by simpa using noWord, starts⟩
        · obtain ⟨before, rest, rfl, noWord, starts⟩ := ih later
          exact ⟨c :: before, rest, rfl, by rwa [getLast?_cons_or], starts⟩
  · rintro ⟨before, rest, rfl, noWord, starts⟩
    exact mentionsProofAfter_append noWord starts

/-- The pre-check accepts exactly the texts in which a marker stands where no word is continued. -/
theorem mentionsProof_iff (source : Text) :
    mentionsProof source = true ↔
      ∃ before marker after, source = before ++ marker ++ after ∧ endsInWord before = false ∧
        IsMarker marker after := by
  rw [mentionsProof, mentionsProofAfter_iff]
  simp only [Option.or_none, startsMarker_iff]
  constructor
  · rintro ⟨before, _, rfl, noWord, marker, after, rfl, isMarker⟩
    exact ⟨before, marker, after, (List.append_assoc ..).symm, noWord, isMarker⟩
  · rintro ⟨before, marker, after, rfl, noWord, isMarker⟩
    exact ⟨before, marker ++ after, List.append_assoc .., noWord, marker, after, rfl, isMarker⟩

/-- A marker is found behind the beginning of one that breaks off. -/
example : mentionsProof "kani kani :: proof_for_contract" = true := by decide +kernel

end HarnessIndex.Harness
