import HarnessIndex.Proofs.Text.Part
import HarnessIndex.Proofs.Text.Word
import HarnessIndex.Replay.Name
import Mathlib.Data.List.TakeWhile

/-!
# Reading generated names

The name of a harness may itself end in a low line and a number, so the name of a generated test can
often be read in more than one way. Of these readings the one with the shortest harness counts. A
number has no low line in it, so it can only stand behind the last one: the reading that counts
gives back the harness and the number that the name was made of.
-/

namespace HarnessIndex.Replay

open Text

/-- A text of word characters, at least one. -/
structure IsWordText (text : Text) : Prop where
  nonempty : text ≠ []
  word : ∀ c ∈ text, isWord c = true

/-- A text of decimal digits, at least one. -/
structure IsNumber (text : Text) : Prop where
  nonempty : text ≠ []
  decimal : ∀ c ∈ text, isDecimal c = true

/-- A text ends in a low line and a number, and something stands in front of them. -/
def EndsInNumber (text : Text) : Prop :=
  ∃ front digits, front ≠ [] ∧ IsNumber digits ∧ text = front ++ '_' :: digits

/-- What can stand behind the harness in a generated name: nothing, or a low line and a number. -/
inductive IsEnding : Option Text → Text → Prop where
  | none : IsEnding none []
  | number {digits : Text} : IsNumber digits → IsEnding (some digits) ('_' :: digits)

/-- One way to read a text as a generated name. A line feed at the end does not belong to the
name. -/
structure GeneratedName.Reads (generated : GeneratedName) (text : Text) : Prop where
  harness : IsWordText generated.harness
  name : ∃ ending, IsEnding generated.id ending ∧
    generated.name = start ++ (generated.harness ++ ending)
  whole : text = generated.name ∨ text = generated.name ++ ['\n']

/-- The reading of a text that counts: there is none with a shorter harness. -/
structure GeneratedName.IsReadOff (generated : GeneratedName) (text : Text) : Prop where
  reads : generated.Reads text
  shortest : ∀ other : GeneratedName, other.Reads text →
    generated.harness.length ≤ other.harness.length

variable {text front digits encoded harness : Text}

theorem IsNumber.isWord (number : IsNumber digits) : ∀ c ∈ digits, isWord c = true :=
  fun c member => isWord_of_isDecimal (number.decimal c member)

theorem IsWordText.of_append {back : Text} (word : IsWordText (front ++ back))
    (nonempty : front ≠ []) : IsWordText front :=
  ⟨nonempty, fun c member => word.word c (List.mem_append_left back member)⟩

theorem IsEnding.unique {id id' : Option Text} {ending : Text} (known : IsEnding id ending)
    (known' : IsEnding id' ending) : id = id' := by
  cases known with
  | none => cases known'; rfl
  | number _ => cases known'; rfl

theorem IsWordText.append_ending {id : Option Text} {ending : Text} (word : IsWordText harness)
    (known : IsEnding id ending) : IsWordText (harness ++ ending) where
  nonempty := List.append_ne_nil_of_left_ne_nil word.nonempty ending
  word := by
    intro c member
    rcases List.mem_append.mp member with inside | behind
    · exact word.word c inside
    · cases known with
      | none => exact absurd behind List.not_mem_nil
      | number number =>
          rcases List.mem_cons.mp behind with rfl | digit
          · decide
          · exact number.isWord c digit

/-! ## The number at the end -/

theorem finalDigits_append_of_number (number : IsNumber digits) :
    finalDigits (front ++ '_' :: digits) = digits := by
  have all : ∀ c ∈ digits.reverse, isDecimal c = true :=
    fun c member => number.decimal c (List.mem_reverse.mp member)
  rw [finalDigits, List.reverse_append, List.reverse_cons, List.append_assoc,
    List.takeWhile_append_of_pos all, List.singleton_append, List.takeWhile_cons_of_neg (by decide),
    List.append_nil, List.reverse_reverse]

/-- The decimal digits at the end of a text are what is behind the rest of it. -/
theorem exists_front_finalDigits (text : Text) :
    ∃ front, text = front ++ finalDigits text ∧ ∀ c ∈ finalDigits text, isDecimal c = true := by
  refine ⟨(text.reverse.dropWhile isDecimal).reverse, ?_, ?_⟩
  · rw [finalDigits, ← List.reverse_append, List.takeWhile_append_dropWhile, List.reverse_reverse]
  · intro c member
    exact List.mem_takeWhile_imp (List.mem_reverse.mp member)

theorem splitNumber?_of_front (whole : text = front ++ digits) (final : finalDigits text = digits) :
    splitNumber? text =
      if digits.isEmpty || front.getLast? ≠ some '_' || front.length ≤ 1 then none
      else some (front.dropLast, digits) := by
  have cut : text.take (text.length - digits.length) = front := by
    rw [whole, List.length_append, Nat.add_sub_cancel, List.take_left]
  rw [splitNumber?, final, cut]

/-- A number is split off exactly where a text has one behind its last low line. -/
theorem splitNumber?_eq_some :
    splitNumber? text = some (harness, digits) ↔
      text = harness ++ '_' :: digits ∧ harness ≠ [] ∧ IsNumber digits := by
  constructor
  · intro split
    obtain ⟨front, whole, decimal⟩ := exists_front_finalDigits text
    rw [splitNumber?_of_front whole rfl, Option.ite_none_left_eq_some] at split
    obtain ⟨allowed, same⟩ := split
    obtain ⟨rfl, rfl⟩ := Prod.mk.inj (Option.some.inj same)
    simp only [Bool.or_eq_true, List.isEmpty_iff, decide_eq_true_iff, not_or, Decidable.not_not,
      Nat.not_le] at allowed
    obtain ⟨⟨some, last⟩, long⟩ := allowed
    obtain ⟨harness, rfl⟩ := List.getLast?_eq_some_iff.mp last
    rw [List.dropLast_concat]
    refine ⟨?_, ?_, some, decimal⟩
    · exact whole.trans (List.append_assoc ..)
    · rintro rfl
      exact absurd long (Nat.lt_irrefl 1)
  · rintro ⟨rfl, nonempty, number⟩
    have whole : harness ++ '_' :: digits = (harness ++ ['_']) ++ digits := by
      rw [List.append_assoc, List.singleton_append]
    have long : 0 < harness.length := List.length_pos_of_ne_nil nonempty
    rw [splitNumber?_of_front whole (finalDigits_append_of_number number), List.getLast?_concat,
      List.dropLast_concat]
    simp [number.nonempty, nonempty]

theorem splitNumber?_eq_none : splitNumber? text = none ↔ ¬EndsInNumber text := by
  rw [Option.eq_none_iff_forall_ne_some]
  constructor
  · rintro none ⟨harness, digits, nonempty, number, whole⟩
    exact none (harness, digits) (splitNumber?_eq_some.mpr ⟨whole, nonempty, number⟩)
  · rintro noNumber ⟨harness, digits⟩ split
    obtain ⟨whole, nonempty, number⟩ := splitNumber?_eq_some.mp split
    exact noNumber ⟨harness, digits, nonempty, number, whole⟩

/-! ## The name in front of a line feed -/

/-- A text is what all generated names begin with and a word, perhaps with a line feed at the
end. -/
structure Encodes (encoded text : Text) : Prop where
  word : IsWordText encoded
  whole : text = start ++ encoded ∨ text = start ++ encoded ++ ['\n']

theorem IsWordText.newline_notMem (word : IsWordText encoded) : '\n' ∉ start ++ encoded := by
  intro member
  rcases List.mem_append.mp member with inStart | inside
  · exact absurd inStart (by decide)
  · exact absurd (word.word _ inside) (by decide)

theorem withoutFinalNewline_cases (text : Text) :
    text = withoutFinalNewline text ∨ text = withoutFinalNewline text ++ ['\n'] := by
  rw [withoutFinalNewline]
  split
  · rename_i newline
    obtain ⟨front, rfl⟩ := List.getLast?_eq_some_iff.mp newline
    exact Or.inr (by rw [List.dropLast_concat])
  · exact Or.inl rfl

theorem Encodes.withoutFinalNewline_eq (encodes : Encodes encoded text) :
    withoutFinalNewline text = start ++ encoded := by
  rcases encodes.whole with rfl | rfl
  · refine if_neg ?_
    intro newline
    exact encodes.word.newline_notMem (List.mem_of_getLast? newline)
  · rw [withoutFinalNewline, List.getLast?_concat, if_pos rfl, List.dropLast_concat]

theorem Encodes.unique {other : Text} (encodes : Encodes encoded text)
    (encodes' : Encodes other text) : encoded = other :=
  List.append_cancel_left (encodes.withoutFinalNewline_eq.symm.trans encodes'.withoutFinalNewline_eq)

theorem GeneratedName.Reads.exists_encodes {generated : GeneratedName}
    (reads : generated.Reads text) :
    ∃ ending, IsEnding generated.id ending ∧
      generated.name = start ++ (generated.harness ++ ending) ∧
      Encodes (generated.harness ++ ending) text := by
  obtain ⟨ending, known, name⟩ := reads.name
  exact ⟨ending, known, name, reads.harness.append_ending known, name ▸ reads.whole⟩

/-! ## The reading that counts -/

namespace GeneratedName

variable {generated : GeneratedName}

theorem ofText?_of_encodes (encodes : Encodes encoded text) :
    ofText? text =
      match splitNumber? encoded with
      | some (harness, digits) => some ⟨start ++ encoded, harness, some digits⟩
      | none => some ⟨start ++ encoded, encoded, none⟩ := by
  have word : (encoded.isEmpty || !encoded.all isWord) = false := by
    rw [Bool.or_eq_false_iff, Bool.not_eq_false', List.all_eq_true, List.isEmpty_eq_false_iff]
    exact ⟨encodes.word.nonempty, encodes.word.word⟩
  rw [ofText?, encodes.withoutFinalNewline_eq, after?_append]
  exact if_neg (Bool.eq_false_iff.mp word)

theorem exists_encodes_of_ofText? (read : ofText? text = some generated) :
    ∃ encoded, Encodes encoded text := by
  obtain ⟨encoded, begins, read⟩ := Option.bind_eq_some_iff.mp read
  rw [Option.ite_none_left_eq_some, Bool.or_eq_true, Bool.not_eq_true', not_or,
    Bool.not_eq_false, List.all_eq_true, List.isEmpty_iff] at read
  refine ⟨encoded, ⟨read.1.1, read.1.2⟩, ?_⟩
  rw [← after?_eq_some.mp begins]
  exact withoutFinalNewline_cases text

theorem ofText?_of_number (encodes : Encodes (harness ++ '_' :: digits) text)
    (nonempty : harness ≠ []) (number : IsNumber digits) :
    ofText? text = some ⟨start ++ (harness ++ '_' :: digits), harness, some digits⟩ := by
  rw [ofText?_of_encodes encodes, splitNumber?_eq_some.mpr ⟨rfl, nonempty, number⟩]

theorem ofText?_of_bare (encodes : Encodes encoded text) (bare : ¬EndsInNumber encoded) :
    ofText? text = some ⟨start ++ encoded, encoded, none⟩ := by
  rw [ofText?_of_encodes encodes, splitNumber?_eq_none.mpr bare]

/-- A number at the end is read off: two numbers would both stand behind the last low line. -/
theorem isReadOff_of_number (encodes : Encodes (harness ++ '_' :: digits) text)
    (nonempty : harness ≠ []) (number : IsNumber digits) :
    IsReadOff ⟨start ++ (harness ++ '_' :: digits), harness, some digits⟩ text := by
  have word := encodes.word.of_append nonempty
  refine ⟨⟨word, ⟨_, .number number, rfl⟩, encodes.whole⟩, ?_⟩
  rintro ⟨_, other, id⟩ reads
  obtain ⟨ending, known, -, encodes'⟩ := reads.exists_encodes
  have same := encodes.unique encodes'
  cases known with
  | none =>
      rw [List.append_nil] at same
      rw [← same, List.length_append]
      exact Nat.le_add_right _ _
  | number number' =>
      have split := splitNumber?_eq_some.mpr ⟨same, reads.harness.nonempty, number'⟩
      rw [splitNumber?_eq_some.mpr ⟨rfl, nonempty, number⟩] at split
      exact Nat.le_of_eq (congrArg List.length (Prod.mk.inj (Option.some.inj split)).1)

/-- A text that does not end in a number is read in one way only. -/
theorem isReadOff_of_bare (encodes : Encodes encoded text) (bare : ¬EndsInNumber encoded) :
    IsReadOff ⟨start ++ encoded, encoded, none⟩ text := by
  refine ⟨⟨encodes.word, ⟨[], .none, (List.append_nil encoded).symm ▸ rfl⟩, encodes.whole⟩, ?_⟩
  rintro ⟨_, other, id⟩ reads
  obtain ⟨ending, known, -, encodes'⟩ := reads.exists_encodes
  have same := encodes.unique encodes'
  cases known with
  | none =>
      rw [List.append_nil] at same
      exact Nat.le_of_eq (congrArg List.length same)
  | number number' => exact absurd ⟨other, _, reads.harness.nonempty, number', same⟩ bare

theorem isReadOff_of_ofText? (read : ofText? text = some generated) : generated.IsReadOff text := by
  obtain ⟨encoded, encodes⟩ := exists_encodes_of_ofText? read
  by_cases numbered : EndsInNumber encoded
  · obtain ⟨harness, digits, nonempty, number, rfl⟩ := numbered
    obtain rfl := Option.some.inj (read.symm.trans (ofText?_of_number encodes nonempty number))
    exact isReadOff_of_number encodes nonempty number
  · obtain rfl := Option.some.inj (read.symm.trans (ofText?_of_bare encodes numbered))
    exact isReadOff_of_bare encodes numbered

/-- Two readings of a text with harnesses of one length are the same. -/
theorem Reads.eq_of_length_eq {other : GeneratedName} (reads : generated.Reads text)
    (reads' : other.Reads text) (same : generated.harness.length = other.harness.length) :
    generated = other := by
  obtain ⟨ending, known, name, encodes⟩ := reads.exists_encodes
  obtain ⟨ending', known', name', encodes'⟩ := reads'.exists_encodes
  obtain ⟨_, harness, id⟩ := generated
  obtain ⟨_, harness', id'⟩ := other
  obtain ⟨rfl, rfl⟩ := List.append_inj (encodes.unique encodes') same
  rw [GeneratedName.mk.injEq]
  exact ⟨name.trans name'.symm, rfl, known.unique known'⟩

/-- Reading a name finds the reading that counts. -/
theorem ofText?_eq_some : ofText? text = some generated ↔ generated.IsReadOff text := by
  refine ⟨isReadOff_of_ofText?, ?_⟩
  rintro ⟨reads, shortest⟩
  obtain ⟨ending, -, -, encodes⟩ := reads.exists_encodes
  obtain ⟨found, read⟩ : ∃ found, ofText? text = some found := by
    rw [ofText?_of_encodes encodes]
    split <;> exact ⟨_, rfl⟩
  obtain ⟨reads', shortest'⟩ := isReadOff_of_ofText? read
  rw [read, reads'.eq_of_length_eq reads (Nat.le_antisymm (shortest' _ reads) (shortest _ reads'))]

end GeneratedName

/-- What a generated name is made of is read off it again: the harness and the number, and the harness
alone when it does not end in a number itself. Nothing else is read, and of all ways to read a name
the one with the shortest harness counts. -/
theorem ofText?_written :
    (∀ harness digits, IsWordText harness → IsNumber digits →
      GeneratedName.ofText? (start ++ (harness ++ '_' :: digits)) =
        some ⟨start ++ (harness ++ '_' :: digits), harness, some digits⟩) ∧
    (∀ harness, IsWordText harness → ¬EndsInNumber harness →
      GeneratedName.ofText? (start ++ harness) = some ⟨start ++ harness, harness, none⟩) ∧
    (∀ name generated, '\n' ∉ name → GeneratedName.ofText? name = some generated →
      (∃ harness digits, IsWordText harness ∧ IsNumber digits ∧
        name = start ++ (harness ++ '_' :: digits)) ∨
      ∃ harness, IsWordText harness ∧ ¬EndsInNumber harness ∧ name = start ++ harness) ∧
    ∀ name generated, GeneratedName.ofText? name = some generated ↔
      generated.IsReadOff name := by
  refine ⟨?_, ?_, ?_, fun _ _ => GeneratedName.ofText?_eq_some⟩
  · intro harness digits word number
    exact GeneratedName.ofText?_of_number ⟨word.append_ending (.number number), Or.inl rfl⟩
      word.nonempty number
  · intro harness word bare
    exact GeneratedName.ofText?_of_bare ⟨word, Or.inl rfl⟩ bare
  · intro name generated oneLine read
    obtain ⟨encoded, word, rfl | rfl⟩ := GeneratedName.exists_encodes_of_ofText? read
    · by_cases numbered : EndsInNumber encoded
      · obtain ⟨harness, digits, nonempty, number, rfl⟩ := numbered
        exact Or.inl ⟨harness, digits, word.of_append nonempty, number, rfl⟩
      · exact Or.inr ⟨encoded, word, numbered, rfl⟩
    · exact absurd (List.mem_append_right _ List.mem_cons_self) oneLine

theorem ofText?_written_ambiguous :
    IsWordText "f_1_2" ∧ IsNumber "42" ∧ ¬EndsInNumber "_7" ∧
      GeneratedName.ofText? "kani_concrete_playback_f_1_2_42" =
        some ⟨"kani_concrete_playback_f_1_2_42", "f_1_2", some "42"⟩ ∧
      GeneratedName.ofText? "kani_concrete_playback__7" =
        some ⟨"kani_concrete_playback__7", "_7", none⟩ := by
  have word : IsWordText "f_1_2" := ⟨by decide, List.all_eq_true.mp (by decide)⟩
  have number : IsNumber "42" := ⟨by decide, List.all_eq_true.mp (by decide)⟩
  have bare : ¬EndsInNumber "_7" := splitNumber?_eq_none.mp (by decide)
  obtain ⟨numbered, plain, -⟩ := ofText?_written
  exact ⟨word, number, bare, numbered "f_1_2" "42" word number,
    plain "_7" ⟨by decide, List.all_eq_true.mp (by decide)⟩ bare⟩

end HarnessIndex.Replay
