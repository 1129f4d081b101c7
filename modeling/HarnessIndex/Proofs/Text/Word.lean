import HarnessIndex.Attribute.Condition
import HarnessIndex.Text.Blank
import HarnessIndex.Text.Word

/-!
# Where words end

No blank belongs to a word, so a word ends where blanks begin, and none is continued after them.
Every decimal digit belongs to a word.
-/

namespace HarnessIndex.Text

def endsInWord (text : Text) : Bool :=
  text.getLast?.any isWord

@[simp] theorem endsInWord_nil : endsInWord [] = false := rfl

@[simp] theorem endsInWord_concat (text : Text) (c : Char) :
    endsInWord (text ++ [c]) = isWord c := by
  rw [endsInWord, List.getLast?_concat, Option.any_some]

/-- The codes of the blanks outside ASCII. -/
def wideBlanks : List Nat :=
  [0x85, 0xa0, 0x1680, 0x2028, 0x2029, 0x202f, 0x205f, 0x3000] ++ List.range' 0x2000 11

theorem mem_wideBlanks {c : Char} (blank : isBlank c = true) (wide : 0x80 ≤ c.toNat) :
    c.toNat ∈ wideBlanks := by
  simp only [isBlank, Bool.or_eq_true, Bool.and_eq_true, decide_eq_true_iff] at blank
  simp only [wideBlanks, List.mem_append, List.mem_cons, List.mem_range'_1, List.not_mem_nil]
  omega

theorem isWord_of_isBlank {c : Char} (blank : isBlank c = true) : isWord c = false := by
  rw [isWord]
  split
  · rename_i ascii
    have notLine : c ≠ '_' := by
      rintro rfl
      exact absurd blank (by decide)
    simp only [isBlank, Bool.or_eq_true, Bool.and_eq_true, decide_eq_true_iff] at blank
    rw [decide_eq_false notLine, Bool.or_false, Bool.or_eq_false_iff]
    constructor
    · rw [isAsciiLetter, Bool.eq_false_iff]
      simp only [ne_eq, Bool.or_eq_true, Bool.and_eq_true, decide_eq_true_iff]
      omega
    · rw [isAsciiDigit, Bool.eq_false_iff]
      simp only [ne_eq, Bool.and_eq_true, decide_eq_true_iff]
      omega
  · rename_i wide
    have apart : ∀ code ∈ wideBlanks, inRanges alphanumericRanges code = false := by
      decide +kernel
    exact apart c.toNat (mem_wideBlanks blank (Nat.le_of_not_lt wide))

theorem isBlank_of_isWord {c : Char} (word : isWord c = true) : isBlank c = false := by
  rw [Bool.eq_false_iff]
  intro blank
  rw [isWord_of_isBlank blank] at word
  cases word

/-- Every decimal digit belongs to a word, in whatever script it is. -/
theorem isWord_of_isDecimal {c : Char} (decimal : isDecimal c = true) : isWord c = true := by
  rw [isDecimal] at decimal
  rw [isWord]
  split at decimal
  · rename_i ascii
    rw [if_pos ascii, decimal, Bool.or_true, Bool.true_or]
  · rename_i wide
    have covered : ∀ range ∈ decimalRanges, ∃ wider ∈ alphanumericRanges,
        wider.1 ≤ range.1 ∧ range.2 ≤ wider.2 := by
      decide +kernel
    obtain ⟨range, member, inside⟩ := List.any_eq_true.mp decimal
    obtain ⟨wider, known, low, high⟩ := covered range member
    rw [Bool.and_eq_true, decide_eq_true_iff, decide_eq_true_iff] at inside
    rw [if_neg wide, inRanges, List.any_eq_true]
    refine ⟨wider, known, ?_⟩
    rw [Bool.and_eq_true, decide_eq_true_iff, decide_eq_true_iff]
    exact ⟨Nat.le_trans low inside.1, Nat.le_trans inside.2 high⟩

theorem endsInWord_append_blanks {text blanks : Text} (noWord : endsInWord text = false)
    (blank : ∀ c ∈ blanks, isBlank c = true) : endsInWord (text ++ blanks) = false := by
  rcases List.eq_nil_or_concat blanks with rfl | ⟨front, c, rfl⟩
  · rw [List.append_nil]
    exact noWord
  · rw [List.concat_eq_append, ← List.append_assoc, endsInWord_concat]
    exact isWord_of_isBlank (blank c (by simp))

theorem endsWord_append_blanks {blanks after : Text} (blank : ∀ c ∈ blanks, isBlank c = true)
    (ends : Attribute.endsWord after = true) : Attribute.endsWord (blanks ++ after) = true := by
  cases blanks with
  | nil => exact ends
  | cons c blanks =>
      rw [List.cons_append, Attribute.endsWord, isWord_of_isBlank (blank c List.mem_cons_self)]
      rfl

end HarnessIndex.Text
