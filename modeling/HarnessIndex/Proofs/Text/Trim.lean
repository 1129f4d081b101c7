import HarnessIndex.Text.Blank
import Mathlib.Data.List.TakeWhile

/-!
# Laws of trimming

Trimming takes blanks off the ends of a text and nothing else.
-/

namespace HarnessIndex.Text

theorem trimEnd_cons_solid {c : Char} (solid : isBlank c = false) (rest : Text) :
    trimEnd (c :: rest) = c :: trimEnd rest := by
  rw [trimEnd]
  cases trimEnd rest <;> simp [solid]

/-- A character stays in front of what is left of the rest, unless nothing is left and it is a
blank. -/
theorem trimEnd_cons (c : Char) (rest : Text) :
    trimEnd (c :: rest) = c :: trimEnd rest ∨
      isBlank c = true ∧ trimEnd rest = [] ∧ trimEnd (c :: rest) = [] := by
  rw [trimEnd]
  cases trimEnd rest with
  | nil => cases isBlank c <;> simp
  | cons next more => exact Or.inl rfl

/-- Nothing before a character that is no blank is taken off the end. -/
theorem trimEnd_append_solid {c : Char} (solid : isBlank c = false) (front rest : Text) :
    trimEnd (front ++ c :: rest) = front ++ c :: trimEnd rest := by
  induction front with
  | nil => exact trimEnd_cons_solid solid rest
  | cons first front ih =>
      rw [List.cons_append, trimEnd, ih]
      cases front <;> rfl

@[simp] theorem trimEnd_trimEnd (text : Text) : trimEnd (trimEnd text) = trimEnd text := by
  induction text with
  | nil => rfl
  | cons first rest ih =>
      cases solid : isBlank first with
      | false => rw [trimEnd_cons_solid solid, trimEnd_cons_solid solid, ih]
      | true =>
          rw [trimEnd]
          cases kept : trimEnd rest with
          | nil => simp [solid]
          | cons next more =>
              rw [kept] at ih
              simp only
              rw [trimEnd, ih]

theorem trim_cons_solid {c : Char} (solid : isBlank c = false) (rest : Text) :
    trim (c :: rest) = c :: trimEnd rest := by
  rw [trim, trimStart, List.dropWhile_cons_of_neg (by simp [solid]), trimEnd_cons_solid solid]

theorem trim_cons_blank {c : Char} (blank : isBlank c = true) (rest : Text) :
    trim (c :: rest) = trim rest := by
  rw [trim, trimStart, List.dropWhile_cons_of_pos blank, ← trimStart, ← trim]

/-- Trimming takes off what is left when the end has been trimmed. -/
@[simp] theorem trim_trimEnd (text : Text) : trim (trimEnd text) = trim text := by
  induction text with
  | nil => rfl
  | cons first rest ih =>
      cases solid : isBlank first with
      | false => rw [trimEnd_cons_solid solid, trim_cons_solid solid, trim_cons_solid solid,
          trimEnd_trimEnd]
      | true =>
          rw [trim_cons_blank solid, ← ih, trimEnd]
          cases trimEnd rest with
          | nil => simp [solid]
          | cons next more => exact trim_cons_blank solid _

/-- Trimming takes off what is left when the front has been trimmed. -/
theorem trim_trimStart (text : Text) : trim (trimStart text) = trim text := by
  induction text with
  | nil => rfl
  | cons first rest ih =>
      rw [trimStart, List.dropWhile_cons]
      split
      · rename_i blank
        rw [← trimStart, ih, trim_cons_blank blank]
      · rfl

@[simp] theorem trim_trim (text : Text) : trim (trim text) = trim text :=
  (trim_trimEnd (trimStart text)).trans (trim_trimStart text)

theorem trimEnd_concat {c : Char} (solid : isBlank c = false) (text : Text) :
    trimEnd (text ++ [c]) = text ++ [c] := by
  induction text with
  | nil => simp [trimEnd, solid]
  | cons first rest ih =>
      rw [List.cons_append, trimEnd, ih]
      cases rest <;> rfl

theorem exists_trimEnd (text : Text) :
    ∃ blanks, text = trimEnd text ++ blanks ∧ ∀ c ∈ blanks, isBlank c = true := by
  induction text with
  | nil => exact ⟨[], rfl, by simp⟩
  | cons first rest ih =>
      obtain ⟨blanks, split, blank⟩ := ih
      rw [trimEnd]
      cases kept : trimEnd rest with
      | nil =>
          rw [kept, List.nil_append] at split
          cases solid : isBlank first with
          | false => exact ⟨blanks, by simp [split], blank⟩
          | true =>
              exact ⟨first :: blanks, by simp [split], List.forall_mem_cons.mpr ⟨solid, blank⟩⟩
      | cons next more =>
          rw [kept] at split
          exact ⟨blanks, congrArg (first :: ·) split, blank⟩

theorem prefix_trimEnd (text : Text) : trimEnd text <+: text := by
  obtain ⟨blanks, split, -⟩ := exists_trimEnd text
  exact ⟨blanks, split.symm⟩

theorem trimEnd_of_blank {blanks : Text} (blank : ∀ c ∈ blanks, isBlank c = true) :
    trimEnd blanks = [] := by
  induction blanks with
  | nil => rfl
  | cons c blanks ih =>
      obtain ⟨first, others⟩ := List.forall_mem_cons.mp blank
      rw [trimEnd, ih others]
      simp [first]

theorem trimEnd_append_blanks {blanks : Text} (blank : ∀ c ∈ blanks, isBlank c = true)
    (text : Text) : trimEnd (text ++ blanks) = trimEnd text := by
  induction text with
  | nil => exact trimEnd_of_blank blank
  | cons first rest ih =>
      rw [List.cons_append, trimEnd.eq_def, trimEnd.eq_def (first :: rest)]
      simp only [ih]

theorem trim_append_blanks {blanks : Text} (blank : ∀ c ∈ blanks, isBlank c = true) (text : Text) :
    trim (text ++ blanks) = trim text := by
  rw [← trim_trimEnd, trimEnd_append_blanks blank, trim_trimEnd]

theorem trimStart_blanks {blanks : Text} (blank : ∀ c ∈ blanks, isBlank c = true) {c : Char}
    (solid : isBlank c = false) (rest : Text) : trimStart (blanks ++ c :: rest) = c :: rest := by
  rw [trimStart, List.dropWhile_append_of_pos blank, List.dropWhile_cons_of_neg (by simp [solid])]

theorem trimStart_concat {c : Char} (solid : isBlank c = false) (text : Text) :
    trimStart (text ++ [c]) = trimStart text ++ [c] := by
  induction text with
  | nil => exact List.dropWhile_cons_of_neg (by simp [solid])
  | cons first rest ih =>
      cases blank : isBlank first with
      | true =>
          rw [List.cons_append, trimStart, List.dropWhile_cons_of_pos blank, ← trimStart, ih,
            trimStart, trimStart, List.dropWhile_cons_of_pos blank]
      | false =>
          rw [List.cons_append, trimStart, List.dropWhile_cons_of_neg (by simp [blank]), trimStart,
            List.dropWhile_cons_of_neg (by simp [blank]), List.cons_append]

theorem exists_trim (text : Text) :
    ∃ front back, text = front ++ trim text ++ back ∧
      (∀ c ∈ front, isBlank c = true) ∧ ∀ c ∈ back, isBlank c = true := by
  obtain ⟨back, split, blank⟩ := exists_trimEnd (trimStart text)
  refine ⟨text.takeWhile isBlank, back, ?_, ?_, blank⟩
  · rw [List.append_assoc, trim, ← split, trimStart, List.takeWhile_append_dropWhile]
  · intro c member
    exact List.mem_takeWhile_imp member

theorem withoutBlanks_of_blank {blanks : Text} (blank : ∀ c ∈ blanks, isBlank c = true) :
    withoutBlanks blanks = [] :=
  List.filter_eq_nil_iff.mpr fun c member => by simp [blank c member]

/-- Blanks at the end do not count where blanks are left out. -/
@[simp] theorem withoutBlanks_trimEnd (text : Text) :
    withoutBlanks (trimEnd text) = withoutBlanks text := by
  obtain ⟨blanks, split, blank⟩ := exists_trimEnd text
  have whole := congrArg withoutBlanks split
  rw [withoutBlanks_append, withoutBlanks_of_blank blank, List.append_nil] at whole
  exact whole.symm

/-- Blanks at the ends do not count where blanks are left out. -/
@[simp] theorem withoutBlanks_trim (text : Text) : withoutBlanks (trim text) = withoutBlanks text := by
  obtain ⟨front, back, split, blankFront, blankBack⟩ := exists_trim text
  have whole := congrArg withoutBlanks split
  rw [withoutBlanks_append, withoutBlanks_append, withoutBlanks_of_blank blankFront,
    withoutBlanks_of_blank blankBack, List.append_nil, List.nil_append] at whole
  exact whole.symm

/-- A text that is not blank has blanks and then a first character that is none. -/
theorem exists_of_withoutBlanks_ne_nil {text : Text} (some : withoutBlanks text ≠ []) :
    ∃ blanks first rest, text = blanks ++ first :: rest ∧ (∀ c ∈ blanks, isBlank c = true) ∧
      isBlank first = false := by
  induction text with
  | nil => exact absurd rfl some
  | cons c text ih =>
      cases blank : isBlank c with
      | false => exact ⟨[], c, text, rfl, nofun, blank⟩
      | true =>
          rw [withoutBlanks, List.filter_cons_of_neg (by simp [blank])] at some
          obtain ⟨blanks, first, rest, rfl, others, solid⟩ := ih some
          exact ⟨c :: blanks, first, rest, rfl, List.forall_mem_cons.mpr ⟨blank, others⟩, solid⟩

theorem withoutBlanks_withoutBlanks (text : Text) :
    withoutBlanks (withoutBlanks text) = withoutBlanks text := by
  rw [withoutBlanks, withoutBlanks, List.filter_filter]
  simp only [Bool.and_self]

/-- Nothing is left of a text when it has only blanks. -/
theorem isEmpty_trim (text : Text) : (trim text).isEmpty = text.all isBlank := by
  rw [Bool.eq_iff_iff, List.isEmpty_iff, List.all_eq_true]
  constructor
  · intro none
    obtain ⟨front, back, split, blankFront, blankBack⟩ := exists_trim text
    intro c member
    rw [split, none, List.append_nil] at member
    rcases List.mem_append.mp member with early | late
    · exact blankFront c early
    · exact blankBack c late
  · intro blank
    rw [trim, trimStart, List.dropWhile_eq_nil_iff.mpr blank, trimEnd_nil]

/-- A text is not trimmed when neither its first nor its last character is a blank. -/
theorem trim_eq_self {text rest front : Text} {first last : Char} (start : text = first :: rest)
    (solidFirst : isBlank first = false) (finish : text = front ++ [last])
    (solidLast : isBlank last = false) : trim text = text := by
  have kept : trimStart text = text := by
    rw [start]
    exact List.dropWhile_cons_of_neg (by simp [solidFirst])
  rw [trim, kept, finish]
  exact trimEnd_concat solidLast front

/-- A text with no blank at its ends is not trimmed. -/
theorem trim_of_solid_ends {first last : Char} (solidFirst : isBlank first = false)
    (solidLast : isBlank last = false) (inner : Text) :
    trim (first :: inner ++ [last]) = first :: inner ++ [last] :=
  trim_eq_self List.cons_append solidFirst rfl solidLast

theorem trim_eq_nil {text : Text} : trim text = [] ↔ ∀ c ∈ text, isBlank c = true := by
  rw [← List.isEmpty_iff, isEmpty_trim, List.all_eq_true]

theorem trim_blanks_append {blanks : Text} (blank : ∀ c ∈ blanks, isBlank c = true) (text : Text) :
    trim (blanks ++ text) = trim text := by
  rw [trim, trimStart, List.dropWhile_append_of_pos blank, ← trimStart, ← trim]

theorem trimStart_append_of_ne_nil {front : Text} (solid : trim front ≠ []) (back : Text) :
    trimStart (front ++ back) = trimStart front ++ back := by
  have some : front.dropWhile isBlank ≠ [] := by
    intro none
    rw [trim, trimStart, none] at solid
    exact solid rfl
  rw [trimStart, List.dropWhile_append, if_neg (by simpa using some), trimStart]

theorem trimEnd_append_of_ne_nil {back : Text} (solid : trim back ≠ []) (front : Text) :
    trimEnd (front ++ back) = front ++ trimEnd back := by
  have some : trimEnd back ≠ [] := by
    intro none
    rw [← trim_trimEnd, none] at solid
    exact solid rfl
  induction front with
  | nil => rfl
  | cons c front ih =>
      rw [List.cons_append, List.cons_append, trimEnd, ih]
      split
      · rename_i none
        exact absurd (List.append_eq_nil_iff.mp none).2 some
      · rfl

/-- Trimming leaves what stands between two texts that are not blank. -/
theorem trim_between {front back : Text} (solidFront : trim front ≠ []) (solidBack : trim back ≠ [])
    (middle : Text) :
    trim (front ++ middle ++ back) = trimStart front ++ middle ++ trimEnd back := by
  rw [trim, List.append_assoc, trimStart_append_of_ne_nil solidFront, ← List.append_assoc,
    trimEnd_append_of_ne_nil solidBack]

end HarnessIndex.Text
