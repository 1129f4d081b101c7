import HarnessIndex.Text.Blank
import Mathlib.Data.List.Basic
import Mathlib.Data.List.Infix

/-!
# Parts of texts

What follows the front of a text, and where a text occurs in another one.
-/

namespace HarnessIndex.Text

@[simp] theorem after?_append (word text : Text) : after? word (word ++ text) = some text := by
  induction word with
  | nil => rfl
  | cons c word ih => rw [List.cons_append, after?, if_pos rfl, ih]

theorem after?_eq_some {word text rest : Text} :
    after? word text = some rest ↔ text = word ++ rest := by
  constructor
  · intro passed
    induction word generalizing text with
    | nil => exact Option.some.inj passed
    | cons expected word ih =>
        cases text with
        | nil => simp [after?] at passed
        | cons c text =>
            rw [after?] at passed
            split at passed
            · rename_i same
              rw [same, ih passed, List.cons_append]
            · simp at passed
  · rintro rfl
    exact after?_append word rest

theorem startsWith_iff {start text : Text} :
    startsWith start text = true ↔ ∃ rest, text = start ++ rest := by
  rw [startsWith, List.isPrefixOf_iff_prefix]
  constructor
  · rintro ⟨rest, same⟩
    exact ⟨rest, same.symm⟩
  · rintro ⟨rest, same⟩
    exact ⟨rest, same.symm⟩

/-- A text occurs where it stands between a front and a back. -/
theorem occursIn_iff {part text : Text} :
    occursIn part text = true ↔ ∃ front back, text = front ++ part ++ back := by
  induction text with
  | nil => simp [occursIn]
  | cons c rest ih =>
      rw [occursIn, Bool.or_eq_true, startsWith_iff, ih]
      constructor
      · rintro (⟨back, same⟩ | ⟨front, back, same⟩)
        · exact ⟨[], back, same⟩
        · exact ⟨c :: front, back, congrArg (c :: ·) same⟩
      · rintro ⟨front, back, same⟩
        cases front with
        | nil => exact .inl ⟨back, same⟩
        | cons first front =>
            obtain ⟨-, same⟩ := List.cons.inj same
            exact .inr ⟨front, back, same⟩

/-- A text without a character stands on one side of it. -/
theorem infix_or_infix_of_notMem {c : Char} {part front back : Text} (plain : c ∉ part)
    (within : part <:+: front ++ c :: back) : part <:+: front ∨ part <:+: back := by
  obtain ⟨before, behind, same⟩ := within
  obtain ⟨rest, rfl, -⟩ | ⟨rest, split, ends⟩ := List.append_eq_append_iff.mp same
  · exact .inl ⟨before, rest, rfl⟩
  · rcases rest with _ | ⟨d, rest⟩
    · exact .inl ⟨before, [], by rw [split, List.append_nil, List.append_nil]⟩
    · obtain ⟨rfl, rfl⟩ := List.cons.inj ends
      obtain ⟨more, -, split⟩ | ⟨more, -, split⟩ := List.append_eq_append_iff.mp split
      · exact absurd (split ▸ List.mem_append_right _ List.mem_cons_self) plain
      · rcases more with _ | ⟨d, more⟩
        · rw [List.nil_append] at split
          exact absurd (split ▸ List.mem_cons_self) plain
        · obtain ⟨-, rfl⟩ := List.cons.inj split
          exact .inr ⟨more, behind, rfl⟩

end HarnessIndex.Text
