import HarnessIndex.Proofs.Text.Part
import HarnessIndex.Report.Emoji

/-!
# Texts without codes of emoji

Signs are put only for codes whose names a terminal knows. A text in which no such code stands is
shown as it is, whatever else stands between its colons, and so is every part of it.
-/

namespace HarnessIndex.Emoji

open Text

/-- What may follow the name of a code to select a variant. -/
def variants : List Text :=
  [[], "-emoji", "-text"]

/-- The code of a sign stands somewhere in a text: a known name without blanks between two colons,
perhaps with a variant. -/
def HasSign (sign? : Text → Option Text) (text : Text) : Prop :=
  ∃ name variant, ':' :: (name ++ (variant ++ [':'])) <:+: text ∧ variant ∈ variants ∧
    (∀ c ∈ name, isBlank c = false) ∧ sign? name ≠ none

variable {sign? : Text → Option Text} {text : Text}

theorem HasSign.of_infix {part : Text} (has : HasSign sign? part) (within : part <:+: text) :
    HasSign sign? text := by
  obtain ⟨name, variant, stands, known⟩ := has
  exact ⟨name, variant, stands.trans within, known⟩

theorem not_hasSign_of_no_colon (plain : ':' ∉ text) : ¬ HasSign sign? text := by
  rintro ⟨name, variant, stands, -⟩
  exact plain (stands.subset List.mem_cons_self)

theorem hasSign_append_blank {front back : Text} (has : HasSign sign? (front ++ ' ' :: back)) :
    HasSign sign? front ∨ HasSign sign? back := by
  obtain ⟨name, variant, stands, varies, solid, known⟩ := has
  have blank : ' ' ∉ ':' :: (name ++ (variant ++ [':'])) := by
    have named : ' ' ∉ name := fun member => absurd (solid ' ' member) (by decide)
    have varied : ' ' ∉ variant := (by decide : ∀ variant ∈ variants, ' ' ∉ variant) _ varies
    simp [named, varied]
  obtain stands | stands := infix_or_infix_of_notMem blank stands
  · exact .inl ⟨name, variant, stands, varies, solid, known⟩
  · exact .inr ⟨name, variant, stands, varies, solid, known⟩

theorem hasSign_concat {c : Char} (other : c ≠ ':') (has : HasSign sign? (text ++ [c])) :
    HasSign sign? text := by
  obtain ⟨name, variant, stands, known⟩ := has
  obtain ⟨front, same⟩ | stands := List.infix_concat_iff.mp stands
  · have same : (front ++ ':' :: (name ++ variant)) ++ [':'] = text ++ [c] := by simpa using same
    obtain ⟨-, last⟩ := List.append_inj' same rfl
    exact absurd (List.singleton_inj.mp last).symm other
  · exact ⟨name, variant, stands, known⟩

theorem hasSign_join {texts : List Text} (has : HasSign sign? (join " " texts)) :
    ∃ text ∈ texts, HasSign sign? text := by
  induction texts with
  | nil => exact absurd has (not_hasSign_of_no_colon List.not_mem_nil)
  | cons text rest ih =>
      rcases rest with _ | ⟨next, rest⟩
      · exact ⟨text, List.mem_cons_self, has⟩
      · rw [join_cons_cons, List.append_assoc] at has
        obtain has | has := hasSign_append_blank has
        · exact ⟨text, List.mem_cons_self, has⟩
        · obtain ⟨part, member, has⟩ := ih has
          exact ⟨part, List.mem_cons_of_mem _ member, has⟩

/-- The parts of a code: its name goes on with what has been read. -/
theorem codeFrom?_eq_some {read : Text} {code : Code} (found : codeFrom? read text = some code) :
    ∃ name variant back, text = name ++ (variant ++ ':' :: back) ∧ code.name = read ++ name ∧
      variant ∈ variants ∧ ∀ c ∈ name, isBlank c = false := by
  induction text generalizing read with
  | nil => cases found
  | cons c rest ih =>
      rw [codeFrom?] at found
      split at found
      case isTrue colon =>
        cases found
        exact ⟨[], [], rest, by rw [colon]; rfl, (List.append_nil _).symm, by decide, nofun⟩
      case isFalse =>
        split at found
        case isTrue starts =>
          cases found
          obtain ⟨back, same⟩ := startsWith_iff.mp starts
          exact ⟨[], "-emoji", back, same, (List.append_nil _).symm, by decide, nofun⟩
        case isFalse =>
          split at found
          case isTrue starts =>
            cases found
            obtain ⟨back, same⟩ := startsWith_iff.mp starts
            exact ⟨[], "-text", back, same, (List.append_nil _).symm, by decide, nofun⟩
          case isFalse =>
            split at found
            case isTrue => cases found
            case isFalse solid =>
              obtain ⟨name, variant, back, rfl, named, varies, solids⟩ := ih found
              refine ⟨c :: name, variant, back, rfl, by rw [named]; simp, varies, ?_⟩
              exact List.forall_mem_cons.mpr ⟨by simpa using solid, solids⟩

theorem replaceFrom_skipped (count : Nat) (text : Text) :
    replaceFrom sign? count text = replaceFrom sign? 0 (text.drop count) := by
  induction text generalizing count with
  | nil => rw [List.drop_nil]; rfl
  | cons c rest ih =>
      cases count with
      | zero => rfl
      | succ count => rw [replaceFrom, ih, List.drop_succ_cons]

/-- A text without the code of a sign is shown as it is. -/
theorem replace_eq_self (none : ¬ HasSign sign? text) : replace sign? text = text := by
  -- a code is passed over as a whole, so the induction is on the length
  induction length : text.length using Nat.strongRecOn generalizing text with
  | ind size ih =>
    subst length
    rcases text with _ | ⟨c, rest⟩
    · rfl
    · have later (count : Nat) : replaceFrom sign? count rest = rest.drop count := by
        rw [replaceFrom_skipped]
        refine ih _ (by rw [List.length_drop, List.length_cons]; omega) (fun has => none ?_) rfl
        exact has.of_infix ((List.drop_suffix count rest).trans (List.suffix_cons c rest)).isInfix
      rw [replace, replaceFrom]
      split
      case h_1 code found =>
        have colon : c = ':' := by
          by_contra other
          rw [if_neg other] at found
          cases found
        rw [if_pos colon] at found
        obtain ⟨name, variant, back, same, named, varies, solid⟩ := codeFrom?_eq_some found
        have unknown : sign? code.name = .none := by
          by_contra known
          rw [named, List.nil_append] at known
          have stands : ':' :: (name ++ (variant ++ [':'])) <+: c :: rest :=
            ⟨back, by rw [colon, same]; simp⟩
          exact none ⟨name, variant, stands.isInfix, varies, solid, known⟩
        rw [shown, unknown, later, List.cons_append, List.take_append_drop]
      case h_2 => rw [later, List.drop_zero]

end HarnessIndex.Emoji
