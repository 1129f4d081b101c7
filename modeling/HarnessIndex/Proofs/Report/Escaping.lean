import HarnessIndex.Proofs.Report.Tags

/-!
# Escaped texts

Escaping goes through a text from left to right and doubles the backslashes in front of a tag, with
one more, so that their number is odd. An escaped text has no tags by itself. What stands in front
of it and behind it meets it as if it had not been escaped: it closes a tag that is open in front of
it if the text does, and it leaves a tag open if the text does.
-/

namespace HarnessIndex.Markup

open Text

/-- A text and the escaped one, when a number of backslashes has been read in front of it. -/
inductive Escaping : Nat → Text → Text → Prop where
  | nil (slashes : Nat) : Escaping slashes [] (List.replicate slashes backslash)
  | slash {slashes : Nat} {rest escaped : Text} :
      Escaping (slashes + 1) rest escaped → Escaping slashes (backslash :: rest) escaped
  | tag {slashes : Nat} {inside rest escaped : Text} :
      IsInside inside → Escaping 0 rest escaped →
      Escaping slashes ('[' :: (inside ++ ']' :: rest))
        (List.replicate (2 * slashes + 1) backslash ++ '[' :: (inside ++ ']' :: escaped))
  | plain {slashes : Nat} {c : Char} {rest escaped : Text} :
      c ≠ backslash → (c = '[' → tagLength? rest = none) → Escaping 0 rest escaped →
      Escaping slashes (c :: rest) (List.replicate slashes backslash ++ c :: escaped)

theorem escapeFrom_copied (front back : Text) :
    escapeFrom 0 front.length (front ++ back) = front ++ escapeFrom 0 0 back := by
  induction front with
  | nil => rfl
  | cons c front ih =>
      rw [List.cons_append, List.length_cons, escapeFrom, ih, List.cons_append]

theorem escaping_escapeFrom (slashes : Nat) (text : Text) :
    Escaping slashes text (escapeFrom slashes 0 text) := by
  -- a tag is copied as a whole, so the induction is on the length
  induction length : text.length using Nat.strong_induction_on generalizing slashes text with
  | _ size ih =>
    subst length
    rcases text with _ | ⟨c, rest⟩
    · exact .nil slashes
    · have later (slashes : Nat) : Escaping slashes rest (escapeFrom slashes 0 rest) :=
        ih _ (by rw [List.length_cons]; omega) _ _ rfl
      rw [escapeFrom]
      split
      case isTrue slash =>
        subst slash
        exact .slash (later _)
      case isFalse slash =>
        split
        case isTrue opens =>
          subst opens
          split
          case h_1 _ found =>
            obtain ⟨inside, back, rfl, isInside, rfl⟩ := tagLength?_eq_some.mp found
            have behind : back.length < ('[' :: (inside ++ ']' :: back)).length := by
              simp only [List.length_cons, List.length_append]
              omega
            have copied := escapeFrom_copied (inside ++ [']']) back
            rw [List.length_append, List.append_assoc, List.append_assoc] at copied
            rw [show inside.length + 1 = inside.length + [']'].length from rfl]
            exact copied ▸ .tag isInside (ih _ behind _ _ rfl)
          case h_2 loose => exact .plain slash (fun _ => loose) (later 0)
        case isFalse opens => exact .plain slash (fun same => absurd same opens) (later 0)

theorem noBracket_replicate (count : Nat) : NoBracket (List.replicate count backslash) := by
  constructor <;> · rw [List.mem_replicate]; rintro ⟨-, same⟩; exact absurd same (by decide)

open Reading

theorem replicate_succ_append (count : Nat) (text : Text) :
    List.replicate (count + 1) backslash ++ text =
      List.replicate count backslash ++ backslash :: text := by
  rw [List.replicate_succ', List.append_assoc, List.singleton_append]

theorem tagsFrom_slashes (count slashes : Nat) (text : Text) :
    tagsFrom ⟨slashes, none⟩ (List.replicate count backslash ++ text) =
      tagsFrom ⟨slashes + count, none⟩ text := by
  induction count generalizing slashes with
  | zero => rfl
  | succ count ih =>
      rw [List.replicate_succ, List.cons_append, tagsFrom, closed?_start, next_backslash,
        show slashes + (count + 1) = slashes + 1 + count by omega]
      exact ih _

namespace Escaping

variable {slashes : Nat} {text escaped : Text}

theorem closing?_eq (escaping : Escaping slashes text escaped) (inside : Option Text) :
    closing? inside escaped = closing? inside (List.replicate slashes backslash ++ text) := by
  induction escaping generalizing inside with
  | nil => rw [List.append_nil]
  | slash _ ih => rw [ih, replicate_succ_append]
  | tag =>
      rw [closing?_append (noBracket_replicate _), closing?_append (noBracket_replicate _),
        closing?_open, closing?_open]
  | plain _ _ _ ih =>
      rw [closing?_append (noBracket_replicate _), closing?_append (noBracket_replicate _),
        closing?, closing?, ih]
      rfl

theorem after_eq (escaping : Escaping slashes text escaped) (inside : Option Text) :
    after ⟨0, inside⟩ escaped =
      after ⟨0, inside⟩ (List.replicate slashes backslash ++ text) := by
  induction escaping generalizing inside with
  | nil => rw [List.append_nil]
  | slash _ ih => rw [ih, replicate_succ_append]
  | @tag slashes inner rest escaped _ _ ih =>
      have regroup (front back : Text) : front ++ '[' :: (inner ++ ']' :: back) =
          (front ++ '[' :: inner) ++ ']' :: back := by
        simp
      -- the backslashes differ, but the end of the tag makes both readings the same
      rw [regroup, regroup, after_closed, after_closed]
      exact ih none
  | @plain slashes c rest escaped slash _ _ ih =>
      rw [after_append, after_append, after_cons, after_cons, next_of_ne_backslash slash, ih]
      rfl

/-- An escaped text has no tags. -/
theorem tagsFrom_eq_nil (escaping : Escaping slashes text escaped) :
    start.tagsFrom escaped = [] := by
  induction escaping with
  | nil slashes => exact tagsFrom_noBracket (noBracket_replicate slashes) _
  | slash _ ih => exact ih
  | tag isInside _ ih =>
      rw [start, tagsFrom_slashes, tagsFrom_tag isInside, if_neg (by omega), ih, List.append_nil]
  | @plain slashes c rest escaped slash loose escaping ih =>
      rw [start, tagsFrom_slashes]
      by_cases opens : c = '['
      · subst opens
        have loose : tagLength? escaped = none := by
          rw [tagLength?_eq, escaping.closing?_eq, List.replicate_zero, List.nil_append,
            closing?_of_tagLength? (loose rfl)]
          rfl
        rw [tagsFrom_loose loose, ih]
      · rw [tagsFrom, closed?_start, next_of_ne_backslash slash, inside_next opens]
        exact ih

end Escaping

theorem endsInOneBackslash_iff (text : Text) :
    endsInOneBackslash text = true ↔ (start.after text).slashes = 1 := by
  rcases List.eq_nil_or_concat' text with rfl | ⟨front, c, rfl⟩
  · decide
  · rw [after_append, after_cons, after_nil, slashes_next]
    rcases eq_or_ne c backslash with rfl | last
    · rcases List.eq_nil_or_concat' front with rfl | ⟨front, d, rfl⟩
      · decide
      · rw [after_append, after_cons, after_nil, slashes_next]
        rcases eq_or_ne d backslash with rfl | before
        · simp [endsInOneBackslash, endsWith, List.isSuffixOf]
        · simp [endsInOneBackslash, endsWith, List.isSuffixOf, List.isPrefixOf, before, before.symm]
    · simp [endsInOneBackslash, endsWith, List.isSuffixOf, last, last.symm]

/-- An escaped text may have one backslash more at its end. -/
theorem escape_eq (text : Text) :
    escape text = escapeFrom 0 0 text ++
      if endsInOneBackslash text then [backslash] else [] := by
  have ends : endsInOneBackslash (escapeFrom 0 0 text) = endsInOneBackslash text := by
    rw [Bool.eq_iff_iff, endsInOneBackslash_iff, endsInOneBackslash_iff, start,
      (escaping_escapeFrom 0 text).after_eq]
    rfl
  rw [escape, ends]
  split
  · rfl
  · rw [List.append_nil]

@[simp] theorem tags_escape (text : Text) : tags (escape text) = [] := by
  rw [tags_eq, escape_eq, tagsFrom_append, (escaping_escapeFrom 0 text).tagsFrom_eq_nil]
  split
  · exact tagsFrom_noBracket (by decide) _
  · rfl

def OpensTag (text : Text) : Prop :=
  ∃ front inside, text = front ++ '[' :: inside ∧ IsInside inside ∧ EndsEvenly front

theorem closing?_append_of_noBracket {back : Text} (plain : NoBracket back)
    (inside : Option Text) (front : Text) :
    closing? inside (front ++ back) = closing? inside front := by
  induction front generalizing inside with
  | nil => exact closing?_noBracket plain inside
  | cons c front ih => rw [List.cons_append, closing?, closing?, ih]

theorem Escaping.noBracket_iff {slashes : Nat} {text escaped : Text}
    (escaping : Escaping slashes text escaped) : NoBracket escaped ↔ NoBracket text := by
  induction escaping with
  | nil slashes => simp [noBracket_replicate]
  | slash _ ih =>
      rw [ih, noBracket_cons]
      exact (and_iff_right (by decide)).symm
  | tag => simp
  | plain _ _ _ ih => simp [noBracket_replicate, ih]

theorem noBracket_escape {text : Text} : NoBracket (escape text) ↔ NoBracket text := by
  rw [escape_eq, noBracket_append, (escaping_escapeFrom 0 text).noBracket_iff]
  refine and_iff_left ?_
  split <;> decide

theorem closing?_escape (inside : Option Text) (text : Text) :
    closing? inside (escape text) = closing? inside text := by
  rw [escape_eq, closing?_append_of_noBracket, (escaping_escapeFrom 0 text).closing?_eq]
  · rfl
  · split <;> decide

theorem closesTag_escape {text : Text} : ClosesTag (escape text) ↔ ClosesTag text := by
  rw [← @closing?_cons_ne_none 'a' [], closing?_escape, closing?_cons_ne_none]

theorem inside_after_noBracket {text : Text} (plain : NoBracket text) (reading : Reading) :
    (reading.after text).inside = text.foldl extend reading.inside := by
  induction text generalizing reading with
  | nil => rfl
  | cons c rest ih =>
      obtain ⟨other, plain⟩ := noBracket_cons.mp plain
      rw [after_cons, ih plain, next_of_ne other, List.foldl_cons]

/-- A tag is open behind a text from the last bracket on, if that opens it. -/
theorem inside_after_eq_some {c : Char} {read text : Text} :
    (start.after text).inside = some (c :: read) ↔
      ∃ front, text = front ++ '[' :: c :: read ∧ IsInside (c :: read) ∧ EndsEvenly front := by
  constructor
  · intro opened
    obtain plain | ⟨front, d, back, rfl, plain, rfl | rfl⟩ := noBracket_or_last text
    · rw [inside_after_noBracket plain] at opened
      exact absurd ((foldl_extend_none text).symm.trans opened) nofun
    · rw [after_append, after_cons, next_open, inside_after_noBracket plain,
        slashes_after] at opened
      dsimp only at opened
      split at opened
      case isTrue even =>
        rcases back with _ | ⟨d, back⟩
        · simp at opened
        · rw [foldl_extend_opened] at opened
          split at opened
          case isTrue starts =>
            obtain ⟨rfl, rfl⟩ : d = c ∧ back = read := by simpa using opened
            exact ⟨front, rfl, ⟨plain, starts⟩, even⟩
          case isFalse => simp at opened
      case isFalse => simp at opened
    · rw [after_closed, inside_after_noBracket plain] at opened
      exact absurd ((foldl_extend_none back).symm.trans opened) nofun
  · rintro ⟨front, rfl, ⟨plain, starts⟩, even⟩
    have starts : startsTag c = true := starts
    have even : (front.rtakeWhile fun c => c = backslash).length % 2 = 0 := even
    rw [after_append, after_cons, next_open, inside_after_noBracket plain, slashes_after]
    dsimp only
    rw [if_pos even, foldl_extend_opened, if_pos starts]

theorem opensTag_iff {text : Text} :
    OpensTag text ↔ ∃ c read, (start.after text).inside = some (c :: read) := by
  constructor
  · rintro ⟨front, inside, rfl, isInside, even⟩
    rcases inside with _ | ⟨c, read⟩
    · exact absurd isInside (by decide)
    · exact ⟨c, read, inside_after_eq_some.mpr ⟨front, rfl, isInside, even⟩⟩
  · rintro ⟨c, read, opened⟩
    obtain ⟨front, rfl, isInside, even⟩ := inside_after_eq_some.mp opened
    exact ⟨front, c :: read, rfl, isInside, even⟩

/-- Behind an escaped text and a blank a tag is closed if the text opens it. -/
theorem closing?_behind_escape {text rest : Text} :
    closing? (start.after (escape text)).inside (' ' :: rest) ≠ none ↔
      OpensTag text ∧ ClosesTag rest := by
  obtain ⟨d, tail, other, same⟩ : ∃ d tail, startsTag d = false ∧
      closing? (start.after (escape text)).inside (' ' :: rest) =
        closing? ((d :: tail).foldl extend (start.after text).inside) rest := by
    rw [escape_eq, after_append, start, (escaping_escapeFrom 0 text).after_eq]
    split
    · exact ⟨backslash, [' '], by decide, by rw [after_cons, after_nil, next_backslash]; rfl⟩
    · exact ⟨' ', [], by decide, rfl⟩
  rw [same, opensTag_iff]
  rcases (start.after text).inside with _ | _ | ⟨c, read⟩
  · rw [foldl_extend_none, closing?_none]
    simp
  · rw [foldl_extend_opened, if_neg (by simp [other]), closing?_none]
    simp
  · rw [foldl_extend_cons, List.cons_append, closing?_cons_ne_none]
    simp

/-- A character that is no bracket and no backslash comes between the tags of an escaped text,
which has none, and those behind it; but it can go on with a tag that the text leaves open. -/
theorem tags_escape_append {c : Char} (slash : c ≠ backslash) (opens : c ≠ '[') (text rest : Text) :
    tags (escape text ++ c :: rest) =
      (closing? (start.after (escape text)).inside (c :: rest)).toList ++ tags rest := by
  have none := tags_escape text
  rw [tags_eq] at none
  rw [tags_eq, tags_eq, tagsFrom_append, none, List.nil_append]
  rcases start.after (escape text) with ⟨slashes, inside⟩
  rw [tagsFrom_eq, tagsFrom, closed?_start, next_of_ne_backslash slash, inside_next opens]
  rfl

theorem tags_cons {c : Char} (slash : c ≠ backslash) (opens : c ≠ '[') (rest : Text) :
    tags (c :: rest) = tags rest := by
  have behindNothing := tags_escape_append slash opens [] rest
  rwa [escape_nil, after_nil, start, closing?_none] at behindNothing

theorem tags_tag {inside : Text} (isInside : IsInside inside) (rest : Text) :
    tags ('[' :: (inside ++ ']' :: rest)) = inside :: tags rest := by
  rw [tags_eq, tags_eq, start, tagsFrom_tag isInside, if_pos rfl]
  rfl

theorem tags_noBracket {text : Text} (plain : NoBracket text) : tags text = [] := by
  rw [tags_eq, tagsFrom_noBracket plain]

end HarnessIndex.Markup
