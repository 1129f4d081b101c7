import HarnessIndex.Proofs.Report.Emoji
import HarnessIndex.Proofs.Report.Escaping

/-!
# What is shown of a text

A text whose tags match shows what is left of it without them, with signs for its codes of emoji. An
escaped text shows as it was, unless a tag that it leaves open is closed behind it. Two kinds of
backslashes go wrong: one in front of a bracket that begins no tag is lost, and a single one at the
end is doubled.
-/

namespace HarnessIndex.Markup

open Text Reading Emoji

def Piece.text : Piece → Text
  | plain text => text
  | kept text => text
  | tag _ => []

/-- What a terminal shows of a piece. -/
def Piece.shown (dialect : Dialect) (piece : Piece) : Text :=
  Emoji.replace dialect.sign? piece.text

/-- What is left of a text without its tags, when `slashes` backslashes have just been read. -/
def strippedFrom (slashes : Nat) (text : Text) : Text :=
  (piecesFrom slashes 0 text).flatMap Piece.text

@[simp] theorem flatMap_addPlain (text : Text) (pieces : List Piece) :
    (addPlain text pieces).flatMap Piece.text = text ++ pieces.flatMap Piece.text := by
  unfold addPlain
  split
  case isTrue empty => rw [List.isEmpty_iff.mp empty, List.nil_append]
  case isFalse =>
    rcases pieces with _ | ⟨_ | _ | _, _⟩
    · rfl
    · exact List.append_assoc _ _ _
    · rfl
    · rfl

variable {dialect : Dialect}

theorem renderPieces_eq (opened : List Text) (pieces : List Piece) :
    renderPieces dialect opened pieces =
      (renderPieces dialect opened ((pieces.filterMap Piece.tag?).map .tag)).map
        fun _ => pieces.flatMap (Piece.shown dialect) := by
  induction pieces generalizing opened with
  | nil => rfl
  | cons piece rest ih =>
      cases piece with
      | plain text =>
          rw [renderPieces, ih, Option.map_map]
          rfl
      | kept text =>
          rw [renderPieces, ih, Option.map_map]
          rfl
      | tag inside =>
          have inner : Piece.tag? (.tag inside) = some inside := rfl
          rw [List.filterMap_cons_some inner, List.map_cons, renderPieces.eq_def,
            renderPieces.eq_def]
          dsimp only
          split
          · rename_i closed _
            cases dialect.close? (trim closed) opened with
            | none => rfl
            | some more => exact ih more
          · exact ih _

/-- Pieces without the code of a sign are shown as they are. -/
theorem flatMap_shown {pieces : List Piece}
    (none : ¬ HasSign dialect.sign? (pieces.flatMap Piece.text)) :
    pieces.flatMap (Piece.shown dialect) = pieces.flatMap Piece.text := by
  induction pieces with
  | nil => rfl
  | cons piece rest ih =>
      rw [List.flatMap_cons] at none
      have first : Piece.shown dialect piece = piece.text :=
        replace_eq_self fun has => none (has.of_infix (List.prefix_append _ _).isInfix)
      have later := ih fun has => none (has.of_infix (List.suffix_append _ _).isInfix)
      rw [List.flatMap_cons, List.flatMap_cons, first, later]

theorem render_eq (text : Text) :
    render dialect text = (renderPieces dialect [] ((tags text).map .tag)).map
      fun _ => (pieces text).flatMap (Piece.shown dialect) :=
  renderPieces_eq [] (pieces text)

/-- The tag that was opened last is closed by its own name. -/
theorem close?_cons {name inside : Text} {opened : List Text}
    (same : dialect.normal (tagName inside) = dialect.normal name)
    (closes : dialect.canClose inside = true) :
    dialect.close? name (inside :: opened) = some opened := by
  simp [Dialect.close?, same, closes]

/-- Tags that are closed in turn. -/
def Matched (dialect : Dialect) (insides : List Text) : Prop :=
  (renderPieces dialect [] (insides.map .tag)).isSome

theorem isSome_render {text : Text} (matched : Matched dialect (tags text)) :
    (render dialect text).isSome := by
  rw [render_eq, Option.isSome_map]
  exact matched

/-- A text whose tags match shows what is left of it, if no code of a sign stands in that. -/
theorem render_eq_some {text : Text} (matched : Matched dialect (tags text))
    (none : ¬ HasSign dialect.sign? (strippedFrom 0 text)) :
    render dialect text = some (strippedFrom 0 text) := by
  obtain ⟨shown, renders⟩ := Option.isSome_iff_exists.mp matched
  rw [render_eq, renders]
  exact congrArg some (flatMap_shown none)

@[simp] theorem matched_nil : Matched dialect [] := rfl

variable {slashes : Nat} {rest : Text}

@[simp] theorem strippedFrom_nil : strippedFrom slashes [] = List.replicate slashes backslash := by
  rw [strippedFrom, piecesFrom, flatMap_addPlain, List.flatMap_nil, List.append_nil]

@[simp] theorem strippedFrom_slash :
    strippedFrom slashes (backslash :: rest) = strippedFrom (slashes + 1) rest := by
  rw [strippedFrom, piecesFrom, if_pos rfl]
  rfl

theorem strippedFrom_plain {c : Char} (slash : c ≠ backslash) (opens : c ≠ '[') :
    strippedFrom slashes (c :: rest) =
      List.replicate slashes backslash ++ c :: strippedFrom 0 rest := by
  rw [strippedFrom, piecesFrom, if_neg slash, if_neg opens, flatMap_addPlain, List.append_assoc]
  rfl

theorem strippedFrom_loose (loose : tagLength? rest = none) :
    strippedFrom 0 ('[' :: rest) = '[' :: strippedFrom 0 rest := by
  rw [strippedFrom, piecesFrom, if_neg (by decide), if_pos rfl, loose]
  dsimp only
  rw [if_pos rfl, flatMap_addPlain]
  rfl

theorem strippedFrom_replicate (count : Nat) (text : Text) :
    strippedFrom slashes (List.replicate count backslash ++ text) =
      strippedFrom (slashes + count) text := by
  induction count generalizing slashes with
  | zero => rfl
  | succ count ih =>
      rw [List.replicate_succ, List.cons_append, strippedFrom_slash, ih]
      congr 1
      omega

theorem strippedFrom_tag {inside : Text} (isInside : IsInside inside) (slashes : Nat)
    (rest : Text) :
    strippedFrom slashes ('[' :: (inside ++ ']' :: rest)) =
      List.replicate (slashes / 2) backslash ++
        if slashes % 2 = 1 then '[' :: (inside ++ ']' :: strippedFrom 0 rest)
        else strippedFrom 0 rest := by
  rw [strippedFrom, piecesFrom_tag isInside]
  split
  · simp [strippedFrom, Piece.text]
  · rfl

theorem stripped_tag {inside : Text} (isInside : IsInside inside) (rest : Text) :
    strippedFrom 0 ('[' :: (inside ++ ']' :: rest)) = strippedFrom 0 rest := by
  rw [strippedFrom_tag isInside]
  rfl

theorem strippedFrom_calm {rest : Text} (calm : ∀ c ∈ rest.head?, c ≠ backslash ∧ c ≠ '[')
    (slashes : Nat) :
    strippedFrom slashes rest = List.replicate slashes backslash ++ strippedFrom 0 rest := by
  rcases rest with _ | ⟨c, rest⟩
  · simp
  · obtain ⟨slash, opens⟩ := calm c rfl
    rw [strippedFrom_plain slash opens, strippedFrom_plain slash opens]
    rfl

/-- Every backslash that stands directly in front of an opening bracket stands in front of a tag. -/
def NoLooseSlash (text : Text) : Prop :=
  ∀ front back, text = front ++ backslash :: '[' :: back → tagLength? back ≠ none

theorem NoLooseSlash.of_append {front back : Text} (tidy : NoLooseSlash (front ++ back)) :
    NoLooseSlash back := by
  intro more rest same
  exact tidy (front ++ more) rest (by rw [same, List.append_assoc])

/-- An open tag in front of a text is closed in the text, or behind it if it is still open. -/
theorem closing?_append_eq_none {inside : Option Text} {front back : Text}
    (within : closing? inside front = none)
    (behind : closing? (after ⟨slashes, inside⟩ front).inside back = none) :
    closing? inside (front ++ back) = none := by
  obtain plain | ⟨first, d, more, rfl, plain, rfl | rfl⟩ := noBracket_or_first front
  · rwa [closing?_append plain, ← inside_after_noBracket plain ⟨slashes, inside⟩]
  · rw [List.append_assoc, closing?_append plain, List.cons_append, closing?_open]
  · rw [closing?_append plain, closing?_close] at within
    rw [List.append_assoc, closing?_append plain, List.cons_append, closing?_close, within]

/-- A bracket with no tag behind it has none behind it in the escaped text. -/
theorem Escaping.tagLength?_append {text escaped back : Text} (escaping : Escaping 0 text escaped)
    (loose : tagLength? text = none)
    (shut : closing? (after ⟨0, some []⟩ text).inside back = none) :
    tagLength? (escaped ++ back) = none := by
  have within : closing? (some []) escaped = none := by
    rw [escaping.closing?_eq]
    exact closing?_of_tagLength? loose
  have behind : closing? (after ⟨0, some []⟩ escaped).inside back = none := by
    rw [escaping.after_eq]
    exact shut
  rw [tagLength?_eq, closing?_append_eq_none within behind]
  rfl

/-- Behind a text no tag is open, or the one that would be if another were open in front of it. -/
theorem inside_after_none_or (slashes : Nat) (inside : Option Text) (text : Text) :
    (after ⟨slashes, none⟩ text).inside = none ∨
      after ⟨slashes, none⟩ text = after ⟨slashes, inside⟩ text := by
  obtain plain | ⟨front, d, back, rfl, plain, rfl | rfl⟩ := noBracket_or_first text
  · left
    rw [inside_after_noBracket plain, foldl_extend_none]
  · right
    have same : (after ⟨slashes, none⟩ front).slashes = (after ⟨slashes, inside⟩ front).slashes :=
      slashes_after_congr (by rfl) front
    rw [after_append, after_append, after_cons, after_cons, next_open, next_open, same]
  · right
    rw [after_closed, after_closed]

/-- An escaped text is shown as it is, whatever tags stand behind it, unless it is closed there. -/
theorem Escaping.strippedFrom_append {slashes : Nat} {text escaped back : Text}
    (escaping : Escaping slashes text escaped)
    (tidy : NoLooseSlash (List.replicate slashes backslash ++ text))
    (calm : ∀ c ∈ back.head?, c ≠ backslash ∧ c ≠ '[')
    (shut : closing? (after ⟨slashes, none⟩ text).inside back = none) :
    strippedFrom 0 (escaped ++ back) =
      List.replicate slashes backslash ++ text ++ strippedFrom 0 back := by
  induction escaping with
  | nil slashes =>
      rw [strippedFrom_replicate, Nat.zero_add, strippedFrom_calm calm, List.append_nil]
  | slash _ ih =>
      rw [← replicate_succ_append] at tidy
      rw [ih tidy shut, replicate_succ_append]
  | @tag slashes inside rest escaped isInside _ ih =>
      have tidyRest : NoLooseSlash rest := by
        rw [show List.replicate slashes backslash ++ '[' :: (inside ++ ']' :: rest) =
          (List.replicate slashes backslash ++ '[' :: (inside ++ [']'])) ++ rest by simp] at tidy
        exact tidy.of_append
      have shutRest : closing? (start.after rest).inside back = none := by
        rwa [← List.cons_append, after_closed] at shut
      rw [List.append_assoc, strippedFrom_replicate, List.cons_append, List.append_assoc,
        List.cons_append, strippedFrom_tag isInside, if_pos (by omega),
        ih tidyRest shutRest, show (0 + (2 * slashes + 1)) / 2 = slashes by omega]
      simp
  | @plain slashes c rest escaped slash loose escaping ih =>
      have tidyRest : NoLooseSlash rest := by
        rw [List.append_cons] at tidy
        exact tidy.of_append
      by_cases opens : c = '['
      · subst opens
        -- only what stands behind the text could make a tag of the bracket, and it does not
        have loose := loose rfl
        cases slashes with
        | succ slashes =>
            exact absurd loose (tidy _ rest (replicate_succ_append slashes ('[' :: rest)))
        | zero =>
            have shutRest : closing? (start.after rest).inside back = none := by
              obtain none | same := inside_after_none_or 0 (some []) rest
              · rw [start, none, closing?_none]
              · rwa [start, same]
            rw [List.append_assoc, List.replicate_zero, List.nil_append, List.cons_append,
              strippedFrom_loose (escaping.tagLength?_append loose shut), ih tidyRest shutRest]
            rfl
      · have shutRest : closing? (start.after rest).inside back = none := by
          rwa [after_cons, next_of_ne_backslash slash, inside_next opens] at shut
        rw [List.append_assoc, strippedFrom_replicate, Nat.zero_add, List.cons_append,
          strippedFrom_plain slash opens, ih tidyRest shutRest]
        simp

/-- Escaping makes a text show as it is: it does not end in one single backslash, and no other one
stands in front of an opening bracket that begins no tag. -/
structure Tidy (text : Text) : Prop where
  noLooseSlash : NoLooseSlash text
  ends : endsInOneBackslash text = false

theorem tidy_of_no_backslash {text : Text} (plain : backslash ∉ text) : Tidy text := by
  constructor
  · rintro front back rfl
    simp at plain
  · rw [Bool.eq_false_iff, ne_eq, endsInOneBackslash_iff, slashes_after]
    intro one
    obtain ⟨c, last⟩ := List.length_eq_one_iff.mp one
    have member : c ∈ text.rtakeWhile fun c => c = backslash := by simp [last]
    have slash : c = backslash := by simpa using List.mem_rtakeWhile_imp member
    exact plain (slash ▸ (List.rtakeWhile_suffix _ _).subset member)

theorem strippedFrom_escape {text back : Text} (tidy : Tidy text)
    (calm : ∀ c ∈ back.head?, c ≠ backslash ∧ c ≠ '[')
    (shut : closing? (start.after (escape text)).inside back = none) :
    strippedFrom 0 (escape text ++ back) = text ++ strippedFrom 0 back := by
  have escaping := escaping_escapeFrom 0 text
  have same : escape text = escapeFrom 0 0 text := by
    rw [escape_eq, tidy.ends]
    exact List.append_nil _
  rw [same] at shut ⊢
  rw [start, escaping.after_eq] at shut
  exact escaping.strippedFrom_append tidy.noLooseSlash calm shut

/-- A text without tags is shown as it is, if no backslash stands in front of a bracket. -/
theorem strippedFrom_of_tags {slashes : Nat} {text : Text}
    (untagged : tagsFrom ⟨slashes, none⟩ text = [])
    (plain : ¬ [backslash, '['] <:+: List.replicate slashes backslash ++ text) :
    strippedFrom slashes text = List.replicate slashes backslash ++ text := by
  induction text generalizing slashes with
  | nil => rw [strippedFrom_nil, List.append_nil]
  | cons c rest ih =>
      by_cases slash : c = backslash
      · subst slash
        rw [tagsFrom, closed?_start, Option.toList_none, List.nil_append] at untagged
        rw [← replicate_succ_append] at plain ⊢
        rw [strippedFrom_slash]
        exact ih untagged plain
      · have plainRest : ¬ [backslash, '['] <:+: List.replicate 0 backslash ++ rest := by
          intro found
          rw [List.append_cons] at plain
          exact plain (found.trans (List.suffix_append _ _).isInfix)
        by_cases opens : c = '['
        · subst opens
          cases slashes with
          | succ slashes =>
              rw [replicate_succ_append] at plain
              exact absurd ⟨List.replicate slashes backslash, rest, by simp⟩ plain
          | zero =>
              cases found : tagLength? rest with
              | none =>
                  rw [tagsFrom_loose found] at untagged
                  rw [strippedFrom_loose found]
                  exact congrArg _ (ih untagged plainRest)
              | some size =>
                  obtain ⟨inside, back, rfl, isInside, -⟩ := tagLength?_eq_some.mp found
                  rw [tagsFrom_tag isInside] at untagged
                  simp at untagged
        · rw [tagsFrom, closed?_start, Option.toList_none, List.nil_append,
            next_of_ne_backslash slash, inside_next opens] at untagged
          rw [strippedFrom_plain slash opens]
          exact congrArg (_ ++ c :: ·) (ih untagged plainRest)

theorem render_of_tags {text : Text} (untagged : tags text = [])
    (plain : ¬ [backslash, '['] <:+: text) (none : ¬ HasSign dialect.sign? text) :
    render dialect text = some text := by
  have plain : ¬ [backslash, '['] <:+: List.replicate 0 backslash ++ text := plain
  have stripped : strippedFrom 0 text = text :=
    strippedFrom_of_tags (tags_eq text ▸ untagged) plain
  have renders := @render_eq_some dialect text (untagged ▸ matched_nil)
  rw [stripped] at renders
  exact renders none

/-- A terminal that knows one emoji. -/
def smiling : Dialect :=
  { Dialect.bare with sign? := fun name => if name = "smile" then some ['😄'] else none }

example : render smiling ":smile:.rs" = some "😄.rs" := by decide

theorem not_hasSign_smiling {text : Text} (plain : ¬ (":smile" : Text) <:+: text) :
    ¬ HasSign smiling.sign? text := by
  rintro ⟨name, variant, stands, -, -, known⟩
  have smile : name = "smile" := by
    by_contra other
    exact known (if_neg other)
  rw [smile] at stands
  exact plain (List.IsInfix.trans ⟨[], variant ++ [':'], rfl⟩ stands)

end HarnessIndex.Markup
