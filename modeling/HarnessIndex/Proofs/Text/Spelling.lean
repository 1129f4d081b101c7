import HarnessIndex.Proofs.Text.Trim
import HarnessIndex.Text.Word

/-!
# Tokens with blanks between them

A path is compared without its blanks, so that `kani :: proof` and `kani::proof` are the same. Where
no blank stands inside a token, the text spells the tokens of the path one after the other.
-/

namespace HarnessIndex.Text

/-- Whether two characters that touch belong to one token of a path: a word or two colons. -/
def sameToken (left right : Char) : Bool :=
  (isWord left && isWord right) || (left = ':' && right = ':')

/-- Whether no blank separates characters of one token, after the character `previous` and blanks if
`blank` holds. -/
def unbrokenAfter (previous : Option Char) (blank : Bool) : Text → Bool
  | [] => true
  | c :: rest =>
      if isBlank c then unbrokenAfter previous true rest
      else !(blank && previous.any fun before => sameToken before c) &&
        unbrokenAfter (some c) false rest

/-- Whether no blank separates characters of one token. -/
def unbroken (text : Text) : Bool :=
  unbrokenAfter none false text

/-- A text spells some tokens with blanks before each of them, and then goes on with `rest`. -/
inductive Spells : List Text → Text → Text → Prop where
  | nil {rest : Text} : Spells [] rest rest
  | cons {blanks token after rest : Text} {tokens : List Text} :
      (∀ c ∈ blanks, isBlank c = true) → Spells tokens after rest →
      Spells (token :: tokens) (blanks ++ token ++ after) rest

/-- A token holds at least one character, and each two that touch belong together. -/
inductive IsToken : Text → Prop where
  | single (c : Char) : IsToken [c]
  | cons {c next : Char} {rest : Text} :
      sameToken c next = true → IsToken (next :: rest) → IsToken (c :: next :: rest)

instance decideIsToken : (token : Text) → Decidable (IsToken token)
  | [] => isFalse (by rintro ⟨⟩)
  | [c] => isTrue (.single c)
  | c :: next :: rest =>
      have := decideIsToken (next :: rest)
      decidable_of_iff (sameToken c next = true ∧ IsToken (next :: rest))
        ⟨fun both => .cons both.1 both.2, fun token => by
          cases token with
          | cons same token => exact ⟨same, token⟩⟩

theorem withoutBlanks_cons_blank {c : Char} (blank : isBlank c = true) (rest : Text) :
    withoutBlanks (c :: rest) = withoutBlanks rest :=
  List.filter_cons_of_neg (by simp [blank])

theorem withoutBlanks_cons_solid {c : Char} (solid : isBlank c = false) (rest : Text) :
    withoutBlanks (c :: rest) = c :: withoutBlanks rest :=
  List.filter_cons_of_pos (by simp [solid])

/-- The first character of a text without blanks comes after blanks. -/
theorem exists_first {previous : Option Char} {blank : Bool} {text more : Text} {c : Char}
    (unbroken : unbrokenAfter previous blank text = true) (same : withoutBlanks text = c :: more) :
    ∃ blanks rest, text = blanks ++ c :: rest ∧ (∀ b ∈ blanks, isBlank b = true) ∧
      unbrokenAfter (some c) false rest = true ∧ withoutBlanks rest = more ∧
      ((blank = true ∨ blanks ≠ []) → previous.all fun before => !sameToken before c) := by
  induction text generalizing blank with
  | nil => simp at same
  | cons first text ih =>
      cases solid : isBlank first with
      | true =>
          rw [unbrokenAfter, if_pos solid] at unbroken
          rw [withoutBlanks_cons_blank solid] at same
          obtain ⟨blanks, rest, rfl, blank, after, more, apart⟩ := ih unbroken same
          exact ⟨first :: blanks, rest, rfl, List.forall_mem_cons.mpr ⟨solid, blank⟩, after, more,
            fun _ => apart (Or.inl rfl)⟩
      | false =>
          rw [unbrokenAfter, if_neg (by simp [solid]), Bool.and_eq_true] at unbroken
          rw [withoutBlanks_cons_solid solid, List.cons.injEq] at same
          obtain ⟨rfl, same⟩ := same
          refine ⟨[], text, rfl, by simp, unbroken.2, same, ?_⟩
          rintro (rfl | none)
          · cases previous with
            | none => rfl
            | some before => simpa using unbroken.1
          · exact absurd rfl none

theorem exists_rest {c : Char} {tail text more : Text} (isToken : IsToken (c :: tail))
    (unbroken : unbrokenAfter (some c) false text = true)
    (same : withoutBlanks text = tail ++ more) :
    ∃ last rest, text = tail ++ rest ∧ unbrokenAfter (some last) false rest = true ∧
      withoutBlanks rest = more := by
  induction tail generalizing c text with
  | nil => exact ⟨c, text, rfl, unbroken, same⟩
  | cons next tail ih =>
      cases isToken with
      | cons together isToken =>
          obtain ⟨blanks, rest, rfl, -, after, same, apart⟩ := exists_first unbroken same
          have none : blanks = [] := by
            by_contra some
            simpa [together] using apart (Or.inr some)
          obtain ⟨last, rest, rfl, ends, same⟩ := ih isToken after same
          exact ⟨last, rest, by simp [none], ends, same⟩

/-- A text without blanks inside its tokens spells the tokens that it begins with. -/
theorem exists_spells {previous : Option Char} {tokens : List Text} {text more : Text}
    (isTokens : ∀ token ∈ tokens, IsToken token)
    (unbroken : unbrokenAfter previous false text = true)
    (same : withoutBlanks text = tokens.flatten ++ more) :
    ∃ rest, Spells tokens text rest ∧ withoutBlanks rest = more := by
  induction tokens generalizing previous text with
  | nil => exact ⟨text, .nil, same⟩
  | cons token tokens ih =>
      obtain ⟨isToken, others⟩ := List.forall_mem_cons.mp isTokens
      rw [List.flatten_cons, List.append_assoc] at same
      cases token with
      | nil => cases isToken
      | cons c tail =>
          obtain ⟨blanks, after, rfl, blank, unbroken, same, -⟩ := exists_first unbroken same
          obtain ⟨last, after, rfl, unbroken, same⟩ := exists_rest isToken unbroken same
          obtain ⟨rest, spells, same⟩ := ih others unbroken same
          refine ⟨rest, ?_, same⟩
          have shape : blanks ++ c :: (tail ++ after) = blanks ++ c :: tail ++ after := by simp
          rw [shape]
          exact .cons blank spells

/-- Tokens are spelled when they are written one after the other. -/
theorem spells_flatten (tokens : List Text) : Spells tokens tokens.flatten [] := by
  induction tokens with
  | nil => exact .nil
  | cons token tokens ih =>
      have spells : Spells (token :: tokens) ([] ++ token ++ tokens.flatten) [] := .cons nofun ih
      exact spells

/-! ## Spelled tokens without their blanks -/

/-- A token without blanks that holds at least one character. -/
def Solid (token : Text) : Prop :=
  token ≠ [] ∧ token.all (fun c => !isBlank c) = true

instance (token : Text) : Decidable (Solid token) :=
  inferInstanceAs (Decidable (_ ∧ _))

theorem Solid.isBlank_of_mem {token : Text} (solid : Solid token) {c : Char} (member : c ∈ token) :
    isBlank c = false := by
  simpa using List.all_eq_true.mp solid.2 c member

theorem Solid.withoutBlanks {token : Text} (solid : Solid token) :
    Text.withoutBlanks token = token :=
  List.filter_eq_self.mpr fun c member => by simp [solid.isBlank_of_mem member]

/-- Without blanks a text that spells some tokens is the same as these tokens by themselves. -/
theorem Spells.withoutBlanks_flatten {tokens : List Text} {text rest : Text}
    (spells : Spells tokens text rest) :
    Text.withoutBlanks text = Text.withoutBlanks (tokens.flatten ++ rest) := by
  induction spells with
  | nil => rfl
  | cons blank _ ih =>
      rw [List.append_assoc, withoutBlanks_append, withoutBlanks_append,
        withoutBlanks_of_blank blank, ih, ← withoutBlanks_append, List.nil_append,
        List.flatten_cons, List.append_assoc]

theorem withoutBlanks_flatten {tokens : List Text} (solid : ∀ token ∈ tokens, Solid token) :
    withoutBlanks tokens.flatten = tokens.flatten := by
  apply List.filter_eq_self.mpr
  intro c member
  obtain ⟨token, known, inToken⟩ := List.mem_flatten.mp member
  rw [(solid token known).isBlank_of_mem inToken, Bool.not_false]

/-- A text that spells some tokens is made of them, but for its blanks. -/
theorem Spells.withoutBlanks {tokens : List Text} {text rest : Text}
    (spells : Spells tokens text rest) (solid : ∀ token ∈ tokens, Solid token) :
    Text.withoutBlanks text = tokens.flatten ++ Text.withoutBlanks rest := by
  rw [spells.withoutBlanks_flatten, withoutBlanks_append, Text.withoutBlanks_flatten solid]

/-- A blank end of a text that ends with a token is empty. -/
theorem Solid.eq_nil_of_split {token blanks text inner : Text} (solid : Solid token)
    (split : blanks ++ token = text ++ inner) (none : Text.withoutBlanks inner = []) :
    inner = [] := by
  obtain empty | ⟨front, last, rfl⟩ := List.eq_nil_or_concat inner
  · exact empty
  · obtain ⟨start, stop, rfl⟩ := (List.eq_nil_or_concat token).resolve_left solid.1
    rw [List.concat_eq_append, List.concat_eq_append, ← List.append_assoc, ← List.append_assoc]
      at split
    obtain rfl : stop = last := List.singleton_inj.mp (List.append_inj' split rfl).2
    have blank : isBlank stop = true := by
      simpa using List.filter_eq_nil_iff.mp none stop (by simp [List.concat_eq_append])
    have member : stop ∈ start.concat stop := by simp [List.concat_eq_append]
    simp [solid.isBlank_of_mem member] at blank

/-- Where a text has all characters of some tokens, they are spelled in it and not behind it. -/
theorem Spells.front {tokens : List Text} {text behind rest more : Text}
    (spells : Spells tokens (text ++ behind) rest) (solid : ∀ token ∈ tokens, Solid token)
    (same : Text.withoutBlanks text = tokens.flatten ++ more) :
    ∃ rest, Spells tokens text rest := by
  generalize whole : text ++ behind = full at spells
  induction spells generalizing text with
  | nil => exact ⟨text, .nil⟩
  | @cons blanks token after rest tokens blank spells ih =>
      obtain ⟨first, others⟩ := List.forall_mem_cons.mp solid
      have passed : Text.withoutBlanks (blanks ++ token) = token := by
        rw [withoutBlanks_append, withoutBlanks_of_blank blank, first.withoutBlanks,
          List.nil_append]
      rw [List.flatten_cons, List.append_assoc] at same
      have reaches : ∃ inner, text = blanks ++ token ++ inner ∧ inner ++ behind = after := by
        rcases List.append_eq_append_iff.mp whole with
          ⟨inner, split, behind⟩ | ⟨inner, split, behind⟩
        · -- The text ends inside the first token, so nothing solid is left of the token.
          have counted := congrArg (fun part => (Text.withoutBlanks part).length) split
          simp only [passed, withoutBlanks_append, same, List.length_append] at counted
          have none := first.eq_nil_of_split split (List.eq_nil_of_length_eq_zero (by omega))
          rw [none, List.append_nil] at split
          rw [none, List.nil_append] at behind
          exact ⟨[], by rw [split, List.append_nil], behind⟩
        · exact ⟨inner, split, behind.symm⟩
      obtain ⟨inner, rfl, joined⟩ := reaches
      rw [withoutBlanks_append, passed] at same
      obtain ⟨rest, spelled⟩ := ih others (List.append_cancel_left same) joined
      exact ⟨rest, .cons blank spelled⟩

end HarnessIndex.Text
