import HarnessIndex.Attribute.Arguments
import HarnessIndex.Proofs.Text.Word
import Mathlib.Data.List.Infix

/-!
# The grammar of token text

Token text is what may stand between the brackets of an attribute: characters, string literals, raw
strings, character literals, and matching brackets around token text. A comma may stand inside
brackets only. Whether a raw string can begin depends on the text before it.
-/

namespace HarnessIndex.Attribute

open Text

/-! ## Literals -/

/-- The rest of a string literal after its opening quote, with the closing one. -/
inductive StringBody : Text → Prop where
  | close : StringBody [doubleQuote]
  | escape {body : Text} (c : Char) : StringBody body → StringBody (backslash :: c :: body)
  | plain {c : Char} {body : Text} :
      c ≠ backslash → c ≠ doubleQuote → StringBody body → StringBody (c :: body)

/-- How a raw string begins, before its hashes. -/
inductive RawMark : Text → Prop where
  | raw : RawMark ['r']
  | byteRaw : RawMark ['b', 'r']

/-- A raw string: its content does not contain a quote with as many hashes as stand in front. -/
inductive RawString : Text → Prop where
  | intro {mark hashes content : Text} : RawMark mark → (∀ c ∈ hashes, c = '#') →
      ¬ doubleQuote :: hashes <:+: content →
      RawString (mark ++ hashes ++ doubleQuote :: content ++ doubleQuote :: hashes)

/-- A character literal. -/
inductive CharLiteral : Text → Prop where
  | hex {first second : Char} : isHex first = true → isHex second = true →
      CharLiteral [singleQuote, backslash, 'x', first, second, singleQuote]
  | unicode {digits : Text} : digits ≠ [] → (∀ c ∈ digits, isHex c = true) →
      CharLiteral ([singleQuote, backslash, 'u', '\x7b'] ++ digits ++ ['\x7d', singleQuote])
  | escaped {c : Char} : c ≠ '\n' → CharLiteral [singleQuote, backslash, c, singleQuote]
  | plain {c : Char} : c ≠ backslash → c ≠ singleQuote → c ≠ '\n' →
      CharLiteral [singleQuote, c, singleQuote]

/-! ## Token text -/

/-- A character that stands for itself. -/
def isPlain (c : Char) : Bool :=
  !(c = ',' || c = doubleQuote || c = singleQuote || isOpener c || isCloser c)

/-- A text ends like the beginning of a raw string, up to its quote. -/
def OpensRaw (text : Text) : Prop :=
  ∃ front mark hashes, text = front ++ mark ++ hashes ∧ RawMark mark ∧ (∀ c ∈ hashes, c = '#') ∧
    endsInWord front = false

/-- A text ends like the beginning of a raw string only if it ends in a hash, or in a mark that
continues no word. -/
theorem not_opensRaw_of_last {text : Text} (notHash : text.getLast? ≠ some '#')
    (noMark : text.getLast? = some 'r' → endsInWord text.dropLast = true ∧
      (text.dropLast.getLast? = some 'b' → endsInWord text.dropLast.dropLast = true)) :
    ¬ OpensRaw text := by
  rintro ⟨front, mark, hashes, rfl, isMark, allHashes, noWord⟩
  rcases List.eq_nil_or_concat hashes with rfl | ⟨hashes, hash, rfl⟩
  · cases isMark <;> simp [noWord] at noMark
  · have isHash := allHashes hash (by simp)
    simp [isHash] at notHash

/-- Token text after the text `before`. Where `commas` holds, commas may stand at the top level. -/
inductive TokenText : (commas : Bool) → (before : Text) → Text → Prop where
  | nil {commas : Bool} {before : Text} : TokenText commas before []
  | plain {commas : Bool} {before rest : Text} {c : Char} : isPlain c = true →
      TokenText commas (before ++ [c]) rest → TokenText commas before (c :: rest)
  | comma {before rest : Text} :
      TokenText true (before ++ [',']) rest → TokenText true before (',' :: rest)
  | string {commas : Bool} {before body rest : Text} : StringBody body → ¬ OpensRaw before →
      TokenText commas (before ++ doubleQuote :: body) rest →
      TokenText commas before (doubleQuote :: body ++ rest)
  | raw {commas : Bool} {before literal rest : Text} : RawString literal →
      endsInWord before = false → TokenText commas (before ++ literal) rest →
      TokenText commas before (literal ++ rest)
  | char {commas : Bool} {before literal rest : Text} : CharLiteral literal →
      TokenText commas (before ++ literal) rest → TokenText commas before (literal ++ rest)
  | group {commas : Bool} {before inner rest : Text} {opener closer : Char} :
      closer? opener = some closer → TokenText true (before ++ [opener]) inner →
      TokenText commas (before ++ opener :: inner ++ [closer]) rest →
      TokenText commas before (opener :: inner ++ closer :: rest)

/-! ## Token text in its place -/

/-- What opens a raw string after a blank opens one by itself. -/
theorem OpensRaw.of_append_blank {outside before : Text} {c : Char} (blank : isBlank c = true)
    (opens : OpensRaw (outside ++ c :: before)) : OpensRaw before := by
  obtain ⟨front, mark, hashes, same, isMark, allHashes, noWord⟩ := opens
  have split : (outside ++ [c]) ++ before = front ++ (mark ++ hashes) := by simpa using same
  rcases List.append_eq_append_iff.mp split with ⟨more, rfl, rfl⟩ | ⟨more, whole, rest⟩
  · refine ⟨more, mark, hashes, by simp, isMark, allHashes, ?_⟩
    rcases List.eq_nil_or_concat more with rfl | ⟨more, last, rfl⟩
    · rfl
    · rw [List.concat_eq_append, ← List.append_assoc, endsInWord_concat] at noWord
      rwa [List.concat_eq_append, endsInWord_concat]
  · rcases List.eq_nil_or_concat more with rfl | ⟨more, last, rfl⟩
    · exact ⟨[], mark, hashes, by simpa using rest.symm, isMark, allHashes, rfl⟩
    -- The blank would stand in the mark or among the hashes.
    · rw [List.concat_eq_append, ← List.append_assoc] at whole
      have isBlankChar : last = c := (List.cons.inj (List.append_inj' whole rfl).2).1.symm
      have member : c ∈ mark ++ hashes := by
        rw [rest, ← isBlankChar]
        simp
      have solid : isBlank c = false := by
        rcases List.mem_append.mp member with inMark | inHashes
        · cases isMark <;> simp at inMark
          · rw [inMark]
            decide
          · rcases inMark with rfl | rfl <;> decide
        · rw [allHashes c inHashes]
          decide
      rw [blank] at solid
      exact absurd solid (by decide)

/-- After a blank no word is continued but one that begins there. -/
theorem endsInWord_append_blank {before : Text} {c : Char} (blank : isBlank c = true)
    (noWord : endsInWord before = false) (outside : Text) :
    endsInWord (outside ++ c :: before) = false := by
  rcases List.eq_nil_or_concat before with rfl | ⟨before, last, rfl⟩
  · rw [endsInWord_concat]
    exact isWord_of_isBlank blank
  · rw [List.concat_eq_append] at noWord ⊢
    rw [endsInWord_concat] at noWord
    rwa [← List.cons_append, ← List.append_assoc, endsInWord_concat]

namespace TokenText

variable {commas : Bool} {before text : Text}

/-- Token text without commas at the top level is also such text where commas may stand. -/
theorem allowCommas (token : TokenText commas before text) : TokenText true before text := by
  induction token with
  | nil => exact .nil
  | plain isPlain _ ih => exact .plain isPlain ih
  | comma _ ih => exact .comma ih
  | string body closed _ ih => exact .string body closed ih
  | raw literal noWord _ ih => exact .raw literal noWord ih
  | char literal _ ih => exact .char literal ih
  | group pair inner _ _ ih => exact .group pair inner ih

/-- Token text may be moved behind a blank, whatever stands before the blank. -/
theorem after_blank (token : TokenText commas before text) {c : Char} (blank : isBlank c = true)
    (outside : Text) : TokenText commas (outside ++ c :: before) text := by
  induction token with
  | nil => exact .nil
  | plain isPlain _ ih => exact .plain isPlain (by simpa using ih)
  | comma _ ih => exact .comma (by simpa using ih)
  | string body closed _ ih =>
      exact .string body (fun opens => closed (opens.of_append_blank blank)) (by simpa using ih)
  | raw literal noWord _ ih =>
      exact .raw literal (endsInWord_append_blank blank noWord outside) (by simpa using ih)
  | char literal _ ih => exact .char literal (by simpa using ih)
  | group pair _ _ ihInner ih =>
      exact .group pair (by simpa using ihInner) (by simpa using ih)

/-- Characters that stand for themselves may stand in front of token text. -/
theorem plains {front : Text} (allPlain : ∀ c ∈ front, isPlain c = true)
    (token : TokenText commas (before ++ front) text) :
    TokenText commas before (front ++ text) := by
  induction front generalizing before with
  | nil => simpa using token
  | cons c front ih =>
      obtain ⟨isPlain, allPlain⟩ := List.forall_mem_cons.mp allPlain
      exact .plain isPlain (ih allPlain (by simpa using token))

theorem of_plain (allPlain : ∀ c ∈ text, isPlain c = true) : TokenText commas before text := by
  have token : TokenText commas before (text ++ []) := .plains allPlain .nil
  rwa [List.append_nil] at token

end TokenText

/-! ## The lengths of literals -/

theorem RawString.ne_nil {literal : Text} (raw : RawString literal) : literal ≠ [] := by
  cases raw
  simp

theorem CharLiteral.ne_nil {literal : Text} (char : CharLiteral literal) : literal ≠ [] := by
  cases char <;> simp

theorem stringLength_append {body : Text} (string : StringBody body) (rest : Text) :
    stringLength (body ++ rest) = body.length := by
  induction string with
  | close => cases rest <;> rfl
  | escape c _ ih =>
      rw [List.cons_append, List.cons_append, stringLength, if_pos rfl, ih, List.length_cons,
        List.length_cons]
      omega
  | @plain c body notEscape notQuote _ ih =>
      have unfolded (text : Text) : stringLength (c :: text) = 1 + stringLength text := by
        cases text <;> simp [stringLength, notEscape, notQuote]
      rw [List.cons_append, unfolded, ih, List.length_cons, Nat.add_comm]

/-- Hashes in front of a text with a quote are in front of the quote. -/
theorem prefix_of_hashes {hashes content rest : Text} (allHashes : ∀ c ∈ hashes, c = '#')
    (start : hashes <+: content ++ doubleQuote :: rest) : hashes <+: content := by
  obtain ⟨after, same⟩ := start
  rcases List.append_eq_append_iff.mp same with ⟨more, inside, -⟩ | ⟨more, further, quoted⟩
  · exact ⟨more, inside.symm⟩
  · cases more with
    | nil => simp [further]
    | cons c more =>
        have quote : doubleQuote = c := (List.cons.inj quoted).1
        have hash := allHashes c (by simp [further])
        rw [← quote] at hash
        exact absurd hash (by decide)

theorem rawStringLength_append {hashes content : Text} (allHashes : ∀ c ∈ hashes, c = '#')
    (free : ¬ doubleQuote :: hashes <:+: content) (rest : Text) :
    rawStringLength hashes (content ++ doubleQuote :: hashes ++ rest) =
      content.length + 1 + hashes.length := by
  induction content with
  | nil => simp [rawStringLength, startsWith]
  | cons c content ih =>
      have open_ : (c = doubleQuote && startsWith hashes
          (content ++ doubleQuote :: hashes ++ rest)) = false := by
        rw [Bool.and_eq_false_iff]
        by_contra both
        simp only [decide_eq_false_iff_not, not_or, not_not, Bool.not_eq_false] at both
        obtain ⟨rfl, start⟩ := both
        rw [startsWith, List.isPrefixOf_iff_prefix, List.append_assoc, List.cons_append] at start
        have inside := prefix_of_hashes allHashes start
        exact free (List.cons_prefix_cons.mpr ⟨rfl, inside⟩).isInfix
      have free : ¬ doubleQuote :: hashes <:+: content := by
        intro found
        exact free (found.trans (List.suffix_cons c content).isInfix)
      rw [List.cons_append, List.cons_append, rawStringLength, open_, ih free, List.length_cons]
      simp only [Bool.false_eq_true, if_false]
      omega

theorem takeWhile_hashes {hashes rest : Text} (allHashes : ∀ c ∈ hashes, c = '#') :
    (hashes ++ doubleQuote :: rest).takeWhile (· = '#') = hashes := by
  rw [List.takeWhile_append_of_pos (by simpa using allHashes),
    List.takeWhile_cons_of_neg (by decide), List.append_nil]

theorem rawTailLength?_append {hashes : Text} (allHashes : ∀ c ∈ hashes, c = '#') (rest : Text) :
    rawTailLength? (hashes ++ doubleQuote :: rest) =
      some (hashes.length + 1 + rawStringLength hashes rest) := by
  rw [rawTailLength?, takeWhile_hashes allHashes, List.drop_left]
  simp

theorem literalLength?_string {body : Text} (string : StringBody body) (previous : Option Char)
    (rest : Text) :
    literalLength? previous (doubleQuote :: body ++ rest) = some (doubleQuote :: body).length := by
  rw [List.cons_append, literalLength?, if_neg (by decide), if_pos rfl,
    stringLength_append string, List.length_cons, Nat.add_comm]

/-- Where no word is continued, a mark with hashes and a quote begins a raw string. -/
theorem literalLength?_mark {mark hashes : Text} (isMark : RawMark mark)
    (allHashes : ∀ c ∈ hashes, c = '#') {previous : Option Char}
    (noWord : previous.any isWord = false) (rest : Text) :
    literalLength? previous (mark ++ hashes ++ doubleQuote :: rest) =
      some (mark.length + (hashes.length + 1 + rawStringLength hashes rest)) := by
  have tail := rawTailLength?_append allHashes rest
  rw [List.append_assoc]
  cases isMark with
  | raw =>
      rw [List.singleton_append, literalLength?, if_pos (by decide), noWord,
        if_neg Bool.false_ne_true, rawLength?, tail]
      rfl
  | byteRaw =>
      rw [List.cons_append, List.singleton_append, literalLength?, if_pos (by decide), noWord,
        if_neg Bool.false_ne_true, rawLength?, tail]
      rfl

theorem literalLength?_raw {literal : Text} (raw : RawString literal) {previous : Option Char}
    (noWord : previous.any isWord = false) (rest : Text) :
    literalLength? previous (literal ++ rest) = some literal.length := by
  cases raw with
  | @intro mark hashes content isMark allHashes free =>
      have begun := literalLength?_mark isMark allHashes noWord
        (content ++ doubleQuote :: hashes ++ rest)
      rw [rawStringLength_append allHashes free] at begun
      have shape : mark ++ hashes ++ doubleQuote :: content ++ doubleQuote :: hashes ++ rest =
          mark ++ hashes ++ doubleQuote :: (content ++ doubleQuote :: hashes ++ rest) := by
        simp
      rw [shape, begun]
      simp only [List.length_append, List.length_cons]
      congr 1
      omega

theorem takeWhile_isHex {digits rest : Text} (allHex : ∀ c ∈ digits, isHex c = true) :
    (digits ++ '\x7d' :: rest).takeWhile isHex = digits := by
  rw [List.takeWhile_append_of_pos allHex, List.takeWhile_cons_of_neg (by decide),
    List.append_nil]

theorem unicodeEscapeLength?_append {digits : Text} (some : digits ≠ [])
    (allHex : ∀ c ∈ digits, isHex c = true) (rest : Text) :
    unicodeEscapeLength? ('\x7b' :: (digits ++ '\x7d' :: rest)) = .some (digits.length + 2) := by
  rw [unicodeEscapeLength?, hexCount, takeWhile_isHex allHex]
  simp [some]

theorem literalLength?_char {literal : Text} (char : CharLiteral literal) (previous : Option Char)
    (rest : Text) : literalLength? previous (literal ++ rest) = some literal.length := by
  have tail (text : Text) : literalLength? previous (singleQuote :: text) =
      (charTailLength? text).map (1 + ·) := by
    rw [literalLength?, if_neg (by decide), if_neg (by decide), if_pos rfl]
  cases char with
  | @hex first second isFirst isSecond =>
      rw [List.cons_append, tail]
      simp [charTailLength?, hexCount, isFirst, isSecond, endsQuote]
  | @unicode digits some allHex =>
      have shape :
          [singleQuote, backslash, 'u', '\x7b'] ++ digits ++ ['\x7d', singleQuote] ++ rest =
          singleQuote :: backslash :: 'u' :: '\x7b' ::
            (digits ++ '\x7d' :: singleQuote :: rest) := by
        simp
      rw [shape, tail]
      simp [charTailLength?, unicodeEscapeLength?_append some allHex, endsQuote]
      omega
  | @escaped c notNewline =>
      have noHex : hexCount (singleQuote :: rest.take 1) = 0 := rfl
      have noUnicode : unicodeEscapeLength? (singleQuote :: rest) = none := rfl
      rw [List.cons_append, tail]
      simp [charTailLength?, noHex, noUnicode, endsQuote, notNewline]
  | plain notEscape notQuote notNewline =>
      rw [List.cons_append, tail]
      simp [charTailLength?, endsQuote, notEscape, notQuote, notNewline]

end HarnessIndex.Attribute
