import HarnessIndex.Proofs.Attribute.Arguments

/-!
# Literals in any text

In a text that need not be token text a literal is recognized by its opening: a quote, the mark and
the hashes of a raw string with their quote, or a whole character literal. From there it reaches to
where it is closed, or to the end of the text. No opening reaches beyond the end of an argument, so
what follows an argument does not decide which literals begin in it.
-/

namespace HarnessIndex.Attribute

open Text

/-! ## Openings -/

/-- What a literal is recognized by, when `previous` stands before it. -/
inductive Opening (previous : Option Char) : Text → Prop where
  | string : Opening previous [doubleQuote]
  | raw {mark hashes : Text} : RawMark mark → (∀ c ∈ hashes, c = '#') →
      previous.any isWord = false → Opening previous (mark ++ hashes ++ [doubleQuote])
  | char {literal : Text} : CharLiteral literal → Opening previous literal

theorem exists_of_endsQuote {text : Text} (ends : endsQuote text = true) :
    ∃ after, text = singleQuote :: after := by
  cases text with
  | nil => cases ends
  | cons c after => exact ⟨after, congrArg (· :: after) (of_decide_eq_true ends)⟩

theorem exists_of_hexCount {text : Text} (two : 2 ≤ hexCount (text.take 2)) :
    ∃ first second after, text = first :: second :: after ∧ isHex first = true ∧
      isHex second = true := by
  cases text with
  | nil => exact absurd two (by decide)
  | cons first text =>
      cases text with
      | nil =>
          have short := (List.takeWhile_prefix (l := [first]) isHex).length_le
          exact absurd (two.trans short) (by simp)
      | cons second after =>
          refine ⟨first, second, after, rfl, ?_⟩
          rw [hexCount, List.take_succ_cons, List.take_succ_cons, List.take_zero] at two
          cases isFirst : isHex first with
          | false => simp [isFirst] at two
          | true =>
              cases isSecond : isHex second with
              | false => simp [isFirst, isSecond] at two
              | true => exact ⟨rfl, rfl⟩

theorem exists_of_unicodeEscapeLength? {text : Text} {size : Nat}
    (found : unicodeEscapeLength? text = some size) :
    ∃ digits after, text = '\x7b' :: (digits ++ '\x7d' :: after) ∧ digits ≠ [] ∧
      (∀ c ∈ digits, isHex c = true) ∧ size = digits.length + 2 := by
  unfold unicodeEscapeLength? at found
  split at found
  · rename_i rest
    simp only at found
    split at found
    · rename_i after closed
      split at found
      · cases found
      · rename_i some
        have whole : rest = rest.takeWhile isHex ++ '\x7d' :: after := by
          rw [← closed]
          exact (List.prefix_iff_eq_append.mp (List.takeWhile_prefix isHex)).symm
        refine ⟨rest.takeWhile isHex, after, congrArg _ whole, ?_, ?_, ?_⟩
        · intro none
          exact some (by rw [hexCount, none, List.length_nil])
        · exact fun c member => List.mem_takeWhile_imp member
        · exact (Option.some.inj found).symm
    · cases found
  · cases found

theorem exists_charLiteral_escape {escape : Char} {after : Text} {size : Nat}
    (found : charTailLength? (backslash :: escape :: after) = some size) :
    ∃ literal, CharLiteral literal ∧ literal <+: singleQuote :: backslash :: escape :: after := by
  rw [charTailLength?.eq_def] at found
  simp only [if_true] at found
  split at found
  · rename_i hex
    simp only [Bool.and_eq_true, decide_eq_true_iff] at hex
    obtain ⟨⟨rfl, two⟩, ends⟩ := hex
    obtain ⟨first, second, last, rfl, isFirst, isSecond⟩ := exists_of_hexCount two
    obtain ⟨more, rfl⟩ := exists_of_endsQuote ends
    exact ⟨_, .hex isFirst isSecond, more, rfl⟩
  · split at found
    · rename_i length unicode
      split at unicode
      · rename_i isUnicode
        subst isUnicode
        obtain ⟨digits, rest, rfl, some, allHex, rfl⟩ := exists_of_unicodeEscapeLength? unicode
        split at found
        · rename_i ends
          have size : ('\x7b' :: (digits ++ '\x7d' :: rest)).drop (digits.length + 2) = rest := by
            simp
          rw [size] at ends
          obtain ⟨more, rfl⟩ := exists_of_endsQuote ends
          exact ⟨_, .unicode some allHex, more, by simp⟩
        · cases found
      · cases unicode
    · split at found
      · rename_i ends
        rw [Bool.and_eq_true, decide_eq_true_iff] at ends
        obtain ⟨notNewline, ends⟩ := ends
        obtain ⟨more, rfl⟩ := exists_of_endsQuote ends
        exact ⟨_, .escaped notNewline, more, rfl⟩
      · cases found

theorem exists_charLiteral {rest : Text} {size : Nat} (found : charTailLength? rest = some size) :
    ∃ literal, CharLiteral literal ∧ literal <+: singleQuote :: rest := by
  cases rest with
  | nil => cases found
  | cons c rest =>
      by_cases isEscape : c = backslash
      · subst isEscape
        cases rest with
        | nil => cases found
        | cons escape after => exact exists_charLiteral_escape found
      · rw [charTailLength?.eq_def] at found
        simp only [isEscape, if_false] at found
        split at found
        · cases found
        · rename_i plain
          simp only [Bool.or_eq_true, decide_eq_true_iff, not_or] at plain
          split at found
          · rename_i ends
            obtain ⟨more, rfl⟩ := exists_of_endsQuote ends
            exact ⟨_, .plain isEscape plain.1 plain.2, more, rfl⟩
          · cases found

/-- What is read as a raw string begins with its mark, and a quote follows. -/
theorem exists_of_rawLength? {text : Text} {size : Nat} (found : rawLength? text = some size) :
    ∃ mark after, RawMark mark ∧ text = mark ++ after ∧ QuoteFollows after := by
  have follows {after : Text} {length : Nat} {add : Nat → Nat}
      (tail : (rawTailLength? after).map add = some length) : QuoteFollows after := by
    by_contra none
    rw [rawTailLength?_eq_none none] at tail
    cases tail
  unfold rawLength? at found
  split at found
  · rename_i after
    exact ⟨['b', 'r'], after, .byteRaw, rfl, follows found⟩
  · rename_i after
    exact ⟨['r'], after, .raw, rfl, follows found⟩
  · cases found

/-- A text that begins with a literal begins with its opening. -/
theorem exists_opening {previous : Option Char} {text : Text} {size : Nat}
    (found : literalLength? previous text = some size) :
    ∃ opening, Opening previous opening ∧ opening <+: text := by
  cases text with
  | nil => cases found
  | cons c rest =>
      rw [literalLength?] at found
      split at found
      · split at found
        · cases found
        · rename_i noWord
          rw [Bool.not_eq_true] at noWord
          obtain ⟨mark, after, isMark, split, follows⟩ := exists_of_rawLength? found
          obtain ⟨hashes, more, rfl, allHashes⟩ := follows
          exact ⟨_, .raw isMark allHashes noWord, more, by simp [split]⟩
      · split at found
        · rename_i quote
          exact ⟨_, .string, rest, congrArg (· :: rest) quote.symm⟩
        · split at found
          · rename_i quote
            obtain ⟨length, tail, -⟩ := Option.map_eq_some_iff.mp found
            obtain ⟨literal, isLiteral, inFront⟩ := exists_charLiteral tail
            rw [← quote] at inFront
            exact ⟨literal, .char isLiteral, inFront⟩
          · cases found

/-! ## Closed and unclosed literals -/

/-- A literal that is closed, when `previous` stands before it. -/
inductive Literal (previous : Option Char) : Text → Prop where
  | string {body : Text} : StringBody body → Literal previous (doubleQuote :: body)
  | raw {literal : Text} : RawString literal → previous.any isWord = false →
      Literal previous literal
  | char {literal : Text} : CharLiteral literal → Literal previous literal

/-- A text that is a literal which is not closed. -/
inductive Unclosed (previous : Option Char) : Text → Prop where
  | string {rest : Text} : (∀ body, StringBody body → ¬ body <+: rest) →
      Unclosed previous (doubleQuote :: rest)
  | raw {mark hashes content : Text} : RawMark mark → (∀ c ∈ hashes, c = '#') →
      previous.any isWord = false → ¬ doubleQuote :: hashes <:+: content →
      Unclosed previous (mark ++ hashes ++ doubleQuote :: content)

theorem stringLength_of_unclosed {text : Text}
    (unclosed : ∀ body, StringBody body → ¬ body <+: text) : stringLength text = text.length := by
  fun_induction stringLength text with
  | case1 => rfl
  | case2 => rfl
  | case3 c after ih =>
      rw [ih fun body string inFront => unclosed _ (.escape c string)
        (List.cons_prefix_cons.mpr ⟨rfl, List.cons_prefix_cons.mpr ⟨rfl, inFront⟩⟩)]
      simp only [List.length_cons]
      omega
  | case4 rest =>
      have closed : [doubleQuote] <+: doubleQuote :: rest := ⟨rest, rfl⟩
      exact absurd closed (unclosed _ .close)
  | case5 c rest notEscape notQuote ih =>
      rw [ih fun body string inFront => unclosed _ (.plain notEscape notQuote string)
        (List.cons_prefix_cons.mpr ⟨rfl, inFront⟩), List.length_cons, Nat.add_comm]

/-- A raw string that is not closed reaches to the end. -/
theorem rawStringLength_of_unclosed {hashes content : Text}
    (unclosed : ¬ doubleQuote :: hashes <:+: content) :
    rawStringLength hashes content = content.length := by
  induction content with
  | nil => rfl
  | cons c content ih =>
      have notHere : (c = doubleQuote && startsWith hashes content) = false := by
        rw [Bool.and_eq_false_iff]
        by_contra both
        simp only [decide_eq_false_iff_not, not_or, not_not, Bool.not_eq_false] at both
        obtain ⟨rfl, start⟩ := both
        rw [startsWith, List.isPrefixOf_iff_prefix] at start
        exact unclosed (List.cons_prefix_cons.mpr ⟨rfl, start⟩).isInfix
      rw [rawStringLength, notHere, List.length_cons,
        ih fun later => unclosed (later.trans (List.suffix_cons c content).isInfix)]
      simp only [Bool.false_eq_true, if_false]
      omega

/-- A raw string is closed by the first quote with its hashes. -/
theorem exists_first_closer {closer content : Text} (some : closer ≠ [])
    (closed : closer <:+: content) :
    ∃ front back, content = front ++ closer ++ back ∧ ¬ closer <:+: front := by
  induction content with
  | nil => exact absurd (List.infix_nil.mp closed) some
  | cons c content ih =>
      rcases List.infix_cons_iff.mp closed with ⟨back, here⟩ | later
      · exact ⟨[], back, here.symm, fun none => some (List.infix_nil.mp none)⟩
      · by_cases start : closer <+: c :: content
        · obtain ⟨back, here⟩ := start
          exact ⟨[], back, here.symm, fun none => some (List.infix_nil.mp none)⟩
        · obtain ⟨front, back, rfl, free⟩ := ih later
          refine ⟨c :: front, back, rfl, ?_⟩
          rw [List.infix_cons_iff]
          rintro (inFront | inside)
          · exact start (inFront.trans ⟨closer ++ back, by simp⟩)
          · exact free inside

/-- A literal is closed or reaches to the end of the text. -/
theorem Opening.cases_literal {previous : Option Char} {opening text : Text}
    (opens : Opening previous opening) (inFront : opening <+: text) :
    (∃ literal rest, text = literal ++ rest ∧ Literal previous literal) ∨
      Unclosed previous text := by
  obtain ⟨after, rfl⟩ := inFront
  cases opens with
  | string =>
      by_cases closed : ∃ body, StringBody body ∧ body <+: after
      · obtain ⟨body, string, rest, rfl⟩ := closed
        exact Or.inl ⟨doubleQuote :: body, rest, rfl, .string string⟩
      · exact Or.inr (.string fun body string inFront => closed ⟨body, string, inFront⟩)
  | @raw mark hashes isMark allHashes noWord =>
      rw [List.append_assoc _ [doubleQuote], List.singleton_append]
      by_cases closed : doubleQuote :: hashes <:+: after
      · obtain ⟨content, rest, rfl, free⟩ := exists_first_closer (List.cons_ne_nil _ _) closed
        exact Or.inl ⟨_, rest, by simp, .raw (.intro isMark allHashes free) noWord⟩
      · exact Or.inr (.raw isMark allHashes noWord closed)
  | char literal => exact Or.inl ⟨opening, after, rfl, .char literal⟩

namespace Literal

variable {previous : Option Char} {literal : Text}

theorem ne_nil (isLiteral : Literal previous literal) : literal ≠ [] := by
  cases isLiteral with
  | string _ => exact List.cons_ne_nil _ _
  | raw raw _ => exact raw.ne_nil
  | char char => exact char.ne_nil

theorem literalLength?_eq (isLiteral : Literal previous literal) (rest : Text) :
    literalLength? previous (literal ++ rest) = some literal.length := by
  cases isLiteral with
  | string string => exact literalLength?_string string previous rest
  | raw raw noWord => exact literalLength?_raw raw noWord rest
  | char char => exact literalLength?_char char previous rest

end Literal

theorem StringBody.exists_quote {body : Text} (string : StringBody body) :
    ∃ front, body = front ++ [doubleQuote] := by
  induction string with
  | close => exact ⟨[], rfl⟩
  | escape c _ ih =>
      obtain ⟨front, rfl⟩ := ih
      exact ⟨backslash :: c :: front, rfl⟩
  | @plain c _ _ _ _ ih =>
      obtain ⟨front, rfl⟩ := ih
      exact ⟨c :: front, rfl⟩

/-- A quote with hashes after it ends in one of them. -/
theorem exists_last_of_hashes {hashes : Text} (allHashes : ∀ c ∈ hashes, c = '#') (front : Text) :
    ∃ inner c, front ++ doubleQuote :: hashes = inner ++ [c] ∧ (c = doubleQuote ∨ c = '#') := by
  rcases List.eq_nil_or_concat hashes with rfl | ⟨hashes, hash, rfl⟩
  · exact ⟨front, doubleQuote, rfl, Or.inl rfl⟩
  · exact ⟨front ++ doubleQuote :: hashes, hash, by simp, Or.inr (allHashes hash (by simp))⟩

/-- Only the character before its closing quote can be a comma in a character literal. -/
theorem CharLiteral.exists_opened {literal : Text} (char : CharLiteral literal) :
    ∃ opened c, literal = opened ++ [c, singleQuote] ∧ ',' ∉ opened := by
  cases char with
  | @hex first second isFirst _ =>
      have notFirst : ',' ≠ first := by
        rintro rfl
        exact absurd isFirst (by decide)
      exact ⟨[singleQuote, backslash, 'x', first], second, rfl, by
        simp [notFirst, singleQuote, backslash]⟩
  | @unicode digits _ allHex =>
      have notDigit : ',' ∉ digits := by
        intro member
        exact absurd (allHex ',' member) (by decide)
      exact ⟨[singleQuote, backslash, 'u', '\x7b'] ++ digits, '\x7d', by simp, by
        simp [notDigit, singleQuote, backslash]⟩
  | @escaped c _ => exact ⟨[singleQuote, backslash], c, rfl, by decide⟩
  | @plain c _ _ _ => exact ⟨[singleQuote], c, rfl, by decide⟩

theorem CharLiteral.exists_cons {literal : Text} (char : CharLiteral literal) :
    ∃ rest, literal = singleQuote :: rest := by
  cases char <;> exact ⟨_, rfl⟩

/-- A text that neither begins nor ends with a blank. -/
structure SolidEnds (text : Text) : Prop where
  first : ∃ c rest, text = c :: rest ∧ isBlank c = false
  last : ∃ front c, text = front ++ [c] ∧ isBlank c = false

theorem StringBody.solidEnds {body : Text} (string : StringBody body) :
    SolidEnds (doubleQuote :: body) where
  first := ⟨doubleQuote, body, rfl, by decide⟩
  last := by
    obtain ⟨front, rfl⟩ := string.exists_quote
    exact ⟨doubleQuote :: front, doubleQuote, rfl, by decide⟩

theorem RawString.solidEnds {literal : Text} (raw : RawString literal) : SolidEnds literal where
  first := by
    cases raw with
    | intro isMark _ _ =>
        cases isMark with
        | raw => exact ⟨'r', _, rfl, by decide⟩
        | byteRaw => exact ⟨'b', _, rfl, by decide⟩
  last := by
    cases raw with
    | @intro mark hashes content _ allHashes _ =>
        obtain ⟨front, c, shape, rfl | rfl⟩ :=
          exists_last_of_hashes allHashes (mark ++ hashes ++ doubleQuote :: content)
        · exact ⟨front, doubleQuote, shape, by decide⟩
        · exact ⟨front, '#', shape, by decide⟩

theorem CharLiteral.solidEnds {literal : Text} (char : CharLiteral literal) :
    SolidEnds literal where
  first := by
    obtain ⟨rest, rfl⟩ := char.exists_cons
    exact ⟨singleQuote, rest, rfl, by decide⟩
  last := by
    obtain ⟨opened, c, rfl, -⟩ := char.exists_opened
    exact ⟨opened ++ [c], singleQuote, by simp, by decide⟩

theorem Literal.solidEnds {previous : Option Char} {literal : Text}
    (isLiteral : Literal previous literal) : SolidEnds literal := by
  cases isLiteral with
  | string string => exact string.solidEnds
  | raw raw _ => exact raw.solidEnds
  | char char => exact char.solidEnds

theorem Literal.trimEnd_append {previous : Option Char} {literal : Text}
    (isLiteral : Literal previous literal) (rest : Text) :
    trimEnd (literal ++ rest) = literal ++ trimEnd rest := by
  obtain ⟨front, c, rfl, solid⟩ := isLiteral.solidEnds.last
  rw [List.append_assoc, List.singleton_append, trimEnd_append_solid solid, List.append_assoc,
    List.singleton_append]

namespace Unclosed

variable {previous : Option Char} {text : Text}

theorem ne_nil (unclosed : Unclosed previous text) : text ≠ [] := by
  cases unclosed <;> simp

theorem literalLength?_eq (unclosed : Unclosed previous text) :
    literalLength? previous text = some text.length := by
  cases unclosed with
  | string unclosed =>
      rw [literalLength?, if_neg (by decide), if_pos rfl, stringLength_of_unclosed unclosed,
        List.length_cons, Nat.add_comm]
  | raw isMark allHashes noWord unclosed =>
      rw [literalLength?_mark isMark allHashes noWord, rawStringLength_of_unclosed unclosed]
      simp only [List.length_append, List.length_cons]
      congr 1
      omega

/-- Without the blanks at its end it is not closed either. -/
theorem trimEnd (unclosed : Unclosed previous text) : Unclosed previous (trimEnd text) := by
  cases unclosed with
  | @string rest unclosed =>
      rw [trimEnd_cons_solid (by decide)]
      refine .string fun body string inFront => unclosed body string ?_
      exact inFront.trans (prefix_trimEnd rest)
  | @raw mark hashes content isMark allHashes noWord unclosed =>
      rw [trimEnd_append_solid (by decide)]
      refine .raw isMark allHashes noWord fun inside => unclosed ?_
      exact inside.trans (prefix_trimEnd content).isInfix

end Unclosed

/-! ## What follows an argument -/

theorem CharLiteral.eq_of_comma {front back : Text} (char : CharLiteral (front ++ ',' :: back)) :
    back = [singleQuote] := by
  obtain ⟨opened, c, same, noComma⟩ := char.exists_opened
  rcases List.append_eq_append_iff.mp same with ⟨more, rfl, rest⟩ | ⟨more, rfl, rest⟩
  · cases more with
    | nil => exact (List.cons.inj rest).2
    | cons first more =>
        rw [← (List.cons.inj rest).1] at noComma
        exact absurd (by simp) noComma
  · rcases more with _ | ⟨first, _ | ⟨second, more⟩⟩
    · exact (List.cons.inj rest).2.symm
    · exact absurd (List.cons.inj (List.cons.inj rest).2).1 (by decide)
    · simp at rest

/-- A comma in a character literal comes after a quote, or after the backslash that follows it. -/
theorem CharLiteral.getLast?_of_comma {front : Text}
    (char : CharLiteral (front ++ [',', singleQuote])) :
    front.getLast? = some singleQuote ∨ front.getLast? = some backslash := by
  generalize whole : front ++ [',', singleQuote] = literal at char
  cases char with
  | @hex first second _ isSecond =>
      have ends : front ++ [',', singleQuote] =
          [singleQuote, backslash, 'x', first] ++ [second, singleQuote] := whole
      rw [← (List.cons.inj (List.append_inj' ends rfl).2).1] at isSecond
      exact absurd isSecond (by decide)
  | @unicode digits _ _ =>
      have ends : front ++ [',', singleQuote] =
          ([singleQuote, backslash, 'u', '\x7b'] ++ digits) ++ ['\x7d', singleQuote] := whole
      exact absurd (List.cons.inj (List.append_inj' ends rfl).2).1 (by decide)
  | @escaped c _ =>
      have ends : front ++ [',', singleQuote] = [singleQuote, backslash] ++ [c, singleQuote] :=
        whole
      rw [(List.append_inj' ends rfl).1]
      exact Or.inr rfl
  | @plain c _ _ _ =>
      have ends : front ++ [',', singleQuote] = [singleQuote] ++ [c, singleQuote] := whole
      rw [(List.append_inj' ends rfl).1]
      exact Or.inl rfl

theorem Opening.charLiteral_of_comma {previous : Option Char} {opening : Text}
    (opens : Opening previous opening) (member : ',' ∈ opening) : CharLiteral opening := by
  cases opens with
  | string => exact absurd member (by decide)
  | raw isMark allHashes _ =>
      rcases List.mem_append.mp member with inFront | inQuote
      · rcases List.mem_append.mp inFront with inMark | inHashes
        · cases isMark <;> exact absurd inMark (by decide)
        · exact absurd (allHashes ',' inHashes) (by decide)
      · exact absurd inQuote (by decide)
  | char char => exact char

/-- An opening that reaches beyond a comma is a character literal with the comma in it, so it ends
in the quote that follows the comma. -/
theorem Opening.eq_of_comma {previous : Option Char} {opening text rest : Text}
    (opens : Opening previous opening) (inFront : opening <+: text ++ ',' :: rest) :
    opening <+: text ∨
      rest.head? = some singleQuote ∧ CharLiteral (text ++ [',', singleQuote]) := by
  obtain ⟨after, same⟩ := inFront
  rcases List.append_eq_append_iff.mp same with ⟨inner, within, -⟩ | ⟨beyond, reaches, further⟩
  · exact Or.inl ⟨inner, within.symm⟩
  · cases beyond with
    | nil => exact Or.inl ⟨[], by rw [reaches, List.append_nil, List.append_nil]⟩
    | cons c beyond =>
        obtain ⟨rfl, rfl⟩ := List.cons.inj further
        have char := opens.charLiteral_of_comma (by rw [reaches]; simp)
        rw [reaches] at char
        obtain rfl := char.eq_of_comma
        exact Or.inr ⟨rfl, char⟩

/-- No literal that begins in a text is recognized only by what follows the text. -/
def Apart (text more : Text) : Prop :=
  ∀ tail previous opening, tail <:+ text → tail ≠ [] → Opening previous opening →
    opening <+: tail ++ more → opening <+: tail

theorem Apart.of_suffix {text tail more : Text} (apart : Apart text more) (suffix : tail <:+ text) :
    Apart tail more :=
  fun inner previous opening further => apart inner previous opening (further.trans suffix)

theorem apart_nil (text : Text) : Apart text [] := by
  intro tail previous opening _ _ _ inFront
  rwa [List.append_nil] at inFront

/-- Before a comma with no single quote behind it no literal is left open. -/
theorem apart_of_head {rest : Text} (noQuote : rest.head? ≠ some singleQuote) (text : Text) :
    Apart text (',' :: rest) := by
  intro tail previous opening _ _ opens inFront
  rcases opens.eq_of_comma inFront with within | ⟨quote, -⟩
  · exact within
  · exact absurd quote noQuote

/-- A text that does not end in a single quote or a backslash leaves no literal open before a
comma. -/
theorem apart_of_getLast? {text : Text} (noQuote : text.getLast? ≠ some singleQuote)
    (noEscape : text.getLast? ≠ some backslash) (rest : Text) : Apart text (',' :: rest) := by
  intro tail previous opening suffix some opens inFront
  rcases opens.eq_of_comma inFront with within | ⟨-, char⟩
  · exact within
  · obtain ⟨front, rfl⟩ := suffix
    rw [List.getLast?_append_of_ne_nil _ some] at noQuote noEscape
    rcases char.getLast?_of_comma with quote | escape
    · exact absurd quote noQuote
    · exact absurd escape noEscape

/-- Where no literal begins, none begins in another text whose openings all stand in the first. -/
theorem literalLength?_of_openings {previous : Option Char} {text other : Text}
    (none : literalLength? previous text = .none)
    (fewer : ∀ opening, Opening previous opening → opening <+: other → opening <+: text) :
    literalLength? previous other = .none := by
  by_contra some
  obtain ⟨size, found⟩ := Option.ne_none_iff_exists'.mp some
  obtain ⟨opening, opens, inFront⟩ := exists_opening found
  rcases opens.cases_literal (fewer opening opens inFront) with
    ⟨literal, after, split, isLiteral⟩ | unclosed
  · rw [split, isLiteral.literalLength?_eq] at none
    cases none
  · rw [unclosed.literalLength?_eq] at none
    cases none

/-- Where no literal begins in the whole text, none begins in its front part. -/
theorem literalLength?_of_append {previous : Option Char} {text rest : Text}
    (none : literalLength? previous (text ++ rest) = .none) :
    literalLength? previous text = .none := by
  apply literalLength?_of_openings none
  intro opening _ inFront
  exact inFront.trans (List.prefix_append text rest)

end HarnessIndex.Attribute
