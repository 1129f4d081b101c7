import HarnessIndex.Proofs.Attribute.Pieces

/-!
# Literal tokens as arguments

The literal tokens of the source language are strings, raw strings, character literals and byte
literals, with the marks for bytes and for C strings. All of them stay whole when they are written
as arguments, but for two forms whose openings are not recognized. A character with low lines
between the digits of its escape is copied without being a literal, so that its closing quote and
the comma after it are taken for the beginning of another one where a quote follows. A raw C string
is read as an ordinary string.
-/

namespace HarnessIndex.Attribute

open Text

/-! ## The tokens -/

/-- The marks that a string may have in front. -/
def stringMarks : List Text :=
  ["", "b", "c"]

/-- The marks that a character literal may have in front. -/
def charMarks : List Text :=
  ["", "b"]

/-- A raw C string: its content does not contain a quote with as many hashes as stand in front. -/
inductive RawCString : Text → Prop where
  | intro {hashes content : Text} : (∀ c ∈ hashes, c = '#') →
      ¬ doubleQuote :: hashes <:+: content →
      RawCString ('c' :: 'r' :: hashes ++ doubleQuote :: content ++ doubleQuote :: hashes)

/-- A character literal with low lines between the hexadecimal digits of its escape. -/
inductive GroupedEscape : Text → Prop where
  | intro {mark digits : Text} : mark ∈ charMarks → (∀ c ∈ digits, isHex c = true ∨ c = '_') →
      '_' ∈ digits →
      GroupedEscape (mark ++ singleQuote :: backslash :: 'u' :: '\x7b' :: digits ++
        ['\x7d', singleQuote])

/-- A literal token. -/
inductive LiteralToken : Text → Prop where
  | string {mark body : Text} : mark ∈ stringMarks → StringBody body →
      LiteralToken (mark ++ doubleQuote :: body)
  | raw {literal : Text} : RawString literal → LiteralToken literal
  | rawC {literal : Text} : RawCString literal → LiteralToken literal
  | char {mark literal : Text} : mark ∈ charMarks → CharLiteral literal →
      LiteralToken (mark ++ literal)
  | grouped {literal : Text} : GroupedEscape literal → LiteralToken literal

/-- A raw C string closes where it would close as an ordinary string. -/
def ClosesAsString (literal : Text) : Prop :=
  ∃ hashes body, literal = 'c' :: 'r' :: hashes ++ doubleQuote :: body ++ hashes ∧
    (∀ c ∈ hashes, c = '#') ∧ StringBody body

/-! ## Tokens that are token text -/

theorem isWord_of_mem_stringMarks {mark : Text} (known : mark ∈ stringMarks) :
    ∀ c ∈ mark, isWord c = true := by
  have words : (stringMarks.all fun mark => mark.all isWord) = true := by decide
  exact List.all_eq_true.mp (List.all_eq_true.mp words mark known)

theorem isPlain_of_mem_stringMarks {mark : Text} (known : mark ∈ stringMarks) :
    ∀ c ∈ mark, isPlain c = true := by
  intro c member
  have word := isWord_of_mem_stringMarks known c member
  exact isPlain_of_isPathChar (Descriptor.isPathChar_of_isWord word)

theorem isBlank_of_mem_stringMarks {mark : Text} (known : mark ∈ stringMarks) :
    ∀ c ∈ mark, isBlank c = false :=
  fun c member => isBlank_of_isWord (isWord_of_mem_stringMarks known c member)

theorem mem_stringMarks_of_mem_charMarks {mark : Text} (known : mark ∈ charMarks) :
    mark ∈ stringMarks := by
  have marks : ∀ mark ∈ charMarks, mark ∈ stringMarks := by decide
  exact marks mark known

theorem tokenText_string {mark body : Text} (known : mark ∈ stringMarks)
    (string : StringBody body) : TokenText false [] (mark ++ doubleQuote :: body) := by
  have closed : ¬ OpensRaw mark := by
    have ends : ∀ mark ∈ stringMarks, mark.getLast? ≠ some '#' ∧ mark.getLast? ≠ some 'r' := by
      decide
    exact not_opensRaw_of_last (ends mark known).1 fun mark' => absurd mark' (ends mark known).2
  have token : TokenText false mark (doubleQuote :: body ++ []) := .string string closed .nil
  rw [List.append_nil] at token
  exact .plains (isPlain_of_mem_stringMarks known) token

theorem tokenText_raw {literal : Text} (raw : RawString literal) : TokenText false [] literal := by
  have token : TokenText false [] (literal ++ []) := .raw raw rfl .nil
  rwa [List.append_nil] at token

theorem tokenText_char {mark literal : Text} (known : mark ∈ charMarks)
    (char : CharLiteral literal) : TokenText false [] (mark ++ literal) := by
  have token : TokenText false mark (literal ++ []) := .char char .nil
  rw [List.append_nil] at token
  exact .plains (isPlain_of_mem_stringMarks (mem_stringMarks_of_mem_charMarks known)) token

/-- The mark of a raw C string begins no raw string, because its `r` continues a word. -/
theorem not_opensRaw_rawC {hashes : Text} (allHashes : ∀ c ∈ hashes, c = '#') :
    ¬ OpensRaw ('c' :: 'r' :: hashes) := by
  intro opens
  obtain ⟨front, mark, others, same, isMark, -, noWord⟩ := opens
  cases front with
  | nil => cases isMark <;> exact absurd (List.cons.inj same).1 (by decide)
  | cons c front =>
      cases front with
      | nil =>
          rw [← (List.cons.inj same).1] at noWord
          exact absurd noWord (by decide)
      | cons r front =>
          have split : hashes = front ++ mark ++ others :=
            (List.cons.inj (List.cons.inj same).2).2
          have member : 'r' ∈ hashes := by
            rw [split]
            cases isMark <;> simp
          exact absurd (allHashes 'r' member) (by decide)

theorem tokenText_closesAsString {literal : Text} (closes : ClosesAsString literal) :
    TokenText false [] literal := by
  obtain ⟨hashes, body, rfl, allHashes, string⟩ := closes
  have plain : ∀ c ∈ hashes, isPlain c = true := by
    intro c member
    rw [allHashes c member]
    decide
  have ending : TokenText false ('c' :: 'r' :: hashes ++ doubleQuote :: body) hashes :=
    .of_plain plain
  have front : ∀ c ∈ 'c' :: 'r' :: hashes, isPlain c = true := by
    simpa using ⟨by decide, by decide, plain⟩
  rw [List.append_assoc]
  exact .plains front (.string string (not_opensRaw_rawC allHashes) ending)

/-! ## Escapes with low lines -/

theorem isWord_of_isHex {c : Char} (hex : isHex c = true) : isWord c = true := by
  simp only [isHex, isAsciiDigit, Bool.or_eq_true, Bool.and_eq_true, decide_eq_true_iff] at hex
  have ascii : c.toNat < 0x80 := by omega
  rw [isWord, if_pos ascii]
  simp only [isAsciiLetter, isAsciiDigit, Bool.or_eq_true, Bool.and_eq_true, decide_eq_true_iff]
  omega

theorem isPlain_of_grouped {c : Char} (digit : isHex c = true ∨ c = '_') : isPlain c = true := by
  rcases digit with hex | rfl
  · exact isPlain_of_isPathChar (Descriptor.isPathChar_of_isWord (isWord_of_isHex hex))
  · decide

theorem unicodeEscapeLength?_grouped {digits : Text}
    (grouped : ∀ c ∈ digits, isHex c = true ∨ c = '_') (line : '_' ∈ digits) (rest : Text) :
    unicodeEscapeLength? ('\x7b' :: (digits ++ '\x7d' :: rest)) = none := by
  by_contra some
  obtain ⟨size, found⟩ := Option.ne_none_iff_exists'.mp some
  obtain ⟨hexDigits, after, same, -, allHex, -⟩ := exists_of_unicodeEscapeLength? found
  rcases List.append_eq_append_iff.mp (List.cons.inj same).2 with
    ⟨more, rfl, -⟩ | ⟨more, rfl, further⟩
  · exact absurd (allHex '_' (List.mem_append_left more line)) (by decide)
  · cases more with
    | nil =>
        rw [List.append_nil] at line
        exact absurd (allHex '_' line) (by decide)
    | cons c more =>
        obtain ⟨rfl, -⟩ := List.cons.inj further
        exact absurd (grouped '\x7d' (by simp)) (by decide)

/-- A single quote before an escape that is none begins no literal. -/
theorem literalLength?_grouped {digits : Text}
    (grouped : ∀ c ∈ digits, isHex c = true ∨ c = '_') (line : '_' ∈ digits)
    (previous : Option Char) (rest : Text) :
    literalLength? previous
      (singleQuote :: backslash :: 'u' :: '\x7b' :: (digits ++ '\x7d' :: rest)) = none := by
  have noEscape := unicodeEscapeLength?_grouped grouped line rest
  rw [literalLength?, if_neg (by decide), if_neg (by decide), if_pos rfl]
  simp [charTailLength?, noEscape, endsQuote, singleQuote]

/-- A character with a low line between the digits of its escape. -/
theorem groupedEscape_lowLine : GroupedEscape "'\\u\x7b1_F\x7d'" := by
  have unmarked : [] ∈ charMarks := by decide
  have digits : ∀ c ∈ ['1', '_', 'F'], isHex c = true ∨ c = '_' := by
    simp only [List.forall_mem_cons]
    exact ⟨by decide, by decide, by decide, nofun⟩
  exact .intro unmarked digits (by decide)

theorem cut_charMark {mark : Text} (known : mark ∈ charMarks) (rest : Text) :
    cut 0 0 none (mark ++ singleQuote :: rest) =
      extendFirstBy mark (cut 0 0 mark.getLast? (singleQuote :: rest)) := by
  simp only [charMarks, List.mem_cons, List.not_mem_nil, or_false] at known
  rcases known with rfl | rfl
  · rfl
  · have noLiteral : literalLength? none ('b' :: singleQuote :: rest) = none := rfl
    exact cut_of_copied 0 noLiteral (by decide)

theorem cut_grouped {mark digits : Text} (known : mark ∈ charMarks)
    (grouped : ∀ c ∈ digits, isHex c = true ∨ c = '_') (line : '_' ∈ digits) (more : Text) :
    cut 0 0 none (mark ++ singleQuote :: backslash :: 'u' :: '\x7b' :: digits ++ '\x7d' :: more) =
      extendFirstBy (mark ++ singleQuote :: backslash :: 'u' :: '\x7b' :: digits ++ ['\x7d'])
        (cut 0 0 (some '\x7d') more) := by
  have plain : ∀ c ∈ digits, isPlain c = true :=
    fun c member => isPlain_of_grouped (grouped c member)
  have brackets : Brackets '\x7b' '\x7d' := brackets_of_pair rfl
  have token : TokenText true ['u', '\x7b'] digits := .of_plain plain
  have within := cut_tokenText token 1 (by simp) (brackets.ends more)
  have braced : cut 0 0 (some 'u') ('\x7b' :: digits ++ '\x7d' :: more) =
      extendFirstBy ('\x7b' :: digits ++ ['\x7d'])
        (cut 0 0 (['u'] ++ '\x7b' :: digits ++ ['\x7d']).getLast? more) :=
    brackets.cut_append 0 within
  have lettered : cut 0 0 (some backslash) ('u' :: '\x7b' :: digits ++ '\x7d' :: more) =
      extendFirst 'u' (cut 0 0 (some 'u') ('\x7b' :: digits ++ '\x7d' :: more)) :=
    cut_of_copied 0 rfl (by decide)
  have escaped :
      cut 0 0 (some singleQuote) (backslash :: 'u' :: '\x7b' :: digits ++ '\x7d' :: more) =
      extendFirst backslash
        (cut 0 0 (some backslash) ('u' :: '\x7b' :: digits ++ '\x7d' :: more)) :=
    cut_of_copied 0 rfl (by decide)
  have quoted : cut 0 0 mark.getLast?
      (singleQuote :: backslash :: 'u' :: '\x7b' :: digits ++ '\x7d' :: more) =
      extendFirst singleQuote
        (cut 0 0 (some singleQuote) (backslash :: 'u' :: '\x7b' :: digits ++ '\x7d' :: more)) :=
    cut_of_copied 0 (literalLength?_grouped grouped line mark.getLast? more) (by decide)
  have marked := cut_charMark known (backslash :: 'u' :: '\x7b' :: digits ++ '\x7d' :: more)
  rw [List.append_assoc, List.cons_append, marked]
  rw [List.cons_append] at quoted
  rw [quoted, escaped, lettered, braced, List.getLast?_concat]
  simp [extendFirstBy_append]

namespace GroupedEscape

variable {literal : Text}

/-- Such a literal ends in a single quote, before which it is copied. -/
theorem exists_copied (grouped : GroupedEscape literal) :
    ∃ front, literal = front ++ [singleQuote] ∧ ∀ more,
      cut 0 0 none (literal ++ more) =
        extendFirstBy front (cut 0 0 (some '\x7d') (singleQuote :: more)) := by
  cases grouped with
  | @intro mark digits known grouped line =>
      refine ⟨mark ++ singleQuote :: backslash :: 'u' :: '\x7b' :: digits ++ ['\x7d'], by simp, ?_⟩
      intro more
      have copied := cut_grouped known grouped line (singleQuote :: more)
      rw [← copied]
      simp

theorem piece (grouped : GroupedEscape literal) : Piece false 0 none literal := by
  obtain ⟨front, rfl, copied⟩ := grouped.exists_copied
  have quoted : cut 0 0 (some '\x7d') [singleQuote, ','] = [[singleQuote], []] := rfl
  apply piece_of_cut_comma
  rw [copied [','], quoted, extendFirstBy_piece]

/-- Where a quote follows the comma after such a literal, the comma separates nothing. -/
theorem exists_swallowed (grouped : GroupedEscape literal) (rest : Text) :
    ∃ more pieces, cut 0 0 none (literal ++ ',' :: singleQuote :: rest) =
      (literal ++ ',' :: singleQuote :: more) :: pieces := by
  obtain ⟨front, rfl, copied⟩ := grouped.exists_copied
  have comma : CharLiteral [singleQuote, ',', singleQuote] :=
    .plain (by decide) (by decide) (by decide)
  have taken : cut 0 0 (some '\x7d') (singleQuote :: ',' :: singleQuote :: rest) =
      extendFirstBy [singleQuote, ',', singleQuote] (cut 0 0 (some singleQuote) rest) :=
    cut_of_literal 0 (.char comma) rest
  obtain ⟨more, pieces, parts⟩ :=
    List.exists_cons_of_ne_nil (cut_ne_nil 0 0 (some singleQuote) rest)
  refine ⟨more, pieces, ?_⟩
  rw [copied, taken, parts, extendFirstBy_piece, extendFirstBy_piece]
  simp

end GroupedEscape

/-! ## Solid ends -/

theorem SolidEnds.trimmedPieces {text : Text} (ends : SolidEnds text) :
    trimmedPieces [text] = [text] := by
  obtain ⟨c, rest, start, solidFirst⟩ := ends.first
  obtain ⟨front, c', finish, solidLast⟩ := ends.last
  rw [Attribute.trimmedPieces, List.map_singleton, trim_eq_self start solidFirst finish solidLast]
  exact List.filter_cons_of_pos (by simp [start])

/-- A mark in front keeps the ends of a text solid. -/
theorem SolidEnds.append {mark text : Text} (ends : SolidEnds text)
    (solid : ∀ c ∈ mark, isBlank c = false) : SolidEnds (mark ++ text) where
  first := by
    cases mark with
    | nil => exact ends.first
    | cons c mark => exact ⟨c, mark ++ text, rfl, solid c List.mem_cons_self⟩
  last := by
    obtain ⟨front, c, finish, solidLast⟩ := ends.last
    exact ⟨mark ++ front, c, by rw [finish, List.append_assoc], solidLast⟩

theorem RawCString.exists_mark {literal : Text} (raw : RawCString literal) :
    ∃ rest, literal = 'c' :: 'r' :: rest := by
  cases raw with
  | intro _ _ => exact ⟨_, rfl⟩

/-- A raw C string ends in a quote or a hash. -/
theorem RawCString.exists_last {literal : Text} (raw : RawCString literal) :
    ∃ front c, literal = front ++ [c] ∧ (c = doubleQuote ∨ c = '#') := by
  cases raw with
  | @intro hashes content allHashes _ =>
      exact exists_last_of_hashes allHashes ('c' :: 'r' :: hashes ++ doubleQuote :: content)

theorem RawCString.solidEnds {literal : Text} (raw : RawCString literal) : SolidEnds literal where
  first := by
    obtain ⟨rest, rfl⟩ := raw.exists_mark
    exact ⟨'c', 'r' :: rest, rfl, by decide⟩
  last := by
    obtain ⟨front, c, shape, rfl | rfl⟩ := raw.exists_last
    · exact ⟨front, doubleQuote, shape, by decide⟩
    · exact ⟨front, '#', shape, by decide⟩

theorem GroupedEscape.solidEnds {literal : Text} (grouped : GroupedEscape literal) :
    SolidEnds literal where
  first := by
    cases grouped with
    | @intro mark _ known _ _ =>
        cases mark with
        | nil => exact ⟨singleQuote, _, rfl, by decide⟩
        | cons c mark =>
            have known := mem_stringMarks_of_mem_charMarks known
            exact ⟨c, _, rfl, isBlank_of_mem_stringMarks known c List.mem_cons_self⟩
  last := by
    obtain ⟨front, shape, -⟩ := grouped.exists_copied
    exact ⟨front, singleQuote, shape, by decide⟩

namespace LiteralToken

variable {literal first next : Text}

theorem solidEnds (token : LiteralToken literal) : SolidEnds literal := by
  cases token with
  | string known string => exact string.solidEnds.append (isBlank_of_mem_stringMarks known)
  | raw raw => exact raw.solidEnds
  | rawC raw => exact raw.solidEnds
  | char known char =>
      have known := mem_stringMarks_of_mem_charMarks known
      exact char.solidEnds.append (isBlank_of_mem_stringMarks known)
  | grouped grouped => exact grouped.solidEnds

/-- A literal token is token text, or one of the two forms that are not recognized. -/
theorem tokenText_or (token : LiteralToken literal) :
    TokenText false [] literal ∨ GroupedEscape literal ∨ RawCString literal := by
  cases token with
  | string known string => exact Or.inl (tokenText_string known string)
  | raw raw => exact Or.inl (tokenText_raw raw)
  | rawC raw => exact Or.inr (Or.inr raw)
  | char known char => exact Or.inl (tokenText_char known char)
  | grouped grouped => exact Or.inr (Or.inl grouped)

/-- A literal token is a piece, unless it is a raw C string that does not close as a string. -/
theorem piece (token : LiteralToken literal)
    (closes : RawCString literal → ClosesAsString literal) : Piece false 0 none literal := by
  rcases token.tokenText_or with text | grouped | raw
  · exact piece_of_tokenText text
  · exact grouped.piece
  · exact piece_of_tokenText (tokenText_closesAsString (closes raw))

end LiteralToken

/-! ## Tokens next to each other -/

/-- A comma after an escape with low lines is hidden by a single quote behind it. -/
def HidesComma (first next : Text) : Prop :=
  GroupedEscape first ∧ next.head? = some singleQuote

/-- A comma between two literal tokens separates them, unless it is hidden. -/
theorem commaParts_of_literalToken {first next : Text} (token : LiteralToken first)
    (piece : Piece false 0 none first) (nextToken : LiteralToken next)
    (seen : ¬HidesComma first next) : CommaParts first next := by
  rcases token.tokenText_or with text | grouped | raw
  · exact commaParts_of_tokenText text next
  · obtain ⟨c, rest, rfl, -⟩ := nextToken.solidEnds.first
    apply commaParts_of_piece piece List.head?_cons
    intro quote
    exact seen ⟨grouped, congrArg some quote⟩
  · intro rest
    obtain ⟨front, c, rfl, last⟩ := raw.exists_last
    apply piece.cut_comma
    apply apart_of_getLast?
    · rw [List.getLast?_concat]
      rcases last with rfl | rfl
      · decide
      · decide
    · rw [List.getLast?_concat]
      rcases last with rfl | rfl
      · decide
      · decide

/-- Where a comma is hidden, the first argument does not end before it. -/
theorem not_hidesComma_of_split {first next : Text} {rest pieces : List Text}
    (token : LiteralToken first)
    (split : trimmedPieces (cut 0 0 none (join [','] (first :: next :: rest))) = first :: pieces) :
    ¬HidesComma first next := by
  intro hides
  obtain ⟨grouped, quote⟩ := hides
  obtain ⟨after, rfl⟩ := List.head?_eq_some_iff.mp quote
  obtain ⟨more, start⟩ := exists_join_eq_append [','] (singleQuote :: after) rest
  obtain ⟨swallowed, others, parts⟩ := grouped.exists_swallowed (after ++ more)
  obtain ⟨c, inner, rfl, solid⟩ := token.solidEnds.first
  have kept : trim (c :: inner ++ ',' :: singleQuote :: swallowed) =
      c :: inner ++ ',' :: singleQuote :: trimEnd swallowed := by
    rw [List.cons_append, trim_cons_solid solid, trimEnd_append_solid (by decide),
      trimEnd_cons_solid (by decide)]
    rfl
  have whole : join [','] ((c :: inner) :: (singleQuote :: after) :: rest) =
      c :: inner ++ ',' :: singleQuote :: (after ++ more) := by
    rw [join_cons_cons, start]
    simp
  rw [whole, parts, trimmedPieces_cons, trimmedPieces, List.map_singleton, kept,
    List.filter_cons_of_pos (by simp), List.cons_append, List.cons.injEq] at split
  have longer := congrArg List.length split.1
  simp at longer

/-- Literal tokens that are split apart as they were written hide no comma. -/
theorem chain_of_split {literals : List Text} (tokens : ∀ literal ∈ literals, LiteralToken literal)
    (separate : Separate literals)
    (split : trimmedPieces (cut 0 0 none (join [','] literals)) = literals) :
    literals.IsChain fun first next => ¬HidesComma first next := by
  induction separate with
  | nil => exact .nil
  | @cons first rest piece _ ih =>
      cases rest with
      | nil => exact .singleton first
      | cons next rest =>
          obtain ⟨token, tokens⟩ := List.forall_mem_cons.mp tokens
          have seen := not_hidesComma_of_split token split
          have parts := commaParts_of_literalToken token piece (tokens next List.mem_cons_self) seen
          obtain ⟨more, start⟩ := exists_join_eq_append [','] next rest
          rw [join_cons_cons, List.append_assoc, List.singleton_append, start, parts more, ← start,
            trimmedPieces_cons, token.solidEnds.trimmedPieces, List.singleton_append] at split
          exact .cons_cons seen (ih tokens (List.cons.inj split).2)

/-- Literal tokens that hide no comma are separated by each comma between them. -/
theorem chain_commaParts {literals : List Text}
    (tokens : ∀ literal ∈ literals, LiteralToken literal) (separate : Separate literals)
    (chain : literals.IsChain fun first next => ¬HidesComma first next) :
    literals.IsChain CommaParts := by
  induction separate with
  | nil => exact .nil
  | @cons first rest piece _ ih =>
      cases rest with
      | nil => exact .singleton first
      | cons next rest =>
          obtain ⟨token, tokens⟩ := List.forall_mem_cons.mp tokens
          obtain ⟨seen, chain⟩ := List.isChain_cons_cons.mp chain
          exact .cons_cons
            (commaParts_of_literalToken token piece (tokens next List.mem_cons_self) seen)
            (ih tokens chain)

/-- Literal tokens are pieces wherever they stand, if their raw C strings close as strings. -/
theorem separate_of_literalTokens {literals : List Text}
    (tokens : ∀ literal ∈ literals, LiteralToken literal)
    (closes : ∀ literal ∈ literals, RawCString literal → ClosesAsString literal) :
    Separate literals := by
  induction literals with
  | nil => exact .nil
  | cons literal rest ih =>
      obtain ⟨token, tokens⟩ := List.forall_mem_cons.mp tokens
      obtain ⟨closesHere, closes⟩ := List.forall_mem_cons.mp closes
      have piece := token.piece closesHere
      refine .cons ?_ (ih tokens closes)
      cases rest.isEmpty with
      | false => exact piece
      | true => exact piece.toLast

/-- Literal tokens are split apart as they were written exactly when no comma between them is hidden
and each of them is a piece where it stands. Every token is a piece but a raw C string that does not
close where an ordinary string would. -/
theorem splitArguments_literals {literals : List Text}
    (tokens : ∀ literal ∈ literals, LiteralToken literal) :
    (splitArguments ('(' :: join [','] literals ++ [')']) = literals ↔
      Separate literals ∧ literals.IsChain fun first next => ¬HidesComma first next) ∧
    ((∀ literal ∈ literals, RawCString literal → ClosesAsString literal) → Separate literals) := by
  refine ⟨⟨?_, ?_⟩, separate_of_literalTokens tokens⟩
  · intro split
    have separate : Separate literals := split ▸ separate_splitArguments _
    rw [splitArguments, undelimited_of_brackets rfl] at split
    exact ⟨separate, chain_of_split tokens separate split⟩
  · intro both
    obtain ⟨separate, chain⟩ := both
    have trimmed := trimmedPieces_eq_self fun literal member =>
      (tokens literal member).solidEnds.trimmedPieces
    rw [splitArguments, undelimited_of_brackets rfl]
    cases literals with
    | nil => rfl
    | cons first rest =>
        rw [cut_join_of_chain (List.cons_ne_nil first rest) separate
          (chain_commaParts tokens separate chain), trimmed]

/-- A character with a low line between the digits of its escape, and literals of other forms with a
comma in them. The raw C string closes as a string. -/
def commaLiterals : List Text :=
  ["'\\u\x7b1_F\x7d'", "b\",\"", "cr#\",\"#", "b','"]

theorem literalToken_of_mem_commaLiterals :
    ∀ literal ∈ commaLiterals, LiteralToken literal := by
  have comma : StringBody [',', doubleQuote] := .plain (by decide) (by decide) .close
  have byteString : ['b'] ∈ stringMarks := by decide
  have byteChar : ['b'] ∈ charMarks := by decide
  have hash : ∀ c ∈ ['#'], c = '#' := List.forall_mem_singleton.mpr rfl
  have content : ¬[doubleQuote, '#'] <:+: [','] := by decide
  have char : CharLiteral [singleQuote, ',', singleQuote] :=
    .plain (by decide) (by decide) (by decide)
  simp only [commaLiterals, List.forall_mem_cons]
  exact ⟨.grouped groupedEscape_lowLine, .string byteString comma, .rawC (.intro hash content),
    .char byteChar char, by simp⟩

theorem splitArguments_literals_commas :
    (∀ literal ∈ commaLiterals, LiteralToken literal) ∧
    (∀ literal ∈ commaLiterals, RawCString literal → ClosesAsString literal) ∧
    commaLiterals.IsChain (fun first next => ¬HidesComma first next) ∧
    splitArguments "('\\u\x7b1_F\x7d',b\",\",cr#\",\"#,b',')" = commaLiterals := by
  have tokens := literalToken_of_mem_commaLiterals
  have closes : ∀ literal ∈ commaLiterals, RawCString literal → ClosesAsString literal := by
    have other {c : Char} {rest : Text} (noMark : c ≠ 'c') (raw : RawCString (c :: rest)) :
        ClosesAsString (c :: rest) := by
      obtain ⟨others, mark⟩ := raw.exists_mark
      exact absurd (List.cons.inj mark).1 noMark
    have comma : StringBody [',', doubleQuote] := .plain (by decide) (by decide) .close
    have hash : ∀ c ∈ ['#'], c = '#' := List.forall_mem_singleton.mpr rfl
    simp only [commaLiterals, List.forall_mem_cons]
    refine ⟨other (by decide), other (by decide), ?_, other (by decide), by simp⟩
    exact fun _ => ⟨['#'], [',', doubleQuote], rfl, hash, comma⟩
  have chain : commaLiterals.IsChain fun first next => ¬HidesComma first next := by
    simp [commaLiterals, HidesComma, singleQuote]
  obtain ⟨exact, separate⟩ := splitArguments_literals tokens
  exact ⟨tokens, closes, chain, exact.mpr ⟨separate closes, chain⟩⟩

/-- A comma that is hidden between two characters does not separate them. -/
theorem not_splitArguments_literals :
    ¬∀ literals : List Text, literals ≠ [] → (∀ literal ∈ literals, LiteralToken literal) →
      splitArguments ('(' :: join [','] literals ++ [')']) = literals := by
  intro split
  have unmarked : [] ∈ charMarks := by decide
  have letter : CharLiteral [singleQuote, 'a', singleQuote] :=
    .plain (by decide) (by decide) (by decide)
  have tokens : ∀ literal ∈ ["'\\u\x7b1_F\x7d'".toList, "'a'".toList], LiteralToken literal := by
    simp only [List.forall_mem_cons]
    exact ⟨.grouped groupedEscape_lowLine, .char unmarked letter, by simp⟩
  have whole := split _ (by decide) tokens
  exact absurd whole (by decide)

end HarnessIndex.Attribute
