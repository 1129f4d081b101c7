import HarnessIndex.Proofs.Attribute.TokenText
import HarnessIndex.Proofs.Text.Trim

/-!
# Splitting argument lists

Cutting a text at its top-level commas copies token text as a whole: no comma inside a bracket or a
literal is taken for one between arguments, and the brackets that token text opens are closed again.
Splitting therefore gives back the arguments that were written between the commas.
-/

namespace HarnessIndex.Attribute

open Text

/-! ## Where no raw string begins -/

/-- A quote comes next, after hashes only. -/
def QuoteFollows (text : Text) : Prop :=
  ∃ hashes rest, text = hashes ++ doubleQuote :: rest ∧ ∀ c ∈ hashes, c = '#'

theorem quoteFollows_cons {c : Char} {text : Text} :
    QuoteFollows (c :: text) ↔ c = doubleQuote ∨ c = '#' ∧ QuoteFollows text := by
  constructor
  · rintro ⟨hashes, rest, same, allHashes⟩
    cases hashes with
    | nil => exact Or.inl (List.cons.inj same).1
    | cons hash hashes =>
        obtain ⟨isHash, allHashes⟩ := List.forall_mem_cons.mp allHashes
        rw [List.cons_append, List.cons.injEq] at same
        exact Or.inr ⟨same.1.trans isHash, hashes, rest, same.2, allHashes⟩
  · rintro (rfl | ⟨rfl, hashes, rest, rfl, allHashes⟩)
    · exact ⟨[], text, rfl, by simp⟩
    · exact ⟨'#' :: hashes, rest, rfl, List.forall_mem_cons.mpr ⟨rfl, allHashes⟩⟩

theorem rawTailLength?_eq_none {text : Text} (none : ¬ QuoteFollows text) :
    rawTailLength? text = .none := by
  rw [rawTailLength?]
  split
  · rename_i quote rest after
    rw [if_neg]
    rintro rfl
    refine none ⟨text.takeWhile (· = '#'), rest, ?_, ?_⟩
    · rw [← after]
      have size : text.drop (text.takeWhile (· = '#')).length = text.dropWhile (· = '#') := by
        conv_lhs => arg 2; rw [← List.takeWhile_append_dropWhile (p := (· = '#')) (l := text)]
        exact List.drop_left
      rw [size, List.takeWhile_append_dropWhile]
    · intro c member
      exact of_decide_eq_true (List.mem_takeWhile_imp (p := fun c => decide (c = '#')) member)
  · rfl

theorem OpensRaw.hash {before : Text} (opens : OpensRaw before) : OpensRaw (before ++ ['#']) := by
  obtain ⟨front, mark, hashes, rfl, isMark, allHashes, noWord⟩ := opens
  refine ⟨front, mark, hashes ++ ['#'], by simp, isMark, ?_, noWord⟩
  intro c member
  rcases List.mem_append.mp member with early | last
  · exact allHashes c early
  · exact List.mem_singleton.mp last

theorem opensRaw_of_mark {front mark : Text} (noWord : endsInWord front = false)
    (isMark : RawMark mark) : OpensRaw (front ++ mark) :=
  ⟨front, mark, [], by simp, isMark, by simp, noWord⟩

/-- What follows an argument, or the inside of a bracket: nothing, a comma or a closing bracket. -/
def Ends (more : Text) : Prop :=
  ∀ c ∈ more.head?, c = ',' ∨ isCloser c = true

theorem Ends.not_quoteFollows {more : Text} (ends : Ends more) : ¬ QuoteFollows more := by
  cases more with
  | nil =>
      rintro ⟨hashes, rest, same, -⟩
      simp at same
  | cons c more =>
      rw [quoteFollows_cons]
      rintro (rfl | ⟨rfl, -⟩)
      · exact absurd (ends doubleQuote rfl) (by decide)
      · exact absurd (ends '#' rfl) (by decide)

theorem Ends.head_ne_r {more rest : Text} (ends : Ends more) : more ≠ 'r' :: rest := by
  rintro rfl
  exact absurd (ends 'r' rfl) (by decide)

theorem not_quoteFollows_cons {c : Char} {text : Text} (notQuote : c ≠ doubleQuote)
    (notHash : c ≠ '#') : ¬ QuoteFollows (c :: text) := by
  rw [quoteFollows_cons]
  rintro (same | ⟨same, -⟩)
  · exact notQuote same
  · exact notHash same

theorem isOpener_of_pair {opener closer : Char} (pair : closer? opener = some closer) :
    isOpener opener = true := by
  rw [isOpener, pair, Option.isSome_some]

/-- After the beginning of a raw string no quote follows in token text. -/
theorem not_quoteFollows {commas : Bool} {before text more : Text}
    (token : TokenText commas before text) (opens : OpensRaw before) (ends : Ends more) :
    ¬ QuoteFollows (text ++ more) := by
  induction token with
  | nil => exact ends.not_quoteFollows
  | plain plain _ ih =>
      rw [List.cons_append, quoteFollows_cons]
      rintro (rfl | ⟨rfl, follows⟩)
      · exact absurd plain (by decide)
      · exact ih opens.hash follows
  | comma _ _ => exact not_quoteFollows_cons (by decide) (by decide)
  | string _ closed _ _ => exact absurd opens closed
  | raw literal _ _ _ =>
      cases literal with
      | intro mark _ _ =>
          cases mark with
          | raw => exact not_quoteFollows_cons (by decide) (by decide)
          | byteRaw => exact not_quoteFollows_cons (by decide) (by decide)
  | char literal _ _ =>
      cases literal <;> exact not_quoteFollows_cons (by decide) (by decide)
  | group pair _ _ _ _ =>
      apply not_quoteFollows_cons
      · rintro rfl
        exact absurd (isOpener_of_pair pair) (by decide)
      · rintro rfl
        exact absurd (isOpener_of_pair pair) (by decide)

/-- After a `b` that begins a raw string of bytes, an `r` stands for itself, so it is not the
beginning of a raw string. -/
theorem rest_of_r {commas : Bool} {before text more rest : Text}
    (token : TokenText commas before text) (inWord : endsInWord before = true) (ends : Ends more)
    (same : text ++ more = 'r' :: rest) :
    ∃ text', text = 'r' :: text' ∧ TokenText commas (before ++ ['r']) text' := by
  cases token with
  | nil => exact absurd same ends.head_ne_r
  | plain _ token =>
      obtain ⟨rfl, -⟩ := List.cons.inj same
      exact ⟨_, rfl, token⟩
  | comma _ => exact absurd (List.cons.inj same).1 (by decide)
  | string _ _ _ => exact absurd (List.cons.inj same).1 (by decide)
  | raw _ noWord _ =>
      rw [inWord] at noWord
      exact absurd noWord (by decide)
  | char literal _ => cases literal <;> exact absurd (List.cons.inj same).1 (by decide)
  | group pair _ _ =>
      have opens := isOpener_of_pair pair
      rw [(List.cons.inj same).1] at opens
      exact absurd opens (by decide)

/-- A `b` that stands for itself begins no raw string of bytes. -/
theorem rawLength?_b {commas : Bool} {before rest more : Text} (noWord : endsInWord before = false)
    (token : TokenText commas (before ++ ['b']) rest) (ends : Ends more) :
    rawLength? ('b' :: (rest ++ more)) = none := by
  have inWord : endsInWord (before ++ ['b']) = true := by
    rw [endsInWord, List.getLast?_concat]
    rfl
  cases shape : rest ++ more with
  | nil => rfl
  | cons next after =>
      by_cases isR : next = 'r'
      · subst isR
        obtain ⟨text, rfl, later⟩ := rest_of_r token inWord ends shape
        rw [List.append_assoc, List.singleton_append] at later
        have none := not_quoteFollows later (opensRaw_of_mark noWord .byteRaw) ends
        rw [List.cons_append, List.cons.injEq] at shape
        rw [rawLength?, ← shape.2, rawTailLength?_eq_none none, Option.map_none]
      · rw [rawLength?]
        · intro after same
          exact isR (List.cons.inj (List.cons.inj same).2).1
        · intro after same
          exact absurd (List.cons.inj same).1 (by decide)

/-- A character of token text that stands for itself begins no literal. -/
theorem literalLength?_plain {commas : Bool} {before rest more : Text} {c : Char}
    (plain : isPlain c = true) (token : TokenText commas (before ++ [c]) rest) (ends : Ends more) :
    literalLength? before.getLast? (c :: (rest ++ more)) = none := by
  have notQuote : c ≠ doubleQuote := by
    rintro rfl
    exact absurd plain (by decide)
  have notSingle : c ≠ singleQuote := by
    rintro rfl
    exact absurd plain (by decide)
  rw [literalLength?, if_neg notQuote, if_neg notSingle]
  split
  · rename_i mark
    cases noWord : endsInWord before with
    | true => rw [← endsInWord, noWord, if_pos rfl]
    | false =>
        rw [← endsInWord, noWord, if_neg Bool.false_ne_true]
        rw [Bool.or_eq_true, decide_eq_true_iff, decide_eq_true_iff] at mark
        rcases mark with rfl | rfl
        · exact rawLength?_b noWord token ends
        · have none := not_quoteFollows token (opensRaw_of_mark noWord .raw) ends
          rw [rawLength?, rawTailLength?_eq_none none, Option.map_none]
  · rfl

/-! ## Copying -/

/-- Put a text in front of the first piece. -/
def extendFirstBy (text : Text) (pieces : List Text) : List Text :=
  text.foldr extendFirst pieces

@[simp] theorem extendFirstBy_nil (pieces : List Text) : extendFirstBy [] pieces = pieces := rfl

@[simp] theorem extendFirstBy_cons (c : Char) (text : Text) (pieces : List Text) :
    extendFirstBy (c :: text) pieces = extendFirst c (extendFirstBy text pieces) := rfl

theorem extendFirstBy_append (front back : Text) (pieces : List Text) :
    extendFirstBy (front ++ back) pieces = extendFirstBy front (extendFirstBy back pieces) :=
  List.foldr_append

theorem extendFirstBy_piece (text piece : Text) (pieces : List Text) :
    extendFirstBy text (piece :: pieces) = (text ++ piece) :: pieces := by
  induction text with
  | nil => rfl
  | cons c text ih => rw [extendFirstBy_cons, ih, extendFirst, List.cons_append]

/-- Of the character before a text it only matters whether it belongs to a word. -/
theorem cut_previous {previous previous' : Option Char}
    (alike : previous.any isWord = previous'.any isWord) (pending depth : Nat) (text : Text) :
    cut pending depth previous text = cut pending depth previous' text := by
  cases text with
  | nil => simp
  | cons c rest =>
      have same : literalLength? previous (c :: rest) = literalLength? previous' (c :: rest) := by
        rw [literalLength?, literalLength?, alike]
      cases pending with
      | succ pending => rw [cut, cut]
      | zero => rw [cut, cut, same]

theorem cut_pending (depth : Nat) (before front rest : Text) :
    cut front.length depth before.getLast? (front ++ rest) =
      extendFirstBy front (cut 0 depth (before ++ front).getLast? rest) := by
  induction front generalizing before with
  | nil => simp
  | cons c front ih =>
      have copied := ih (before ++ [c])
      rw [List.getLast?_concat, List.append_assoc, List.singleton_append] at copied
      rw [List.length_cons, List.cons_append, cut, copied, extendFirstBy_cons]

theorem cut_literal (depth : Nat) {before literal rest : Text} (some : literal ≠ [])
    (length : literalLength? before.getLast? (literal ++ rest) = .some literal.length) :
    cut 0 depth before.getLast? (literal ++ rest) =
      extendFirstBy literal (cut 0 depth (before ++ literal).getLast? rest) := by
  cases literal with
  | nil => exact absurd rfl some
  | cons c literal =>
      have copied := cut_pending depth (before ++ [c]) literal rest
      rw [List.getLast?_concat, List.append_assoc, List.singleton_append] at copied
      rw [List.cons_append] at length
      rw [List.cons_append, cut, length]
      simp only [List.length_cons, Nat.add_sub_cancel]
      rw [copied, extendFirstBy_cons]

/-- A character that begins no literal and is no comma between arguments is copied. -/
theorem cut_copied (depth : Nat) {before rest : Text} {c : Char}
    (none : literalLength? before.getLast? (c :: rest) = none) (inside : c = ',' → 0 < depth) :
    cut 0 depth before.getLast? (c :: rest) =
      extendFirst c (cut 0 (depthAfter depth c) (before ++ [c]).getLast? rest) := by
  rw [cut, none, List.getLast?_concat, if_neg]
  rw [Bool.and_eq_true, decide_eq_true_iff, decide_eq_true_iff]
  rintro ⟨comma, outside⟩
  have deep := inside comma
  omega

theorem cut_comma (previous : Option Char) (rest : Text) :
    cut 0 0 previous (',' :: rest) = [] :: cut 0 0 none rest := by
  rw [cut, literalLength?, if_neg (by decide), if_neg (by decide), if_neg (by decide)]
  exact congrArg ([] :: ·) (cut_previous (by decide) 0 0 rest)

/-! ## Brackets -/

theorem pair_cases {opener closer : Char} (pair : closer? opener = some closer) :
    opener = '(' ∧ closer = ')' ∨ opener = '[' ∧ closer = ']' ∨
      opener = '\x7b' ∧ closer = '\x7d' := by
  unfold closer? at pair
  split at pair
  · exact Or.inl ⟨rfl, (Option.some.inj pair).symm⟩
  · exact Or.inr (Or.inl ⟨rfl, (Option.some.inj pair).symm⟩)
  · exact Or.inr (Or.inr ⟨rfl, (Option.some.inj pair).symm⟩)
  · simp at pair

/-- What the cutting has to know of an opening bracket and the one that closes it. -/
structure Brackets (opener closer : Char) : Prop where
  opens : ∀ depth, depthAfter depth opener = depth + 1
  closes : ∀ depth, depthAfter (depth + 1) closer = depth
  isCloser : isCloser closer = true
  opener_ne_comma : opener ≠ ','
  closer_ne_comma : closer ≠ ','
  opener_solid : isBlank opener = false
  closer_solid : isBlank closer = false
  opener_no_literal : ∀ previous rest, literalLength? previous (opener :: rest) = none
  closer_no_literal : ∀ previous rest, literalLength? previous (closer :: rest) = none

theorem brackets_of_pair {opener closer : Char} (pair : closer? opener = some closer) :
    Brackets opener closer := by
  rcases pair_cases pair with ⟨rfl, rfl⟩ | ⟨rfl, rfl⟩ | ⟨rfl, rfl⟩ <;>
    exact ⟨fun _ => rfl, fun _ => rfl, rfl, by decide, by decide, by decide, by decide,
      fun _ _ => rfl, fun _ _ => rfl⟩

theorem ends_nil : Ends [] := by
  simp [Ends]

theorem ends_comma (rest : Text) : Ends (',' :: rest) := by
  simp [Ends]

theorem Brackets.ends {opener closer : Char} (brackets : Brackets opener closer) (rest : Text) :
    Ends (closer :: rest) := by
  simp [Ends, brackets.isCloser]

theorem depthAfter_plain {c : Char} (plain : isPlain c = true) (depth : Nat) :
    depthAfter depth c = depth := by
  simp only [isPlain, Bool.not_eq_true', Bool.or_eq_false_iff] at plain
  rw [depthAfter, plain.1.2, plain.2]
  rfl

/-- Brackets are copied with what stands between them, if that is copied one bracket deeper. -/
theorem Brackets.cut_append {opener closer : Char} (brackets : Brackets opener closer) (depth : Nat)
    {before inner more : Text}
    (within : cut 0 (depth + 1) (before ++ [opener]).getLast? (inner ++ closer :: more) =
      extendFirstBy inner
        (cut 0 (depth + 1) (before ++ [opener] ++ inner).getLast? (closer :: more))) :
    cut 0 depth before.getLast? (opener :: inner ++ closer :: more) =
      extendFirstBy (opener :: inner ++ [closer])
        (cut 0 depth (before ++ opener :: inner ++ [closer]).getLast? more) := by
  have opened := cut_copied depth
    (brackets.opener_no_literal before.getLast? (inner ++ closer :: more))
    (fun comma => absurd comma brackets.opener_ne_comma)
  have closed := cut_copied (depth + 1)
    (brackets.closer_no_literal (before ++ [opener] ++ inner).getLast? more)
    (fun comma => absurd comma brackets.closer_ne_comma)
  rw [brackets.opens, within, closed, brackets.closes] at opened
  rw [List.cons_append, opened]
  simp [extendFirstBy_append]

/-! ## Cutting token text -/

/-- Token text is copied as a whole, and leaves as many brackets open as it found. -/
theorem cut_tokenText {commas : Bool} {before text : Text} (token : TokenText commas before text)
    (depth : Nat) (inside : commas = true → 0 < depth) {more : Text} (ends : Ends more) :
    cut 0 depth before.getLast? (text ++ more) =
      extendFirstBy text (cut 0 depth (before ++ text).getLast? more) := by
  induction token generalizing depth more with
  | nil => simp
  | @plain commas before rest c plain token ih =>
      have notComma : c ≠ ',' := by
        rintro rfl
        exact absurd plain (by decide)
      have copied := cut_copied depth (literalLength?_plain plain token ends)
        (fun comma => absurd comma notComma)
      rw [depthAfter_plain plain, ih depth inside ends, List.append_assoc, List.singleton_append]
        at copied
      exact copied
  | @comma before rest _ ih =>
      have none : literalLength? before.getLast? (',' :: (rest ++ more)) = none := rfl
      have copied := cut_copied depth none (fun _ => inside rfl)
      rw [depthAfter, if_neg (by decide), if_neg (by decide), ih depth inside ends,
        List.append_assoc, List.singleton_append] at copied
      exact copied
  | string string _ _ ih =>
      rw [List.append_assoc, cut_literal depth (List.cons_ne_nil _ _)
        (literalLength?_string string _ _), ih depth inside ends, extendFirstBy_append,
        List.append_assoc]
  | raw literal noWord _ ih =>
      rw [List.append_assoc, cut_literal depth literal.ne_nil (literalLength?_raw literal noWord _),
        ih depth inside ends, extendFirstBy_append, List.append_assoc]
  | char literal _ ih =>
      rw [List.append_assoc, cut_literal depth literal.ne_nil (literalLength?_char literal _ _),
        ih depth inside ends, extendFirstBy_append, List.append_assoc]
  | @group commas before inner rest opener closer pair _ _ ihInner ih =>
      have brackets := brackets_of_pair pair
      have within := ihInner (depth + 1) (fun _ => Nat.succ_pos depth)
        (brackets.ends (rest ++ more))
      have shape : opener :: inner ++ closer :: rest ++ more =
          opener :: inner ++ closer :: (rest ++ more) := by
        simp
      rw [shape, brackets.cut_append depth within, ih depth inside ends]
      simp [extendFirstBy_append]

/-! ## Splitting -/

/-- Cutting arguments that are written with commas between them gives the arguments back. -/
theorem cut_join {first : Text} {rest : List Text} (token : TokenText false [] first)
    (tokens : ∀ argument ∈ rest, TokenText false [] argument) :
    cut 0 0 none (join [','] (first :: rest)) = first :: rest := by
  induction rest generalizing first with
  | nil =>
      have copied := cut_tokenText token 0 (by simp) ends_nil
      rw [cut_nil, extendFirstBy_piece, List.append_nil] at copied
      exact copied
  | cons next rest ih =>
      obtain ⟨tokenNext, tokens⟩ := List.forall_mem_cons.mp tokens
      have copied := cut_tokenText token 0 (by simp) (ends_comma (join [','] (next :: rest)))
      rw [cut_comma, ih tokenNext tokens, extendFirstBy_piece, List.append_nil] at copied
      rw [join_cons_cons, List.append_assoc, List.singleton_append]
      exact copied

theorem undelimited_of_brackets {opener closer : Char} (pair : closer? opener = some closer)
    (inner : Text) : undelimited (opener :: inner ++ [closer]) = inner := by
  have brackets := brackets_of_pair pair
  rw [undelimited, trim_of_solid_ends brackets.opener_solid brackets.closer_solid]
  simp [pair]

theorem trimmedPieces_eq (pieces : List Text) :
    trimmedPieces pieces = (pieces.filter fun piece => !piece.all isBlank).map trim := by
  rw [trimmedPieces, List.filter_map]
  congr 1
  apply List.filter_congr
  intro piece _
  rw [Function.comp_apply, isEmpty_trim]

/-- Splitting gives back the arguments that were written with commas between them, trimmed and
without those that are blank, whatever token text the arguments are. -/
theorem splitArguments_join {opener closer : Char} (pair : closer? opener = some closer)
    {arguments : List Text} (tokens : ∀ argument ∈ arguments, TokenText false [] argument) :
    splitArguments (opener :: join [','] arguments ++ [closer]) =
      (arguments.filter fun argument => !argument.all isBlank).map trim := by
  rw [splitArguments, undelimited_of_brackets pair, trimmedPieces_eq]
  cases arguments with
  | nil => rfl
  | cons first rest =>
      obtain ⟨token, tokens⟩ := List.forall_mem_cons.mp tokens
      rw [cut_join token tokens]

/-- Arguments with commas and quotes inside their literals and brackets. -/
def nestedArguments : List Text :=
  [" br#\"a\",b\"#", "f([',', \"\\\"),\"])", "", "bar\"x, y\""]

theorem splitArguments_join_nested :
    closer? '(' = some ')' ∧ (∀ argument ∈ nestedArguments, TokenText false [] argument) ∧
      splitArguments ('(' :: join [','] nestedArguments ++ [')']) =
        ["br#\"a\",b\"#".toList, "f([',', \"\\\"),\"])".toList, "bar\"x, y\"".toList] := by
  have raw : RawString "br#\"a\",b\"#".toList :=
    @RawString.intro ['b', 'r'] ['#'] "a\",b".toList .byteRaw (by simp) (by decide)
  have comma : CharLiteral "','".toList := .plain (by decide) (by decide) (by decide)
  have string : StringBody "\\\"),\"".toList :=
    .escape doubleQuote (.plain (by decide) (by decide) (.plain (by decide) (by decide) .close))
  have word : StringBody "x, y\"".toList :=
    .plain (by decide) (by decide) (.plain (by decide) (by decide) (.plain (by decide) (by decide)
      (.plain (by decide) (by decide) .close)))
  have tokens : ∀ argument ∈ nestedArguments, TokenText false [] argument := by
    simp only [nestedArguments, List.forall_mem_cons]
    refine ⟨?_, ?_, .nil, ?_, by simp⟩
    · exact .plain (by decide) (.raw raw (by decide) .nil)
    · have list : TokenText true "f([".toList "',', \"\\\"),\"".toList :=
        .char comma (.comma (.plain (by decide) (.string string
          (not_opensRaw_of_last (by decide) (by decide)) .nil)))
      have brackets : TokenText true "f(".toList "[',', \"\\\"),\"]".toList :=
        @TokenText.group true _ "',', \"\\\"),\"".toList [] '[' ']' rfl list .nil
      exact .plain (by decide)
        (@TokenText.group false _ "[',', \"\\\"),\"]".toList [] '(' ')' rfl brackets .nil)
    · exact .plain (by decide) (.plain (by decide) (.plain (by decide) (.string word
        (not_opensRaw_of_last (by decide) (by decide)) .nil)))
  refine ⟨rfl, tokens, ?_⟩
  rw [splitArguments_join rfl tokens]
  decide

end HarnessIndex.Attribute
