import HarnessIndex.Proofs.Attribute.Pieces

/-!
# Argument lists without their closing bracket

The closing bracket of an argument list may be missing, as in a file that is being written. Then the
last character decides what is taken for the inside: only a bracket that could close the list is
taken off. Such a bracket closes an inner group, and the last argument loses it.
-/

namespace HarnessIndex.Attribute

open Text

/-! ## Idle characters -/

/-- A character that separates no arguments and does not end an opening or a literal. -/
def isIdle (c : Char) : Bool :=
  !(c = ',' || c = doubleQuote || c = singleQuote || c = '#')

theorem isIdle_of_isBlank {c : Char} (blank : isBlank c = true) : isIdle c = true := by
  by_contra special
  simp only [isIdle, Bool.not_eq_true', Bool.not_eq_false, Bool.or_eq_true, decide_eq_true_iff,
    or_assoc] at special
  rcases special with rfl | rfl | rfl | rfl
  · exact absurd blank (by decide)
  · exact absurd blank (by decide)
  · exact absurd blank (by decide)
  · exact absurd blank (by decide)

theorem isIdle_of_pair {opener closer : Char} (pair : closer? opener = some closer) :
    isIdle closer = true := by
  rcases pair_cases pair with ⟨-, rfl⟩ | ⟨-, rfl⟩ | ⟨-, rfl⟩
  · decide
  · decide
  · decide

/-- A part that ends in a character that is not idle does not reach into idle characters. -/
theorem prefix_of_idle {front text more : Text} {last : Char} (busy : isIdle last = false)
    (idle : ∀ c ∈ more, isIdle c = true) (inFront : front ++ [last] <+: text ++ more) :
    front ++ [last] <+: text := by
  obtain ⟨after, same⟩ := inFront
  rcases List.append_eq_append_iff.mp same with ⟨inner, within, -⟩ | ⟨beyond, reaches, rest⟩
  · exact ⟨inner, within.symm⟩
  · rcases List.eq_nil_or_concat beyond with rfl | ⟨beyond, final, rfl⟩
    · exact ⟨[], by rw [reaches, List.append_nil, List.append_nil]⟩
    · rw [List.concat_eq_append, ← List.append_assoc] at reaches
      obtain rfl : last = final := List.singleton_inj.mp (List.append_inj' reaches rfl).2
      have quiet := idle last (by rw [rest]; simp)
      rw [busy] at quiet
      exact absurd quiet (by decide)

theorem Opening.exists_quote {previous : Option Char} {opening : Text}
    (opens : Opening previous opening) :
    ∃ front quote, opening = front ++ [quote] ∧ isIdle quote = false := by
  cases opens with
  | string => exact ⟨[], doubleQuote, rfl, by decide⟩
  | @raw mark hashes _ _ _ => exact ⟨mark ++ hashes, doubleQuote, rfl, by decide⟩
  | char char =>
      obtain ⟨opened, c, rfl, -⟩ := char.exists_opened
      exact ⟨opened ++ [c], singleQuote, by simp, by decide⟩

/-- Where no literal begins, none begins when idle characters are added at the end. -/
theorem literalLength?_append_idle {previous : Option Char} {text more : Text}
    (none : literalLength? previous text = .none) (idle : ∀ c ∈ more, isIdle c = true) :
    literalLength? previous (text ++ more) = .none := by
  apply literalLength?_of_openings none
  intro opening opens inFront
  obtain ⟨front, quote, rfl, busy⟩ := opens.exists_quote
  exact prefix_of_idle busy idle inFront

/-- What closes a raw string is not completed by idle characters. -/
theorem isInfix_of_idle {hashes content more : Text} (allHashes : ∀ c ∈ hashes, c = '#')
    (idle : ∀ c ∈ more, isIdle c = true) (closed : doubleQuote :: hashes <:+: content ++ more) :
    doubleQuote :: hashes <:+: content := by
  obtain ⟨front, back, split⟩ := closed
  have start : front ++ doubleQuote :: hashes <+: content ++ more := ⟨back, split⟩
  suffices inside : front ++ doubleQuote :: hashes <+: content from
    (List.suffix_append front _).isInfix.trans inside.isInfix
  rcases List.eq_nil_or_concat hashes with rfl | ⟨hashes, hash, rfl⟩
  · exact prefix_of_idle (by decide) idle start
  · have isHash : hash = '#' := allHashes hash (by simp)
    have shape : front ++ doubleQuote :: hashes.concat hash =
        front ++ doubleQuote :: hashes ++ [hash] := by
      simp
    rw [shape] at start ⊢
    exact prefix_of_idle (by rw [isHash]; decide) idle start

/-- A literal that is not closed is not closed by idle characters. -/
theorem Unclosed.append_idle {previous : Option Char} {text more : Text}
    (unclosed : Unclosed previous text) (idle : ∀ c ∈ more, isIdle c = true) :
    Unclosed previous (text ++ more) := by
  cases unclosed with
  | string unclosed =>
      refine .string fun body string inFront => unclosed body string ?_
      obtain ⟨front, rfl⟩ := string.exists_quote
      exact prefix_of_idle (by decide) idle inFront
  | raw isMark allHashes noWord unclosed =>
      rw [List.append_assoc, List.cons_append]
      exact .raw isMark allHashes noWord fun closed =>
        unclosed (isInfix_of_idle allHashes idle closed)

/-! ## The last piece -/

/-- Put a text behind the last piece. -/
def extendLast (more : Text) : List Text → List Text
  | [] => [more]
  | [piece] => [piece ++ more]
  | piece :: next :: rest => piece :: extendLast more (next :: rest)

@[simp] theorem extendLast_singleton (more piece : Text) :
    extendLast more [piece] = [piece ++ more] := rfl

theorem extendLast_cons {pieces : List Text} (some : pieces ≠ []) (more piece : Text) :
    extendLast more (piece :: pieces) = piece :: extendLast more pieces := by
  cases pieces with
  | nil => exact absurd rfl some
  | cons next rest => rfl

theorem extendLast_concat (more : Text) (others : List Text) (last : Text) :
    extendLast more (others ++ [last]) = others ++ [last ++ more] := by
  induction others with
  | nil => rfl
  | cons piece others ih =>
      have some : others ++ [last] ≠ [] := by simp
      rw [List.cons_append, extendLast_cons some, ih, List.cons_append]

/-- What is put in front of the first piece and behind the last may be put there in any order. -/
theorem extendFirst_extendLast {pieces : List Text} (some : pieces ≠ []) (c : Char) (more : Text) :
    extendFirst c (extendLast more pieces) = extendLast more (extendFirst c pieces) := by
  cases pieces with
  | nil => exact absurd rfl some
  | cons piece rest =>
      cases rest with
      | nil => rfl
      | cons next rest => rfl

theorem extendFirstBy_extendLast {pieces : List Text} (some : pieces ≠ []) (text more : Text) :
    extendFirstBy text (extendLast more pieces) = extendLast more (extendFirstBy text pieces) := by
  obtain ⟨piece, rest, rfl⟩ := List.exists_cons_of_ne_nil some
  induction text with
  | nil => rfl
  | cons c text ih =>
      rw [extendFirstBy_cons, ih, extendFirst_extendLast (by simp [extendFirstBy_piece]),
        extendFirstBy_cons]

theorem cut_idle {more : Text} (idle : ∀ c ∈ more, isIdle c = true) (depth : Nat)
    (previous : Option Char) : cut 0 depth previous more = [more] := by
  induction more generalizing depth previous with
  | nil => exact cut_nil 0 depth previous
  | cons c more ih =>
      have noOpening : literalLength? previous [] = none := rfl
      have noLiteral := literalLength?_append_idle noOpening idle
      rw [List.nil_append] at noLiteral
      obtain ⟨quiet, idle⟩ := List.forall_mem_cons.mp idle
      have notComma : c = ',' → 0 < depth := by
        rintro rfl
        exact absurd quiet (by decide)
      rw [cut_of_copied depth noLiteral notComma, ih idle, extendFirst]

/-- Idle characters at the end of a text are put behind its last piece. The induction is on the
length of the text, because a literal is copied in one step. -/
theorem cut_append_idle {more : Text} (idle : ∀ c ∈ more, isIdle c = true) (depth : Nat)
    (previous : Option Char) (text : Text) :
    cut 0 depth previous (text ++ more) = extendLast more (cut 0 depth previous text) := by
  induction size : text.length using Nat.strong_induction_on generalizing text depth previous with
  | _ size ih =>
  subst size
  cases front depth previous text with
  | nil => rw [List.nil_append, cut_idle idle, cut_nil, extendLast_singleton, List.nil_append]
  | unclosed unclosed =>
      rw [cut_of_unclosed depth (unclosed.append_idle idle), cut_of_unclosed depth unclosed,
        extendLast_singleton]
  | @literal literal after isLiteral =>
      have shorter : after.length < (literal ++ after).length := by
        have some := List.length_pos_of_ne_nil isLiteral.ne_nil
        rw [List.length_append]
        omega
      rw [List.append_assoc, cut_of_literal depth isLiteral, cut_of_literal depth isLiteral,
        ih _ shorter depth literal.getLast? after rfl,
        extendFirstBy_extendLast (cut_ne_nil 0 depth literal.getLast? after)]
  | @comma after outside =>
      subst outside
      rw [List.cons_append, cut_comma, cut_comma, ih _ (Nat.lt_succ_self _) 0 none after rfl,
        extendLast_cons (cut_ne_nil 0 0 none after)]
  | @copied c after begins inside =>
      have noLiteral := literalLength?_append_idle begins idle
      rw [List.cons_append] at noLiteral ⊢
      rw [cut_of_copied depth noLiteral inside, cut_of_copied depth begins inside,
        ih _ (Nat.lt_succ_self _) (depthAfter depth c) (some c) after rfl,
        extendFirst_extendLast (cut_ne_nil 0 (depthAfter depth c) (some c) after)]

/-! ## Trimming the last piece -/

/-- Blanks at the end of the last piece do not count. -/
theorem trimmedPieces_extendLast {blanks : Text} (blank : ∀ c ∈ blanks, isBlank c = true)
    {pieces : List Text} (some : pieces ≠ []) :
    trimmedPieces (extendLast blanks pieces) = trimmedPieces pieces := by
  obtain ⟨others, last, rfl⟩ := (List.eq_nil_or_concat pieces).resolve_left some
  rw [List.concat_eq_append, extendLast_concat]
  simp only [trimmedPieces, List.map_append, List.map_singleton, trim_append_blanks blank]

/-- A piece that ends in a character that is no blank is trimmed at its front only. -/
theorem trimmedPieces_concat {c : Char} (solid : isBlank c = false) (piece : Text) :
    trimmedPieces [piece ++ [c]] = [trimStart piece ++ [c]] := by
  rw [trimmedPieces, List.map_singleton, trim, trimStart_concat solid, trimEnd_concat solid]
  exact List.filter_cons_of_pos (by simp)

/-! ## The missing bracket -/

/-- What is taken for the inside of a list that ends in no bracket which could close it. -/
theorem undelimited_of_open {opener closer : Char} (pair : closer? opener = some closer)
    {inner : Text} (ends : (trimEnd inner).getLast? ≠ some closer) :
    undelimited (opener :: inner) = trimEnd inner := by
  rw [undelimited, trim_cons_solid (brackets_of_pair pair).opener_solid]
  simp only [pair, if_neg ends]

/-- What is taken for the inside of a list that ends in a bracket which could close it. -/
theorem undelimited_of_closed {opener closer : Char} (pair : closer? opener = some closer)
    {inner front : Text} (ends : trimEnd inner = front ++ [closer]) :
    undelimited (opener :: inner) = front := by
  rw [undelimited, trim_cons_solid (brackets_of_pair pair).opener_solid, ends]
  simp [pair]

/-- The arguments of a list do not depend on blanks before its closing bracket. -/
theorem splitArguments_closed {opener closer : Char} (pair : closer? opener = some closer)
    (inner : Text) : splitArguments (opener :: inner ++ [closer]) =
      trimmedPieces (cut 0 0 none (trimEnd inner)) := by
  obtain ⟨blanks, split, blank⟩ := exists_trimEnd inner
  have idle : ∀ c ∈ blanks, isIdle c = true := fun c member => isIdle_of_isBlank (blank c member)
  rw [splitArguments, undelimited_of_brackets pair]
  conv_lhs => rw [split]
  rw [cut_append_idle idle, trimmedPieces_extendLast blank (cut_ne_nil 0 0 none _)]

/-- Without its closing bracket a list that ends in another one which could close it has the same
arguments, but the last of them loses that bracket. -/
theorem exists_of_closed {opener closer : Char} (pair : closer? opener = some closer) {inner : Text}
    (ends : (trimEnd inner).getLast? = some closer) :
    ∃ others last, splitArguments (opener :: inner ++ [closer]) = others ++ [last ++ [closer]] ∧
      splitArguments (opener :: inner) = others ++ trimmedPieces [last] := by
  obtain ⟨front, split⟩ := List.getLast?_eq_some_iff.mp ends
  have idle : ∀ c ∈ [closer], isIdle c = true :=
    List.forall_mem_singleton.mpr (isIdle_of_pair pair)
  obtain ⟨pieces, last, parts⟩ :=
    (List.eq_nil_or_concat (cut 0 0 none front)).resolve_left (cut_ne_nil 0 0 none front)
  rw [List.concat_eq_append] at parts
  refine ⟨trimmedPieces pieces, trimStart last, ?_, ?_⟩
  · rw [splitArguments_closed pair, split, cut_append_idle idle, parts, extendLast_concat,
      trimmedPieces_append, trimmedPieces_concat (brackets_of_pair pair).closer_solid]
  · rw [splitArguments, undelimited_of_closed pair split, parts, trimmedPieces_append]
    congr 1
    simp only [trimmedPieces, List.map_singleton, trim_trimStart]

theorem trimmedPieces_singleton_ne (piece : Text) (c : Char) :
    trimmedPieces [piece] ≠ [piece ++ [c]] := by
  intro same
  have member : piece ++ [c] ∈ trimmedPieces [piece] := by
    rw [same]
    exact List.mem_singleton_self _
  obtain ⟨inTrimmed, -⟩ := List.mem_filter.mp member
  rw [List.map_singleton, List.mem_singleton] at inTrimmed
  obtain ⟨front, back, split, -, -⟩ := exists_trim piece
  have size := congrArg List.length split
  rw [← inTrimmed] at size
  simp only [List.length_append, List.length_singleton] at size
  omega

/-- A missing closing bracket changes nothing unless the list ends in another bracket of the same
shape. Such a bracket is taken for the missing one, and only the last argument loses it. -/
theorem splitArguments_unclosed {opener closer : Char} (pair : closer? opener = some closer)
    (inner : Text) :
    (splitArguments (opener :: inner) = splitArguments (opener :: inner ++ [closer]) ↔
      (trimEnd inner).getLast? ≠ some closer) ∧
    ((trimEnd inner).getLast? = some closer → ∃ others last,
      splitArguments (opener :: inner ++ [closer]) = others ++ [last ++ [closer]] ∧
        splitArguments (opener :: inner) = others ++ trimmedPieces [last]) := by
  refine ⟨⟨?_, ?_⟩, exists_of_closed pair⟩
  · intro same ends
    obtain ⟨others, last, closed, unclosed⟩ := exists_of_closed pair ends
    rw [closed, unclosed] at same
    exact trimmedPieces_singleton_ne last closer (List.append_cancel_left same)
  · intro ends
    rw [splitArguments_closed pair, splitArguments, undelimited_of_open pair ends]

/-- The inside of an argument list whose last argument has brackets of its own. -/
def groupLast : Text :=
  "a, f(x) "

theorem splitArguments_unclosed_groupLast :
    closer? '[' = some ']' ∧ (trimEnd groupLast).getLast? ≠ some ']' ∧
      splitArguments ('[' :: groupLast) = splitArguments ('[' :: groupLast ++ [']']) ∧
    closer? '(' = some ')' ∧ (trimEnd groupLast).getLast? = some ')' ∧
      splitArguments ('(' :: groupLast ++ [')']) = ["a".toList, "f(x)".toList] ∧
      splitArguments ('(' :: groupLast) = ["a".toList, "f(x".toList] ∧
      ∃ others last,
        splitArguments ('(' :: groupLast ++ [')']) = others ++ [last ++ [')']] ∧
          splitArguments ('(' :: groupLast) = others ++ trimmedPieces [last] := by
  have square : closer? '[' = some ']' := rfl
  have round : closer? '(' = some ')' := rfl
  have otherEnd : (trimEnd groupLast).getLast? ≠ some ']' := by decide
  have sameEnd : (trimEnd groupLast).getLast? = some ')' := by decide
  obtain ⟨harmless, -⟩ := splitArguments_unclosed square groupLast
  obtain ⟨-, loses⟩ := splitArguments_unclosed round groupLast
  exact ⟨square, otherEnd, harmless.mpr otherEnd, round, sameEnd, by decide, by decide,
    loses sameEnd⟩

theorem not_splitArguments_unclosed :
    ¬∀ inner, TokenText true [] inner →
      splitArguments ('(' :: inner) = splitArguments ('(' :: inner ++ [')']) := by
  intro harmless
  have token : TokenText true [] "f(x)".toList :=
    .plain (by decide) (@TokenText.group true _ ['x'] [] '(' ')' rfl (.plain (by decide) .nil) .nil)
  have same := harmless _ token
  have differ : splitArguments ('(' :: "f(x)".toList) ≠
      splitArguments ('(' :: "f(x)".toList ++ [')']) := by
    decide
  exact differ same

end HarnessIndex.Attribute
