import HarnessIndex.Proofs.Attribute.Literals
import HarnessIndex.Proofs.Attribute.Written

/-!
# The pieces that any text is cut into

A piece is a text that the cutting copies as a whole: literals, characters that begin none, and
commas inside brackets only. Whatever text is cut, its parts are pieces, also when brackets or
literals are not closed. A piece stays one when it is trimmed and when other arguments follow it, so
an argument taken by itself is one argument.
-/

namespace HarnessIndex.Attribute

open Text

/-! ## Literals when cutting -/

theorem getLast?_toList (previous : Option Char) : previous.toList.getLast? = previous := by
  cases previous with
  | none => rfl
  | some c => rfl

/-- What is read as a literal is copied as a whole. -/
theorem cut_of_length (depth : Nat) {previous : Option Char} {text rest : Text} (some : text ≠ [])
    (length : literalLength? previous (text ++ rest) = .some text.length) :
    cut 0 depth previous (text ++ rest) =
      extendFirstBy text (cut 0 depth text.getLast? rest) := by
  rw [← getLast?_toList previous] at length
  have copied := cut_literal depth some length
  rwa [getLast?_toList, List.getLast?_append_of_ne_nil _ some] at copied

theorem cut_of_literal (depth : Nat) {previous : Option Char} {literal : Text}
    (isLiteral : Literal previous literal) (rest : Text) :
    cut 0 depth previous (literal ++ rest) =
      extendFirstBy literal (cut 0 depth literal.getLast? rest) :=
  cut_of_length depth isLiteral.ne_nil (isLiteral.literalLength?_eq rest)

/-- A literal that is not closed is copied up to the end. -/
theorem cut_of_unclosed (depth : Nat) {previous : Option Char} {text : Text}
    (unclosed : Unclosed previous text) : cut 0 depth previous text = [text] := by
  have length := unclosed.literalLength?_eq
  rw [← List.append_nil text] at length
  conv at length => rhs; rw [List.append_nil]
  have copied := cut_of_length depth unclosed.ne_nil length
  rwa [List.append_nil, cut_nil, extendFirstBy_piece, List.append_nil] at copied

/-- A character that begins no literal is copied, a comma only inside brackets. -/
theorem cut_of_copied (depth : Nat) {previous : Option Char} {c : Char} {rest : Text}
    (none : literalLength? previous (c :: rest) = .none) (inside : c = ',' → 0 < depth) :
    cut 0 depth previous (c :: rest) =
      extendFirst c (cut 0 (depthAfter depth c) (some c) rest) := by
  rw [← getLast?_toList previous] at none
  have copied := cut_copied depth none inside
  rwa [getLast?_toList, List.getLast?_concat] at copied

/-! ## Characters of a path, and blanks -/

theorem isPlain_of_isPathChar {c : Char} (pathChar : Descriptor.isPathChar c = true) :
    isPlain c = true := by
  by_contra special
  rw [isPlain, Bool.not_eq_true', Bool.not_eq_false] at special
  simp only [Bool.or_eq_true, decide_eq_true_iff, isCloser, or_assoc] at special
  rcases special with rfl | rfl | rfl | opens | rfl | rfl | rfl
  · exact absurd pathChar (by decide)
  · exact absurd pathChar (by decide)
  · exact absurd pathChar (by decide)
  · obtain ⟨closer, pair⟩ := Option.isSome_iff_exists.mp opens
    rcases pair_cases pair with ⟨rfl, -⟩ | ⟨rfl, -⟩ | ⟨rfl, -⟩
    · exact absurd pathChar (by decide)
    · exact absurd pathChar (by decide)
    · exact absurd pathChar (by decide)
  · exact absurd pathChar (by decide)
  · exact absurd pathChar (by decide)
  · exact absurd pathChar (by decide)

theorem depthAfter_pathChar {c : Char} (pathChar : Descriptor.isPathChar c = true) (depth : Nat) :
    depthAfter depth c = depth :=
  depthAfter_plain (isPlain_of_isPathChar pathChar) depth

theorem isPathChar_of_isBlank {c : Char} (blank : isBlank c = true) :
    Descriptor.isPathChar c = true := by
  rw [Descriptor.isPathChar, blank, Bool.or_true, Bool.true_or]

theorem literalLength?_blank {c : Char} (blank : isBlank c = true) (previous : Option Char)
    (rest : Text) : literalLength? previous (c :: rest) = none := by
  have notMark : ¬ (c = 'b' || c = 'r') = true := by
    rw [Bool.or_eq_true, decide_eq_true_iff, decide_eq_true_iff]
    rintro (rfl | rfl)
    · exact absurd blank (by decide)
    · exact absurd blank (by decide)
  have notQuote : c ≠ doubleQuote := by
    rintro rfl
    exact absurd blank (by decide)
  have notSingle : c ≠ singleQuote := by
    rintro rfl
    exact absurd blank (by decide)
  rw [literalLength?, if_neg notMark, if_neg notQuote, if_neg notSingle]

/-! ## Pieces -/

/-- A text that is copied as a whole, from `depth` open brackets on and after `previous`. Where
`last` holds nothing follows it, so brackets and literals may stay open. -/
inductive Piece (last : Bool) : (depth : Nat) → (previous : Option Char) → Text → Prop where
  | nil {depth : Nat} {previous : Option Char} : (last = false → depth = 0) →
      Piece last depth previous []
  | unclosed {depth : Nat} {previous : Option Char} {text : Text} : last = true →
      Unclosed previous text → Piece last depth previous text
  | literal {depth : Nat} {previous : Option Char} {literal rest : Text} :
      Literal previous literal → Piece last depth literal.getLast? rest →
      Piece last depth previous (literal ++ rest)
  | copied {depth : Nat} {previous : Option Char} {c : Char} {rest : Text} :
      literalLength? previous (c :: rest) = none → (c = ',' → 0 < depth) →
      Piece last (depthAfter depth c) (some c) rest → Piece last depth previous (c :: rest)

namespace Piece

variable {last : Bool} {depth : Nat} {previous : Option Char} {text : Text}

/-- A piece that something may follow may also be the last one. -/
theorem toLast (piece : Piece last depth previous text) : Piece true depth previous text := by
  induction piece with
  | nil _ => exact .nil nofun
  | unclosed _ unclosed => exact .unclosed rfl unclosed
  | literal isLiteral _ ih => exact .literal isLiteral ih
  | copied none inside _ ih => exact .copied none inside ih

/-- Of the character before a piece it only matters whether it belongs to a word. -/
theorem of_previous {previous' : Option Char}
    (alike : previous.any isWord = previous'.any isWord) (piece : Piece last depth previous text) :
    Piece last depth previous' text := by
  cases piece with
  | nil done => exact .nil done
  | unclosed isLast unclosed =>
      refine .unclosed isLast ?_
      cases unclosed with
      | string unclosed => exact .string unclosed
      | raw isMark allHashes noWord unclosed =>
          exact .raw isMark allHashes (alike.symm.trans noWord) unclosed
  | literal isLiteral rest =>
      refine .literal ?_ rest
      cases isLiteral with
      | string string => exact .string string
      | raw raw noWord => exact .raw raw (alike.symm.trans noWord)
      | char char => exact .char char
  | copied none inside rest =>
      refine .copied ?_ inside rest
      rw [literalLength?] at none ⊢
      rwa [← alike]

theorem eq_zero_of_nil (piece : Piece last depth previous []) (follows : last = false) :
    depth = 0 := by
  generalize empty : ([] : Text) = text at piece
  cases piece with
  | nil done => exact done follows
  | unclosed _ unclosed => exact absurd empty.symm unclosed.ne_nil
  | literal isLiteral _ =>
      exact absurd (List.append_eq_nil_iff.mp empty.symm).1 isLiteral.ne_nil
  | copied _ _ _ => cases empty

/-- After a character that begins no literal a piece goes on. -/
theorem of_cons {c : Char} {rest : Text} (piece : Piece last depth previous (c :: rest))
    (none : literalLength? previous (c :: rest) = .none) :
    Piece last (depthAfter depth c) (some c) rest := by
  generalize whole : c :: rest = text at piece
  cases piece with
  | nil _ => cases whole
  | unclosed _ unclosed =>
      rw [whole, unclosed.literalLength?_eq] at none
      cases none
  | literal isLiteral _ =>
      rw [whole, isLiteral.literalLength?_eq] at none
      cases none
  | copied _ _ piece =>
      obtain ⟨rfl, rfl⟩ := List.cons.inj whole
      exact piece

/-! ### Cutting pieces -/

/-- A piece is copied as a whole before a comma, if none of its literals is left open. -/
theorem cut_append (piece : Piece last depth previous text) {more : Text} (apart : Apart text more)
    (separated : ∀ c ∈ more.head?, c = ',') (nothing : last = true → more = []) :
    cut 0 depth previous (text ++ more) = extendFirstBy text (cut 0 0 none more) := by
  induction piece with
  | nil done =>
      cases more with
      | nil => simp
      | cons c rest =>
          obtain rfl : c = ',' := separated c rfl
          have follows : last = false := by
            rw [Bool.eq_false_iff]
            intro isLast
            cases nothing isLast
          rw [done follows, List.nil_append, Attribute.cut_comma, Attribute.cut_comma,
            extendFirstBy_nil]
  | unclosed isLast unclosed =>
      rw [nothing isLast, List.append_nil, cut_of_unclosed _ unclosed, cut_nil,
        extendFirstBy_piece, List.append_nil]
  | @literal depth previous literal rest isLiteral _ ih =>
      rw [List.append_assoc, cut_of_literal _ isLiteral,
        ih (apart.of_suffix (List.suffix_append literal rest)), extendFirstBy_append]
  | @copied depth previous c rest none inside _ ih =>
      have noLiteral : literalLength? previous (c :: rest ++ more) = .none := by
        apply literalLength?_of_openings none
        intro opening opens inFront
        exact apart _ _ _ (List.suffix_refl _) (List.cons_ne_nil c rest) opens inFront
      rw [List.cons_append] at noLiteral ⊢
      rw [cut_of_copied _ noLiteral inside, ih (apart.of_suffix (List.suffix_cons c rest)),
        extendFirstBy_cons]

theorem cut_eq (piece : Piece last depth previous text) : cut 0 depth previous text = [text] := by
  have copied := piece.cut_append (apart_nil text) (by simp) (fun _ => rfl)
  rwa [List.append_nil, cut_nil, extendFirstBy_piece, List.append_nil] at copied

/-- A comma separates a piece from what follows it, if no literal of the piece is left open. -/
theorem cut_comma (piece : Piece false depth previous text) {rest : Text}
    (apart : Apart text (',' :: rest)) :
    cut 0 depth previous (text ++ ',' :: rest) = text :: cut 0 0 none rest := by
  rw [piece.cut_append apart (by simp) nofun, Attribute.cut_comma, extendFirstBy_piece,
    List.append_nil]

/-! ### Trimming pieces -/

/-- Blanks at the end of a piece may be left out. -/
theorem trimEnd (piece : Piece last depth previous text) :
    Piece last depth previous (trimEnd text) := by
  induction piece with
  | nil done => exact .nil done
  | unclosed isLast unclosed => exact .unclosed isLast unclosed.trimEnd
  | literal isLiteral _ ih =>
      rw [isLiteral.trimEnd_append]
      exact .literal isLiteral ih
  | @copied depth previous c rest none inside _ ih =>
      rcases trimEnd_cons c rest with kept | ⟨blank, restBlank, gone⟩
      · obtain ⟨blanks, split, -⟩ := exists_trimEnd rest
        have noLiteral : literalLength? previous (c :: Text.trimEnd rest) = .none := by
          rw [split, ← List.cons_append] at none
          exact literalLength?_of_append none
        rw [kept]
        exact .copied noLiteral inside ih
      · rw [restBlank] at ih
        rw [gone]
        refine .nil fun follows => ?_
        have closed := ih.eq_zero_of_nil follows
        rwa [depthAfter_pathChar (isPathChar_of_isBlank blank)] at closed

/-- Blanks at the front of a piece may be left out where no word is continued. -/
theorem trimStart (piece : Piece last depth previous text)
    (noWord : previous.any isWord = false) : Piece last depth none (trimStart text) := by
  induction text generalizing previous with
  | nil => exact piece.of_previous noWord
  | cons c rest ih =>
      rw [Text.trimStart, List.dropWhile_cons]
      split
      · rename_i blank
        have later := piece.of_cons (literalLength?_blank blank previous rest)
        rw [depthAfter_pathChar (isPathChar_of_isBlank blank)] at later
        exact ih later (isWord_of_isBlank blank)
      · exact piece.of_previous noWord

theorem trim (piece : Piece last depth none text) : Piece last depth none (trim text) :=
  (piece.trimStart rfl).trimEnd

end Piece

/-! ## The pieces of a text -/

/-- Texts that are pieces when they are written one after the other as arguments. -/
inductive Separate : List Text → Prop where
  | nil : Separate []
  | cons {text : Text} {rest : List Text} :
      Piece rest.isEmpty 0 none text → Separate rest → Separate (text :: rest)

theorem Separate.map_trim {texts : List Text} (separate : Separate texts) :
    Separate (texts.map trim) := by
  induction separate with
  | nil => exact .nil
  | cons piece _ ih =>
      rw [List.map_cons]
      refine .cons ?_ ih
      rw [List.isEmpty_map]
      exact piece.trim

theorem Separate.filter {texts : List Text} (separate : Separate texts) (keep : Text → Bool) :
    Separate (texts.filter keep) := by
  induction separate with
  | nil => exact .nil
  | @cons text rest piece _ ih =>
      rw [List.filter_cons]
      split
      · refine .cons ?_ ih
        cases rest with
        | nil => exact piece
        | cons next rest =>
            cases (List.filter keep (next :: rest)).isEmpty with
            | false => exact piece
            | true => exact piece.toLast
      · exact ih

theorem Separate.piece_of_mem {texts : List Text} (separate : Separate texts) {text : Text}
    (member : text ∈ texts) : Piece true 0 none text := by
  induction separate with
  | nil => cases member
  | cons piece _ ih =>
      rcases List.mem_cons.mp member with rfl | later
      · exact piece.toLast
      · exact ih later

/-- What the cutting finds at the front of a text. -/
inductive Front (depth : Nat) (previous : Option Char) : Text → Prop where
  | nil : Front depth previous []
  | unclosed {text : Text} : Unclosed previous text → Front depth previous text
  | literal {literal rest : Text} : Literal previous literal →
      Front depth previous (literal ++ rest)
  | comma {rest : Text} : depth = 0 → Front depth previous (',' :: rest)
  | copied {c : Char} {rest : Text} : literalLength? previous (c :: rest) = none →
      (c = ',' → 0 < depth) → Front depth previous (c :: rest)

theorem front (depth : Nat) (previous : Option Char) (text : Text) :
    Front depth previous text := by
  cases begins : literalLength? previous text with
  | some length =>
      obtain ⟨opening, opens, inFront⟩ := exists_opening begins
      rcases opens.cases_literal inFront with ⟨literal, rest, rfl, isLiteral⟩ | unclosed
      · exact .literal isLiteral
      · exact .unclosed unclosed
  | none =>
      cases text with
      | nil => exact .nil
      | cons c rest =>
          by_cases comma : c = ',' ∧ depth = 0
          · obtain ⟨rfl, outside⟩ := comma
            exact .comma outside
          · refine .copied begins fun isComma => ?_
            exact Nat.pos_of_ne_zero fun outside => comma ⟨isComma, outside⟩

theorem prefix_of_cut {depth : Nat} {previous : Option Char} {text first : Text}
    {rest : List Text} (parts : cut 0 depth previous text = first :: rest) : first <+: text := by
  have joined := join_cut 0 depth previous text
  rw [parts] at joined
  cases rest with
  | nil => exact ⟨[], by rw [← joined, join_singleton, List.append_nil]⟩
  | cons next rest =>
      rw [join_cons_cons, List.append_assoc] at joined
      exact ⟨_, joined⟩

/-- Whatever text is cut, its parts are pieces. The induction is on the length of the text, because
a literal is copied in one step. -/
theorem separate_of_cut {depth : Nat} {previous : Option Char} {text first : Text}
    {rest : List Text} (parts : cut 0 depth previous text = first :: rest) :
    Piece rest.isEmpty depth previous first ∧ Separate rest := by
  induction size : text.length using Nat.strong_induction_on
    generalizing text depth previous first rest with
  | _ size ih =>
  subst size
  cases front depth previous text with
  | nil =>
      rw [cut_nil, List.cons.injEq] at parts
      obtain ⟨rfl, rfl⟩ := parts
      exact ⟨.nil nofun, .nil⟩
  | unclosed unclosed =>
      rw [cut_of_unclosed depth unclosed, List.cons.injEq] at parts
      obtain ⟨rfl, rfl⟩ := parts
      exact ⟨.unclosed rfl unclosed, .nil⟩
  | @literal literal after isLiteral =>
      obtain ⟨piece, pieces, later⟩ :=
        List.exists_cons_of_ne_nil (cut_ne_nil 0 depth literal.getLast? after)
      rw [cut_of_literal depth isLiteral, later, extendFirstBy_piece, List.cons.injEq] at parts
      obtain ⟨rfl, rfl⟩ := parts
      have shorter : after.length < (literal ++ after).length := by
        have some := List.length_pos_of_ne_nil isLiteral.ne_nil
        rw [List.length_append]
        omega
      obtain ⟨isPiece, separate⟩ := ih _ shorter later rfl
      exact ⟨.literal isLiteral isPiece, separate⟩
  | @comma after outside =>
      subst outside
      rw [cut_comma, List.cons.injEq] at parts
      obtain ⟨rfl, rfl⟩ := parts
      obtain ⟨piece, pieces, later⟩ := List.exists_cons_of_ne_nil (cut_ne_nil 0 0 none after)
      obtain ⟨isPiece, separate⟩ := ih _ (Nat.lt_succ_self _) later rfl
      rw [later]
      exact ⟨.nil fun _ => rfl, .cons isPiece separate⟩
  | @copied c after begins inside =>
      obtain ⟨piece, pieces, later⟩ :=
        List.exists_cons_of_ne_nil (cut_ne_nil 0 (depthAfter depth c) (some c) after)
      rw [cut_of_copied depth begins inside, later, extendFirst, List.cons.injEq] at parts
      obtain ⟨rfl, rfl⟩ := parts
      obtain ⟨isPiece, separate⟩ := ih _ (Nat.lt_succ_self _) later rfl
      -- The piece stands at the front of the text, where no literal begins.
      obtain ⟨more, split⟩ := prefix_of_cut later
      rw [← split, ← List.cons_append] at begins
      exact ⟨.copied (literalLength?_of_append begins) inside isPiece, separate⟩

/-- A text that a comma at its end separates is a piece. -/
theorem piece_of_cut_comma {text : Text} (parts : cut 0 0 none (text ++ [',']) = [text, []]) :
    Piece false 0 none text :=
  (separate_of_cut parts).1

/-- Token text is a piece. -/
theorem piece_of_tokenText {text : Text} (token : TokenText false [] text) :
    Piece false 0 none text := by
  have parts := cut_join token (List.forall_mem_singleton.mpr .nil)
  rw [join_cons_cons, join_singleton, List.append_nil] at parts
  exact piece_of_cut_comma parts

/-- The arguments of a token text are pieces, whether the text is well-formed or not. -/
theorem separate_splitArguments (text : Text) : Separate (splitArguments text) := by
  obtain ⟨first, rest, parts⟩ :=
    List.exists_cons_of_ne_nil (cut_ne_nil 0 0 none (undelimited text))
  obtain ⟨piece, separate⟩ := separate_of_cut parts
  rw [splitArguments, trimmedPieces, parts]
  exact (Separate.cons piece separate).map_trim.filter _

/-! ## Commas between pieces -/

/-- A comma between two texts separates them, whatever follows the second. -/
def CommaParts (first next : Text) : Prop :=
  ∀ rest, cut 0 0 none (first ++ ',' :: (next ++ rest)) = first :: cut 0 0 none (next ++ rest)

theorem commaParts_of_tokenText {first : Text} (token : TokenText false [] first) (next : Text) :
    CommaParts first next := by
  intro rest
  have copied := cut_tokenText token 0 (by simp) (ends_comma (next ++ rest))
  rwa [cut_comma, extendFirstBy_piece, List.append_nil] at copied

theorem commaParts_of_piece {first next : Text} {c : Char} (piece : Piece false 0 none first)
    (start : next.head? = some c) (noQuote : c ≠ singleQuote) : CommaParts first next := by
  intro rest
  apply piece.cut_comma (apart_of_head _ first)
  rw [List.head?_append, start, Option.some_or]
  exact fun quote => noQuote (Option.some.inj quote)

theorem exists_join_eq_append (separator first : Text) (rest : List Text) :
    ∃ more, join separator (first :: rest) = first ++ more := by
  cases rest with
  | nil => exact ⟨[], by rw [join_singleton, List.append_nil]⟩
  | cons next rest =>
      exact ⟨separator ++ join separator (next :: rest), by
        rw [join_cons_cons, List.append_assoc]⟩

/-- Some texts with commas between them are cut apart at these commas when each two that touch
are. -/
theorem cut_join_of_chain {texts : List Text} (some : texts ≠ []) (separate : Separate texts)
    (chain : texts.IsChain CommaParts) : cut 0 0 none (join [','] texts) = texts := by
  induction separate with
  | nil => exact absurd rfl some
  | @cons text rest piece _ ih =>
      cases rest with
      | nil => rw [join_singleton, piece.cut_eq]
      | cons next rest =>
          obtain ⟨parts, chain⟩ := List.isChain_cons_cons.mp chain
          obtain ⟨more, start⟩ := exists_join_eq_append [','] next rest
          have later := ih (List.cons_ne_nil next rest) chain
          rw [join_cons_cons, List.append_assoc, List.singleton_append]
          rw [start] at later ⊢
          rw [parts more, later]

/-! ## Writing arguments again -/

theorem trimmedPieces_append (pieces more : List Text) :
    trimmedPieces (pieces ++ more) = trimmedPieces pieces ++ trimmedPieces more := by
  rw [trimmedPieces, trimmedPieces, trimmedPieces, List.map_append, List.filter_append]

theorem trimmedPieces_cons (piece : Text) (pieces : List Text) :
    trimmedPieces (piece :: pieces) = trimmedPieces [piece] ++ trimmedPieces pieces :=
  trimmedPieces_append [piece] pieces

/-- A text that is left when pieces are trimmed is trimmed, and not empty. -/
theorem trimmedPieces_of_mem {pieces : List Text} {text : Text}
    (member : text ∈ trimmedPieces pieces) : trimmedPieces [text] = [text] := by
  obtain ⟨inTrimmed, some⟩ := List.mem_filter.mp member
  obtain ⟨piece, -, rfl⟩ := List.mem_map.mp inTrimmed
  rw [trimmedPieces, List.map_singleton, trim_trim]
  exact List.filter_eq_self.mpr fun other same => by rwa [List.mem_singleton.mp same]

theorem trimmedPieces_eq_self {texts : List Text}
    (trimmed : ∀ text ∈ texts, trimmedPieces [text] = [text]) : trimmedPieces texts = texts := by
  induction texts with
  | nil => rfl
  | cons text rest ih =>
      obtain ⟨here, later⟩ := List.forall_mem_cons.mp trimmed
      rw [trimmedPieces_cons, here, ih later, List.singleton_append]

/-- A blank at the front of a text stands at the front of its first part. -/
theorem trimmedPieces_cut_blank (text : Text) :
    trimmedPieces (cut 0 0 none (' ' :: text)) = trimmedPieces (cut 0 0 none text) := by
  have blank : isBlank ' ' = true := by decide
  have notComma : ' ' = ',' → 0 < 0 := by decide
  have copied := cut_of_copied 0 (literalLength?_blank blank none text) notComma
  have same : cut 0 0 (some ' ') text = cut 0 0 none text := cut_previous (by decide) 0 0 text
  obtain ⟨first, rest, parts⟩ := List.exists_cons_of_ne_nil (cut_ne_nil 0 0 none text)
  rw [copied, depthAfter_pathChar (isPathChar_of_isBlank blank), same, parts, extendFirst]
  simp only [trimmedPieces, List.map_cons, trim_cons_blank blank]

/-- Pieces that are written one after the other are cut apart where they were joined. -/
theorem trimmedPieces_cut_join {texts : List Text} (separate : Separate texts) :
    trimmedPieces (cut 0 0 none (join ", " texts)) = trimmedPieces texts := by
  induction separate with
  | nil => rfl
  | @cons text rest piece _ ih =>
      cases rest with
      | nil => rw [join_singleton, piece.cut_eq]
      | cons next rest =>
          have joined : join ", " (text :: next :: rest) =
              text ++ ',' :: ' ' :: join ", " (next :: rest) := by
            rw [join_cons_cons, List.append_assoc]
            rfl
          have apart : Apart text (',' :: ' ' :: join ", " (next :: rest)) :=
            apart_of_head (by simp [singleQuote]) text
          rw [joined, piece.cut_comma apart, trimmedPieces_cons, trimmedPieces_cut_blank, ih,
            ← trimmedPieces_cons]

/-- Pieces that are written as an argument list are its arguments. -/
theorem splitArguments_of_separate {texts : List Text} (separate : Separate texts)
    (trimmed : ∀ text ∈ texts, trimmedPieces [text] = [text]) :
    splitArguments ('(' :: join ", " texts ++ [')']) = texts := by
  rw [splitArguments, undelimited_of_brackets rfl, trimmedPieces_cut_join separate,
    trimmedPieces_eq_self trimmed]

/-- An argument by itself is an argument list with one argument. -/
theorem splitArguments_of_piece {text : Text} (piece : Piece true 0 none text)
    (trimmed : trimmedPieces [text] = [text]) : splitArguments ('(' :: text ++ [')']) = [text] := by
  have alone : Separate [text] := .cons piece .nil
  exact splitArguments_of_separate alone (by simpa using trimmed)

/-- Splitting loses nothing of a text but separating commas and outer blanks, and no argument has a
comma in it that would separate. -/
theorem splitArguments_verbatim (text : Text) :
    (∃ pieces, join [','] pieces = undelimited text ∧
      splitArguments text = (pieces.filter fun piece => !piece.all isBlank).map trim) ∧
    ∀ argument ∈ splitArguments text, splitArguments ('(' :: argument ++ [')']) = [argument] := by
  constructor
  · exact ⟨cut 0 0 none (undelimited text), join_cut 0 0 none _, trimmedPieces_eq _⟩
  · intro argument member
    exact splitArguments_of_piece ((separate_splitArguments text).piece_of_mem member)
      (trimmedPieces_of_mem member)

/-- An argument list with a stray closing bracket, an empty argument, and a raw string that is not
closed. -/
def strayArguments : Text :=
  "(f[x, y]), ',' ,, r#\"b, c\" "

theorem splitArguments_verbatim_stray :
    splitArguments strayArguments =
      ["f[x, y])".toList, "','".toList, "r#\"b, c\"".toList] ∧
    (∃ pieces, join [','] pieces = undelimited strayArguments ∧
      splitArguments strayArguments =
        (pieces.filter fun piece => !piece.all isBlank).map trim) ∧
    splitArguments ('(' :: "r#\"b, c\"".toList ++ [')']) = ["r#\"b, c\"".toList] := by
  have split : splitArguments strayArguments =
      ["f[x, y])".toList, "','".toList, "r#\"b, c\"".toList] := by
    decide
  obtain ⟨pieces, atomic⟩ := splitArguments_verbatim strayArguments
  refine ⟨split, pieces, atomic _ ?_⟩
  rw [split]
  decide

end HarnessIndex.Attribute
