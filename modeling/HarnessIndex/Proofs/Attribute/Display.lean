import HarnessIndex.Proofs.Attribute.Direct
import HarnessIndex.Proofs.Attribute.Pieces

/-!
# Reading the display form back

The display form of an attribute is its path, and in brackets its arguments with a comma and a blank
between them. It is read back to the same attribute, whatever text the attribute was read from. A
value after an equals sign is displayed in brackets and read back as the one argument it is.
-/

namespace HarnessIndex.Attribute

open Text

/-! ## Reading a written attribute -/

/-- What is read as an attribute is a path and a tail. -/
theorem exists_of_ofText? {text : Text} {line : Nat} {descriptor : Descriptor}
    (found : Descriptor.ofText? text line = some descriptor) :
    ∃ path tail arguments, trim text = path ++ tail ∧ PathText path ∧
      Descriptor.tailArguments? tail = some arguments ∧
      descriptor = .ofName (withoutBlanks path) arguments line := by
  rw [Descriptor.ofText?] at found
  cases trimmed : trim text with
  | nil => simp [trimmed] at found
  | cons first rest =>
      simp only [trimmed] at found
      split at found
      · rename_i start
        obtain ⟨arguments, tail, rfl⟩ := Option.map_eq_some_iff.mp found
        refine ⟨first :: rest.takeWhile Descriptor.isPathChar,
          rest.dropWhile Descriptor.isPathChar, arguments, ?_, .intro start ?_, tail, rfl⟩
        · rw [List.cons_append, List.takeWhile_append_dropWhile]
        · exact fun c member => List.mem_takeWhile_imp member
      · cases found

/-! ## The value after an equals sign -/

/-- The first character of an opening that cannot stand in a path is no equals sign. -/
theorem Opening.head_dropWhile {previous : Option Char} {opening text : Text}
    (opens : Opening previous opening) (inFront : opening <+: text) :
    (text.dropWhile Descriptor.isPathChar).head? ≠ some '=' := by
  obtain ⟨after, rfl⟩ := inFront
  cases opens with
  | string =>
      rw [List.singleton_append, List.dropWhile_cons_of_neg (by decide), List.head?_cons]
      decide
  | @raw mark hashes isMark allHashes _ =>
      have inPath : ∀ c ∈ mark, Descriptor.isPathChar c = true := by
        cases isMark with
        | raw => exact List.all_eq_true.mp (by decide)
        | byteRaw => exact List.all_eq_true.mp (by decide)
      rw [List.append_assoc, List.append_assoc, List.dropWhile_append_of_pos inPath]
      cases hashes with
      | nil =>
          rw [List.nil_append, List.singleton_append, List.dropWhile_cons_of_neg (by decide),
            List.head?_cons]
          decide
      | cons hash hashes =>
          rw [allHashes hash List.mem_cons_self, List.cons_append,
            List.dropWhile_cons_of_neg (by decide), List.head?_cons]
          decide
  | char char =>
      obtain ⟨rest, rfl⟩ := char.exists_cons
      rw [List.cons_append, List.dropWhile_cons_of_neg (by decide), List.head?_cons]
      decide

theorem literalLength?_path {previous : Option Char} {path : Text}
    (pathChars : ∀ c ∈ path, Descriptor.isPathChar c = true) (value : Text) :
    literalLength? previous (path ++ '=' :: value) = none := by
  by_contra some
  obtain ⟨size, found⟩ := Option.ne_none_iff_exists'.mp some
  obtain ⟨opening, opens, inFront⟩ := exists_opening found
  refine opens.head_dropWhile inFront ?_
  rw [List.dropWhile_append_of_pos pathChars, List.dropWhile_cons_of_neg (by decide)]
  rfl

/-- The value that stands after a path and an equals sign in an argument is itself an argument. -/
theorem Piece.value {last : Bool} {previous : Option Char} {path value : Text}
    (pathChars : ∀ c ∈ path, Descriptor.isPathChar c = true)
    (piece : Piece last 0 previous (path ++ '=' :: value)) : Piece last 0 (some '=') value := by
  induction path generalizing previous with
  | nil =>
      have later := piece.of_cons (literalLength?_path pathChars value)
      exact later
  | cons c path ih =>
      have later := piece.of_cons (literalLength?_path pathChars value)
      obtain ⟨pathChar, pathChars⟩ := List.forall_mem_cons.mp pathChars
      rw [depthAfter_pathChar pathChar] at later
      exact ih pathChars later

/-! ## The display form -/

/-- The arguments of an attribute are pieces, if the attribute is written as a piece. -/
theorem separate_tailArguments {path tail : Text} {arguments : List Text} (isPath : PathText path)
    (piece : Piece true 0 none (path ++ tail))
    (found : Descriptor.tailArguments? tail = some arguments) :
    Separate arguments ∧ ∀ text ∈ arguments, trimmedPieces [text] = [text] := by
  cases tail with
  | nil =>
      cases found
      exact ⟨.nil, by simp⟩
  | cons c rest =>
      rw [Descriptor.tailArguments?] at found
      split at found
      · cases found
        exact ⟨separate_splitArguments _, fun text member => trimmedPieces_of_mem member⟩
      · split at found
        · rename_i equals
          subst equals
          cases found
          have noWord : (some '=').any isWord = (none : Option Char).any isWord := by decide
          have value := (piece.value isPath.isPathChar).of_previous noWord
          have separate : Separate [rest] := .cons value .nil
          exact ⟨separate.map_trim.filter _, fun text member => trimmedPieces_of_mem member⟩
        · cases found

/-- An attribute is read back from its display form when its arguments are pieces. -/
theorem ofText?_text_of_separate {name : Text} {arguments : List Text} (isPath : PathText name)
    (noBlanks : withoutBlanks name = name) (separate : Separate arguments)
    (trimmed : ∀ text ∈ arguments, trimmedPieces [text] = [text]) (line : Nat) :
    Descriptor.ofText? (Descriptor.ofName name arguments line).text line =
      some (.ofName name arguments line) := by
  cases arguments with
  | nil =>
      rw [Descriptor.text_of_no_arguments, ofText?_path isPath, noBlanks]
  | cons first rest =>
      have shown : (Descriptor.ofName name (first :: rest) line).text =
          name ++ '(' :: (join ", " (first :: rest) ++ [')']) := by
        rw [← List.cons_append, ← List.append_assoc]
        rfl
      have split := splitArguments_of_separate separate trimmed
      rw [List.cons_append] at split
      rw [shown, ofText?_append isPath (by decide), Descriptor.tailArguments?,
        if_pos (by decide), splitArguments_trimEnd (by decide), split, noBlanks]
      rfl

/-- The display form loses nothing: arguments that are written again with commas between them are
the same arguments, and an attribute among them is read back from its display form. -/
theorem display_reads_back (text : Text) :
    splitArguments ('(' :: join ", " (splitArguments text) ++ [')']) = splitArguments text ∧
      ∀ segment ∈ splitArguments text, ∀ (line : Nat) (descriptor : Descriptor),
        Descriptor.ofText? segment line = some descriptor →
          Descriptor.ofText? descriptor.text line = some descriptor := by
  have separate := separate_splitArguments text
  constructor
  · exact splitArguments_of_separate separate fun argument member => trimmedPieces_of_mem member
  · intro segment member line descriptor found
    obtain ⟨path, tail, arguments, split, isPath, hasTail, rfl⟩ := exists_of_ofText? found
    have piece : Piece true 0 none (path ++ tail) := by
      rw [← split]
      exact (separate.piece_of_mem member).trim
    obtain ⟨pieces, trimmed⟩ := separate_tailArguments isPath piece hasTail
    exact ofText?_text_of_separate isPath.withoutBlanks (withoutBlanks_withoutBlanks path) pieces
      trimmed line

/-- Two attributes in brackets, the second with a value in a string that is not closed. -/
def unclosedValue : Text :=
  "(kani :: stub (a, ',' ) , doc = \"x, y )"

theorem display_reads_back_unclosed :
    splitArguments unclosedValue =
      ["kani :: stub (a, ',' )".toList, "doc = \"x, y".toList] ∧
    splitArguments ('(' :: join ", " (splitArguments unclosedValue) ++ [')']) =
      splitArguments unclosedValue ∧
    Descriptor.ofText? "doc = \"x, y" 7 = some (.ofName "doc" ["\"x, y".toList] 7) ∧
    (Descriptor.ofName "doc" ["\"x, y".toList] 7).text = "doc(\"x, y)".toList ∧
    Descriptor.ofText? (Descriptor.ofName "doc" ["\"x, y".toList] 7).text 7 =
      some (.ofName "doc" ["\"x, y".toList] 7) := by
  have split : splitArguments unclosedValue =
      ["kani :: stub (a, ',' )".toList, "doc = \"x, y".toList] := by
    decide +kernel
  have read : Descriptor.ofText? "doc = \"x, y" 7 =
      some (.ofName "doc" ["\"x, y".toList] 7) := by
    decide +kernel
  obtain ⟨again, back⟩ := display_reads_back unclosedValue
  have member : "doc = \"x, y".toList ∈ splitArguments unclosedValue := by
    rw [split]
    decide
  exact ⟨split, again, read, by decide +kernel, back _ member 7 _ read⟩

end HarnessIndex.Attribute
