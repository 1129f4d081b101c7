import HarnessIndex.Proofs.Attribute.Classify
import HarnessIndex.Proofs.Text.Trim
import HarnessIndex.Proofs.Text.Word
import HarnessIndex.Reader.Source

/-!
# Written attributes and attributes of the tree

An attribute is read in two ways: off the nodes of the tree where it is written on an item, and off
its text where a conditional attribute wraps it. Both give the same descriptor, whatever blanks
stand around the path, in the brackets or around the value.
-/

namespace HarnessIndex.Attribute

open Text Syntax

/-- A text that can be the path of an attribute. -/
inductive PathText : Text → Prop where
  | intro {first : Char} {rest : Text} : (isAsciiLetter first || first = '_') = true →
      (∀ c ∈ rest, Descriptor.isPathChar c = true) → PathText (first :: rest)

/-- Whether a text can be the path of an attribute. -/
def isPathText : Text → Bool
  | [] => false
  | first :: rest => (isAsciiLetter first || first = '_') && rest.all Descriptor.isPathChar

theorem isPathText_iff {text : Text} : isPathText text = true ↔ PathText text := by
  constructor
  · intro isPath
    cases text with
    | nil => cases isPath
    | cons first rest =>
        obtain ⟨start, pathChars⟩ := Bool.and_eq_true_iff.mp isPath
        exact .intro start (List.all_eq_true.mp pathChars)
  · intro isPath
    obtain ⟨start, pathChars⟩ := isPath
    exact Bool.and_eq_true_iff.mpr ⟨start, List.all_eq_true.mpr pathChars⟩

instance (text : Text) : Decidable (PathText text) :=
  decidable_of_iff _ isPathText_iff

/-- What the body of an attribute has after its path, written out: nothing, a token text in
brackets, or a value after an equals sign, with any blanks around it. -/
inductive HasTail (body : Node) : Text → Prop where
  | none : body.field? .arguments = .none → body.field? .value = .none → HasTail body []
  | arguments {arguments : Node} {opener : Char} {rest : Text} :
      body.field? .arguments = some arguments → arguments.text = opener :: rest →
      isOpener opener = true → HasTail body (opener :: rest)
  | value {value : Node} {written : Text} : body.field? .arguments = .none →
      body.field? .value = some value → trim written = trim value.text →
      HasTail body ('=' :: written)

/-- An attribute of the tree is written with a path and what follows it. -/
inductive WrittenAs (item : Node) (path tail : Text) : Prop where
  | intro {body first : Node} : item.attributeBody? = some body →
      body.children.head? = some first → first.kind.isPath = true → first.text = path →
      HasTail body tail → WrittenAs item path tail

def hasTail (body : Node) (tail : Text) : Bool :=
  match body.field? .arguments, body.field? .value, tail with
  | some arguments, _, opener :: rest => isOpener opener && arguments.text = opener :: rest
  | none, some value, '=' :: written => trim written = trim value.text
  | none, none, [] => true
  | _, _, _ => false

theorem hasTail_iff {body : Node} {tail : Text} :
    hasTail body tail = true ↔ HasTail body tail := by
  constructor
  · intro has
    unfold hasTail at has
    split at has
    · rename_i filled
      obtain ⟨opens, text⟩ := Bool.and_eq_true_iff.mp has
      exact .arguments filled (of_decide_eq_true text) opens
    · rename_i noArguments filled
      exact .value noArguments filled (of_decide_eq_true has)
    · rename_i noArguments noValue
      exact .none noArguments noValue
    · simp at has
  · intro has
    cases has with
    | none noArguments noValue => simp only [hasTail, noArguments, noValue]
    | arguments filled text opens => simp [hasTail, filled, opens, text]
    | value noArguments filled same => simp [hasTail, noArguments, filled, same]

theorem writtenAs_iff {item : Node} {path tail : Text} :
    (item.attributeBody?.any fun body => body.children.head?.any fun first =>
      first.kind.isPath && first.text = path && hasTail body tail) = true ↔
        WrittenAs item path tail := by
  simp only [Option.any_eq_true, Bool.and_eq_true, decide_eq_true_iff, hasTail_iff]
  constructor
  · rintro ⟨body, inner, first, head, ⟨kind, text⟩, has⟩
    exact .intro inner head kind text has
  · rintro ⟨inner, head, kind, text, has⟩
    exact ⟨_, inner, _, head, ⟨kind, text⟩, has⟩

instance (item : Node) (path tail : Text) : Decidable (WrittenAs item path tail) :=
  decidable_of_iff _ writtenAs_iff

/-! ## Reading the nodes -/

theorem isWord_of_pathStart {c : Char} (start : (isAsciiLetter c || c = '_') = true) :
    isWord c = true := by
  have ascii : c.toNat < 0x80 := by
    rw [Bool.or_eq_true, decide_eq_true_iff] at start
    rcases start with letter | rfl
    · simp only [isAsciiLetter, Bool.or_eq_true, Bool.and_eq_true, decide_eq_true_iff] at letter
      omega
    · decide
  rw [isWord, if_pos ascii, Bool.or_right_comm, start, Bool.true_or]

theorem solid_of_pathStart {c : Char} (start : (isAsciiLetter c || c = '_') = true) :
    isBlank c = false :=
  isBlank_of_isWord (isWord_of_pathStart start)

theorem PathText.isPathChar {path : Text} (isPath : PathText path) :
    ∀ c ∈ path, Descriptor.isPathChar c = true := by
  obtain ⟨start, pathChars⟩ := isPath
  have first := Descriptor.isPathChar_of_isWord (isWord_of_pathStart start)
  exact List.forall_mem_cons.mpr ⟨first, pathChars⟩

theorem PathText.ne_nil {path : Text} (isPath : PathText path) : path ≠ [] := by
  obtain ⟨-, -⟩ := isPath
  exact List.cons_ne_nil _ _

/-- Without its blanks a path can still be the path of an attribute. -/
theorem PathText.withoutBlanks {path : Text} (isPath : PathText path) :
    PathText (withoutBlanks path) := by
  obtain ⟨start, pathChars⟩ := isPath
  rw [Text.withoutBlanks, List.filter_cons_of_pos (by simp [solid_of_pathStart start])]
  exact .intro start fun c member => pathChars c (List.mem_filter.mp member).1

theorem PathText.trim_append_ne_nil {path : Text} (isPath : PathText path) (rest : Text) :
    trim (path ++ rest) ≠ [] := by
  obtain ⟨start, -⟩ := isPath
  rw [List.cons_append, trim_cons_solid (solid_of_pathStart start)]
  exact List.cons_ne_nil _ _

theorem attributePath?_of_writtenAs {item : Node} {path tail : Text}
    (written : WrittenAs item path tail) (isPath : PathText path) :
    item.attributePath? = some (withoutBlanks path) := by
  obtain ⟨inner, first, kind, text, -⟩ := written
  rw [Node.attributePath?, inner, Option.bind_eq_bind, Option.bind_some, first, Option.bind_some,
    if_pos kind, text]
  exact Node.nonempty?_eq_some.mpr ⟨rfl, isPath.withoutBlanks.ne_nil⟩

/-- An attribute that is no conditional one is read off its path and its arguments. -/
theorem classify_of_writtenAs {item : Node} {path tail : Text} (written : WrittenAs item path tail)
    (isPath : PathText path) (direct : withoutBlanks path ≠ conditional) :
    classify item = [.ofName (withoutBlanks path) item.literalArguments item.startLine] := by
  rw [classify, attributePath?_of_writtenAs written isPath]
  exact expand_of_ne direct _ _

/-! ## Reading the text -/

theorem not_isPathChar_of_isOpener {c : Char} (opens : isOpener c = true) :
    Descriptor.isPathChar c = false := by
  obtain ⟨closer, pair⟩ := Option.isSome_iff_exists.mp opens
  unfold closer? at pair
  split at pair
  · decide
  · decide
  · decide
  · simp at pair

theorem solid_of_not_isPathChar {c : Char} (stops : Descriptor.isPathChar c = false) :
    isBlank c = false := by
  simp only [Descriptor.isPathChar, Bool.or_eq_false_iff] at stops
  exact stops.1.2

theorem ofText?_path {path : Text} (isPath : PathText path) (line : Nat) :
    Descriptor.ofText? path line = some (.ofName (withoutBlanks path) [] line) := by
  obtain ⟨start, pathChars⟩ := isPath
  rename_i first rest
  have solid := solid_of_pathStart start
  obtain ⟨blanks, split, -⟩ := exists_trimEnd rest
  have trimmed : ∀ c ∈ trimEnd rest, Descriptor.isPathChar c = true := by
    intro c member
    refine pathChars c ?_
    rw [split]
    exact List.mem_append_left _ member
  have whole : withoutBlanks (first :: trimEnd rest) = withoutBlanks (first :: rest) := by
    rw [← trimEnd_cons_solid solid, withoutBlanks_trimEnd]
  rw [Descriptor.ofText?, trim_cons_solid solid]
  simp only [start, if_true]
  rw [List.dropWhile_eq_nil_iff.mpr trimmed, List.takeWhile_eq_self_iff.mpr trimmed, whole]
  rfl

/-- A written attribute with a tail is read off its path and its tail, trimmed at the end. -/
theorem ofText?_append {path rest : Text} {c : Char} (isPath : PathText path)
    (stops : Descriptor.isPathChar c = false) (line : Nat) :
    Descriptor.ofText? (path ++ c :: rest) line =
      (Descriptor.tailArguments? (c :: trimEnd rest)).map fun arguments =>
        .ofName (withoutBlanks path) arguments line := by
  obtain ⟨start, pathChars⟩ := isPath
  have solid := solid_of_pathStart start
  rw [Descriptor.ofText?, List.cons_append, trim_cons_solid solid,
    trimEnd_append_solid (solid_of_not_isPathChar stops)]
  simp only [start, if_true]
  rw [List.dropWhile_append_of_pos pathChars, List.takeWhile_append_of_pos pathChars,
    List.dropWhile_cons_of_neg (by simp [stops]), List.takeWhile_cons_of_neg (by simp [stops]),
    List.append_nil]

theorem splitArguments_trimEnd {opener : Char} (solid : isBlank opener = false) (rest : Text) :
    splitArguments (opener :: trimEnd rest) = splitArguments (opener :: rest) := by
  rw [splitArguments, splitArguments, undelimited, undelimited, trim_cons_solid solid,
    trim_cons_solid solid, trimEnd_trimEnd]

/-- What a written attribute has after its path: nothing, a token text in brackets, or a value after
an equals sign. -/
inductive Tail where
  | none
  | arguments (opener : Char) (rest : Text) (opens : isOpener opener = true)
  | value (written : Text)

namespace Tail

/-- The text that is written after the path. -/
def text : Tail → Text
  | none => []
  | arguments opener rest _ => opener :: rest
  | value written => '=' :: written

/-- The arguments that are read off the text. -/
def literalArguments : Tail → List Text
  | none => []
  | arguments opener rest _ => splitArguments (opener :: rest)
  | value written => trimmedPieces [written]

end Tail

/-- A path and a tail are read as an attribute with that path and the arguments of the tail. -/
theorem ofText?_tail {path : Text} (isPath : PathText path) (tail : Tail) (line : Nat) :
    Descriptor.ofText? (path ++ tail.text) line =
      some (.ofName (withoutBlanks path) tail.literalArguments line) := by
  cases tail with
  | none => rw [Tail.text, List.append_nil, ofText?_path isPath, Tail.literalArguments]
  | arguments opener rest opens =>
      have stops := not_isPathChar_of_isOpener opens
      rw [Tail.text, ofText?_append isPath stops, Descriptor.tailArguments?, if_pos opens,
        splitArguments_trimEnd (solid_of_not_isPathChar stops)]
      rfl
  | value written =>
      have pieces : trimmedPieces [trimEnd written] = trimmedPieces [written] := by
        simp only [trimmedPieces, List.map_singleton, trim_trimEnd]
      rw [Tail.text, ofText?_append isPath (by decide), Descriptor.tailArguments?,
        if_neg (by decide), if_pos rfl, pieces]
      rfl

/-- What an attribute of the tree has after its path is a tail with the arguments of the nodes. -/
theorem HasTail.exists_tail {item body : Node} {written : Text}
    (inner : item.attributeBody? = some body) (hasTail : HasTail body written) :
    ∃ tail : Tail, tail.text = written ∧ tail.literalArguments = item.literalArguments := by
  cases hasTail with
  | none noArguments noValue =>
      refine ⟨.none, rfl, ?_⟩
      simp only [Node.literalArguments, inner, noArguments, noValue, Tail.literalArguments]
  | @arguments arguments opener rest filled text opens =>
      refine ⟨.arguments opener rest opens, rfl, ?_⟩
      simp only [Node.literalArguments, inner, filled, text, Tail.literalArguments]
  | @value value written noArguments filled same =>
      refine ⟨.value written, rfl, ?_⟩
      simp only [Node.literalArguments, inner, noArguments, filled, Tail.literalArguments,
        trimmedPieces, List.map_singleton, same]

/-- The text of a written attribute has the path and the arguments that the nodes have. -/
theorem ofText?_of_writtenAs {item : Node} {path tail : Text} (written : WrittenAs item path tail)
    (isPath : PathText path) (line : Nat) :
    Descriptor.ofText? (path ++ tail) line =
      some (.ofName (withoutBlanks path) item.literalArguments line) := by
  obtain ⟨inner, -, -, -, hasTail⟩ := written
  obtain ⟨tail, rfl, same⟩ := hasTail.exists_tail inner
  rw [ofText?_tail isPath, same]

/-- An attribute that is no conditional one is classified in the same way from its text and from its
nodes. -/
theorem classify_eq_ofText? {item : Node} {path tail : Text} (written : WrittenAs item path tail)
    (isPath : PathText path) (direct : withoutBlanks path ≠ conditional) :
    ∃ descriptor, Descriptor.ofText? (path ++ tail) item.startLine = some descriptor ∧
      classify item = [descriptor] :=
  ⟨_, ofText?_of_writtenAs written isPath item.startLine,
    classify_of_writtenAs written isPath direct⟩

/-- An attribute on the second line, with blanks in its path and in its brackets. -/
def spaced : Node :=
  (Reader.parse "\n#[kani :: stub( a::f ,\n\"x, y\" )]fn f(){}").root.children.headD default

/-- What is written in the brackets of the attribute. -/
def spacedTail : Text :=
  "( a::f ,\n\"x, y\" )"

theorem classify_eq_ofText?_spaced :
    WrittenAs spaced "kani :: stub" spacedTail ∧ PathText "kani :: stub".toList ∧
      withoutBlanks "kani :: stub" ≠ conditional ∧
      classify spaced = [.ofName "kani::stub" ["a::f".toList, "\"x, y\"".toList] 2] ∧
      ∃ descriptor,
        Descriptor.ofText? ("kani :: stub" ++ spacedTail) spaced.startLine = some descriptor ∧
          classify spaced = [descriptor] := by
  have facts : WrittenAs spaced "kani :: stub" spacedTail ∧
      withoutBlanks "kani :: stub" ≠ conditional ∧
      classify spaced = [.ofName "kani::stub" ["a::f".toList, "\"x, y\"".toList] 2] := by
    decide +kernel
  obtain ⟨written, direct, shown⟩ := facts
  have isPath : PathText "kani :: stub".toList :=
    .intro (by decide) (List.all_eq_true.mp (by decide))
  exact ⟨written, isPath, direct, shown, classify_eq_ofText? written isPath direct⟩

end HarnessIndex.Attribute
