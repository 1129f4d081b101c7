import HarnessIndex.Proofs.Attribute.Layers
import HarnessIndex.Proofs.Attribute.Pieces

/-!
# What a conditional attribute wraps

The attributes inside a conditional attribute are read off their texts, one after the other. A text
is not read as an attribute when its path does not begin with an ASCII letter or a low line, or has
a character in it that is neither a word character nor a colon nor a blank. Nothing is left of such
an attribute, although its path may begin with colons, or with a letter outside ASCII, or have a
raw identifier in it.
-/

namespace HarnessIndex.Attribute

open Text Syntax

/-- A character that stands for itself in token text and begins no tail. -/
def continuesPath (c : Char) : Bool :=
  isPlain c && c ≠ '='

/-- An attribute as it is written inside a conditional one, with a path that is not blank. -/
structure WrappedAttribute where
  path : Text
  tail : Tail
  plain : ∀ c ∈ path, continuesPath c = true
  filled : withoutBlanks path ≠ []

namespace WrappedAttribute

/-- The text that is written for the attribute. -/
def text (wrapped : WrappedAttribute) : Text :=
  wrapped.path ++ wrapped.tail.text

/-- The attribute as it is described when it stands on a line. -/
def descriptor (line : Nat) (wrapped : WrappedAttribute) : Descriptor :=
  .ofName (withoutBlanks wrapped.path) wrapped.tail.literalArguments line

/-- Whether the path of the attribute is one that can be read off a text. -/
def isReadable (wrapped : WrappedAttribute) : Bool :=
  PathText (trimStart wrapped.path)

/-- After its blanks the path has a first character that is none, and is plain from there on. -/
theorem exists_trimStart (wrapped : WrappedAttribute) :
    ∃ first rest, trimStart wrapped.path = first :: rest ∧ isBlank first = false ∧
      (∀ c ∈ first :: rest, continuesPath c = true) ∧
      withoutBlanks wrapped.path = withoutBlanks (first :: rest) ∧
      trimStart wrapped.text = first :: rest ++ wrapped.tail.text := by
  obtain ⟨blanks, first, rest, split, blank, solid⟩ :=
    exists_of_withoutBlanks_ne_nil wrapped.filled
  refine ⟨first, rest, ?_, solid, ?_, ?_, ?_⟩
  · rw [split, trimStart_blanks blank solid]
  · intro c member
    apply wrapped.plain
    rw [split]
    exact List.mem_append_right blanks member
  · rw [split, withoutBlanks_append, withoutBlanks_of_blank blank, List.nil_append]
  · rw [text, split, List.append_assoc, List.cons_append, trimStart_blanks blank solid]

/-- No character literal begins where the text of an attribute begins. -/
theorem exists_head (wrapped : WrappedAttribute) :
    ∃ c, wrapped.text.head? = some c ∧ c ≠ singleQuote := by
  cases shape : wrapped.path with
  | nil => exact absurd (congrArg withoutBlanks shape) wrapped.filled
  | cons c rest =>
      refine ⟨c, by rw [text, shape]; rfl, ?_⟩
      rintro rfl
      exact absurd (wrapped.plain singleQuote (by rw [shape]; simp)) (by decide)

/-- Something is left of the text of an attribute when it is trimmed. -/
theorem trim_text_ne_nil (wrapped : WrappedAttribute) : trim wrapped.text ≠ [] := by
  obtain ⟨first, rest, -, solid, -, -, start⟩ := wrapped.exists_trimStart
  rw [← trim_trimStart, start, List.cons_append, trim_cons_solid solid]
  exact List.cons_ne_nil _ _

end WrappedAttribute

/-! ## Reading one attribute -/

theorem ofText?_trimStart (text : Text) (line : Nat) :
    Descriptor.ofText? (trimStart text) line = Descriptor.ofText? text line := by
  rw [Descriptor.ofText?, Descriptor.ofText?, trim_trimStart]

theorem tailArguments?_of_continuesPath {c : Char} (continues : continuesPath c = true)
    (rest : Text) : Descriptor.tailArguments? (c :: rest) = none := by
  obtain ⟨plain, noValue⟩ := Bool.and_eq_true_iff.mp continues
  have noGroup : isOpener c = false := by
    cases opens : isOpener c with
    | false => rfl
    | true => simp [isPlain, opens] at plain
  rw [Descriptor.tailArguments?, if_neg (by simp [noGroup]),
    if_neg (of_decide_eq_true noValue)]

/-- What does not begin like a path is not read as an attribute. -/
theorem ofText?_of_start {first : Char} (solid : isBlank first = false)
    (noStart : (isAsciiLetter first || first = '_') = false) (rest : Text) (line : Nat) :
    Descriptor.ofText? (first :: rest) line = none := by
  rw [Descriptor.ofText?, trim_cons_solid solid]
  simp only [noStart, if_neg Bool.false_ne_true]

/-- A text with other characters in its path is not read as an attribute. -/
theorem ofText?_of_not_pathText {first : Char} {path : Text} (solid : isBlank first = false)
    (plain : ∀ c ∈ first :: path, continuesPath c = true) (notPath : ¬PathText (first :: path))
    (tail : Text) (line : Nat) : Descriptor.ofText? (first :: path ++ tail) line = none := by
  cases start : isAsciiLetter first || first = '_' with
  | false => exact ofText?_of_start solid start _ line
  | true =>
      cases stop : path.dropWhile Descriptor.isPathChar with
      | nil => exact absurd (.intro start (List.dropWhile_eq_nil_iff.mp stop)) notPath
      | cons c more =>
          have split : path = path.takeWhile Descriptor.isPathChar ++ c :: more := by
            rw [← stop, List.takeWhile_append_dropWhile]
          have stops : Descriptor.isPathChar c = false := by
            have found := List.head?_dropWhile_not Descriptor.isPathChar path
            rw [stop] at found
            exact found
          have isPath : PathText (first :: path.takeWhile Descriptor.isPathChar) :=
            .intro start fun c member => List.mem_takeWhile_imp member
          have continues := plain c (by rw [split]; simp)
          have whole : first :: path ++ tail =
              first :: path.takeWhile Descriptor.isPathChar ++ c :: (more ++ tail) := by
            conv_lhs => rw [split]
            simp
          rw [whole, ofText?_append isPath stops, tailArguments?_of_continuesPath continues]
          rfl

namespace WrappedAttribute

/-- The text of an attribute is read as this attribute if its path is readable, and not at all if it
is not. -/
theorem ofText?_text (wrapped : WrappedAttribute) (line : Nat) :
    Descriptor.ofText? wrapped.text line =
      if wrapped.isReadable then some (wrapped.descriptor line) else none := by
  obtain ⟨first, rest, start, solid, plain, sameName, trimmed⟩ := wrapped.exists_trimStart
  rw [← ofText?_trimStart, trimmed, isReadable, start]
  by_cases isPath : PathText (first :: rest)
  · rw [ofText?_tail isPath, descriptor, sameName, decide_eq_true isPath, if_pos rfl]
  · rw [ofText?_of_not_pathText solid plain isPath, decide_eq_false isPath,
      if_neg Bool.false_ne_true]

theorem filterMap_ofText? (attributes : List WrappedAttribute) (line : Nat) :
    (attributes.map text).filterMap (fun text => Descriptor.ofText? text line) =
      (attributes.filter isReadable).map (descriptor line) := by
  induction attributes with
  | nil => rfl
  | cons wrapped attributes ih =>
      rw [List.map_cons, List.filterMap_cons, ofText?_text, ih]
      cases readable : wrapped.isReadable <;> simp [readable]

end WrappedAttribute

/-! ## The attributes one after the other -/

/-- Pieces are separated by the commas between them when no single quote follows a comma. -/
theorem chain_commaParts_of_head {first : Text} {rest : List Text}
    (separate : Separate (first :: rest))
    (heads : ∀ text ∈ rest, ∃ c, text.head? = some c ∧ c ≠ singleQuote) :
    (first :: rest).IsChain CommaParts := by
  induction rest generalizing first with
  | nil => exact .singleton first
  | cons next rest ih =>
      cases separate with
      | cons piece separate =>
          obtain ⟨⟨c, start, noQuote⟩, heads⟩ := List.forall_mem_cons.mp heads
          exact .cons_cons (commaParts_of_piece piece start noQuote) (ih separate heads)

/-- The arguments of a conditional attribute are its condition and what it wraps, each trimmed. -/
theorem splitArguments_conditional {condition : Text} {attributes : List WrappedAttribute}
    {opener closer : Char} (pair : closer? opener = some closer) (filled : trim condition ≠ [])
    (separate : Separate (condition :: attributes.map WrappedAttribute.text)) :
    splitArguments (opener :: join [','] (condition :: attributes.map WrappedAttribute.text) ++
      [closer]) = trim condition :: (attributes.map WrappedAttribute.text).map trim := by
  have heads : ∀ text ∈ attributes.map WrappedAttribute.text,
      ∃ c, text.head? = some c ∧ c ≠ singleQuote :=
    List.forall_mem_map.mpr fun wrapped _ => wrapped.exists_head
  have left : ∀ text ∈ (attributes.map WrappedAttribute.text).map trim, (!text.isEmpty) = true := by
    simpa using fun wrapped _ => wrapped.trim_text_ne_nil
  rw [splitArguments, undelimited_of_brackets pair,
    cut_join_of_chain (List.cons_ne_nil _ _) separate (chain_commaParts_of_head separate heads),
    trimmedPieces, List.map_cons, List.filter_cons_of_pos (by simpa using filled),
    List.filter_eq_self.mpr left]

theorem enablesUnderKani_trim (condition : Text) :
    enablesUnderKani (trim condition) = enablesUnderKani condition := by
  rw [enablesUnderKani, enablesUnderKani, withoutBlanks_trim]

theorem trim_ne_nil_of_enablesUnderKani {condition : Text}
    (enables : enablesUnderKani condition = true) : trim condition ≠ [] := by
  intro none
  rw [← enablesUnderKani_trim, none] at enables
  cases enables

section Conditional

variable {outer : Node} {condition : Text} {attributes : List WrappedAttribute}
  {opener closer : Char}

/-- A conditional attribute stands for the attributes inside it that are readable. -/
theorem classify_filter (pair : closer? opener = some closer)
    (enables : enablesUnderKani condition = true) (nonempty : attributes ≠ [])
    (separate : Separate (condition :: attributes.map WrappedAttribute.text))
    (written : WrittenAs outer conditional
      (opener :: join [','] (condition :: attributes.map WrappedAttribute.text) ++ [closer])) :
    classify outer = (attributes.filter WrappedAttribute.isReadable).map
      (WrappedAttribute.descriptor outer.startLine) := by
  have opens : isOpener opener = true := by
    rw [isOpener, pair]
    rfl
  have path : outer.attributePath? = some conditional :=
    attributePath?_of_writtenAs written pathText_conditional
  have arguments :=
    splitArguments_conditional pair (trim_ne_nil_of_enablesUnderKani enables) separate
  rw [List.cons_append] at written arguments
  rw [← enablesUnderKani_trim] at enables
  rw [classify, path]
  simp only [literalArguments_of_writtenAs written opens, arguments]
  rw [expand_conditional (by simpa using nonempty) enables, List.filterMap_map,
    ← WrappedAttribute.filterMap_ofText?]
  exact List.filterMap_congr fun text _ => ofText?_trim text outer.startLine

/-- A conditional attribute stands for the attributes inside it, one by one with their paths,
exactly when the path of each of them is one that can be read off a text. An attribute with another
path is dropped. What is left is supported when its path is one of those that are understood. -/
theorem classify_wrapped (pair : closer? opener = some closer)
    (enables : enablesUnderKani condition = true) (nonempty : attributes ≠ [])
    (separate : Separate (condition :: attributes.map WrappedAttribute.text))
    (written : WrittenAs outer conditional
      (opener :: join [','] (condition :: attributes.map WrappedAttribute.text) ++ [closer])) :
    (classify outer = attributes.map (WrappedAttribute.descriptor outer.startLine) ↔
      ∀ wrapped ∈ attributes, PathText (trimStart wrapped.path)) ∧
    classify outer = (attributes.filter fun wrapped => PathText (trimStart wrapped.path)).map
      (WrappedAttribute.descriptor outer.startLine) ∧
    ∀ found ∈ classify outer,
      (found.supported = true ↔ found.name ∈ Kind.known.map Prod.fst) := by
  have described := classify_filter pair enables nonempty separate written
  refine ⟨⟨?_, ?_⟩, described, ?_⟩
  · intro all
    rw [described] at all
    have size := congrArg List.length all
    rw [List.length_map, List.length_map, List.length_filter_eq_length_iff] at size
    exact fun wrapped member => of_decide_eq_true (size wrapped member)
  · intro readable
    have kept : attributes.filter WrappedAttribute.isReadable = attributes :=
      List.filter_eq_self.mpr fun wrapped member => decide_eq_true (readable wrapped member)
    rw [described, kept]
  · intro found member
    rw [described] at member
    obtain ⟨wrapped, -, rfl⟩ := List.mem_map.mp member
    rw [← not_iff_not, WrappedAttribute.descriptor, Descriptor.ofName, ← Kind.ofName_eq_unsupported]
    simp

end Conditional

/-- An attribute whose path begins with colons, and one that is readable. -/
def rootedAndUnwind : List WrappedAttribute :=
  [⟨" ::kani::proof", .none, List.all_eq_true.mp (by decide), by decide⟩,
    ⟨"kani :: unwind", .arguments '(' "2, 3)" rfl, List.all_eq_true.mp (by decide), by decide⟩]

/-- A conditional attribute around them. -/
def rootedConditional : Node :=
  (Reader.parse "#[cfg_attr(kani, ::kani::proof,kani :: unwind(2, 3))]fn f(){}").root.children.headD
    default

theorem writtenAs_rootedConditional :
    WrittenAs rootedConditional conditional
      ('(' :: join [','] (kaniOption :: rootedAndUnwind.map WrappedAttribute.text) ++ [')']) := by
  decide +kernel

theorem separate_rootedAndUnwind :
    Separate (kaniOption :: rootedAndUnwind.map WrappedAttribute.text) := by
  have two : TokenText true ("kani :: unwind" ++ ['(']) ['2', ',', ' ', '3'] :=
    .plain rfl (.comma (.plain rfl (.plain rfl .nil)))
  have path {text : Text} (plain : text.all isPlain = true) : ∀ c ∈ text, isPlain c = true :=
    List.all_eq_true.mp plain
  have unwind : TokenText false [] ("kani :: unwind" ++ "(2, 3)") :=
    .plains (path (by decide)) (.group rfl two .nil)
  exact .cons (piece_of_tokenText (.of_plain (path (by decide)))) <|
    .cons (piece_of_tokenText (.of_plain (path (by decide)))) <|
      .cons (piece_of_tokenText unwind).toLast .nil

theorem classify_wrapped_rooted :
    enablesUnderKani kaniOption = true ∧
      Separate (kaniOption :: rootedAndUnwind.map WrappedAttribute.text) ∧
      WrittenAs rootedConditional conditional
        ('(' :: join [','] (kaniOption :: rootedAndUnwind.map WrappedAttribute.text) ++ [')']) ∧
      classify rootedConditional = [.ofName "kani::unwind" ["2".toList, "3".toList] 1] := by
  have enables : enablesUnderKani kaniOption = true := by decide
  obtain ⟨-, kept, -⟩ := classify_wrapped rfl enables (List.cons_ne_nil _ _)
    separate_rootedAndUnwind writtenAs_rootedConditional
  refine ⟨enables, separate_rootedAndUnwind, writtenAs_rootedConditional, ?_⟩
  rw [kept]
  decide +kernel

/-- A conditional attribute has fewer descriptors than it wraps attributes. -/
theorem not_classify_wrapped :
    ¬∀ (outer : Node) (condition : Text) (attributes : List WrappedAttribute),
      enablesUnderKani condition = true → attributes ≠ [] →
      Separate (condition :: attributes.map WrappedAttribute.text) →
      WrittenAs outer conditional
        ('(' :: join [','] (condition :: attributes.map WrappedAttribute.text) ++ [')']) →
      (classify outer).length = attributes.length := by
  intro all
  have lost : (classify rootedConditional).length ≠ rootedAndUnwind.length := by decide +kernel
  exact lost (all rootedConditional kaniOption rootedAndUnwind (by decide) (List.cons_ne_nil _ _)
    separate_rootedAndUnwind writtenAs_rootedConditional)

end HarnessIndex.Attribute
