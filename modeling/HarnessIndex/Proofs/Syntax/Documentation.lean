import HarnessIndex.Proofs.Syntax.Items
import HarnessIndex.Proofs.Text.Trim
import HarnessIndex.Reader.Source

/-!
# What changes the documentation of an item

The documentation of an item is read off the kinds and the texts of the siblings above it, up to the
first one that is neither a comment nor an attribute. Putting an attribute or a plain comment among
them, or taking one out, leaves the documentation as it is, with one exception: the empty block
comment counts as documentation without words, and between two documented parts it puts an empty
line in.
-/

namespace HarnessIndex

namespace Text

/-! ## Texts on lines of their own -/

/-- Texts, each one closed by a line break. -/
def lined (texts : List Text) : Text :=
  texts.flatMap fun text => text ++ ['\n']

@[simp] theorem lined_append (front back : List Text) :
    lined (front ++ back) = lined front ++ lined back :=
  List.flatMap_append

theorem join_append_lineBreak {texts : List Text} (some : texts ≠ []) :
    join ['\n'] texts ++ ['\n'] = lined texts := by
  induction texts with
  | nil => exact absurd rfl some
  | cons text rest ih =>
      cases rest with
      | nil => simp [lined]
      | cons next rest =>
          rw [join_cons_cons, List.append_assoc, ih (List.cons_ne_nil _ _)]
          rfl

/-- A line break behind each text instead of between them makes no difference after trimming. -/
theorem trim_join_lineBreak (texts : List Text) :
    trim (join ['\n'] texts) = trim (lined texts) := by
  cases texts with
  | nil => rfl
  | cons text rest =>
      rw [← join_append_lineBreak (List.cons_ne_nil _ _)]
      exact (trim_append_blanks (List.forall_mem_singleton.mpr (by decide)) _).symm

/-! ## Comments that document -/

/-- A comment documents what follows it: it is a line comment with just three slashes, or a block
comment with just two stars that is not closed by the second one. Blanks around it do not count. -/
def IsOuterDoc (comment : Text) : Prop :=
  (startsWith "///" (trim comment) = true ∧ startsWith "////" (trim comment) = false) ∨
    startsWith "/**" (trim comment) = true ∧ startsWith "/***" (trim comment) = false ∧
      trim comment ≠ "/**/"

instance : DecidablePred IsOuterDoc := fun _ =>
  inferInstanceAs (Decidable (_ ∨ _))

end Text

namespace Syntax

open Text (lined trim trimStart trimEnd IsOuterDoc)

/-- What of a sibling the documentation depends on. -/
structure Sibling where
  kind : Kind
  text : Text
  deriving DecidableEq

/-- The earlier named siblings of a node, nearest first. -/
def Node.siblings (node : Node) : List Sibling :=
  node.before.map fun tree => ⟨tree.kind, node.source.slice tree.start tree.stop⟩

namespace Sibling

/-- Whether a sibling may stand between an item and its documentation. -/
def isPassed (sibling : Sibling) : Bool :=
  sibling.kind.isComment || sibling.kind = .attributeItem

def docs (sibling : Sibling) : List Text :=
  if sibling.kind.isComment then (Node.docText? sibling.text).toList else []

/-- A sibling documents nothing: it is an attribute, or a comment that is no documentation. -/
inductive IsPlain (sibling : Sibling) : Prop where
  | attached : sibling.kind = .attributeItem → IsPlain sibling
  | comment : sibling.kind.isComment = true → ¬IsOuterDoc sibling.text → IsPlain sibling

def IsEmptyBlock (sibling : Sibling) : Prop :=
  sibling.kind.isComment = true ∧ trim sibling.text = "/**/"

end Sibling

/-- What the siblings above an item document, in source order. -/
def docLines (siblings : List Sibling) : List Text :=
  (siblings.takeWhile Sibling.isPassed).reverse.flatMap Sibling.docs

/-- The documentation that siblings give. -/
def docOf (siblings : List Sibling) : Option Text :=
  Node.nonempty? (trim (lined (docLines siblings)))

theorem docBefore_eq_docLines (source : Source) (before : List Tree) :
    Node.docBefore source before =
      docLines (before.map fun tree => ⟨tree.kind, source.slice tree.start tree.stop⟩) := by
  induction before with
  | nil => rfl
  | cons tree before ih =>
      rw [Node.docBefore, List.map_cons, docLines, List.takeWhile_cons, Sibling.isPassed]
      cases comment : tree.kind.isComment with
      | true => simp [ih, docLines, Sibling.docs, comment]
      | false =>
          by_cases attached : tree.kind = .attributeItem
          · simp [ih, docLines, Sibling.docs, attached, Kind.isComment]
          · simp [attached]

theorem doc?_eq_docOf (item : Node) : item.doc? = docOf item.siblings := by
  rw [Node.doc?, docBefore_eq_docLines, Text.trim_join_lineBreak]
  rfl

variable {item item' : Node} {front back : List Sibling} {extra : Sibling}

theorem docLines_append (passed : ∀ sibling ∈ front, sibling.isPassed = true)
    (back : List Sibling) : docLines (front ++ back) = docLines back ++ docLines front := by
  rw [docLines, List.takeWhile_append_of_pos passed, List.reverse_append, List.flatMap_append,
    ← docLines, docLines, docLines, List.takeWhile_eq_self_iff.mpr passed]

theorem docLines_cons (passed : extra.isPassed = true) (back : List Sibling) :
    docLines (extra :: back) = docLines back ++ extra.docs := by
  simp [docLines, List.takeWhile_cons_of_pos passed]

theorem docText?_of_not_isOuterDoc {comment : Text} (plain : ¬IsOuterDoc comment) :
    Node.docText? comment = if trim comment = "/**/" then some [] else none := by
  have line : (Text.startsWith "///" (trim comment) &&
      !Text.startsWith "////" (trim comment)) = false := by
    rw [Bool.eq_false_iff, Ne, Bool.and_eq_true, Bool.not_eq_true']
    exact fun starts => plain (.inl starts)
  have block (other : trim comment ≠ "/**/") : (Text.startsWith "/**" (trim comment) &&
      !Text.startsWith "/***" (trim comment)) = false := by
    rw [Bool.eq_false_iff, Ne, Bool.and_eq_true, Bool.not_eq_true']
    exact fun starts => plain (.inr ⟨starts.1, starts.2, other⟩)
  by_cases empty : trim comment = "/**/"
  · rw [if_pos empty, Node.docText?, empty]
    decide
  · rw [if_neg empty, Node.docText?, line, block empty]
    rfl

theorem Sibling.IsPlain.isPassed (plain : extra.IsPlain) : extra.isPassed = true := by
  cases plain with
  | attached kind => simp [Sibling.isPassed, kind]
  | comment kind _ => simp [Sibling.isPassed, kind]

/-- A plain sibling documents nothing. The empty block comment gives an empty part all the same. -/
theorem Sibling.IsPlain.docs_cases (plain : extra.IsPlain) :
    extra.docs = [] ∧ ¬extra.IsEmptyBlock ∨ extra.docs = [[]] ∧ extra.IsEmptyBlock := by
  cases plain with
  | attached kind =>
      have other : extra.kind.isComment = false := by
        rw [kind]
        rfl
      exact .inl ⟨by simp [Sibling.docs, other], fun empty => by simp [empty.1] at other⟩
  | comment comment plain =>
      rw [Sibling.docs, if_pos comment, docText?_of_not_isOuterDoc plain]
      by_cases empty : trim extra.text = "/**/"
      · rw [if_pos empty]
        exact .inr ⟨rfl, comment, empty⟩
      · rw [if_neg empty]
        exact .inl ⟨rfl, fun block => empty block.2⟩

/-! ## One more sibling -/

/-- A sibling between two stretches is the empty block comment, and both stretches document. -/
structure LeavesGap (front : List Sibling) (extra : Sibling) (back : List Sibling) : Prop where
  emptyBlock : extra.IsEmptyBlock
  below : docOf front ≠ none
  above : docOf back ≠ none

theorem docOf_eq_none {siblings : List Sibling} :
    docOf siblings = none ↔ trim (lined (docLines siblings)) = [] := by
  rw [docOf, Node.nonempty?, ite_eq_left_iff, List.isEmpty_iff]
  simp

theorem docOf_eq_some {siblings : List Sibling} {doc : Text} (nonempty : doc ≠ []) :
    docOf siblings = some doc ↔ trim (lined (docLines siblings)) = doc := by
  rw [docOf, Node.nonempty?_eq_some, and_iff_left nonempty]

/-- A line break at one side of which all is blank does not count. -/
theorem trim_insert_lineBreak {above below : Text} (blank : trim above = [] ∨ trim below = []) :
    trim (above ++ '\n' :: below) = trim (above ++ below) := by
  rcases blank with blank | blank
  · have blank := Text.trim_eq_nil.mp blank
    rw [Text.trim_blanks_append blank, Text.trim_blanks_append blank,
      Text.trim_cons_blank (by decide)]
  · have blank := Text.trim_eq_nil.mp blank
    have blank' : ∀ c ∈ '\n' :: below, Text.isBlank c = true :=
      List.forall_mem_cons.mpr ⟨by decide, blank⟩
    rw [Text.trim_append_blanks blank, Text.trim_append_blanks blank']

theorem docOf_insert_of_not_leavesGap (passed : ∀ sibling ∈ front, sibling.isPassed = true)
    (plain : extra.IsPlain) (closed : ¬LeavesGap front extra back) :
    docOf (front ++ extra :: back) = docOf (front ++ back) := by
  rw [docOf, docOf, docLines_append passed, docLines_append passed,
    docLines_cons plain.isPassed]
  rcases plain.docs_cases with ⟨silent, -⟩ | ⟨empty, block⟩
  · rw [silent, List.append_nil]
  · have blank : trim (lined (docLines back)) = [] ∨ trim (lined (docLines front)) = [] := by
      rw [← docOf_eq_none, ← docOf_eq_none]
      by_contra documented
      obtain ⟨above, below⟩ := not_or.mp documented
      exact closed ⟨block, below, above⟩
    rw [empty, List.append_assoc, Text.lined_append, Text.lined_append, Text.lined_append]
    exact congrArg Node.nonempty? (trim_insert_lineBreak blank)

theorem docOf_insert_of_leavesGap (passed : ∀ sibling ∈ front, sibling.isPassed = true)
    (plain : extra.IsPlain) (gap : LeavesGap front extra back) :
    ∃ upper lower, docOf (front ++ back) = some (upper ++ '\n' :: lower) ∧
      docOf (front ++ extra :: back) = some (upper ++ '\n' :: '\n' :: lower) := by
  have empty : extra.docs = [[]] := by
    rcases plain.docs_cases with ⟨-, other⟩ | ⟨empty, -⟩
    · exact absurd gap.emptyBlock other
    · exact empty
  have below : trim (lined (docLines front)) ≠ [] := mt docOf_eq_none.mpr gap.below
  have above : trim (Text.join ['\n'] (docLines back)) ≠ [] := by
    rw [Text.trim_join_lineBreak]
    exact mt docOf_eq_none.mpr gap.above
  have some : docLines back ≠ [] := by
    intro none
    rw [none] at above
    exact above rfl
  refine ⟨trimStart (Text.join ['\n'] (docLines back)), trimEnd (lined (docLines front)), ?_, ?_⟩
  · rw [docOf_eq_some (by simp), docLines_append passed, Text.lined_append,
      ← Text.join_append_lineBreak some, Text.trim_between above below]
    simp
  · rw [docOf_eq_some (by simp), docLines_append passed, docLines_cons plain.isPassed, empty,
      Text.lined_append, Text.lined_append, ← Text.join_append_lineBreak some]
    have gap := Text.trim_between above below ['\n', '\n']
    simpa [lined] using gap

/-- Putting a plain sibling in among those above an item, or taking it out, leaves the documentation
as it is, unless the sibling is the empty block comment and stands between two documented parts.
Then it puts an empty line between them. -/
theorem doc?_insert_plain (without : item.siblings = front ++ back)
    (inserted : item'.siblings = front ++ extra :: back)
    (passed : ∀ sibling ∈ front, sibling.isPassed = true) (plain : extra.IsPlain) :
    (item'.doc? = item.doc? ↔ ¬LeavesGap front extra back) ∧
      (LeavesGap front extra back → ∃ upper lower,
        item.doc? = some (upper ++ '\n' :: lower) ∧
        item'.doc? = some (upper ++ '\n' :: '\n' :: lower)) := by
  rw [doc?_eq_docOf, doc?_eq_docOf, without, inserted]
  refine ⟨⟨?_, docOf_insert_of_not_leavesGap passed plain⟩, docOf_insert_of_leavesGap passed plain⟩
  intro same gap
  obtain ⟨upper, lower, short, long⟩ := docOf_insert_of_leavesGap passed plain gap
  rw [short, long] at same
  simp at same

def firstFunction (file : String) : Node :=
  ((functionsOf (Reader.parse file).root).map Item.node).headD default

theorem doc?_insert_plain_fourSlashes :
    ∃ front back extra,
      (firstFunction "///A\n#[a]\n///B\nfn f(){}").siblings = front ++ back ∧
      (firstFunction "///A\n////x\n#[a]\n///B\nfn f(){}").siblings = front ++ extra :: back ∧
      (∀ sibling ∈ front, sibling.isPassed = true) ∧ extra.IsPlain ∧
      (firstFunction "///A\n////x\n#[a]\n///B\nfn f(){}").doc? = some "A\nB" := by
  have without : (firstFunction "///A\n#[a]\n///B\nfn f(){}").siblings =
      [⟨.lineComment, "///B"⟩, ⟨.attributeItem, "#[a]"⟩] ++ [⟨.lineComment, "///A"⟩] := by
    decide +kernel
  have inserted : (firstFunction "///A\n////x\n#[a]\n///B\nfn f(){}").siblings =
      [⟨.lineComment, "///B"⟩, ⟨.attributeItem, "#[a]"⟩] ++ ⟨.lineComment, "////x"⟩ ::
        [⟨.lineComment, "///A"⟩] := by
    decide +kernel
  have passed : ∀ sibling ∈ ([⟨.lineComment, "///B"⟩, ⟨.attributeItem, "#[a]"⟩] : List Sibling),
      sibling.isPassed = true := by
    decide
  have plain : Sibling.IsPlain ⟨.lineComment, "////x"⟩ := .comment rfl (by decide)
  have other : ¬Sibling.IsEmptyBlock ⟨.lineComment, "////x"⟩ := fun empty =>
    absurd empty.2 (by decide)
  refine ⟨_, _, _, without, inserted, passed, plain, ?_⟩
  rw [(doc?_insert_plain without inserted passed plain).1.mpr fun gap => other gap.emptyBlock]
  decide +kernel

/-- The empty block comment is no documentation, but it puts an empty line into one. -/
theorem not_doc?_insert_emptyBlock :
    ¬∀ (item item' : Node) (front back : List Sibling) (extra : Sibling),
      item.siblings = front ++ back → item'.siblings = front ++ extra :: back →
      (∀ sibling ∈ front, sibling.isPassed = true) → extra.IsPlain → item'.doc? = item.doc? := by
  intro unchanged
  have without : (firstFunction "///A\n///B\nfn f(){}").siblings =
      [⟨.lineComment, "///B"⟩] ++ [⟨.lineComment, "///A"⟩] := by
    decide +kernel
  have inserted : (firstFunction "///A\n/**/\n///B\nfn f(){}").siblings =
      [⟨.lineComment, "///B"⟩] ++ ⟨.blockComment, "/**/"⟩ :: [⟨.lineComment, "///A"⟩] := by
    decide +kernel
  have same := unchanged _ _ _ _ _ without inserted (by decide) (.comment rfl (by decide))
  have docs : (firstFunction "///A\n///B\nfn f(){}").doc? = some "A\nB" ∧
      (firstFunction "///A\n/**/\n///B\nfn f(){}").doc? = some "A\n\nB" := by
    decide +kernel
  rw [docs.1, docs.2] at same
  exact absurd same (by decide)

end Syntax

end HarnessIndex
