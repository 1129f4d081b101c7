import HarnessIndex.Proofs.Attribute.Classify
import HarnessIndex.Proofs.Attribute.Written
import HarnessIndex.Proofs.Harness.Candidates
import HarnessIndex.Proofs.Harness.Marker
import HarnessIndex.Proofs.Syntax.Grammatical

/-!
# Which harnesses the pre-check does not see

The pre-check reads the text and the index reads the tree, so they part where the tree leaves out
what the text has. A harness is hidden from the pre-check in two ways only: it invokes the bare
entry point with a comment before the exclamation mark, or a conditional attribute wraps a path with
blanks inside its words.
-/

namespace HarnessIndex.Harness

open Syntax Text Attribute

/-- Whether the tokens of a proof attribute's path are spelled at the front of a text. -/
def SpellsProof (path : Text) : Prop :=
  ∃ rest, Spells proofTokens path rest

/-- A conditional attribute wraps only proof attributes with blanks inside the words of their
paths. -/
def WrapsBroken (item : Node) : Prop :=
  item.attributePath? = some conditional ∧
    ∀ text ∈ item.literalArguments.tail,
      ∀ descriptor, Descriptor.ofText? text item.startLine = some descriptor →
        descriptor.kind.declaresHarness = true → ¬ SpellsProof (writtenPath text)

/-- A bare entry point has a comment before its exclamation mark. -/
def BangApart (source : Text) (node : Node) : Prop :=
  node.kind = .macroInvocation ∧ node.callee? = some ("check" : Text) ∧
    ∃ callee gap following, node.calleeNode? = some callee ∧
      bang? source callee = some (gap, following) ∧ gap.all isBlank = false

/-- The nodes of a function that invoke an entry point. -/
def invokers (function : Node) : List Node :=
  match function.field? .body with
  | none => []
  | some body => body.children.flatMap fun statement =>
      if isForeign statement.kind then []
      else (statement :: statement.descendants isForeign).filter fun node =>
        (entryPoint? node).isSome

/-- A function is a harness only by what the pre-check does not see. -/
structure MarkedApart (source : Text) (item : Item) : Prop where
  attributes : ∀ found ∈ item.node.attributes, declaresHarness (classify found) = true →
    WrapsBroken found
  invokers : ∀ node ∈ invokers item.node, BangApart source node

/-! ## Markers in a stretch -/

/-- A marker after blanks is found where no word is continued before them. -/
theorem mentionsProof_of_marker {before blanks marker after : Text}
    (noWord : endsInWord before = false) (blank : ∀ c ∈ blanks, isBlank c = true)
    (starts : startsMarker (marker ++ after) = true) :
    mentionsProof (before ++ (blanks ++ marker) ++ after) = true := by
  have found := mentionsProof_append (endsInWord_append_blanks noWord blank) starts
  simpa using found

/-- A path of whole tokens spells the tokens that its name begins with. -/
theorem exists_stretch_of_path {source : Text} {node : Node} {tokens : List Text} {more : Text}
    (reads : readsAsPath source node = true) (same : node.source = .ofText source)
    (isTokens : ∀ token ∈ tokens, IsToken token)
    (pathChars : (tokens.flatten ++ more).all Descriptor.isPathChar = true)
    (named : withoutBlanks node.text = tokens.flatten ++ more) :
    ∃ stretch rest, stretch? source node.startByte node.endByte = some stretch ∧
      source = stretch.before ++ stretch.part ++ stretch.after ∧
      endsInWord stretch.before = false ∧ endsWord stretch.after = true ∧
      Spells tokens stretch.part rest ∧ withoutBlanks rest = more := by
  rw [readsAsPath] at reads
  split at reads
  · simp at reads
  · rename_i stretch found
    simp only [Bool.and_eq_true, Bool.not_eq_true'] at reads
    obtain ⟨⟨noWord, ends⟩, whole⟩ := reads
    have text : node.text = stretch.part := by
      rw [Node.text, same]
      exact slice_of_stretch? found
    rw [text] at named
    have isPath : stretch.part.all Descriptor.isPathChar = true := by
      rw [List.all_eq_true]
      intro c member
      cases blank : isBlank c with
      | true => simp [Descriptor.isPathChar, blank]
      | false =>
          have kept : c ∈ withoutBlanks stretch.part :=
            List.mem_filter.mpr ⟨member, by simp [blank]⟩
          rw [named] at kept
          exact List.all_eq_true.mp pathChars c kept
    rw [isPath] at whole
    obtain ⟨rest, spells, after⟩ := exists_spells isTokens whole named
    exact ⟨stretch, rest, found, (stretch?_eq_some found).1, noWord, ends, spells, after⟩

/-! ## Attributes -/

section

variable {source : Text} {node : Node} (same : node.source = .ofText source)
include same

/-- The path of an attribute that is a proof attribute itself is a marker. -/
theorem mentionsProof_of_attributePath? {name : Text}
    (reads : readsAsAttribute source node = true) (found : node.attributePath? = some name)
    (declares : (Attribute.Kind.ofName name).declaresHarness = true) :
    mentionsProof source = true := by
  obtain ⟨body, path, inner, first, isPath, spelled, -⟩ := Node.exists_of_attributePath? found
  rw [readsAsAttribute, inner] at reads
  simp only [first, Option.all_some, isPath, Bool.not_true, Bool.false_or, Bool.and_eq_true]
    at reads
  have sourceOf : path.source = .ofText source := by
    rw [(Node.mem_children (List.mem_of_head? first)).1,
      (Node.mem_children (Node.attributeBody?_mem inner).2).1, same]
  have isTokens : ∀ token ∈ proofTokens, IsToken token := by decide
  obtain ⟨more, pathChars, named⟩ : ∃ more,
      (proofTokens.flatten ++ more).all Descriptor.isPathChar = true ∧
        name = proofTokens.flatten ++ more := by
    rcases name_of_declaresHarness declares with rfl | rfl
    · exact ⟨[], by decide, by decide⟩
    · exact ⟨"_for_contract", by decide, by decide⟩
  obtain ⟨stretch, rest, -, split, noWord, -, spells, -⟩ :=
    exists_stretch_of_path reads.1 sourceOf isTokens pathChars (spelled.trans named)
  obtain ⟨blanks, marker, shape, blank, starts⟩ := exists_marker_of_proof spells
  rw [split, shape]
  exact mentionsProof_of_marker noWord blank (starts _)

/-- An argument of an attribute that is not the first one stands in the source, where no word is
continued. -/
theorem exists_of_mem_tail_literalArguments {text : Text}
    (reads : readsAsAttribute source node = true) (member : text ∈ node.literalArguments.tail) :
    ∃ before after, source = before ++ text ++ after ∧ endsInWord before = false := by
  rw [Node.literalArguments] at member
  split at member
  · simp at member
  · rename_i body inner
    rw [readsAsAttribute, inner] at reads
    simp only [Bool.and_eq_true] at reads
    split at member
    · rename_i arguments filled
      rw [filled, Option.all_some] at reads
      obtain ⟨stretch, found⟩ := Option.isSome_iff_exists.mp reads.2
      have sourceOf : arguments.source = .ofText source := by
        rw [(Node.field?_mem filled).1, (Node.mem_children (Node.attributeBody?_mem inner).2).1,
          same]
      have covers : arguments.text = stretch.part := by
        rw [Node.text, sourceOf]
        exact slice_of_stretch? found
      obtain ⟨before, after, split, noWord⟩ := exists_of_mem_tail_splitArguments member
      refine ⟨stretch.before ++ before, after ++ stretch.after, ?_, noWord stretch.before⟩
      have whole := (stretch?_eq_some found).1
      rw [← covers, split] at whole
      simpa using whole
    · split at member
      · have none := mem_tail_of_mem_tail_filter member
        simp at none
      · simp at member

/-- A wrapped attribute whose path spells the tokens of a proof attribute is a marker. -/
theorem mentionsProof_of_wrapped {text : Text} (reads : readsAsAttribute source node = true)
    (member : text ∈ node.literalArguments.tail) (spells : SpellsProof (writtenPath text)) :
    mentionsProof source = true := by
  obtain ⟨before, after, split, noWord⟩ := exists_of_mem_tail_literalArguments same reads member
  obtain ⟨outer, behind, written, blank⟩ := exists_writtenPath text
  obtain ⟨rest, spells⟩ := spells
  obtain ⟨blanks, marker, shape, blank', starts⟩ := exists_marker_of_proof spells
  rw [shape] at written
  have found := mentionsProof_of_marker (endsInWord_append_blanks noWord blank) blank'
    (starts (behind ++ after))
  rw [split, written]
  simpa using found

/-- An attribute that declares a harness is a marker or wraps broken paths only. -/
theorem mentionsProof_or_wrapsBroken (reads : readsAsAttribute source node = true)
    (declares : declaresHarness (classify node) = true) :
    mentionsProof source = true ∨ WrapsBroken node := by
  obtain ⟨descriptor, member, declared⟩ := declaresHarness_eq_true.mp declares
  obtain ⟨name, found, member⟩ := exists_of_mem_classify member
  by_cases wrapped : ∃ text ∈ node.literalArguments.tail, SpellsProof (writtenPath text)
  · obtain ⟨text, known, spells⟩ := wrapped
    exact Or.inl (mentionsProof_of_wrapped same reads known spells)
  · by_cases isConditional : name = conditional
    · refine Or.inr ⟨isConditional ▸ found, ?_⟩
      intro text known _ _ _ spells
      exact wrapped ⟨text, known, spells⟩
    · have direct : descriptor = .ofName name node.literalArguments node.startLine := by
        unfold expand at member
        split at member
        · rw [decide_eq_false isConditional, Bool.false_and, if_neg Bool.false_ne_true] at member
          exact List.mem_singleton.mp member
        · exact List.mem_singleton.mp member
      rw [direct] at declared
      exact Or.inl (mentionsProof_of_attributePath? same reads found declared)

/-! ## Invocations -/

omit same in
theorem isBlank_of_withoutBlanks_eq_nil {text : Text} (none : withoutBlanks text = []) :
    ∀ c ∈ text, isBlank c = true := by
  intro c member
  simpa using List.filter_eq_nil_iff.mp none c member

omit same in
/-- The qualified entry point is a marker. -/
theorem mentionsProof_of_qualified {callee : Node} (sourceOf : callee.source = .ofText source)
    (reads : readsAsPath source callee = true)
    (named : withoutBlanks callee.text = "bolero::check") : mentionsProof source = true := by
  have isTokens : ∀ token ∈ qualifiedTokens, IsToken token := by decide
  have spelled : withoutBlanks callee.text = qualifiedTokens.flatten ++ [] :=
    named.trans (by decide)
  obtain ⟨stretch, rest, -, split, noWord, ends, spells, behind⟩ :=
    exists_stretch_of_path reads sourceOf isTokens (by decide) spelled
  obtain ⟨blanks, marker, shape, blank, starts⟩ :=
    exists_marker_of_qualified spells (isBlank_of_withoutBlanks_eq_nil behind)
  rw [split, shape]
  exact mentionsProof_of_marker noWord blank (starts _ ends)

omit same in
/-- The bare entry point is a marker or has a comment before its exclamation mark. -/
theorem mentionsProof_or_comment {callee : Node} {gap following : Text}
    (sourceOf : callee.source = .ofText source) (reads : readsAsPath source callee = true)
    (named : withoutBlanks callee.text = "check")
    (bang : bang? source callee = some (gap, following))
    (noEqual : startsWith "=" following = false) :
    mentionsProof source = true ∨ gap.all isBlank = false := by
  have isTokens : ∀ token ∈ (["check"] : List Text), IsToken token := by decide
  have spelled : withoutBlanks callee.text = (["check"] : List Text).flatten ++ [] :=
    named.trans (by decide)
  obtain ⟨stretch, rest, found, split, noWord, -, spells, behind⟩ :=
    exists_stretch_of_path reads sourceOf isTokens (by decide) spelled
  cases blankGap : gap.all isBlank with
  | false => exact Or.inr rfl
  | true =>
      obtain ⟨blanks, marker, shape, blank, starts⟩ :=
        exists_marker_of_bare spells (isBlank_of_withoutBlanks_eq_nil behind)
      rw [bang?, found, Option.bind_some] at bang
      have after := splitAtBang?_eq_some bang
      have starts := starts gap following (List.all_eq_true.mp blankGap) noEqual
      rw [List.append_assoc, ← after] at starts
      rw [split, shape]
      exact Or.inl (mentionsProof_of_marker noWord blank starts)

/-- A node that invokes an entry point is a marker or has a comment before its exclamation mark. -/
theorem mentionsProof_or_bangApart {entry : Text} (reads : readsAsCall source node = true)
    (invokes : entryPoint? node = some entry) :
    mentionsProof source = true ∨ BangApart source node := by
  obtain ⟨name, called, known⟩ := Option.bind_eq_some_iff.mp invokes
  obtain ⟨callee, found, named⟩ := Option.bind_eq_some_iff.mp called
  have sourceOf : callee.source = .ofText source :=
    (Node.standsIn_of_calleeNode? found).1.trans same
  split at named
  · rename_i isPath
    obtain ⟨spelled, -⟩ := Node.nonempty?_eq_some.mp named
    rw [readsAsCall, found] at reads
    simp only [isPath, Bool.not_true, Bool.false_or, Bool.and_eq_true] at reads
    split at known
    · rename_i isMacro
      split at known
      · rename_i isEntry
        have entries : name = "bolero::check" ∨ name = "check" := by
          simpa [entryMacros] using isEntry
        rcases entries with rfl | rfl
        · exact Or.inl (mentionsProof_of_qualified sourceOf reads.1 spelled)
        · simp only [isMacro, ne_eq, not_true_eq_false, decide_false, Bool.false_or] at reads
          obtain ⟨⟨gap, following⟩, bang, noEqual⟩ := (Option.any_eq_true _ _).mp reads.2
          rcases mentionsProof_or_comment sourceOf reads.1 spelled bang (by simpa using noEqual)
            with mentioned | comment
          · exact Or.inl mentioned
          · exact Or.inr ⟨isMacro, called, callee, gap, following, found, bang, comment⟩
      · simp at known
    · split at known
      · rename_i isEntry
        have qualified : name = "bolero::check" := by simpa [entryFunctions] using isEntry
        exact Or.inl (mentionsProof_of_qualified sourceOf reads.1 (spelled.trans qualified))
      · simp at known
  · simp at named

end

/-! ## Files -/

/-- A node of a tree that follows the grammar is written as the grammar has it. -/
theorem readsAs_of_grammatical {source : Text} {tree : Tree} (grammatical : Grammatical source tree)
    {node : Node} (same : node.source = .ofText source) (member : node.tree ∈ tree.subtrees) :
    readsAsCall source node = true ∧ readsAsAttribute source node = true := by
  obtain ⟨nodeSource, nodeTree, before⟩ := node
  subst same
  exact grammatical nodeTree member

theorem mem_invokers {function node : Node} (member : node ∈ invokers function) :
    Node.StandsIn node function ∧ ∃ entry, entryPoint? node = some entry := by
  rw [invokers] at member
  split at member
  · simp at member
  · rename_i body filled
    obtain ⟨statement, child, member⟩ := List.mem_flatMap.mp member
    split at member
    · simp at member
    · obtain ⟨below, invokes⟩ := List.mem_filter.mp member
      have outer := (Node.standsIn_of_mem_children child).trans (Node.standsIn_of_field? filled)
      refine ⟨?_, Option.isSome_iff_exists.mp invokes⟩
      rcases List.mem_cons.mp below with rfl | deeper
      · exact outer
      · exact (Node.standsIn_of_mem_descendants deeper).trans outer

/-- What a function invokes is the entry point of one of its invokers. -/
theorem exists_invoker {function : Node} {entry : Text} (member : entry ∈ invocations function) :
    ∃ node ∈ invokers function, entryPoint? node = some entry := by
  rw [invocations] at member
  split at member
  · simp at member
  · rename_i body filled
    obtain ⟨statement, child, member⟩ := List.mem_flatMap.mp member
    rw [statementInvocations] at member
    split at member
    · simp at member
    · rename_i own
      obtain ⟨node, below, invokes⟩ := List.mem_filterMap.mp member
      refine ⟨node, ?_, invokes⟩
      rw [invokers, filled]
      refine List.mem_flatMap.mpr ⟨statement, child, ?_⟩
      rw [if_neg own]
      exact List.mem_filter.mpr ⟨below, by rw [invokes, Option.isSome_some]⟩

/-- Where the pre-check sees nothing, every function is marked apart. -/
theorem markedApart_of_not_mentionsProof {source : Text} {tree : Tree}
    (grammatical : Grammatical source tree) (unseen : mentionsProof source = false) {item : Item}
    (member : item ∈ functionsOf (.root (.ofText source) tree)) : MarkedApart source item := by
  have sourceOf : item.node.source = .ofText source := (kind_and_source_of_mem_functionsOf member).2
  obtain ⟨stands, siblings⟩ := Item.mem_subtrees_of_mem_within tree member
  constructor
  · intro found attached declares
    obtain ⟨same, earlier⟩ := Node.tree_mem_of_mem_attributesBefore attached
    have sourceOf := same.trans sourceOf
    have reads := (readsAs_of_grammatical grammatical sourceOf (siblings _ earlier)).2
    rcases mentionsProof_or_wrapsBroken sourceOf reads declares with mentioned | apart
    · rw [unseen] at mentioned
      simp at mentioned
    · exact apart
  · intro node invoker
    obtain ⟨below, entry, invokes⟩ := mem_invokers invoker
    have sourceOf := below.1.trans sourceOf
    have reads := (readsAs_of_grammatical grammatical sourceOf
      (Tree.mem_subtrees_trans stands below.2)).1
    rcases mentionsProof_or_bangApart sourceOf reads invokes with mentioned | apart
    · rw [unseen] at mentioned
      simp at mentioned
    · exact apart

/-- Every harness of a file is marked apart. -/
def Hidden (source : Text) (root : Node) : Prop :=
  harnessItems root ≠ [] ∧ ∀ item ∈ harnessItems root, MarkedApart source item

theorem harnessItems_ne_nil {source : Text} {parsed : Parsed}
    (some : (index source (.some parsed)).1 ≠ []) : harnessItems parsed.root ≠ [] := by
  rw [index] at some
  split at some
  · exact absurd rfl some
  · change (collect parsed.root).1 ≠ [] at some
    rw [collect_index, describeAll, Ne, List.map_eq_nil_iff] at some
    obtain ⟨candidate, rest, same⟩ := List.exists_cons_of_ne_nil some
    have member : candidate ∈ winners parsed.root := by
      rw [same]
      exact List.mem_cons_self
    obtain ⟨item, known, readOff⟩ := exists_of_mem_winners_readOff member
    exact List.ne_nil_of_mem (List.mem_filter.mpr ⟨known, readOff.harness⟩)

/-- A file with harnesses is seen by the pre-check, or all of its harnesses are marked apart. -/
theorem mentionsProof_or_hidden {source : Text} {tree : Tree}
    (grammatical : Grammatical source tree)
    (some : (index source (.some (.ofTree (.ofText source) tree))).1 ≠ []) :
    mentionsProof source = true ∨ Hidden source (.root (.ofText source) tree) := by
  cases seen : mentionsProof source with
  | true => exact Or.inl rfl
  | false =>
      refine Or.inr ⟨harnessItems_ne_nil some, ?_⟩
      intro item member
      exact markedApart_of_not_mentionsProof grammatical seen (List.mem_filter.mp member).1

end HarnessIndex.Harness
