import HarnessIndex.Proofs.Harness.Hidden
import HarnessIndex.Proofs.Replay.Name
import HarnessIndex.Proofs.Text.Lossy
import HarnessIndex.Replay.Locate

/-!
# Sources without anything to find

A blank source is answered without its tree, and so is the search for generated tests in a source
that does not mention what their names begin with. Neither answer loses anything, whatever the tree
is: all that the analysis looks for has ASCII in it, and the ASCII of a slice stands in the source,
wherever the slice begins and ends.
-/

namespace HarnessIndex.Syntax.Source

open Text

theorem isInfix_extract (source : Source) (start stop : Nat) :
    (source.bytes.extract start stop).toList <:+: source.bytes.toList := by
  rw [Array.toList_extract, List.extract_eq_take_drop]
  exact (List.take_prefix _ _).isInfix.trans (List.drop_suffix _ _).isInfix

variable {source : Text} {start stop : Nat}

/-- An ASCII text in a slice of a source occurs in the source. -/
theorem occursIn_of_slice {part : Text} (ascii : ∀ c ∈ part, IsAscii c)
    (occurs : occursIn part ((ofText source).slice start stop) = true) :
    occursIn part source = true := by
  have written := (occursIn_decode_iff ascii _).mp occurs
  have whole := written.trans (isInfix_extract (ofText source) start stop)
  rw [ofText, List.toList_toArray, ← occursIn_decode_iff ascii, decode_encode] at whole
  exact whole

theorem mem_of_mem_slice {c : Char} (ascii : IsAscii c)
    (member : c ∈ (ofText source).slice start stop) : c ∈ source := by
  obtain ⟨front, back, split⟩ := List.append_of_mem member
  have occurs : occursIn [c] ((ofText source).slice start stop) = true :=
    occursIn_iff.mpr ⟨front, back, by rw [split, List.append_assoc, List.singleton_append]⟩
  obtain ⟨front, back, split⟩ :=
    occursIn_iff.mp (occursIn_of_slice (List.forall_mem_singleton.mpr ascii) occurs)
  rw [split]
  simp

end HarnessIndex.Syntax.Source

namespace HarnessIndex.Analysis

open Syntax Text Attribute Harness

/-! ## Blank sources -/

/-- Every path that is looked for among those of attributes has ASCII in it. -/
theorem not_noAscii_of_mem_paths :
    ∀ path ∈ conditional :: Attribute.Kind.known.map Prod.fst, ¬ NoAscii path := by
  decide

/-- Every path that is looked for among those of callees has ASCII in it. -/
theorem not_noAscii_of_mem_entries : ∀ entry ∈ entryMacros ++ entryFunctions, ¬ NoAscii entry := by
  decide

/-- An attribute whose path has no ASCII is none of those that are understood. -/
theorem ofName_of_noAscii {name : Text} (noAscii : NoAscii name) :
    Attribute.Kind.ofName name = .unsupported := by
  rw [Kind.ofName_eq_unsupported]
  intro member
  exact not_noAscii_of_mem_paths name (List.mem_cons_of_mem conditional member) noAscii

section Blank

variable {source : Text} (blank : source.all isBlank = true) {node : Node}
  (sourceOf : node.source = .ofText source)
include blank sourceOf

theorem noAscii_withoutBlanks_text : NoAscii (withoutBlanks node.text) := by
  intro c member ascii
  obtain ⟨member, solid⟩ := List.mem_filter.mp member
  rw [Node.text, sourceOf] at member
  have blank := List.all_eq_true.mp blank c (Source.mem_of_mem_slice ascii member)
  rw [blank] at solid
  simp at solid

/-- No attribute declares a harness in a blank source, and none is conditional. -/
theorem not_declaresHarness_classify : declaresHarness (classify node) = false := by
  rw [Bool.eq_false_iff]
  intro declares
  obtain ⟨descriptor, member, kind⟩ := declaresHarness_eq_true.mp declares
  obtain ⟨name, found, member⟩ := exists_of_mem_classify member
  obtain ⟨body, path, inner, first, -, spelled, -⟩ := Node.exists_of_attributePath? found
  have bodySource := (Node.mem_children (Node.attributeBody?_mem inner).2).1
  have pathSource := (Node.mem_children (List.mem_of_head? first)).1
  have noAscii : NoAscii name := by
    rw [← spelled]
    exact noAscii_withoutBlanks_text blank (pathSource.trans (bodySource.trans sourceOf))
  have plain : name ≠ conditional := by
    rintro rfl
    exact not_noAscii_of_mem_paths _ List.mem_cons_self noAscii
  rw [expand_of_ne plain, List.mem_singleton] at member
  rw [member, Descriptor.ofName, ofName_of_noAscii noAscii] at kind
  simp [Attribute.Kind.declaresHarness] at kind

theorem entryPoint?_eq_none : entryPoint? node = none := by
  cases called : node.callee? with
  | none =>
      rw [entryPoint?, called]
      rfl
  | some callee =>
      obtain ⟨target, known, -, spelled, -⟩ := Node.exists_of_callee? called
      have targetSource := (Node.standsIn_of_calleeNode? known).1
      have noAscii : NoAscii callee := by
        rw [← spelled]
        exact noAscii_withoutBlanks_text blank (targetSource.trans sourceOf)
      have unknown : callee ∉ entryMacros ++ entryFunctions :=
        fun member => not_noAscii_of_mem_entries callee member noAscii
      rw [List.mem_append, not_or] at unknown
      simp [entryPoint?, called, unknown]

theorem invocations_eq_nil : invocations node = [] := by
  rw [List.eq_nil_iff_forall_not_mem]
  intro entry member
  obtain ⟨invoker, known, invokes⟩ := exists_invoker member
  have invokerSource := (mem_invokers known).1.1
  rw [entryPoint?_eq_none blank (invokerSource.trans sourceOf)] at invokes
  simp at invokes

theorem not_declaresHarness_classifyAll : declaresHarness (classifyAll node) = false := by
  rw [Bool.eq_false_iff]
  intro declares
  obtain ⟨attached, known, declares⟩ := declaresHarness_classifyAll.mp declares
  have attachedSource := (Node.tree_mem_of_mem_attributesBefore known).1
  rw [not_declaresHarness_classify blank (attachedSource.trans sourceOf)] at declares
  simp at declares

end Blank

/-- A blank source has no harness in any tree, and so no name for which two of them compete. -/
theorem collect_of_blank {source : Text} (blank : source.all isBlank = true) (tree : Tree) :
    collect (.root (.ofText source) tree) = ([], []) := by
  have none : join (attributeHarnesses (.root (.ofText source) tree))
      (invocationHarnesses (.root (.ofText source) tree)) = [] := by
    rw [List.eq_nil_iff_forall_not_mem]
    intro candidate member
    obtain ⟨item, itemMem, readOff⟩ := exists_of_mem_join member
    have sourceOf : item.node.source = .ofText source :=
      (kind_and_source_of_mem_functionsOf itemMem).2
    have harness := readOff.harness
    rw [isHarness, isDeclared, not_declaresHarness_classifyAll blank sourceOf,
      invocations_eq_nil blank sourceOf] at harness
    simp at harness
  rw [collect, none]
  rfl

/-! ## Sources without generated names -/

/-- The name of a generated test begins as all of them do, up to a final newline. -/
theorem occursIn_of_ofText? {text : Text} {generated : Replay.GeneratedName}
    (read : Replay.GeneratedName.ofText? text = some generated) :
    occursIn Replay.start text = true := by
  obtain ⟨encoded, -, rfl | rfl⟩ := Replay.GeneratedName.exists_encodes_of_ofText? read
  · exact occursIn_iff.mpr ⟨[], encoded, rfl⟩
  · exact occursIn_iff.mpr ⟨[], encoded ++ ['\n'], List.append_assoc ..⟩

theorem isAscii_of_mem_start : ∀ c ∈ Replay.start, IsAscii c := by
  -- As it stands, the statement would be decided by going through all characters there are.
  have all : (Replay.start.all fun c => IsAscii c) = true := by decide
  intro c member
  exact of_decide_eq_true (List.all_eq_true.mp all c member)

/-- A source in which no generated name begins has no generated test in any tree. -/
theorem locate_of_not_occursIn {source : Text} (absent : occursIn Replay.start source = false)
    (tree : Tree) : Replay.locate (.root (.ofText source) tree) = [] := by
  have none : (functionsOf (.root (.ofText source) tree)).filterMap Replay.record? = [] := by
    rw [List.filterMap_eq_nil_iff]
    intro item member
    have sourceOf : item.node.source = .ofText source :=
      (kind_and_source_of_mem_functionsOf member).2
    rw [Option.eq_none_iff_forall_ne_some]
    intro record found
    obtain ⟨name, named, found⟩ := Option.bind_eq_some_iff.mp found
    obtain ⟨generated, read, -⟩ := Option.bind_eq_some_iff.mp found
    obtain ⟨child, filled, text, -⟩ := Node.exists_of_name? named
    have occurs := occursIn_of_ofText? read
    rw [← text, Node.text, (Node.field?_mem filled).1.trans sourceOf] at occurs
    rw [Source.occursIn_of_slice isAscii_of_mem_start occurs] at absent
    simp at absent
  rw [Replay.locate, none]
  rfl

/-! ## Both short cuts -/

/-- A source that is answered without its tree has nothing to find in any tree, so that the answers
are those of the search in every case. -/
theorem shortCuts_exact (source : Text) (tree : Tree) :
    ((trim source).isEmpty = true → collect (.root (.ofText source) tree) = ([], [])) ∧
    (Harness.index source (some (.ofTree (.ofText source) tree))).1 =
      (collect (.root (.ofText source) tree)).1 ∧
    (occursIn Replay.start source = false →
      Replay.locate (.root (.ofText source) tree) = []) ∧
    (Replay.extract source (some (.ofTree (.ofText source) tree))).1 =
      Replay.locate (.root (.ofText source) tree) := by
  have harnesses (blank : (trim source).isEmpty = true) :
      collect (.root (.ofText source) tree) = ([], []) :=
    collect_of_blank ((isEmpty_trim source).symm.trans blank) tree
  refine ⟨harnesses, ?_, fun absent => locate_of_not_occursIn absent tree, ?_⟩
  · rw [Harness.index]
    split
    · rename_i blank
      rw [harnesses blank]
    · rfl
  · rw [Replay.extract]
    split
    · rename_i absent
      rw [locate_of_not_occursIn (by simpa using absent) tree]
    · rfl

/-- A tree over a blank of three bytes: a function whose name is the last byte, after an attribute
whose path is the middle one. -/
def cutBlank : Tree :=
  ⟨.sourceFile, 0, 3, true, false, none,
    [⟨.attributeItem, 1, 3, true, false, none,
        [⟨.attributeBody, 0, 2, true, false, none, [⟨.identifier, 1, 2, true, false, none, []⟩]⟩]⟩,
      ⟨.functionItem, 2, 3, true, false, none,
        [⟨.identifier, 2, 3, true, false, some .name, []⟩]⟩]⟩

theorem shortCuts_exact_cutBlank :
    ((functionsOf (.root (.ofText ['\u2003']) cutBlank)).map fun item =>
        (item.node.name?, (classifyAll item.node).map Descriptor.name)) =
      [(some [replacement], [[replacement]])] ∧
    (trim ['\u2003']).isEmpty = true ∧ occursIn Replay.start ['\u2003'] = false ∧
    collect (.root (.ofText ['\u2003']) cutBlank) = ([], []) ∧
    Replay.locate (.root (.ofText ['\u2003']) cutBlank) = [] := by
  have blank : (trim ['\u2003']).isEmpty = true := by decide
  have absent : occursIn Replay.start ['\u2003'] = false := by decide
  obtain ⟨harnesses, -, tests, -⟩ := shortCuts_exact ['\u2003'] cutBlank
  exact ⟨by decide +kernel, blank, absent, harnesses blank, tests absent⟩

end HarnessIndex.Analysis
