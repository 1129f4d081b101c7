import HarnessIndex.Attribute.Classify
import HarnessIndex.Proofs.Syntax.Items

/-!
# Where descriptors come from

Every descriptor of an item is read off one of the attributes before it, and so off a path that
takes up text. Of the attributes that are the same one is kept, so that every path that an attribute
is written with, or that it wraps, is a name among the descriptors.
-/

namespace HarnessIndex.Attribute

open Syntax

theorem mem_of_mem_distinct {descriptor : Descriptor} {descriptors : List Descriptor}
    (member : descriptor ∈ distinct descriptors) : descriptor ∈ descriptors := by
  induction descriptors with
  | nil => simp at member
  | cons first rest ih =>
      rw [distinct_cons] at member
      rcases List.mem_cons.mp member with same | later
      · exact same ▸ List.mem_cons_self
      · exact List.mem_cons_of_mem first (ih (List.mem_filter.mp later).1)

theorem sameAttribute_iff {first second : Descriptor} :
    sameAttribute first second = true ↔
      first.name = second.name ∧ first.arguments = second.arguments := by
  rw [sameAttribute, Bool.and_eq_true, decide_eq_true_iff, decide_eq_true_iff]

theorem exists_mem_distinct {descriptor : Descriptor} {descriptors : List Descriptor}
    (member : descriptor ∈ descriptors) :
    ∃ kept ∈ distinct descriptors, sameAttribute kept descriptor = true := by
  induction descriptors with
  | nil => simp at member
  | cons first rest ih =>
      rw [distinct_cons]
      rcases List.mem_cons.mp member with rfl | later
      · exact ⟨descriptor, List.mem_cons_self, sameAttribute_iff.mpr ⟨rfl, rfl⟩⟩
      · obtain ⟨kept, known, same⟩ := ih later
        by_cases early : sameAttribute first kept = true
        · obtain ⟨name, arguments⟩ := sameAttribute_iff.mp early
          obtain ⟨name', arguments'⟩ := sameAttribute_iff.mp same
          exact ⟨first, List.mem_cons_self,
            sameAttribute_iff.mpr ⟨name.trans name', arguments.trans arguments'⟩⟩
        · have later : kept ∈ (distinct rest).filter fun later => !sameAttribute first later :=
            List.mem_filter.mpr ⟨known, by simpa using early⟩
          exact ⟨kept, List.mem_cons_of_mem first later, same⟩

theorem declaresHarness_eq_true {descriptors : List Descriptor} :
    declaresHarness descriptors = true ↔
      ∃ descriptor ∈ descriptors, descriptor.kind.declaresHarness = true := by
  rw [declaresHarness, List.any_eq_true]

/-- A descriptor of an item is one of an attribute among its earlier siblings. -/
theorem exists_of_mem_classifyAll {item : Node} {descriptor : Descriptor}
    (member : descriptor ∈ classifyAll item) :
    ∃ found : Node, found.source = item.source ∧ found.tree ∈ item.before ∧
      descriptor ∈ classify found := by
  obtain ⟨found, attached, member⟩ := List.mem_flatMap.mp (mem_of_mem_distinct member)
  obtain ⟨source, earlier⟩ := Node.tree_mem_of_mem_attributesBefore attached
  exact ⟨found, source, earlier, member⟩

/-- A descriptor of an attribute is one of those that its path and its arguments stand for. -/
theorem exists_of_mem_classify {item : Node} {descriptor : Descriptor}
    (member : descriptor ∈ classify item) :
    ∃ name, item.attributePath? = some name ∧
      descriptor ∈ expand name item.literalArguments item.startLine := by
  rw [classify] at member
  split at member
  · simp at member
  · rename_i name found
    exact ⟨name, found, member⟩

/-- An attribute is unsupported when its path is none of those that are understood. -/
theorem Kind.ofName_eq_unsupported {name : Text} :
    Kind.ofName name = .unsupported ↔ name ∉ Kind.known.map Prod.fst := by
  constructor
  · intro unsupported member
    obtain ⟨entry, known, same⟩ := List.mem_map.mp member
    have supported : ∀ entry ∈ Kind.known, Kind.ofName entry.1 ≠ .unsupported := by decide
    exact supported entry known (same ▸ unsupported)
  · intro unknown
    have none : Kind.known.lookup name = none := by
      rw [List.lookup_eq_none_iff]
      intro entry known
      rw [bne_iff_ne]
      rintro rfl
      exact unknown (List.mem_map_of_mem known)
    rw [Kind.ofName, none]
    rfl

/-- A descriptor says of its kind what its path says. -/
def Descriptor.IsRead (descriptor : Descriptor) : Prop :=
  descriptor = .ofName descriptor.name descriptor.arguments descriptor.line

theorem isRead_of_ofText? {text : Text} {line : Nat} {descriptor : Descriptor}
    (read : Descriptor.ofText? text line = some descriptor) : descriptor.IsRead := by
  unfold Descriptor.ofText? at read
  split at read
  · simp at read
  · split at read
    · obtain ⟨arguments, -, rfl⟩ := Option.map_eq_some_iff.mp read
      rfl
    · simp at read

theorem isRead_of_mem_classify {item : Node} {descriptor : Descriptor}
    (member : descriptor ∈ classify item) : descriptor.IsRead := by
  obtain ⟨name, -, member⟩ := exists_of_mem_classify member
  unfold expand at member
  split at member
  · split at member
    · obtain ⟨text, -, read⟩ := List.mem_filterMap.mp member
      exact isRead_of_ofText? read
    · rw [List.mem_singleton.mp member]
      rfl
  · rw [List.mem_singleton.mp member]
    rfl

theorem kind_of_mem_classify {item : Node} {descriptor : Descriptor}
    (member : descriptor ∈ classify item) : descriptor.kind = Kind.ofName descriptor.name :=
  congrArg Descriptor.kind (isRead_of_mem_classify member)

/-- What an attribute of an item stands for is among the descriptors of the item, up to its line. -/
theorem exists_same_classifyAll {item attached : Node} {descriptor : Descriptor}
    (known : attached ∈ item.attributes) (member : descriptor ∈ classify attached) :
    ∃ found ∈ classifyAll item, found.name = descriptor.name ∧
      found.arguments = descriptor.arguments ∧ found.kind = descriptor.kind := by
  obtain ⟨found, kept, same⟩ := exists_mem_distinct (List.mem_flatMap.mpr ⟨attached, known, member⟩)
  obtain ⟨name, arguments⟩ := sameAttribute_iff.mp same
  obtain ⟨attached', -, member'⟩ := List.mem_flatMap.mp (mem_of_mem_distinct kept)
  refine ⟨found, kept, name, arguments, ?_⟩
  rw [kind_of_mem_classify member', kind_of_mem_classify member, name]

/-- The attributes of an item declare a harness when one of them does on its own. -/
theorem declaresHarness_classifyAll {item : Node} :
    declaresHarness (classifyAll item) = true ↔
      ∃ attached ∈ item.attributes, declaresHarness (classify attached) = true := by
  constructor
  · intro declares
    obtain ⟨descriptor, member, kind⟩ := declaresHarness_eq_true.mp declares
    obtain ⟨attached, known, member⟩ := List.mem_flatMap.mp (mem_of_mem_distinct member)
    exact ⟨attached, known, declaresHarness_eq_true.mpr ⟨descriptor, member, kind⟩⟩
  · rintro ⟨attached, known, declares⟩
    obtain ⟨descriptor, member, kind⟩ := declaresHarness_eq_true.mp declares
    obtain ⟨found, kept, -, -, same⟩ := exists_same_classifyAll known member
    exact declaresHarness_eq_true.mpr ⟨found, kept, same ▸ kind⟩

/-- A name is among the descriptors of an item when one of its attributes has a descriptor with
it. -/
theorem exists_named_classifyAll {item : Node} {name : Text} :
    (∃ descriptor ∈ classifyAll item, descriptor.name = name) ↔
      ∃ attached ∈ item.attributes, ∃ descriptor ∈ classify attached, descriptor.name = name := by
  constructor
  · rintro ⟨descriptor, member, named⟩
    obtain ⟨attached, member', member⟩ := List.mem_flatMap.mp (mem_of_mem_distinct member)
    exact ⟨attached, member', descriptor, member, named⟩
  · rintro ⟨attached, member', descriptor, member, rfl⟩
    obtain ⟨kept, known, named, -⟩ := exists_same_classifyAll member' member
    exact ⟨kept, known, named⟩

/-- An attribute is written with a path, or wraps an attribute with this path under a condition that
holds when the verifier runs. -/
inductive Carries (name : Text) (attached : Node) : Prop where
  | direct : attached.attributePath? = some name → Carries name attached
  | wrapped {condition text : Text} {texts : List Text} {descriptor : Descriptor} :
      attached.attributePath? = some conditional →
      attached.literalArguments = condition :: texts → enablesUnderKani condition = true →
      text ∈ texts → Descriptor.ofText? text attached.startLine = some descriptor →
      descriptor.name = name → Carries name attached

theorem expand_of_ne {name : Text} (different : name ≠ conditional) (arguments : List Text)
    (line : Nat) : expand name arguments line = [.ofName name arguments line] := by
  unfold expand
  split
  · rw [decide_eq_false different, Bool.false_and, if_neg Bool.false_ne_true]
  · rfl

/-- What a conditional attribute wraps stands for it when its condition holds. -/
theorem expand_conditional {condition : Text} {texts : List Text} {line : Nat} (some : texts ≠ [])
    (holds : enablesUnderKani condition = true) :
    expand conditional (condition :: texts) line =
      texts.filterMap fun text => Descriptor.ofText? text line := by
  cases texts with
  | nil => exact absurd rfl some
  | cons text texts => simp [expand, holds]

/-- A path other than that of conditional attributes is the name of one of an attribute's
descriptors when the attribute is written with it or wraps it. -/
theorem exists_named_classify {attached : Node} {name : Text} (different : name ≠ conditional) :
    (∃ descriptor ∈ classify attached, descriptor.name = name) ↔ Carries name attached := by
  constructor
  · rintro ⟨descriptor, member, named⟩
    obtain ⟨path, found, member⟩ := exists_of_mem_classify member
    by_cases isConditional : path = conditional
    · subst isConditional
      unfold expand at member
      split at member
      · rename_i condition next texts split
        split at member
        · rename_i holds
          obtain ⟨text, known, read⟩ := List.mem_filterMap.mp member
          exact .wrapped found split (Bool.and_eq_true_iff.mp holds).2 known read named
        · rw [List.mem_singleton.mp member] at named
          exact absurd named.symm different
      · rw [List.mem_singleton.mp member] at named
        exact absurd named.symm different
    · rw [expand_of_ne isConditional, List.mem_singleton] at member
      rw [member] at named
      exact .direct (named ▸ found)
  · intro carries
    cases carries with
    | direct found =>
        refine ⟨.ofName name attached.literalArguments attached.startLine, ?_, rfl⟩
        rw [classify, found]
        simp only [expand_of_ne different, List.mem_singleton]
    | @wrapped condition text texts descriptor found split holds known read named =>
        refine ⟨descriptor, ?_, named⟩
        rw [classify, found]
        simp only [split, expand_conditional (List.ne_nil_of_mem known) holds]
        exact List.mem_filterMap.mpr ⟨text, known, read⟩

end HarnessIndex.Attribute
