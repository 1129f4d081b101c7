import HarnessIndex.Harness.Metadata
import HarnessIndex.Proofs.Attribute.Classify
import HarnessIndex.Reader.Source
import Mathlib.Data.List.FinRange

/-!
# Keeping each attribute once

An attribute can stand on an item more than once, for instance directly and under a condition that
holds when the verifier runs. Of the attributes that are the same only the first is kept. What is
read off the attributes of a harness looks at the path and the arguments alone, and at the first
attribute where several would do, so it is the same with and without the repetitions.
-/

namespace HarnessIndex.Attribute

open Syntax
open Harness (Metadata)

/-- What attributes that are the same have in common. -/
def Descriptor.key (descriptor : Descriptor) : Text × List Text :=
  (descriptor.name, descriptor.arguments)

theorem sameAttribute_eq (first second : Descriptor) :
    sameAttribute first second = decide (first.key = second.key) := by
  rw [Bool.eq_iff_iff, sameAttribute_iff, decide_eq_true_iff, Descriptor.key, Descriptor.key,
    Prod.mk.injEq]

/-! ## First occurrences -/

/-- No earlier descriptor is the same as the one at a position. -/
def IsFirst (descriptors : List Descriptor) (position : Fin descriptors.length) : Prop :=
  ∀ earlier < position, descriptors[earlier].key ≠ descriptors[position].key

instance (descriptors : List Descriptor) : DecidablePred (IsFirst descriptors) := fun position =>
  inferInstanceAs (Decidable (∀ earlier < position, _))

/-- The descriptors at the positions that no earlier descriptor anticipates, in their order. -/
def firsts (descriptors : List Descriptor) : List Descriptor :=
  ((List.finRange descriptors.length).filter fun position => IsFirst descriptors position).map
    fun position => descriptors[position]

theorem isFirst_zero (first : Descriptor) (rest : List Descriptor) :
    IsFirst (first :: rest) 0 := by
  intro earlier before
  exact absurd before (Fin.not_lt_zero earlier)

/-- A later position stays a first one when the new descriptor in front is not the same. -/
theorem isFirst_succ {first : Descriptor} {rest : List Descriptor} (position : Fin rest.length) :
    IsFirst (first :: rest) position.succ ↔
      first.key ≠ rest[position].key ∧ IsFirst rest position := by
  constructor
  · intro isFirst
    refine ⟨isFirst 0 (Fin.succ_pos position), ?_⟩
    intro earlier before
    exact isFirst earlier.succ (Fin.succ_lt_succ_iff.mpr before)
  · rintro ⟨different, isFirst⟩ earlier before
    cases earlier using Fin.cases with
    | zero => exact different
    | succ earlier => exact isFirst earlier (Fin.succ_lt_succ_iff.mp before)

theorem firsts_cons (first : Descriptor) (rest : List Descriptor) :
    firsts (first :: rest) =
      first :: (firsts rest).filter fun later => !sameAttribute first later := by
  have later (position : Fin rest.length) :
      decide (IsFirst (first :: rest) position.succ) =
        (!sameAttribute first rest[position] && decide (IsFirst rest position)) := by
    rw [sameAttribute_eq, ← decide_not, ← Bool.decide_and, decide_eq_decide]
    exact isFirst_succ position
  have positions : List.finRange (first :: rest).length =
      0 :: (List.finRange rest.length).map Fin.succ :=
    List.finRange_succ
  calc
    firsts (first :: rest) =
        first :: ((List.finRange rest.length).filter fun position =>
          IsFirst (first :: rest) position.succ).map fun position => rest[position] := by
      rw [firsts, positions, List.filter_cons,
        if_pos (decide_eq_true (isFirst_zero first rest)), List.map_cons, List.filter_map,
        List.map_map]
      rfl
    _ = first :: (firsts rest).filter fun later => !sameAttribute first later := by
      simp only [later, ← List.filter_filter, firsts, List.filter_map]
      rfl

/-- Exactly the first of the descriptors that are the same is kept. -/
theorem distinct_eq_firsts (descriptors : List Descriptor) :
    distinct descriptors = firsts descriptors := by
  induction descriptors with
  | nil => rfl
  | cons first rest ih => rw [distinct_cons, firsts_cons, ih]

/-! ## What does not depend on lines -/

section

variable {descriptors : List Descriptor}

/-- Attributes that are the same differ in their lines at most. -/
theorem eq_of_key_eq {first second : Descriptor} (read : first.IsRead) (read' : second.IsRead)
    (same : first.key = second.key) : second = { first with line := second.line } := by
  obtain ⟨name, arguments⟩ := Prod.mk.inj same
  rw [Descriptor.IsRead] at read read'
  rw [read, read', name, arguments]
  rfl

/-- Dropping repetitions and choosing descriptors can be exchanged, when no line decides what is
chosen. -/
theorem filter_distinct {accept : Descriptor → Bool}
    (blind : ∀ descriptor line, accept { descriptor with line } = accept descriptor)
    (read : ∀ descriptor ∈ descriptors, descriptor.IsRead) :
    (distinct descriptors).filter accept = distinct (descriptors.filter accept) := by
  induction descriptors with
  | nil => rfl
  | cons first rest ih =>
      obtain ⟨readFirst, readRest⟩ := List.forall_mem_cons.mp read
      rw [distinct_cons, List.filter_cons, List.filter_cons]
      cases accepted : accept first with
      | true =>
          rw [if_pos rfl, if_pos rfl, distinct_cons, ← ih readRest, List.filter_filter,
            List.filter_filter]
          simp only [Bool.and_comm]
      | false =>
          -- What the first descriptor anticipates is not chosen either.
          have fresh : ∀ later ∈ distinct rest,
              (accept later && !sameAttribute first later) = accept later := by
            intro later member
            rw [sameAttribute_eq]
            by_cases same : first.key = later.key
            · rw [eq_of_key_eq readFirst (readRest later (mem_of_mem_distinct member)) same, blind,
                accepted, Bool.false_and]
            · rw [decide_eq_false same, Bool.not_false, Bool.and_true]
          rw [if_neg Bool.false_ne_true, if_neg Bool.false_ne_true, List.filter_filter,
            List.filter_congr fresh, ih readRest]

theorem head?_distinct (descriptors : List Descriptor) :
    (distinct descriptors).head? = descriptors.head? := by
  cases descriptors <;> rfl

theorem find?_distinct {accept : Descriptor → Bool}
    (blind : ∀ descriptor line, accept { descriptor with line } = accept descriptor)
    (read : ∀ descriptor ∈ descriptors, descriptor.IsRead) :
    (distinct descriptors).find? accept = descriptors.find? accept := by
  rw [← List.head?_filter, filter_distinct blind read, head?_distinct, List.head?_filter]

/-- The same paths and arguments occur with and without repetitions. -/
theorem mem_map_distinct {α : Type} {shown : Descriptor → α}
    (blind : ∀ first second, first.key = second.key → shown first = shown second) (value : α) :
    value ∈ (distinct descriptors).map shown ↔ value ∈ descriptors.map shown := by
  rw [List.mem_map, List.mem_map]
  constructor
  · rintro ⟨descriptor, member, same⟩
    exact ⟨descriptor, mem_of_mem_distinct member, same⟩
  · rintro ⟨descriptor, member, rfl⟩
    obtain ⟨kept, known, same⟩ := exists_mem_distinct member
    rw [sameAttribute_eq] at same
    exact ⟨kept, known, blind kept descriptor (of_decide_eq_true same)⟩

end

/-! ## What is read off the attributes of a harness -/

/-- The descriptors of all attributes of an item, one after the other, with all repetitions. -/
def classifyEach (item : Node) : List Descriptor :=
  item.attributes.flatMap classify

/-- Two harnesses have the same settings by their attributes. The stubs and the attributes that are
not understood are compared as sets. -/
structure SameSettings (first second : Metadata) : Prop where
  unwind : first.unwind = second.unwind
  solver : first.solver = second.solver
  contractTarget : first.contractTarget = second.contractTarget
  shouldPanic : first.shouldPanic = second.shouldPanic
  stubs : ∀ arguments, arguments ∈ first.stubs ↔ arguments ∈ second.stubs
  unsupported : ∀ name, name ∈ first.unsupportedAttributes.map Descriptor.name ↔
    name ∈ second.unsupportedAttributes.map Descriptor.name

section

variable {descriptors : List Descriptor} (read : ∀ descriptor ∈ descriptors, descriptor.IsRead)
include read

theorem first?_distinct (harness : Metadata) (kind : Kind) :
    { harness with attributes := distinct descriptors }.first? kind =
      { harness with attributes := descriptors }.first? kind :=
  find?_distinct (fun _ _ => rfl) read

theorem declaresHarness_distinct :
    declaresHarness (distinct descriptors) = declaresHarness descriptors := by
  rw [Bool.eq_iff_iff, declaresHarness, declaresHarness, List.any_eq_true, List.any_eq_true,
    ← List.find?_isSome, ← List.find?_isSome, find?_distinct (fun _ _ => rfl) read]

/-- A harness has the same settings by its attributes with and without repetitions. -/
theorem sameSettings_distinct (harness : Metadata) :
    SameSettings { harness with attributes := distinct descriptors }
      { harness with attributes := descriptors } where
  unwind := by rw [Metadata.unwind, Metadata.unwind, first?_distinct read]
  solver := by rw [Metadata.solver, Metadata.solver, first?_distinct read]
  contractTarget := by rw [Metadata.contractTarget, Metadata.contractTarget, first?_distinct read]
  shouldPanic := by rw [Metadata.shouldPanic, Metadata.shouldPanic, first?_distinct read]
  stubs := by
    intro arguments
    rw [Metadata.stubs, Metadata.stubs, filter_distinct (fun _ _ => rfl) read]
    exact mem_map_distinct (fun _ _ same => congrArg Prod.snd same) arguments
  unsupported := by
    intro name
    rw [Metadata.unsupportedAttributes, Metadata.unsupportedAttributes,
      filter_distinct (fun _ _ => rfl) read]
    exact mem_map_distinct (fun _ _ same => congrArg Prod.fst same) name

end

theorem isRead_of_mem_classifyEach {item : Node} {descriptor : Descriptor}
    (member : descriptor ∈ classifyEach item) : descriptor.IsRead := by
  obtain ⟨attached, -, member⟩ := List.mem_flatMap.mp member
  exact isRead_of_mem_classify member

theorem Descriptor.IsRead.supported_iff {descriptor : Descriptor} (read : descriptor.IsRead) :
    descriptor.supported = true ↔ descriptor.kind ≠ .unsupported := by
  rw [read]
  exact decide_eq_true_iff

/-- The descriptors of an item are the first ones of those that are the same, in the order of its
attributes. They declare a harness when all of them together do, give a harness the same settings,
and are supported exactly when their kinds are understood. -/
theorem classifyAll_firsts (item : Node) :
    classifyAll item = firsts (classifyEach item) ∧
      declaresHarness (classifyAll item) = declaresHarness (classifyEach item) ∧
      (∀ harness : Metadata,
        SameSettings { harness with attributes := classifyAll item }
          { harness with attributes := classifyEach item }) ∧
      ∀ descriptor ∈ classifyAll item,
        (descriptor.supported = true ↔ descriptor.kind ≠ .unsupported) := by
  have read : ∀ descriptor ∈ classifyEach item, descriptor.IsRead := by
    intro descriptor
    exact isRead_of_mem_classifyEach
  refine ⟨distinct_eq_firsts _, declaresHarness_distinct read, sameSettings_distinct read, ?_⟩
  intro descriptor member
  exact (read descriptor (mem_of_mem_distinct member)).supported_iff

/-- A file with a function whose attributes repeat others, directly and under a condition. -/
def repeating : Node :=
  (Reader.parse
    ("#[kani::proof]#[cfg_attr(kani,kani::proof,kani::unwind(4),tool)]" ++
      "#[kani::unwind(5)]#[kani::unwind(4)]#[tool]fn f(){}")).root

theorem classifyAll_firsts_repeating :
    ∃ item ∈ functionsOf repeating, (classifyEach item.node).length = 7 ∧
      (classifyAll item.node).map Descriptor.text =
        ["kani::proof".toList, "kani::unwind(4)".toList, "tool".toList,
          "kani::unwind(5)".toList] ∧
      declaresHarness (classifyAll item.node) = declaresHarness (classifyEach item.node) ∧
      ∃ descriptor ∈ classifyAll item.node, descriptor.kind = .unwind ∧
        descriptor.supported = true := by
  have facts : ((functionsOf repeating).map fun item =>
      ((classifyEach item.node).length, (classifyAll item.node).map Descriptor.text,
        (classifyAll item.node).any fun descriptor => descriptor.kind = .unwind)) =
      [(7, ["kani::proof".toList, "kani::unwind(4)".toList, "tool".toList,
        "kani::unwind(5)".toList], true)] := by
    decide +kernel
  obtain ⟨item, member, shown⟩ := List.mem_map.mp (facts ▸ List.mem_cons_self)
  obtain ⟨length, kept⟩ := Prod.mk.inj shown
  obtain ⟨kept, unwound⟩ := Prod.mk.inj kept
  obtain ⟨descriptor, known, kind⟩ := List.any_eq_true.mp unwound
  obtain ⟨-, declares, -, supported⟩ := classifyAll_firsts item.node
  refine ⟨item, member, length, kept, declares, descriptor, known, of_decide_eq_true kind, ?_⟩
  rw [supported descriptor known, of_decide_eq_true kind]
  decide

end HarnessIndex.Attribute
