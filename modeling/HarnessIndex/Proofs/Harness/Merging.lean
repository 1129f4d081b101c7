import HarnessIndex.Harness.Index
import HarnessIndex.Proofs.Ordered
import HarnessIndex.Proofs.Syntax.Items
import Mathlib.Data.List.Nodup

/-!
# Joining what is found by attribute and by invocation

Each function that is a harness has one complete candidate, which holds what either way of finding
it tells. Where no two functions have the same span, joining the two lists gives just these complete
candidates, the declared ones before the others wherever they start at the same place.
-/

namespace HarnessIndex.Harness

open Syntax Attribute

/-- Whether a function is declared a harness by its attributes. -/
def isDeclared (item : Item) : Bool :=
  declaresHarness (classifyAll item.node)

/-- Whether a function has a name and is a harness by its attributes or by what it invokes. -/
def isHarness (item : Item) : Bool :=
  item.node.name?.isSome && (isDeclared item || !(invocations item.node).isEmpty)

/-- The functions of a file that are harnesses, from top to bottom. -/
def harnessItems (root : Node) : List Item :=
  (functionsOf root).filter isHarness

/-- No two functions of a file have the same span of bytes. -/
def DistinctSpans (root : Node) : Prop :=
  ((functionsOf root).map fun item => (item.node.startByte, item.node.endByte)).Nodup

instance (root : Node) : Decidable (DistinctSpans root) :=
  inferInstanceAs (Decidable (List.Nodup _))

/-- All that is known about a function that is a harness. -/
def candidateOf (item : Item) : Candidate where
  node := item.node
  name := item.node.name?.getD []
  modulePath := item.modulePath
  attributes := classifyAll item.node
  declaredByAttribute := isDeclared item
  entryPoint := (invocations item.node).head?
  invocationCount := (invocations item.node).length

/-- What the attributes of a function tell about it. -/
def declaredOf (item : Item) : Candidate :=
  { candidateOf item with entryPoint := none, invocationCount := 0 }

/-- What the invocations of a function tell about it. -/
def invokingOf (item : Item) : Candidate :=
  { candidateOf item with declaredByAttribute := false }

theorem name?_of_mem_harnessItems {root : Node} {item : Item} (member : item ∈ harnessItems root) :
    item.node.name? = some (candidateOf item).name := by
  have harness := (List.mem_filter.mp member).2
  rw [isHarness, Bool.and_eq_true] at harness
  obtain ⟨name, named⟩ := Option.isSome_iff_exists.mp harness.1
  simp [candidateOf, named]

/-! ## The two lists -/

theorem byAttribute?_eq (item : Item) :
    byAttribute? item =
      if item.node.name?.isSome && isDeclared item then some (declaredOf item) else none := by
  cases named : item.node.name? with
  | none => simp [byAttribute?, named]
  | some name =>
      cases declared : declaresHarness (classifyAll item.node) <;>
        simp [byAttribute?, named, declared, isDeclared, declaredOf, candidateOf]

theorem byInvocation?_eq (item : Item) :
    byInvocation? item =
      if item.node.name?.isSome && !(invocations item.node).isEmpty then some (invokingOf item)
      else none := by
  cases named : item.node.name? with
  | none => simp [byInvocation?, named]
  | some name =>
      cases invoked : invocations item.node <;>
        simp [byInvocation?, named, invoked, invokingOf, candidateOf]

theorem filterMap_ite {α β : Type} (keep : α → Bool) (image : α → β) (values : List α) :
    (values.filterMap fun value => if keep value then some (image value) else none) =
      (values.filter keep).map image := by
  induction values with
  | nil => rfl
  | cons value rest ih => cases kept : keep value <;> simp [kept, ih]

theorem attributeHarnesses_eq (root : Node) :
    attributeHarnesses root = ((harnessItems root).filter isDeclared).map declaredOf := by
  rw [attributeHarnesses, funext byAttribute?_eq, filterMap_ite, harnessItems, List.filter_filter]
  congr 1
  apply List.filter_congr
  intro item _
  cases declared : isDeclared item <;> simp [isHarness, declared]

theorem invocationHarnesses_eq (root : Node) :
    invocationHarnesses root =
      ((harnessItems root).filter fun item => !(invocations item.node).isEmpty).map invokingOf := by
  rw [invocationHarnesses, funext byInvocation?_eq, filterMap_ite, harnessItems,
    List.filter_filter]
  congr 1
  apply List.filter_congr
  intro item _
  cases silent : (invocations item.node).isEmpty <;> simp [isHarness, silent]

/-! ## Completing the declared ones -/

def completedBy (invoking : List Spanned) (candidate : Candidate) : Candidate :=
  match Assoc.get? candidate.node.span invoking with
  | none => candidate
  | some found =>
      { candidate with
        entryPoint := found.entryPoint, invocationCount := found.invocationCount }

@[simp] theorem node_completedBy (invoking : List Spanned) (candidate : Candidate) :
    (completedBy invoking candidate).node = candidate.node := by
  rw [completedBy]
  split <;> rfl

/-- One declared candidate takes its own entry out and leaves the others to the rest. -/
theorem complete_cons (invoking : List Spanned) (candidate : Candidate) (rest : List Candidate) :
    complete invoking (candidate :: rest) =
      (completedBy invoking candidate ::
          (complete (Assoc.drop candidate.node.span invoking) rest).1,
        (complete (Assoc.drop candidate.node.span invoking) rest).2) := by
  rw [complete, completedBy]
  cases found : Assoc.get? candidate.node.span invoking with
  | none => rw [Assoc.drop_of_notMem (Assoc.get?_eq_none.mp found)]
  | some _ => rfl

/-- Where no span occurs twice, every declared candidate is completed by the entry with its span,
and the entries with other spans are left over. -/
theorem complete_eq {invoking : List Spanned} {declared : List Candidate}
    (once : (Assoc.keys invoking).Nodup)
    (apart : (declared.map fun candidate => candidate.node.span).Nodup) :
    complete invoking declared =
      (declared.map (completedBy invoking),
        invoking.filter fun entry =>
          entry.1 ∉ declared.map fun candidate => candidate.node.span) := by
  induction declared generalizing invoking with
  | nil => simp [complete]
  | cons candidate rest ih =>
      obtain ⟨fresh, apart⟩ := List.nodup_cons.mp apart
      have onceLeft : (Assoc.keys (Assoc.drop candidate.node.span invoking)).Nodup :=
        once.sublist ((Assoc.sublist_drop _ invoking).map Prod.fst)
      rw [complete_cons, ih onceLeft apart]
      refine Prod.ext ?_ ?_
      · simp only [List.map_cons, List.cons.injEq, true_and]
        apply List.map_congr_left
        intro other member
        have different : other.node.span ≠ candidate.node.span := by
          intro same
          exact fresh (List.mem_map.mpr ⟨other, member, same⟩)
        rw [completedBy, completedBy, Assoc.get?_drop_of_ne different]
      · rw [Assoc.drop_eq_filter once, List.filter_filter]
        apply List.filter_congr
        intro entry _
        rw [List.map_cons, ← Bool.decide_and]
        exact decide_eq_decide.mpr (by rw [List.mem_cons, not_or, and_comm])

/-! ## The joined list -/

def spanOf (item : Item) : Syntax.Kind × Nat × Nat :=
  item.node.span

theorem spanOf_eq (item : Item) : spanOf item = (declaredOf item).node.span := rfl

theorem declaredSpans_eq (root : Node) :
    ((attributeHarnesses root).map fun candidate => candidate.node.span) =
      ((harnessItems root).filter isDeclared).map spanOf := by
  rw [attributeHarnesses_eq, List.map_map]
  rfl

theorem nodup_spans {root : Node} (distinct : DistinctSpans root) :
    ((harnessItems root).map spanOf).Nodup := by
  have spans : ((functionsOf root).map spanOf).Nodup := by
    apply List.Nodup.of_map Prod.snd
    rw [List.map_map]
    exact distinct
  exact spans.sublist (List.filter_sublist.map spanOf)

theorem eq_of_spanOf_eq {root : Node} (distinct : DistinctSpans root) {first second : Item}
    (firstMem : first ∈ harnessItems root) (secondMem : second ∈ harnessItems root)
    (same : spanOf first = spanOf second) : first = second :=
  List.inj_on_of_nodup_map (nodup_spans distinct) firstMem secondMem same

/-- The functions of a file that invoke an entry point, by their spans. -/
theorem bySpan_invocationHarnesses {root : Node} (distinct : DistinctSpans root) :
    bySpan (invocationHarnesses root) =
      ((harnessItems root).filter fun item => !(invocations item.node).isEmpty).map fun item =>
        (spanOf item, invokingOf item) := by
  rw [bySpan, invocationHarnesses_eq, List.map_map]
  apply Assoc.ofList_of_nodup
  rw [Assoc.keys, List.map_map]
  exact (nodup_spans distinct).sublist (List.filter_sublist.map spanOf)

/-- A harness is found among those that invoke an entry point when it invokes one. -/
theorem get?_bySpan_invocationHarnesses {root : Node} (distinct : DistinctSpans root)
    {item : Item} (member : item ∈ harnessItems root) :
    Assoc.get? (spanOf item) (bySpan (invocationHarnesses root)) =
      if (invocations item.node).isEmpty then none else some (invokingOf item) := by
  have once : (Assoc.keys (bySpan (invocationHarnesses root))).Nodup := Assoc.nodup_keys_ofList _
  split
  · rename_i silent
    rw [Assoc.get?_eq_none, Assoc.mem_keys]
    rintro ⟨candidate, known⟩
    rw [bySpan_invocationHarnesses distinct] at known
    obtain ⟨other, otherMem, same⟩ := List.mem_map.mp known
    obtain ⟨otherMem, loud⟩ := List.mem_filter.mp otherMem
    rw [eq_of_spanOf_eq distinct otherMem member (Prod.ext_iff.mp same).1, silent] at loud
    simp at loud
  · rename_i loud
    rw [Assoc.get?_eq_some once, bySpan_invocationHarnesses distinct]
    exact List.mem_map.mpr ⟨item, List.mem_filter.mpr ⟨member, by simpa using loud⟩, rfl⟩

theorem invocations_of_not_declared {root : Node} {item : Item} (member : item ∈ harnessItems root)
    (undeclared : isDeclared item = false) : (invocations item.node).isEmpty = false := by
  have harness := (List.mem_filter.mp member).2
  simp only [isHarness, undeclared, Bool.false_or, Bool.and_eq_true, Bool.not_eq_true'] at harness
  exact harness.2

/-- The harnesses that are left over when the declared ones are completed are those that are not
declared. -/
theorem leftOver_iff {root : Node} (distinct : DistinctSpans root) {item : Item}
    (member : item ∈ harnessItems root) :
    (spanOf item ∉ ((harnessItems root).filter isDeclared).map spanOf ∧
      (invocations item.node).isEmpty = false) ↔ isDeclared item = false := by
  constructor
  · rintro ⟨fresh, -⟩
    cases declared : isDeclared item with
    | false => rfl
    | true =>
        exact absurd (List.mem_map_of_mem (List.mem_filter.mpr ⟨member, declared⟩)) fresh
  · intro undeclared
    refine ⟨?_, invocations_of_not_declared member undeclared⟩
    intro known
    obtain ⟨other, otherMem, same⟩ := List.mem_map.mp known
    obtain ⟨otherMem, declared⟩ := List.mem_filter.mp otherMem
    rw [eq_of_spanOf_eq distinct otherMem member same, undeclared] at declared
    simp at declared

theorem invokingOf_eq_candidateOf {item : Item} (undeclared : isDeclared item = false) :
    invokingOf item = candidateOf item := by
  simp [invokingOf, candidateOf, undeclared]

theorem completed_attributeHarnesses {root : Node} (distinct : DistinctSpans root) :
    (attributeHarnesses root).map (completedBy (bySpan (invocationHarnesses root))) =
      ((harnessItems root).filter isDeclared).map candidateOf := by
  rw [attributeHarnesses_eq, List.map_map]
  apply List.map_congr_left
  intro item member
  have found := get?_bySpan_invocationHarnesses distinct (List.mem_filter.mp member).1
  rw [spanOf_eq] at found
  rw [Function.comp_apply, completedBy, found]
  cases invoked : invocations item.node <;>
    simp [declaredOf, invokingOf, candidateOf, invoked]

/-- The harnesses that are not declared, as they are left over. -/
theorem leftOver_invocationHarnesses {root : Node} (distinct : DistinctSpans root) :
    ((bySpan (invocationHarnesses root)).filter fun entry =>
        entry.1 ∉ (attributeHarnesses root).map fun candidate => candidate.node.span).map
      Prod.snd =
      ((harnessItems root).filter fun item => !isDeclared item).map candidateOf := by
  have same : ((harnessItems root).filter fun item =>
      decide (spanOf item ∉ (attributeHarnesses root).map fun candidate => candidate.node.span) &&
        !(invocations item.node).isEmpty) =
      (harnessItems root).filter fun item => !isDeclared item := by
    rw [declaredSpans_eq]
    apply List.filter_congr
    intro item member
    have spelled := leftOver_iff distinct member
    rw [Bool.eq_iff_iff, Bool.and_eq_true, decide_eq_true_iff, Bool.not_eq_true',
      Bool.not_eq_true', spelled]
  rw [bySpan_invocationHarnesses distinct, List.filter_map, List.map_map, List.filter_filter]
  refine (congrArg _ same).trans ?_
  apply List.map_congr_left
  intro item member
  exact invokingOf_eq_candidateOf (by simpa using (List.mem_filter.mp member).2)

/-- Joining what is found by attribute and by invocation gives the complete candidate of every
harness. -/
theorem join_eq {root : Node} (distinct : DistinctSpans root) :
    join (attributeHarnesses root) (invocationHarnesses root) =
      (Stable.sortOn (fun item => item.node.startByte)
        ((harnessItems root).filter isDeclared ++
          (harnessItems root).filter fun item => !isDeclared item)).map candidateOf := by
  have once : (Assoc.keys (bySpan (invocationHarnesses root))).Nodup := Assoc.nodup_keys_ofList _
  have apart : ((attributeHarnesses root).map fun candidate => candidate.node.span).Nodup := by
    rw [declaredSpans_eq]
    exact (nodup_spans distinct).sublist (List.filter_sublist.map spanOf)
  rw [join, complete_eq once apart]
  simp only [completed_attributeHarnesses distinct, leftOver_invocationHarnesses distinct]
  rw [inSourceOrder, ← List.map_append, Stable.map_sortOn]
  rfl

end HarnessIndex.Harness
