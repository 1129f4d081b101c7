import HarnessIndex.Proofs.Syntax.Items

/-!
# Spans of well-formed trees

In a well-formed tree the spans of children lie inside that of their parent, siblings come in order
and do not overlap, and functions are not empty. A parser that reads a text from left to right makes
such trees, also where the text does not follow the grammar. Lines grow with the bytes on them.
-/

namespace HarnessIndex.Syntax

namespace Source

theorem slice_of_le (source : Source) {start stop : Nat} (le : stop ≤ start) :
    source.slice start stop = [] := by
  have empty : source.bytes.extract start stop = #[] :=
    Array.extract_empty_of_stop_le_start le
  rw [slice, empty]
  rfl

/-- A later byte stands on the same line or on a later one. -/
theorem lineAt_mono (source : Source) {first second : Nat} (le : first ≤ second) :
    source.lineAt first ≤ source.lineAt second := by
  have front : (source.bytes.extract 0 first).toList.Sublist
      (source.bytes.extract 0 second).toList := by
    rw [Array.toList_extract, Array.toList_extract, List.extract_eq_take_drop,
      List.extract_eq_take_drop]
    exact List.take_sublist_take_left (by omega)
  rw [lineAt, lineAt]
  exact Nat.add_le_add_right (front.countP_le) 1

end Source

namespace Tree

mutual

/-- Functions are not empty, spans are nested, and siblings come in order without overlap. -/
def WellFormed : Tree → Prop
  | ⟨kind, start, stop, _, _, _, children⟩ =>
      (kind = .functionItem → start < stop) ∧
        (∀ child ∈ children, start ≤ child.start ∧ child.stop ≤ stop) ∧
        children.Pairwise (fun left right => left.stop ≤ right.start) ∧
        AllWellFormed children

def AllWellFormed : List Tree → Prop
  | [] => True
  | tree :: rest => WellFormed tree ∧ AllWellFormed rest

end

mutual

def decideWellFormed : (tree : Tree) → Decidable tree.WellFormed
  | ⟨kind, start, stop, _, _, _, children⟩ =>
      have := decideAllWellFormed children
      decidable_of_iff ((kind = .functionItem → start < stop) ∧
        (∀ child ∈ children, start ≤ child.start ∧ child.stop ≤ stop) ∧
        children.Pairwise (fun left right => left.stop ≤ right.start) ∧
        AllWellFormed children) (by rw [WellFormed])

def decideAllWellFormed : (trees : List Tree) → Decidable (AllWellFormed trees)
  | [] => decidable_of_iff True (by rw [AllWellFormed])
  | tree :: rest =>
      have := decideWellFormed tree
      have := decideAllWellFormed rest
      decidable_of_iff (WellFormed tree ∧ AllWellFormed rest) (by rw [AllWellFormed])

end

instance : DecidablePred WellFormed :=
  decideWellFormed

theorem allWellFormed_iff {trees : List Tree} :
    AllWellFormed trees ↔ ∀ tree ∈ trees, tree.WellFormed := by
  induction trees with
  | nil => simp [AllWellFormed]
  | cons tree rest ih => simp [AllWellFormed, ih]

theorem wellFormed_iff {tree : Tree} :
    tree.WellFormed ↔
      (tree.kind = .functionItem → tree.start < tree.stop) ∧
        (∀ child ∈ tree.children, tree.start ≤ child.start ∧ child.stop ≤ tree.stop) ∧
        tree.children.Pairwise (fun left right => left.stop ≤ right.start) ∧
        ∀ child ∈ tree.children, child.WellFormed := by
  cases tree
  rw [WellFormed, allWellFormed_iff]

namespace WellFormed

variable {tree child : Tree}

theorem start_lt_stop (wellFormed : tree.WellFormed) (function : tree.kind = .functionItem) :
    tree.start < tree.stop :=
  (wellFormed_iff.mp wellFormed).1 function

theorem child_span (wellFormed : tree.WellFormed) (member : child ∈ tree.children) :
    tree.start ≤ child.start ∧ child.stop ≤ tree.stop :=
  (wellFormed_iff.mp wellFormed).2.1 child member

theorem siblings_inOrder (wellFormed : tree.WellFormed) :
    tree.children.Pairwise fun left right => left.stop ≤ right.start :=
  (wellFormed_iff.mp wellFormed).2.2.1

theorem of_mem_children (wellFormed : tree.WellFormed) (member : child ∈ tree.children) :
    child.WellFormed :=
  (wellFormed_iff.mp wellFormed).2.2.2 child member

/-- A container in a child lies inside the child, and is well formed too. -/
theorem of_holds {container : Tree} (wellFormed : child.WellFormed)
    (holds : Item.Holds child container) :
    container.WellFormed ∧ child.start ≤ container.start ∧ container.stop ≤ child.stop := by
  cases holds with
  | body _ member => exact ⟨wellFormed.of_mem_children member, wellFormed.child_span member⟩
  | error _ => exact ⟨wellFormed, Nat.le_refl _, Nat.le_refl _⟩

end WellFormed

end Tree

end HarnessIndex.Syntax
