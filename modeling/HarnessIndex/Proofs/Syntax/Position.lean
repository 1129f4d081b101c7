import Mathlib.Data.List.Lex
import Mathlib.Data.List.Nodup

/-!
# Positions in a tree

A position says which child to take at every step on the way down from a node. Positions are ordered
as words are in a dictionary. A node then comes before what stands below it, and after what stands
below its earlier siblings, so this order is the pre-order of the tree.

A list is in pre-order when it holds what stands at some positions, one value for each of them and
nothing else, in the order of the positions. Such lists are put together as walks over a tree put
their results together.
-/

namespace HarnessIndex.Syntax

/-- The numbers of the children on the way from a node to a node below it. -/
abbrev Position := List Nat

/-- A list holds exactly what stands at some position, each position counting once, in the order of
the positions. -/
def InPreorder {α : Type} (stands : Position → α → Prop) (values : List α) : Prop :=
  ∃ placed : List (Position × α), placed.map Prod.snd = values ∧
    (placed.map Prod.fst).Pairwise (· < ·) ∧
    ∀ position value, (position, value) ∈ placed ↔ stands position value

namespace InPreorder

variable {α β : Type} {stands stands' : Position → α → Prop} {values values' : List α}

theorem congr (listed : InPreorder stands values)
    (same : ∀ position value, stands position value ↔ stands' position value) :
    InPreorder stands' values := by
  obtain ⟨placed, shown, sorted, exact⟩ := listed
  exact ⟨placed, shown, sorted, fun position value =>
    (exact position value).trans (same position value)⟩

theorem nil (nowhere : ∀ position value, ¬stands position value) : InPreorder stands [] := by
  refine ⟨[], rfl, List.Pairwise.nil, ?_⟩
  intro position value
  exact ⟨fun member => absurd member List.not_mem_nil, fun known => absurd known (nowhere _ _)⟩

theorem singleton (value : α) :
    InPreorder (fun position other => position = [] ∧ other = value) [value] := by
  refine ⟨[([], value)], rfl, List.pairwise_singleton _ _, ?_⟩
  intro position other
  rw [List.mem_singleton, Prod.mk.injEq]

theorem append (listed : InPreorder stands values) (listed' : InPreorder stands' values')
    (before : ∀ position value position' value', stands position value →
      stands' position' value' → position < position') :
    InPreorder (fun position value => stands position value ∨ stands' position value)
      (values ++ values') := by
  obtain ⟨placed, rfl, sorted, exact⟩ := listed
  obtain ⟨placed', rfl, sorted', exact'⟩ := listed'
  refine ⟨placed ++ placed', List.map_append, ?_, ?_⟩
  · rw [List.map_append]
    refine List.pairwise_append.mpr ⟨sorted, sorted', ?_⟩
    intro position member position' member'
    obtain ⟨entry, known, rfl⟩ := List.mem_map.mp member
    obtain ⟨entry', known', rfl⟩ := List.mem_map.mp member'
    exact before entry.1 entry.2 entry'.1 entry'.2 ((exact _ _).mp known) ((exact' _ _).mp known')
  · intro position value
    rw [List.mem_append, exact, exact']

/-- What is listed from a node is listed from a node above it by longer positions. -/
theorem below (steps : Position) (listed : InPreorder stands values) :
    InPreorder (fun position value => ∃ rest, position = steps ++ rest ∧ stands rest value)
      values := by
  obtain ⟨placed, rfl, sorted, exact⟩ := listed
  refine ⟨placed.map fun entry => (steps ++ entry.1, entry.2), ?_, ?_, ?_⟩
  · rw [List.map_map]
    rfl
  · rw [List.map_map, List.pairwise_map]
    rw [List.pairwise_map] at sorted
    exact sorted.imp fun less => List.append_left_lt less
  · intro position value
    rw [List.mem_map]
    constructor
    · rintro ⟨entry, member, same⟩
      obtain ⟨rfl, rfl⟩ := Prod.mk.inj same
      exact ⟨entry.1, rfl, (exact _ _).mp member⟩
    · rintro ⟨rest, rfl, known⟩
      exact ⟨(rest, value), (exact _ _).mpr known, rfl⟩

/-- What is listed from the children of a node, when the first of them has the number `start`. -/
theorem flatMap_from {nodes : List β} {each : β → Position → α → Prop} {list : β → List α}
    (listed : ∀ node ∈ nodes, InPreorder (each node) (list node)) (start : Nat) :
    InPreorder (fun position value => ∃ index node rest, nodes[index]? = some node ∧
      position = (start + index) :: rest ∧ each node rest value) (nodes.flatMap list) := by
  induction nodes generalizing start with
  | nil =>
      apply nil
      rintro position value ⟨index, node, rest, found, -⟩
      simp at found
  | cons first nodes ih =>
      obtain ⟨here, later⟩ := List.forall_mem_cons.mp listed
      refine (append (here.below [start]) (ih later (start + 1)) ?_).congr ?_
      · rintro _ _ _ _ ⟨rest, rfl, -⟩ ⟨index, node, rest', -, rfl, -⟩
        exact List.cons_lt_cons_iff.mpr (Or.inl (by omega))
      · intro position value
        constructor
        · rintro (⟨rest, rfl, known⟩ | ⟨index, node, rest, found, rfl, known⟩)
          · exact ⟨0, first, rest, rfl, rfl, known⟩
          · refine ⟨index + 1, node, rest, found, ?_, known⟩
            rw [Nat.add_assoc, Nat.add_comm 1]
        · rintro ⟨index, node, rest, found, rfl, known⟩
          cases index with
          | zero =>
              obtain rfl := Option.some.inj found
              exact Or.inl ⟨rest, rfl, known⟩
          | succ index =>
              refine Or.inr ⟨index, node, rest, found, ?_, known⟩
              rw [Nat.add_assoc, Nat.add_comm 1]

/-- What is listed from the children of a node is listed from the node. -/
theorem flatMap {nodes : List β} {each : β → Position → α → Prop} {list : β → List α}
    (listed : ∀ node ∈ nodes, InPreorder (each node) (list node)) :
    InPreorder (fun position value => ∃ index node rest, nodes[index]? = some node ∧
      position = index :: rest ∧ each node rest value) (nodes.flatMap list) := by
  have listed := flatMap_from listed 0
  simp only [Nat.zero_add] at listed
  exact listed

theorem filterMap (read : α → Option β) (listed : InPreorder stands values) :
    InPreorder (fun position value => ∃ origin, stands position origin ∧ read origin = some value)
      (values.filterMap read) := by
  obtain ⟨placed, rfl, sorted, exact⟩ := listed
  refine ⟨placed.filterMap fun entry => (read entry.2).map fun value => (entry.1, value),
    ?_, ?_, ?_⟩
  · rw [List.map_filterMap, List.filterMap_map]
    congr 1
    funext entry
    rw [Option.map_map, Function.comp_apply]
    exact Option.map_id'
  · rw [List.pairwise_map] at sorted
    rw [List.pairwise_map, List.pairwise_filterMap]
    apply sorted.imp
    intro entry entry' less first found last found'
    obtain ⟨value, -, rfl⟩ := Option.map_eq_some_iff.mp found
    obtain ⟨value', -, rfl⟩ := Option.map_eq_some_iff.mp found'
    exact less
  · intro position value
    rw [List.mem_filterMap]
    constructor
    · rintro ⟨entry, member, same⟩
      obtain ⟨read, found, same⟩ := Option.map_eq_some_iff.mp same
      obtain ⟨rfl, rfl⟩ := Prod.mk.inj same
      exact ⟨entry.2, (exact _ _).mp member, found⟩
    · rintro ⟨origin, known, found⟩
      exact ⟨(position, origin), (exact _ _).mpr known, by rw [found]; rfl⟩

/-- No two values are listed at one position. -/
theorem unique {position : Position} {value value' : α} (listed : InPreorder stands values)
    (known : stands position value) (known' : stands position value') : value = value' := by
  obtain ⟨placed, -, sorted, exact⟩ := listed
  have nodup : (placed.map Prod.fst).Nodup := sorted.imp ne_of_lt
  have same := List.inj_on_of_nodup_map nodup ((exact _ _).mpr known) ((exact _ _).mpr known') rfl
  exact (Prod.mk.inj same).2

/-- The first value with a property is the one at the least position. -/
theorem find?_eq_some (listed : InPreorder stands values) {accept : α → Bool} {value : α} :
    values.find? accept = some value ↔
      ∃ position, stands position value ∧ accept value = true ∧
        ∀ position' value', stands position' value' → accept value' = true →
          position ≤ position' := by
  have first {value : α} (found : values.find? accept = some value) :
      ∃ position, stands position value ∧ accept value = true ∧
        ∀ position' value', stands position' value' → accept value' = true →
          position ≤ position' := by
    obtain ⟨placed, rfl, sorted, exact⟩ := listed
    rw [List.find?_map] at found
    obtain ⟨entry, search, rfl⟩ := Option.map_eq_some_iff.mp found
    obtain ⟨accepted, front, back, rfl, passed⟩ := List.find?_eq_some_iff_append.mp search
    refine ⟨entry.1, (exact _ _).mp (by simp), accepted, ?_⟩
    intro position' value' known accepted'
    rw [List.map_append, List.map_cons, List.pairwise_append, List.pairwise_cons] at sorted
    rcases List.mem_append.mp ((exact _ _).mpr known) with early | late
    · have refused := passed _ early
      rw [Function.comp_apply, accepted'] at refused
      exact absurd refused (by decide)
    · rcases List.mem_cons.mp late with rfl | later
      · exact le_refl _
      · exact le_of_lt (sorted.2.1.1 _ (List.mem_map_of_mem later))
  refine ⟨first, ?_⟩
  rintro ⟨position, known, accepted, least⟩
  obtain ⟨placed, shown, sorted, exact⟩ := id listed
  have member : value ∈ values := shown ▸ List.mem_map.mpr ⟨_, (exact _ _).mpr known, rfl⟩
  obtain ⟨found, search⟩ := Option.isSome_iff_exists.mp
    (List.find?_isSome.mpr ⟨value, member, accepted⟩)
  obtain ⟨position', known', accepted', least'⟩ := first search
  have same := le_antisymm (least' _ _ known accepted) (least _ _ known' accepted')
  have alike : found = value := listed.unique (same ▸ known') known
  rw [search, alike]

end InPreorder

end HarnessIndex.Syntax
