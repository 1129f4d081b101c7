import HarnessIndex.Proofs.Harness.Choosing
import HarnessIndex.Proofs.Harness.Merging

/-!
# Where candidates come from

Every candidate is read off a function of the file that is a harness, and stays with it when it is
completed, joined and chosen. This holds of every tree, also of one in which functions share a span.
-/

namespace HarnessIndex.Harness

open Syntax

/-- A candidate is read off a function that is a harness. -/
structure ReadOff (candidate : Candidate) (item : Item) : Prop where
  node : candidate.node = item.node
  name : item.node.name? = some candidate.name
  modulePath : candidate.modulePath = item.modulePath
  harness : isHarness item = true
  declared : candidate.declaredByAttribute = true → isDeclared item = true

theorem exists_of_mem_attributeHarnesses {root : Node} {candidate : Candidate}
    (member : candidate ∈ attributeHarnesses root) :
    ∃ item ∈ functionsOf root, ReadOff candidate item ∧ isDeclared item = true := by
  rw [attributeHarnesses_eq] at member
  obtain ⟨item, kept, rfl⟩ := List.mem_map.mp member
  obtain ⟨harness, declared⟩ := List.mem_filter.mp kept
  exact ⟨item, (List.mem_filter.mp harness).1,
    ⟨rfl, name?_of_mem_harnessItems harness, rfl, (List.mem_filter.mp harness).2,
      fun _ => declared⟩, declared⟩

theorem exists_of_mem_invocationHarnesses {root : Node} {candidate : Candidate}
    (member : candidate ∈ invocationHarnesses root) :
    ∃ item ∈ functionsOf root, ReadOff candidate item := by
  rw [invocationHarnesses_eq] at member
  obtain ⟨item, kept, rfl⟩ := List.mem_map.mp member
  obtain ⟨harness, -⟩ := List.mem_filter.mp kept
  refine ⟨item, (List.mem_filter.mp harness).1,
    ⟨rfl, name?_of_mem_harnessItems harness, rfl, (List.mem_filter.mp harness).2, ?_⟩⟩
  intro declared
  simp [invokingOf] at declared

theorem ReadOff.completedBy {candidate : Candidate} {item : Item} (readOff : ReadOff candidate item)
    (invoking : List Spanned) : ReadOff (completedBy invoking candidate) item := by
  obtain ⟨node, name, modulePath, harness, declared⟩ := readOff
  rw [Harness.completedBy]
  split <;> exact ⟨node, name, modulePath, harness, declared⟩

theorem mem_complete {invoking : List Spanned} {declared : List Candidate} {candidate : Candidate}
    (member : candidate ∈ (complete invoking declared).1) :
    ∃ original ∈ declared, ∃ entries, candidate = completedBy entries original := by
  induction declared generalizing invoking with
  | nil => simp [complete] at member
  | cons original rest ih =>
      rw [complete_cons] at member
      rcases List.mem_cons.mp member with same | later
      · exact ⟨original, List.mem_cons_self, invoking, same⟩
      · obtain ⟨other, known, entries, same⟩ := ih later
        exact ⟨other, List.mem_cons_of_mem original known, entries, same⟩

theorem sublist_complete (invoking : List Spanned) (declared : List Candidate) :
    (complete invoking declared).2.Sublist invoking := by
  induction declared generalizing invoking with
  | nil => exact List.Sublist.refl invoking
  | cons candidate rest ih =>
      rw [complete_cons]
      exact (ih _).trans (Assoc.sublist_drop _ _)

/-- An entry by span is a candidate with its own span. -/
theorem mem_bySpan {candidates : List Candidate} {entry : Spanned}
    (member : entry ∈ bySpan candidates) :
    entry.2 ∈ candidates ∧ entry.1 = entry.2.node.span := by
  obtain ⟨candidate, known, rfl⟩ := List.mem_map.mp (Assoc.mem_of_mem_ofList member)
  exact ⟨known, rfl⟩

theorem join_def (declared invoking : List Candidate) :
    join declared invoking =
      Stable.sortOn (fun candidate => candidate.node.startByte)
        ((complete (bySpan invoking) declared).1 ++
          (complete (bySpan invoking) declared).2.map Prod.snd) := rfl

/-- Every candidate that competes for a name is read off a function of the file. -/
theorem exists_of_mem_join {root : Node} {candidate : Candidate}
    (member : candidate ∈ join (attributeHarnesses root) (invocationHarnesses root)) :
    ∃ item ∈ functionsOf root, ReadOff candidate item := by
  rw [join_def, Stable.mem_sortOn] at member
  rcases List.mem_append.mp member with completed | left
  · obtain ⟨original, known, entries, rfl⟩ := mem_complete completed
    obtain ⟨item, itemMem, readOff, -⟩ := exists_of_mem_attributeHarnesses known
    exact ⟨item, itemMem, readOff.completedBy entries⟩
  · obtain ⟨entry, known, rfl⟩ := List.mem_map.mp left
    exact exists_of_mem_invocationHarnesses
      (mem_bySpan ((sublist_complete _ _).subset known)).1

/-- Every candidate that keeps its name is read off a function of the file. -/
theorem exists_of_mem_winners_readOff {root : Node} {candidate : Candidate}
    (member : candidate ∈ winners root) :
    ∃ item ∈ functionsOf root, ReadOff candidate item := by
  rw [mem_winners] at member
  exact exists_of_mem_join (List.mem_filter.mp (mem_of_best? member)).1

end HarnessIndex.Harness
