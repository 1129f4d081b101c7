import HarnessIndex.Proofs.Harness.Hidden

/-!
# What is marked apart is not seen

A function that is marked apart holds no marker where it is declared a harness or where it invokes
an entry point, whatever stands behind these places. So a file with such harnesses only is seen by
chance, for a marker that stands elsewhere.
-/

namespace HarnessIndex.Harness

open Syntax Text Attribute

/-- No marker stands where a conditional attribute wraps the path of a proof attribute. -/
def NoMarkerIn (item : Node) : Prop :=
  ∀ text ∈ item.literalArguments.tail, ∀ descriptor,
    Descriptor.ofText? text item.startLine = some descriptor →
      descriptor.kind.declaresHarness = true →
        ∀ after, startsMarker (writtenPath text ++ after) = false

/-- No marker stands where a call names an entry point. -/
def NoMarkerAt (source : Text) (node : Node) : Prop :=
  ∃ callee stretch, node.calleeNode? = some callee ∧
    stretch? source callee.startByte callee.endByte = some stretch ∧
      startsMarker (stretch.part ++ stretch.after) = false

/-- No marker stands where a function is declared a harness or invokes an entry point. -/
structure Unseen (source : Text) (item : Item) : Prop where
  attributes : ∀ found ∈ item.node.attributes, declaresHarness (classify found) = true →
    NoMarkerIn found
  invokers : ∀ node ∈ invokers item.node, NoMarkerAt source node

/-- A path of a proof attribute that is not spelled as its tokens is no marker. -/
theorem not_startsMarker_of_not_spellsProof {path more : Text}
    (named : withoutBlanks path = proofTokens.flatten ++ more) (broken : ¬ SpellsProof path)
    (after : Text) : startsMarker (path ++ after) = false := by
  rw [Bool.eq_false_iff]
  intro starts
  have known : proofTokens ∈ markers := .head _
  have first : (withoutBlanks (path ++ after)).head? = proofTokens.flatten.head? := by
    rw [withoutBlanks_append, named]
    rfl
  obtain ⟨rest, spells⟩ := spells_of_startsMarker known starts first
  exact broken (spells.front (solid_of_mem_markers _ known) named)

theorem noMarkerIn_of_wrapsBroken {item : Node} (apart : WrapsBroken item) : NoMarkerIn item := by
  intro text member descriptor found declares
  have broken := apart.2 text member descriptor found declares
  rw [kind_of_ofText? found] at declares
  obtain ⟨more, named⟩ : ∃ more,
      withoutBlanks (writtenPath text) = proofTokens.flatten ++ more := by
    rcases name_of_declaresHarness declares with named | named
    · exact ⟨[], named.trans (by decide +kernel)⟩
    · exact ⟨"_for_contract", named.trans (by decide +kernel)⟩
  exact not_startsMarker_of_not_spellsProof named broken

/-- What stands before an exclamation mark is blank or begins a comment. -/
theorem head_of_splitAtBang? {text gap following : Text}
    (found : splitAtBang? 0 text = some (gap, following)) (comment : gap.all isBlank = false) :
    (withoutBlanks gap).head? = some '/' := by
  induction text generalizing gap with
  | nil => simp [splitAtBang?] at found
  | cons c rest ih =>
      rw [splitAtBang?] at found
      split at found
      · obtain ⟨rfl, -⟩ := Prod.mk.inj (Option.some.inj found)
        simp at comment
      · split at found
        · rename_i blank
          obtain ⟨split, inner, same⟩ := Option.map_eq_some_iff.mp found
          obtain ⟨rfl, rfl⟩ := Prod.mk.inj same
          rw [List.all_cons, blank, Bool.true_and] at comment
          rw [withoutBlanks_cons_blank blank]
          exact ih inner comment
        · rename_i solid
          split at found
          · simp at found
          · rename_i kind size begins
            obtain ⟨split, -, same⟩ := Option.map_eq_some_iff.mp found
            obtain ⟨rfl, rfl⟩ := Prod.mk.inj same
            rw [withoutBlanks_cons_solid (by simpa using solid), List.head?_cons]
            unfold Reader.commentLength? at begins
            split at begins <;> simp_all

theorem noMarkerAt_of_bangApart {source : Text} {node : Node} (same : node.source = .ofText source)
    (apart : BangApart source node) : NoMarkerAt source node := by
  obtain ⟨-, called, callee, gap, following, known, bang, comment⟩ := apart
  obtain ⟨stretch, found, bang⟩ := Option.bind_eq_some_iff.mp bang
  have text : callee.text = stretch.part := by
    rw [Node.text, (Node.standsIn_of_calleeNode? known).1, same]
    exact slice_of_stretch? found
  have named : withoutBlanks stretch.part = "check" := by
    obtain ⟨target, targeted, spelled⟩ := Option.bind_eq_some_iff.mp called
    obtain rfl : target = callee := Option.some.inj (targeted.symm.trans known)
    split at spelled
    · rw [← text]
      exact (Node.nonempty?_eq_some.mp spelled).1
    · simp at spelled
  refine ⟨callee, stretch, known, found, ?_⟩
  rw [Bool.eq_false_iff]
  intro starts
  obtain ⟨others, solid⟩ := List.head?_eq_some_iff.mp (head_of_splitAtBang? bang comment)
  have whole : withoutBlanks (stretch.part ++ stretch.after) =
      "check".toList ++ '/' :: (others ++ withoutBlanks ('!' :: following)) := by
    rw [splitAtBang?_eq_some bang, withoutBlanks_append, withoutBlanks_append, named, solid]
    rfl
  have known : bareTokens ∈ markers := .tail _ (.tail _ (.head _))
  obtain ⟨rest, spells⟩ := spells_of_startsMarker known starts (by rw [whole]; rfl)
  have mark := whole.symm.trans (spells.withoutBlanks (solid_of_mem_markers _ known))
  simp [bareTokens] at mark

theorem MarkedApart.unseen {source : Text} {tree : Tree} {item : Item}
    (member : item ∈ functionsOf (.root (.ofText source) tree)) (apart : MarkedApart source item) :
    Unseen source item where
  attributes found attached declares :=
    noMarkerIn_of_wrapsBroken (apart.attributes found attached declares)
  invokers node invoker :=
    noMarkerAt_of_bangApart
      ((mem_invokers invoker).1.1.trans (kind_and_source_of_mem_functionsOf member).2)
      (apart.invokers node invoker)

end HarnessIndex.Harness
