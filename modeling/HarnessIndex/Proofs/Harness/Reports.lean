import HarnessIndex.Proofs.Harness.Collisions
import HarnessIndex.Proofs.Harness.Winners
import HarnessIndex.Proofs.Syntax.Walk
import HarnessIndex.Proofs.Text.Trim

/-!
# The reports of an analysis

The reports of an analysis say what became of every harness of the file. A harness is in the index,
or it lost its name to another one, and then one warning tells where it stands. The last warning for
a name tells where the harness stands that the index keeps.
-/

namespace HarnessIndex.Harness

open Syntax

/-- The function that a candidate was found at. -/
def Candidate.item (candidate : Candidate) : Item :=
  ⟨candidate.node, candidate.modulePath⟩

theorem perm_join {root : Node} (distinct : DistinctSpans root) :
    (join (attributeHarnesses root) (invocationHarnesses root)).Perm
      ((harnessItems root).map candidateOf) := by
  rw [join_eq distinct]
  exact ((Stable.perm_sortOn _ _).trans (List.filter_append_perm _ _)).map candidateOf

theorem length_namesakes_join {root : Node} (distinct : DistinctSpans root) (name : Text) :
    (namesakes name (join (attributeHarnesses root) (invocationHarnesses root))).length =
      (harnessesNamed root name).length := by
  rw [namesakes_join distinct, List.length_map]
  exact ((Stable.perm_sortOn _ _).trans (List.filter_append_perm _ _)).length_eq

/-- A record of an index tells of a function with its name. -/
def TellsOf (entry : Text × Metadata) (item : Item) : Prop :=
  item.node.name? = some entry.1 ∧ Records entry.2 item

/-- A warning tells that a function is dropped. -/
def Warning.Drops (warning : Warning) (item : Item) : Prop :=
  item.node.name? = some warning.name ∧ warning.droppedLine = item.node.startLine

/-- The warnings for a name, in the order in which they are given. -/
def warningsFor (name : Text) (warnings : List Warning) : List Warning :=
  warnings.filter fun warning => warning.name = name

/-- The records of an index and the warnings given on the way account for every harness of a file:
each is told of by one record or dropped by one warning, all but one of those with the same name are
dropped, and the last warning for a name tells the line of the record that the index keeps. -/
structure Accounted (root : Node) (harnesses : Index) (warnings : List Warning) : Prop where
  total : warnings.length + harnesses.length = (harnessItems root).length
  everyone : ∃ kept lost, (kept ++ lost).Perm (harnessItems root) ∧
    List.Forall₂ TellsOf harnesses kept ∧ List.Forall₂ Warning.Drops warnings lost
  dropped : ∀ name,
    (warningsFor name warnings).length = (harnessesNamed root name).length - 1
  last : ∀ name warning, (warningsFor name warnings).getLast? = some warning →
    ∃ record, Assoc.get? name harnesses = some record ∧ warning.keptLine = record.startLine

theorem warningsFor_map (name : Text) (duels : List Duel) :
    warningsFor name (duels.map Duel.warning) = (duelsFor name duels).map Duel.warning := by
  rw [warningsFor, List.filter_map]
  rfl

/-- The index has the record of the candidate that holds a name. -/
theorem get?_collect {root : Node} {name : Text} {candidate : Candidate}
    (holds : Assoc.get? name
      (chooseAll (join (attributeHarnesses root) (invocationHarnesses root))).chosen =
        some candidate) :
    ∃ record, Assoc.get? name (collect root).1 = some record ∧
      record.startLine = candidate.node.startLine := by
  rw [get?_chooseAll] at holds
  have same : candidate.name = name := of_decide_eq_true (List.mem_filter.mp (mem_of_best? holds)).2
  have member : candidate ∈ winners root := by
    rw [mem_winners, same]
    exact holds
  have known : (name, describe (totalProofs root) candidate) ∈ (collect root).1 := by
    rw [collect_entries, ← same]
    exact List.mem_map_of_mem member
  exact ⟨_, (Assoc.get?_eq_some (nodup_keys_collect root)).mpr known, rfl⟩

namespace Settles

variable {root : Node} (distinct : DistinctSpans root) {duels : List Duel}
variable (settles : Settles (join (attributeHarnesses root) (invocationHarnesses root))
  (chooseAll (join (attributeHarnesses root) (invocationHarnesses root))) duels)
include distinct settles

/-- Those that keep their names and those that are dropped are the complete candidates of the
harnesses. -/
theorem perm_candidates :
    (winners root ++ duels.map Duel.dropped).Perm ((harnessItems root).map candidateOf) := by
  refine List.Perm.trans ?_ (settles.everyone.trans (perm_join distinct))
  exact ((Stable.perm_sortOn _ _).append_right _).trans List.perm_append_comm

theorem exists_candidateOf {candidate : Candidate}
    (member : candidate ∈ winners root ++ duels.map Duel.dropped) :
    ∃ item ∈ harnessItems root, candidateOf item = candidate :=
  List.mem_map.mp ((settles.perm_candidates distinct).mem_iff.mp member)

theorem forall₂_tellsOf :
    List.Forall₂ TellsOf (collect root).1 ((winners root).map Candidate.item) := by
  rw [collect_entries, List.forall₂_map_left_iff, List.forall₂_map_right_iff, List.forall₂_same]
  intro candidate member
  obtain ⟨item, known, rfl⟩ :=
    settles.exists_candidateOf distinct (List.mem_append_left _ member)
  exact ⟨name?_of_mem_harnessItems known, records_describe _ item⟩

theorem forall₂_drops :
    List.Forall₂ Warning.Drops (duels.map Duel.warning)
      ((duels.map Duel.dropped).map Candidate.item) := by
  rw [List.map_map, List.forall₂_map_left_iff, List.forall₂_map_right_iff, List.forall₂_same]
  intro duel member
  obtain ⟨item, known, same⟩ := settles.exists_candidateOf distinct
    (List.mem_append_right _ (List.mem_map_of_mem member))
  refine ⟨?_, rfl⟩
  change duel.dropped.node.name? = some duel.kept.name
  rw [← duel.sameName, ← same]
  exact name?_of_mem_harnessItems known

/-- Where no two functions have the same span, the warnings given while names are chosen account
for all harnesses. -/
theorem accounted : Accounted root (collect root).1 (duels.map Duel.warning) where
  total := by
    have lengths := (settles.perm_candidates distinct).length_eq
    rw [List.length_append, List.length_map, List.length_map] at lengths
    rw [collect_entries, List.length_map, List.length_map, Nat.add_comm, lengths]
  everyone := by
    have items := (settles.perm_candidates distinct).map Candidate.item
    rw [List.map_append, List.map_map (f := candidateOf)] at items
    exact ⟨_, _, items.trans (List.Perm.of_eq (List.map_id _)), settles.forall₂_tellsOf distinct,
      settles.forall₂_drops distinct⟩
  dropped name := by
    rw [warningsFor_map, List.length_map, settles.counted, length_namesakes_join distinct]
  last name warning shown := by
    rw [warningsFor_map, List.getLast?_map] at shown
    obtain ⟨duel, final, rfl⟩ := Option.map_eq_some_iff.mp shown
    obtain ⟨record, found, line⟩ := get?_collect (settles.holder name duel final)
    exact ⟨record, found, line.symm⟩

end Settles

/-- What is reported of a source: nothing when it is blank, one failure when the parser gives no
tree, and otherwise whether the tree is malformed, then the warnings, which account for every
harness of the file, then the number of records. -/
theorem index_reports (source : Text) :
    (source.all Text.isBlank = true → ∀ parsed, index source parsed = ([], [])) ∧
    (source.all Text.isBlank = false →
      index source none = ([], [noTree]) ∧
      ∀ tree, DistinctSpans (.root (.ofText source) tree) →
        ∃ warnings, (index source (some (.ofTree (.ofText source) tree))).2 =
            (if 0 < tree.errorCount then [.malformedSource tree.errorCount tree.size] else []) ++
              warnings.map Warning.event ++
              [.harnessesExtracted (index source (some (.ofTree (.ofText source) tree))).1.length] ∧
          Accounted (.root (.ofText source) tree)
            (index source (some (.ofTree (.ofText source) tree))).1 warnings) := by
  constructor
  · intro blank parsed
    rw [index.eq_def, Text.isEmpty_trim, blank, if_pos rfl]
  · intro solid
    refine ⟨by rw [index, Text.isEmpty_trim, solid]; rfl, ?_⟩
    intro tree distinct
    obtain ⟨duels, settles⟩ := exists_settles
      (join (attributeHarnesses (.root (.ofText source) tree))
        (invocationHarnesses (.root (.ofText source) tree)))
    have analysed : index source (some (.ofTree (.ofText source) tree)) =
        ((collect (.root (.ofText source) tree)).1,
          (if 0 < tree.errorCount then [.malformedSource tree.errorCount tree.size] else []) ++
            (duels.map Duel.warning).map Warning.event ++
            [.harnessesExtracted (collect (.root (.ofText source) tree)).1.length]) := by
      have collisions : (collect (.root (.ofText source) tree)).2 =
          (duels.map Duel.warning).map Warning.event := by
        rw [List.map_map]
        exact settles.reported
      rw [index, Text.isEmpty_trim, solid, ← collisions]
      simp
    rw [analysed]
    exact ⟨duels.map Duel.warning, rfl, settles.accounted distinct⟩

/-- A file in which the function that keeps its name at first loses it to a third one. -/
def contested : Text :=
  "fn f(){check!()}\nmod m{fn f(){check!()}}\n#[kani::proof]fn f(){}"

theorem index_reports_contested :
    contested.all Text.isBlank = false ∧
      DistinctSpans (.root (.ofText contested) (Reader.read contested)) ∧
      (index contested (some (.ofTree (.ofText contested) (Reader.read contested)))).2 =
        [.harnessNameCollision "f" 1 2, .harnessNameCollision "f" 3 1, .harnessesExtracted 1] ∧
      ∃ warnings, Accounted (.root (.ofText contested) (Reader.read contested))
        (index contested (some (.ofTree (.ofText contested) (Reader.read contested)))).1
        warnings := by
  have facts : contested.all Text.isBlank = false ∧
      DistinctSpans (.root (.ofText contested) (Reader.read contested)) ∧
      (index contested (some (.ofTree (.ofText contested) (Reader.read contested)))).2 =
        [.harnessNameCollision "f" 1 2, .harnessNameCollision "f" 3 1,
          .harnessesExtracted 1] := by
    decide +kernel
  obtain ⟨solid, distinct, reported⟩ := facts
  obtain ⟨warnings, -, accounted⟩ :=
    ((index_reports contested).2 solid).2 (Reader.read contested) distinct
  exact ⟨solid, distinct, reported, warnings, accounted⟩

end HarnessIndex.Harness
