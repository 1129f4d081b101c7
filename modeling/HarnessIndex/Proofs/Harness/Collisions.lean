import HarnessIndex.Proofs.Harness.Choosing

/-!
# What is reported while names are chosen

Every candidate that meets the holder of its name fights one duel with it, and the one that loses is
reported at once. A winner may lose a later duel, but nobody who has lost comes back: in the end
each candidate either holds its name or was reported once, and the last winner reported for a name
is the one that holds it.
-/

namespace HarnessIndex.Harness

open Syntax

/-- What a report of a collision tells: the name, and the lines of the function that keeps it and of
the one that is dropped. -/
structure Warning where
  name : Text
  keptLine : Nat
  droppedLine : Nat
  deriving DecidableEq, Repr

/-- The report with this content. -/
def Warning.event (warning : Warning) : Event :=
  .harnessNameCollision warning.name warning.keptLine warning.droppedLine

/-- Two candidates with the same name, of which one keeps it. -/
structure Duel where
  kept : Candidate
  dropped : Candidate
  sameName : dropped.name = kept.name

namespace Duel

def warning (duel : Duel) : Warning where
  name := duel.kept.name
  keptLine := duel.kept.node.startLine
  droppedLine := duel.dropped.node.startLine

/-- The duel of a candidate with the one that holds its name. -/
def between (candidate current : Candidate) (same : current.name = candidate.name) : Duel :=
  if takesOver candidate current then ⟨candidate, current, same⟩
  else ⟨current, candidate, same.symm⟩

variable {candidate current : Candidate} {same : current.name = candidate.name}

theorem kept_between :
    (between candidate current same).kept =
      if takesOver candidate current then candidate else current := by
  rw [between]
  split <;> rfl

theorem kept_name_between : (between candidate current same).kept.name = candidate.name := by
  rw [kept_between]
  split
  · rfl
  · exact same

end Duel

/-- The duels for a name, in the order in which they are fought. -/
def duelsFor (name : Text) (duels : List Duel) : List Duel :=
  duels.filter fun duel => duel.kept.name = name

theorem duelsFor_append_singleton (name : Text) (duels : List Duel) (duel : Duel) :
    duelsFor name (duels ++ [duel]) =
      if duel.kept.name = name then duelsFor name duels ++ [duel] else duelsFor name duels := by
  rw [duelsFor, List.filter_append, ← duelsFor]
  by_cases same : duel.kept.name = name <;> simp [same]

theorem choose_of_none {choice : Choice} {candidate : Candidate}
    (free : Assoc.get? candidate.name choice.chosen = none) :
    choose choice candidate =
      { choice with chosen := choice.chosen ++ [(candidate.name, candidate)] } := by
  rw [choose, free, Assoc.put_of_notMem (Assoc.get?_eq_none.mp free)]

/-- One more candidate with an opponent fights a duel with it. -/
theorem choose_of_some {choice : Choice} {candidate current : Candidate}
    (holds : Assoc.get? candidate.name choice.chosen = some current)
    (same : current.name = candidate.name) :
    choose choice candidate =
      { chosen :=
          if takesOver candidate current then Assoc.put candidate.name candidate choice.chosen
          else choice.chosen
        collisions :=
          choice.collisions ++ [(Duel.between candidate current same).warning.event] } := by
  rw [choose, holds, Duel.between]
  cases wins : takesOver candidate current with
  | true => exact if_pos wins
  | false => exact if_neg (by simp [wins])

/-- The duels account for the candidates: everyone else holds a name, all but one of those with the
same name are dropped, and the last winner for a name holds it. -/
structure Settles (candidates : List Candidate) (choice : Choice) (duels : List Duel) : Prop where
  reported : choice.collisions = duels.map fun duel => duel.warning.event
  everyone : (duels.map Duel.dropped ++ choice.chosen.map Prod.snd).Perm candidates
  counted : ∀ name, (duelsFor name duels).length = (namesakes name candidates).length - 1
  holder : ∀ name duel, (duelsFor name duels).getLast? = some duel →
    Assoc.get? name choice.chosen = some duel.kept

namespace Settles

theorem start : Settles [] ⟨[], []⟩ [] where
  reported := rfl
  everyone := List.Perm.refl []
  counted _ := rfl
  holder _ _ last := by simp [duelsFor] at last

variable {candidates : List Candidate} {duels : List Duel} {candidate current : Candidate}

/-- Nobody has the name of a candidate without opponent, so nothing is reported. -/
theorem unopposed (settles : Settles candidates (chooseAll candidates) duels)
    (free : Assoc.get? candidate.name (chooseAll candidates).chosen = none) :
    Settles (candidates ++ [candidate]) (choose (chooseAll candidates) candidate) duels where
  reported := by
    rw [choose_of_none free]
    exact settles.reported
  everyone := by
    rw [choose_of_none free, List.map_append, List.map_singleton, ← List.append_assoc]
    exact settles.everyone.append_right [candidate]
  counted name := by
    rw [settles.counted, namesakes_append, namesakes_singleton]
    split
    · rename_i same
      have alone : namesakes name candidates = [] := by
        rw [same, get?_chooseAll] at free
        by_contra some
        obtain ⟨best, found⟩ := exists_best? some
        rw [free] at found
        simp at found
      simp [alone]
    · rw [List.append_nil]
  holder name duel last := by
    have held := settles.holder name duel last
    rw [get?_choose]
    split
    · rename_i same
      rw [same, held] at free
      simp at free
    · exact held

/-- A candidate with an opponent fights one duel, and the winner holds the name. -/
theorem opposed (settles : Settles candidates (chooseAll candidates) duels)
    (holds : Assoc.get? candidate.name (chooseAll candidates).chosen = some current)
    (same : current.name = candidate.name) :
    Settles (candidates ++ [candidate]) (choose (chooseAll candidates) candidate)
      (duels ++ [Duel.between candidate current same]) where
  reported := by
    rw [choose_of_some holds same, settles.reported, List.map_append, List.map_singleton]
  everyone := by
    have exchanged : ((Duel.between candidate current same).dropped ::
        (choose (chooseAll candidates) candidate).chosen.map Prod.snd).Perm
          ((chooseAll candidates).chosen.map Prod.snd ++ [candidate]) := by
      rw [choose_of_some holds same, Duel.between]
      split
      · exact (Assoc.perm_values_put holds candidate).trans (List.perm_append_singleton _ _).symm
      · exact (List.perm_append_singleton _ _).symm
    refine List.Perm.trans ?_ (settles.everyone.append_right [candidate])
    rw [List.map_append, List.map_singleton, List.append_assoc, List.append_assoc]
    exact exchanged.append_left _
  counted name := by
    rw [duelsFor_append_singleton, Duel.kept_name_between, namesakes_append, namesakes_singleton]
    have before := settles.counted name
    split
    · rename_i own
      have some : 0 < (namesakes name candidates).length := by
        rw [own, get?_chooseAll] at holds
        exact List.length_pos_of_mem (mem_of_best? holds)
      simp only [List.length_append, List.length_singleton]
      omega
    · rw [List.append_nil]
      exact before
  holder name duel last := by
    rw [duelsFor_append_singleton, Duel.kept_name_between] at last
    rw [get?_choose]
    split at last
    · rename_i own
      rw [List.getLast?_concat] at last
      rw [if_pos own, ← own, holds, ← Option.some.inj last, Duel.kept_between]
    · rename_i other
      rw [if_neg other]
      exact settles.holder name duel last

end Settles

/-- Whatever names collide, the reports account for all candidates. -/
theorem exists_settles (candidates : List Candidate) :
    ∃ duels, Settles candidates (chooseAll candidates) duels := by
  induction candidates using List.reverseRecOn with
  | nil => exact ⟨[], Settles.start⟩
  | append_singleton candidates candidate ih =>
      obtain ⟨duels, settles⟩ := ih
      rw [chooseAll_append_singleton]
      cases holder : Assoc.get? candidate.name (chooseAll candidates).chosen with
      | none => exact ⟨duels, settles.unopposed holder⟩
      | some current =>
          have same := (mem_chooseAll (Assoc.mem_of_get? holder)).2
          exact ⟨_, settles.opposed holder same.symm⟩

end HarnessIndex.Harness
