import HarnessIndex.Grammar.Flight
import Mathlib.Data.List.Basic

/-!
# One load at a time

Whatever callers do and in whatever order, at most one of them loads the grammar, a call returns
only a grammar that has been loaded, and a further load succeeds only after a completed reset. A
load that fails leaves nothing behind, so the next call loads again.

A caller in a phase can rely on something of the state (`Fits`), and no step of another caller takes
it away: whoever has the lock is alone in changing the slot. The account of the loads is kept by
`Unsettled`, which tells whether a load is not made up for by a reset yet.
-/

namespace HarnessIndex.Grammar.Flight

/-! ## What a step does -/

/-- What a step of a caller does, and what it asks of the state. -/
inductive Step (state : State) (caller : Caller) : Move → State → Prop where
  | get : (state.phase caller).isOutside = true →
      Step state caller .get (state.place caller .looking)
  | ensure : (state.phase caller).isOutside = true →
      Step state caller .ensure (state.place caller .peeking)
  | reset : (state.phase caller).isOutside = true →
      Step state caller .reset (state.place caller .resetWaiting)
  | peek : state.phase caller = .peeking → Step state caller .peek (state.place caller .looking)
  | lookFull {grammar : Loaded} : state.phase caller = .looking → state.slot = some grammar →
      Step state caller .look (state.place caller (.returned (some grammar)))
  | lookEmpty : state.phase caller = .looking → state.slot = none →
      Step state caller .look (state.place caller .waiting)
  | acquire : state.phase caller = .waiting → state.holder = none →
      Step state caller .acquire (state.lockFor caller .holding)
  | acquireReset : state.phase caller = .resetWaiting → state.holder = none →
      Step state caller .acquire (state.lockFor caller .resetHolding)
  | lookAgainFull {grammar : Loaded} : state.phase caller = .holding →
      state.slot = some grammar → Step state caller .lookAgain (state.place caller .leaving)
  | lookAgainEmpty : state.phase caller = .holding → state.slot = none →
      Step state caller .lookAgain (state.place caller .loading)
  | loadSucceeds : state.phase caller = .loading →
      Step state caller .loadSucceeds
        { state.place caller (.storing state.loads) with loads := state.loads + 1 }
  | loadFails : state.phase caller = .loading →
      Step state caller .loadFails (state.place caller .failing)
  | store {grammar : Loaded} : state.phase caller = .storing grammar →
      Step state caller .store { state.place caller .leaving with slot := some grammar }
  | empty : state.phase caller = .resetHolding →
      Step state caller .empty { state.place caller .resetLeaving with slot := none }
  | release : state.phase caller = .leaving →
      Step state caller .release (state.unlockFor caller (.returned state.slot))
  | releaseFailed : state.phase caller = .failing →
      Step state caller .release (state.unlockFor caller .failed)
  | releaseReset : state.phase caller = .resetLeaving →
      Step state caller .release { state.unlockFor caller .idle with resets := state.resets + 1 }

theorem step_of_move? {state next : State} {caller : Caller} {move : Move}
    (moved : state.move? caller move = some next) : Step state caller move next := by
  unfold State.move? at moved
  split at moved
  next phase =>
    cases moved
    exact .peek phase
  next phase =>
    split at moved
    next grammar full =>
      cases moved
      exact .lookFull phase full
    next empty =>
      cases moved
      exact .lookEmpty phase empty
  next phase =>
    split at moved
    next free =>
      cases moved
      exact .acquire phase (Option.isNone_iff_eq_none.mp free)
    next => cases moved
  next phase =>
    split at moved
    next free =>
      cases moved
      exact .acquireReset phase (Option.isNone_iff_eq_none.mp free)
    next => cases moved
  next phase =>
    split at moved
    next grammar full =>
      cases moved
      exact .lookAgainFull phase full
    next empty =>
      cases moved
      exact .lookAgainEmpty phase empty
  next phase =>
    cases moved
    exact .loadSucceeds phase
  next phase =>
    cases moved
    exact .loadFails phase
  next grammar phase =>
    cases moved
    exact .store phase
  next phase =>
    cases moved
    exact .empty phase
  next phase =>
    cases moved
    exact .release phase
  next phase =>
    cases moved
    exact .releaseFailed phase
  next phase =>
    cases moved
    exact .releaseReset phase
  next =>
    split at moved
    next outside =>
      cases moved
      exact .get outside
    next => cases moved
  next =>
    split at moved
    next outside =>
      cases moved
      exact .ensure outside
    next => cases moved
  next =>
    split at moved
    next outside =>
      cases moved
      exact .reset outside
    next => cases moved
  next => cases moved

variable {state next : State} {caller other : Caller} {move : Move}

theorem Step.phase_of_ne (step : Step state caller move next) (different : other ≠ caller) :
    next.phase other = state.phase other := by
  cases step <;> simp [State.place, State.lockFor, State.unlockFor, different]

theorem Step.loads_eq (step : Step state caller move next) :
    next.loads = state.loads + if move = .loadSucceeds then 1 else 0 := by
  cases step <;> rfl

/-! ## What callers can rely on -/

namespace Phase

/-- Whether a caller has a load on its account: one that is not in the slot yet, or one that it has
taken out of the slot in a reset that is not completed. -/
def owesLoad : Phase → Bool
  | storing _ => true
  | resetLeaving => true
  | _ => false

theorem hasLock_of_owesLoad {phase : Phase} (owes : phase.owesLoad = true) :
    phase.hasLock = true := by
  cases phase <;> simp_all [owesLoad, hasLock]

theorem owesLoad_of_isOutside {phase : Phase} (outside : phase.isOutside = true) :
    phase.owesLoad = false := by
  cases phase <;> simp_all [isOutside, owesLoad]

end Phase

namespace State

/-- What the state is like as long as a caller is in a phase. -/
def Fits (state : State) (caller : Caller) : Phase → Prop
  | .holding => state.holder = some caller
  | .loading => state.holder = some caller ∧ state.slot = none
  | .storing grammar => state.holder = some caller ∧ state.slot = none ∧ grammar < state.loads
  | .leaving => state.holder = some caller ∧ state.slot ≠ none
  | .failing => state.holder = some caller ∧ state.slot = none
  | .resetHolding => state.holder = some caller
  | .resetLeaving => state.holder = some caller ∧ state.slot = none
  | .returned result => ∃ grammar, result = some grammar ∧ grammar < state.loads
  | _ => True

/-- Some load is not made up for by a completed reset: its grammar is in the slot, or it is on the
account of a caller. -/
def Unsettled (state : State) : Prop :=
  state.slot ≠ none ∨ ∃ caller, (state.phase caller).owesLoad = true

/-- What holds of every state that callers can bring about. -/
structure Consistent (state : State) : Prop where
  fits : ∀ caller, state.Fits caller (state.phase caller)
  stored : ∀ grammar, state.slot = some grammar → grammar < state.loads
  accounted : state.loads ≤ state.resets ∨ state.loads ≤ state.resets + 1 ∧ state.Unsettled

theorem Fits.holder {phase : Phase} (fits : state.Fits caller phase)
    (locked : phase.hasLock = true) : state.holder = some caller := by
  cases phase <;> simp_all [Fits, Phase.hasLock]

/-- A caller keeps what it relies on as long as the lock and the slot stay as they are while it has
the lock, and no load is forgotten. -/
theorem Fits.mono {phase : Phase} (fits : state.Fits caller phase)
    (kept : phase.hasLock = true → next.holder = state.holder ∧ next.slot = state.slot)
    (grows : state.loads ≤ next.loads) : next.Fits caller phase := by
  cases phase with
  | storing grammar =>
      obtain ⟨holder, slot⟩ := kept rfl
      obtain ⟨holds, empty, known⟩ := fits
      exact ⟨holder.trans holds, slot.trans empty, Nat.lt_of_lt_of_le known grows⟩
  | returned result =>
      obtain ⟨grammar, given, known⟩ := fits
      exact ⟨grammar, given, Nat.lt_of_lt_of_le known grows⟩
  | _ => simp_all [Fits, Phase.hasLock]

namespace Consistent

/-- The lock is with one caller only. -/
theorem exclusive (consistent : Consistent state) {first second : Caller}
    (firstLocked : (state.phase first).hasLock = true)
    (secondLocked : (state.phase second).hasLock = true) : first = second := by
  have holds := (consistent.fits first).holder firstLocked
  rw [(consistent.fits second).holder secondLocked] at holds
  exact (Option.some.inj holds).symm

/-- A step of a caller without the lock takes nothing away from the one who has it. -/
theorem kept (consistent : Consistent state) (step : Step state caller move next)
    (different : other ≠ caller) (locked : (state.phase other).hasLock = true) :
    next.holder = state.holder ∧ next.slot = state.slot := by
  have alone : (state.phase caller).hasLock = false := by
    rw [← Bool.not_eq_true]
    intro also
    exact different (consistent.exclusive locked also)
  have holds := (consistent.fits other).holder locked
  cases step
  case acquire free | acquireReset free => simp [holds] at free
  all_goals simp_all [place, Phase.hasLock]

theorem fits_self (consistent : Consistent state) (step : Step state caller move next) :
    next.Fits caller (next.phase caller) := by
  have fits := consistent.fits caller
  cases step with
  | lookFull phase full => simp [place, Fits, consistent.stored _ full]
  | lookAgainFull phase full => simp_all [place, Fits]
  | release phase =>
      rw [phase] at fits
      obtain ⟨grammar, full⟩ := Option.ne_none_iff_exists'.mp fits.2
      simp [unlockFor, place, Fits, full, consistent.stored _ full]
  | _ => simp_all [place, lockFor, unlockFor, Fits]

theorem fits_step (consistent : Consistent state) (step : Step state caller move next)
    (other : Caller) : next.Fits other (next.phase other) := by
  by_cases same : other = caller
  · subst same
    exact consistent.fits_self step
  · rw [step.phase_of_ne same]
    refine (consistent.fits other).mono (consistent.kept step same) ?_
    rw [step.loads_eq]
    exact Nat.le_add_right _ _

theorem stored_step (consistent : Consistent state) (step : Step state caller move next)
    {grammar : Loaded} (full : next.slot = some grammar) : grammar < next.loads := by
  have known := consistent.stored grammar
  have fits := consistent.fits caller
  cases step with
  | loadSucceeds phase => exact Nat.lt_succ_of_lt (known full)
  | store phase =>
      rw [phase] at fits
      cases full
      exact fits.2.2
  | empty phase => cases full
  | _ => exact known full

theorem settled_of_loading (consistent : Consistent state) (phase : state.phase caller = .loading) :
    state.loads ≤ state.resets := by
  have fits := consistent.fits caller
  rw [phase] at fits
  rcases consistent.accounted with settled | ⟨-, full | ⟨other, owes⟩⟩
  · exact settled
  · exact absurd fits.2 full
  · have same : other = caller :=
      consistent.exclusive (Phase.hasLock_of_owesLoad owes) (by rw [phase]; rfl)
    rw [same, phase] at owes
    cases owes

/-- A caller that moves without a load on its account leaves the account as it is. -/
theorem unsettled_step (step : Step state caller move next)
    (free : (state.phase caller).owesLoad = false) (slot : next.slot = state.slot)
    (unsettled : state.Unsettled) : next.Unsettled := by
  rcases unsettled with full | ⟨other, owes⟩
  · exact .inl (slot ▸ full)
  · refine .inr ⟨other, ?_⟩
    have different : other ≠ caller := by
      rintro rfl
      rw [free] at owes
      cases owes
    rw [step.phase_of_ne different]
    exact owes

theorem loads_le (consistent : Consistent state) : state.loads ≤ state.resets + 1 :=
  consistent.accounted.elim Nat.le_succ_of_le And.left

theorem accounted_step (consistent : Consistent state) (step : Step state caller move next) :
    next.loads ≤ next.resets ∨ next.loads ≤ next.resets + 1 ∧ next.Unsettled := by
  have account := consistent.accounted
  have unsettled := unsettled_step step
  cases step with
  | loadSucceeds phase =>
      refine .inr ⟨Nat.succ_le_succ (consistent.settled_of_loading phase), .inr ⟨caller, ?_⟩⟩
      exact congrArg Phase.owesLoad (place_phase_self state caller _)
  | store phase => exact .inr ⟨consistent.loads_le, .inl (Option.some_ne_none _)⟩
  | empty phase =>
      refine .inr ⟨consistent.loads_le, .inr ⟨caller, ?_⟩⟩
      exact congrArg Phase.owesLoad (place_phase_self state caller _)
  | releaseReset phase => exact .inl consistent.loads_le
  | get outside | ensure outside | reset outside =>
      exact account.imp_right
        (And.imp_right (unsettled (Phase.owesLoad_of_isOutside outside) rfl))
  | _ phase => exact account.imp_right (And.imp_right (unsettled (by rw [phase]; rfl) rfl))

/-- Every step keeps the state consistent. -/
theorem step (consistent : Consistent state) (step : Step state caller move next) :
    Consistent next where
  fits := consistent.fits_step step
  stored _ := consistent.stored_step step
  accounted := consistent.accounted_step step

/-- Every run keeps the state consistent. -/
theorem run {steps : List (Caller × Move)} (consistent : Consistent state)
    (run : state.run? steps = some next) : Consistent next := by
  induction steps generalizing state with
  | nil =>
      cases run
      exact consistent
  | cons first rest ih =>
      obtain ⟨middle, moved, run⟩ := Option.bind_eq_some_iff.mp run
      exact ih (consistent.step (step_of_move? moved)) run

end Consistent

theorem consistent_initial : Consistent initial where
  fits _ := trivial
  stored _ full := nomatch full
  accounted := .inl (Nat.le_refl 0)

end State

/-! ## The loads of a run -/

/-- How many loads succeed in some steps. -/
def successes (steps : List (Caller × Move)) : Nat :=
  steps.countP fun step => step.2 = .loadSucceeds

def LoadedIn (steps : List (Caller × Move)) (grammar : Loaded) : Prop :=
  ∃ before caller after, steps = before ++ (caller, .loadSucceeds) :: after ∧
    successes before = grammar

theorem successes_cons (caller : Caller) (move : Move) (rest : List (Caller × Move)) :
    successes ((caller, move) :: rest) =
      successes rest + if move = .loadSucceeds then 1 else 0 := by
  simp [successes, List.countP_cons]

theorem loads_of_run? {steps : List (Caller × Move)} (run : state.run? steps = some next) :
    next.loads = state.loads + successes steps := by
  induction steps generalizing state with
  | nil =>
      cases run
      rfl
  | cons first rest ih =>
      obtain ⟨caller, move⟩ := first
      obtain ⟨middle, moved, run⟩ := Option.bind_eq_some_iff.mp run
      rw [ih run, (step_of_move? moved).loads_eq, successes_cons, Nat.add_assoc]
      exact congrArg (state.loads + ·) (Nat.add_comm _ _)

/-- Every number below that of the loads belongs to a load. -/
theorem loadedIn_of_lt {steps : List (Caller × Move)} {grammar : Loaded}
    (known : grammar < successes steps) : LoadedIn steps grammar := by
  induction steps generalizing grammar with
  | nil => exact absurd known (Nat.not_lt_zero _)
  | cons first rest ih =>
      obtain ⟨caller, move⟩ := first
      rw [successes_cons] at known
      by_cases load : move = .loadSucceeds
      · subst load
        cases grammar with
        | zero => exact ⟨[], caller, rest, rfl, rfl⟩
        | succ grammar =>
            obtain ⟨before, other, after, rfl, count⟩ := ih (Nat.lt_of_succ_lt_succ known)
            refine ⟨(caller, .loadSucceeds) :: before, other, after, rfl, ?_⟩
            rw [successes_cons, count, if_pos rfl]
      · rw [if_neg load] at known
        obtain ⟨before, other, after, rfl, count⟩ := ih known
        refine ⟨(caller, move) :: before, other, after, rfl, ?_⟩
        rw [successes_cons, count, if_neg load]
        rfl

/-! ## After a load that failed -/

/-- The two calls that ask for the grammar, up to the look into the slot. -/
def calls : List (List Move) :=
  [[.get], [.ensure, .peek]]

/-- What is left of a call that finds the slot empty and loads the grammar. -/
def loadsItself : List Move :=
  [.look, .acquire, .lookAgain, .loadSucceeds, .store, .release]

/-- Whichever call a caller makes, it loads the grammar and returns what it has loaded. -/
def State.LoadsAgain (state : State) (caller : Caller) : Prop :=
  ∀ call ∈ calls, ∃ done,
    state.run? ((call ++ loadsItself).map fun move => (caller, move)) = some done ∧
      done.loads = state.loads + 1 ∧ done.phase caller = .returned (some state.loads)

/-- A caller whose load has failed finds the slot empty. All it can do is to fail and give the lock
back, and then every call loads again. -/
structure State.FailsCleanly (state : State) (caller : Caller) : Prop where
  empty : state.slot = none
  onlyRelease : ∀ move next, state.move? caller move = some next → move = .release
  release : ∃ freed, state.move? caller .release = some freed ∧ freed.phase caller = .failed ∧
    freed.slot = none ∧ freed.holder = none ∧
      ∀ later, (freed.phase later).isOutside = true → freed.LoadsAgain later

theorem loadsAgain (empty : state.slot = none) (free : state.holder = none)
    (outside : (state.phase caller).isOutside = true) : state.LoadsAgain caller := by
  intro call known
  have cases : call = [.get] ∨ call = [.ensure, .peek] := by simpa [calls] using known
  rcases cases with rfl | rfl
  all_goals
    simp [loadsItself, State.move?, State.place, State.lockFor, State.unlockFor, outside, empty,
      free]

theorem failsCleanly (fits : state.Fits caller .failing) (phase : state.phase caller = .failing) :
    state.FailsCleanly caller where
  empty := fits.2
  onlyRelease move next moved := by
    cases step_of_move? moved with
    | release | releaseFailed | releaseReset => rfl
    | get outside | ensure outside | reset outside => simp [phase, Phase.isOutside] at outside
    | _ other => simp [phase] at other
  release := by
    refine ⟨state.unlockFor caller .failed, ?_, ?_, fits.2, rfl, ?_⟩
    · simp [State.move?, phase]
    · exact State.place_phase_self state caller .failed
    · intro later outside
      exact loadsAgain fits.2 rfl outside

/-- At most one caller loads at a time, a call returns only what a load has given, every further
load that succeeds has a completed reset before it, and a load that fails does so cleanly. -/
theorem single_flight {steps : List (Caller × Move)} {state : State}
    (reached : State.initial.run? steps = some state) :
    (∀ first second, state.phase first = .loading → state.phase second = .loading →
        first = second) ∧
      (∀ caller result, state.phase caller = .returned result →
        ∃ grammar, result = some grammar ∧ LoadedIn steps grammar) ∧
      (state.loads = successes steps ∧ state.loads ≤ state.resets + 1) ∧
      (∀ caller next, state.move? caller .loadFails = some next → next.phase caller = .failing) ∧
      ∀ caller, state.phase caller = .failing → state.FailsCleanly caller := by
  have consistent := State.consistent_initial.run reached
  have counted : state.loads = successes steps :=
    (loads_of_run? reached).trans (Nat.zero_add _)
  refine ⟨?_, ?_, ⟨counted, consistent.loads_le⟩, ?_, ?_⟩
  · intro first second firstLoads secondLoads
    exact consistent.exclusive (by rw [firstLoads]; rfl) (by rw [secondLoads]; rfl)
  · intro caller result phase
    have fits := consistent.fits caller
    rw [phase] at fits
    obtain ⟨grammar, given, known⟩ := fits
    exact ⟨grammar, given, loadedIn_of_lt (counted ▸ known)⟩
  · intro caller next moved
    cases step_of_move? moved
    exact State.place_phase_self state caller .failing
  · intro caller phase
    have fits := consistent.fits caller
    rw [phase] at fits
    exact failsCleanly fits phase

/-- Two callers find the slot empty, and the load of the first one fails. -/
def failedOnce : List (Caller × Move) :=
  [(0, .get), (0, .look), (1, .get), (1, .look), (0, .acquire), (0, .lookAgain), (0, .loadFails)]

/-- Then the second one loads, a third one resets, and the first one loads again. -/
def retried : List (Caller × Move) :=
  failedOnce ++
    [(0, .release), (1, .acquire), (1, .lookAgain), (1, .loadSucceeds), (1, .store), (2, .reset),
      (1, .release), (2, .acquire), (2, .empty), (0, .ensure), (2, .release), (0, .peek),
      (0, .look), (0, .acquire), (0, .lookAgain), (0, .loadSucceeds), (0, .store), (0, .release)]

theorem single_flight_retried :
    (∃ state, State.initial.run? failedOnce = some state ∧ state.phase 0 = .failing ∧
        state.FailsCleanly 0) ∧
      ∃ state, State.initial.run? retried = some state ∧
        (state.phase 0 = .returned (some 1) ∧ LoadedIn retried 1) ∧
          (state.phase 1 = .returned (some 0) ∧ LoadedIn retried 0) ∧
            state.loads = 2 ∧ state.resets = 1 ∧ state.loads ≤ state.resets + 1 := by
  constructor
  · refine ⟨_, rfl, rfl, ?_⟩
    obtain ⟨-, -, -, -, fails⟩ := @single_flight failedOnce _ rfl
    exact fails 0 rfl
  · refine ⟨_, rfl, ⟨rfl, ?_⟩, ⟨rfl, ?_⟩, rfl, rfl, ?_⟩
    all_goals obtain ⟨-, given, ⟨-, few⟩, -, -⟩ := @single_flight retried _ rfl
    · obtain ⟨grammar, same, loaded⟩ := given 0 (some 1) rfl
      exact Option.some.inj same ▸ loaded
    · obtain ⟨grammar, same, loaded⟩ := given 1 (some 0) rfl
      exact Option.some.inj same ▸ loaded
    · exact few

end HarnessIndex.Grammar.Flight
