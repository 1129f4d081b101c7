import HarnessIndex.Text.Blank

/-!
# Loading the grammar once

Many callers share one slot for the grammar. A caller first looks into the slot without the lock; if
it is empty, the caller takes the lock, looks again, and loads the grammar if the slot is still
empty. Resetting empties the slot under the lock. The moves below are the single steps of these
calls, and callers may make them in any order.
-/

namespace HarnessIndex.Grammar.Flight

abbrev Caller := Nat

/-- A loaded grammar, by the number of loads that had succeeded before. -/
abbrev Loaded := Nat

/-- Where a caller is. -/
inductive Phase where
  /-- Outside of every call. -/
  | idle
  /-- Asked to wait until the grammar is at hand, and about to look whether it is. -/
  | peeking
  /-- About to look into the slot without the lock. -/
  | looking
  /-- Waiting for the lock, having seen an empty slot. -/
  | waiting
  /-- Has the lock and is about to look again. -/
  | holding
  /-- Has the lock and is loading. -/
  | loading
  /-- Has the lock and a loaded grammar that is not in the slot yet. -/
  | storing (grammar : Loaded)
  /-- Has the lock and is about to give it back and return what is in the slot. -/
  | leaving
  /-- Has the lock after a load that failed. -/
  | failing
  /-- The call has returned. -/
  | returned (result : Option Loaded)
  /-- The call has failed. -/
  | failed
  /-- Waiting for the lock in order to empty the slot. -/
  | resetWaiting
  /-- Has the lock and is about to empty the slot. -/
  | resetHolding
  /-- Has the lock and has emptied the slot. -/
  | resetLeaving
  deriving DecidableEq, Repr, Inhabited

namespace Phase

/-- Whether a caller is outside of every call. -/
def isOutside : Phase → Bool
  | idle => true
  | returned _ => true
  | failed => true
  | _ => false

def hasLock : Phase → Bool
  | holding => true
  | loading => true
  | storing _ => true
  | leaving => true
  | failing => true
  | resetHolding => true
  | resetLeaving => true
  | _ => false

end Phase

/-- The shared state: the slot, who has the lock, where the callers are, and how many loads have
succeeded and resets have been completed. -/
structure State where
  slot : Option Loaded
  holder : Option Caller
  phase : Caller → Phase
  loads : Nat
  resets : Nat

/-- A single step of a caller. -/
inductive Move where
  | get
  | ensure
  | reset
  | peek
  | look
  | acquire
  | lookAgain
  | loadSucceeds
  | loadFails
  | store
  | empty
  | release
  deriving DecidableEq, Repr, Inhabited

namespace State

/-- Nobody has called yet. -/
def initial : State :=
  ⟨none, none, fun _ => .idle, 0, 0⟩

/-- Put a caller somewhere. -/
def place (state : State) (caller : Caller) (phase : Phase) : State :=
  { state with phase := fun other => if other = caller then phase else state.phase other }

/-- Put a caller somewhere and take the lock for it. -/
def lockFor (state : State) (caller : Caller) (phase : Phase) : State :=
  { state.place caller phase with holder := some caller }

/-- Put a caller somewhere and give the lock back. -/
def unlockFor (state : State) (caller : Caller) (phase : Phase) : State :=
  { state.place caller phase with holder := none }

/-- The state after a step of a caller, if the caller can make it. -/
def move? (state : State) (caller : Caller) (move : Move) : Option State :=
  match move, state.phase caller with
  | .peek, .peeking => some (state.place caller .looking)
  | .look, .looking =>
      match state.slot with
      | some grammar => some (state.place caller (.returned (some grammar)))
      | none => some (state.place caller .waiting)
  | .acquire, .waiting =>
      if state.holder.isNone then some (state.lockFor caller .holding) else none
  | .acquire, .resetWaiting =>
      if state.holder.isNone then some (state.lockFor caller .resetHolding) else none
  | .lookAgain, .holding =>
      match state.slot with
      | some _ => some (state.place caller .leaving)
      | none => some (state.place caller .loading)
  | .loadSucceeds, .loading =>
      some { state.place caller (.storing state.loads) with loads := state.loads + 1 }
  | .loadFails, .loading => some (state.place caller .failing)
  | .store, .storing grammar => some { state.place caller .leaving with slot := some grammar }
  | .empty, .resetHolding => some { state.place caller .resetLeaving with slot := none }
  | .release, .leaving => some (state.unlockFor caller (.returned state.slot))
  | .release, .failing => some (state.unlockFor caller .failed)
  | .release, .resetLeaving =>
      some { state.unlockFor caller .idle with resets := state.resets + 1 }
  | .get, phase => if phase.isOutside then some (state.place caller .looking) else none
  | .ensure, phase => if phase.isOutside then some (state.place caller .peeking) else none
  | .reset, phase => if phase.isOutside then some (state.place caller .resetWaiting) else none
  | _, _ => none

/-- The state after some steps, if all of them can be made. -/
def run? (state : State) : List (Caller × Move) → Option State
  | [] => some state
  | (caller, move) :: rest => (state.move? caller move).bind fun next => next.run? rest

@[simp] theorem run?_nil (state : State) : state.run? [] = some state := rfl

@[simp] theorem run?_cons (state : State) (caller : Caller) (move : Move)
    (rest : List (Caller × Move)) :
    state.run? ((caller, move) :: rest) =
      (state.move? caller move).bind fun next => next.run? rest := rfl

@[simp] theorem place_phase_self (state : State) (caller : Caller) (phase : Phase) :
    (state.place caller phase).phase caller = phase := by
  simp [place]

end State

end HarnessIndex.Grammar.Flight
