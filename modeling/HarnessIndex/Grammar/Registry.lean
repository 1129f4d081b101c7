import HarnessIndex.Event
import HarnessIndex.Failure
import HarnessIndex.Grammar.Package

/-!
# The grammar at hand

The grammar is loaded when it is first needed and then kept, whatever package is chosen later, until
the registry is reset. A load that fails is reported and not remembered, so the next need tries
again.
-/

namespace HarnessIndex.Grammar

/-- Which package the grammar is to come from, and whether it is at hand. -/
structure Registry where
  package : Text
  loaded : Bool
  deriving DecidableEq, Repr, Inhabited

/-- What comes of something that needs the grammar: the registry after it, the result, and the
reports made on the way. -/
structure Outcome (α : Type) where
  registry : Registry
  result : Except Failure α
  events : List Event

def loadFailure (package : Text) (defect : Defect) : Failure :=
  .grammarUnavailable (package ++ ": " ++ defect.message)

namespace Registry

/-- A registry that has not been used. -/
def fresh (package : Text) : Registry :=
  ⟨package, false⟩

def initial : Registry :=
  fresh standardName

/-- Choose a package for later loads. -/
def choose (registry : Registry) (package : Text) : Registry :=
  { registry with package }

/-- Let go of the grammar. -/
def reset (registry : Registry) : Registry :=
  { registry with loaded := false }

/-- See that the grammar is at hand. -/
def obtain (registry : Registry) : Outcome Unit :=
  if registry.loaded then ⟨registry, .ok (), []⟩
  else
    match defect? registry.package with
    | none => ⟨{ registry with loaded := true }, .ok (), [.grammarLoaded registry.package]⟩
    | some defect =>
        ⟨registry, .error (loadFailure registry.package defect),
          [.grammarLoadFailed registry.package defect.message]⟩

/-- A grammar at hand is not loaded again. -/
@[simp] theorem obtain_of_loaded {registry : Registry} (loaded : registry.loaded = true) :
    registry.obtain = ⟨registry, .ok (), []⟩ := by
  simp [obtain, loaded]

end Registry

namespace Outcome

variable {α β : Type}

/-- An outcome that needs nothing of the registry. -/
def pure (registry : Registry) (value : α) : Outcome α :=
  ⟨registry, .ok value, []⟩

end Outcome

/-- Do something with the grammar at hand. -/
def withGrammar {α : Type} (registry : Registry) (use : Unit → α × List Event) : Outcome α :=
  let access := registry.obtain
  match access.result with
  | .error failure => ⟨access.registry, .error failure, access.events⟩
  | .ok () =>
      let (value, events) := use ()
      ⟨access.registry, .ok value, access.events ++ events⟩

end HarnessIndex.Grammar
