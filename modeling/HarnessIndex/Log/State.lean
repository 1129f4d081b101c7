import HarnessIndex.Log.Line

/-!
# The state of the log

The log has the level from which on its loggers pass messages on, the level from which on it takes
them, its outputs, each with a level of its own, and the file that lines are written to. Settings
set all of these at once and let go of the outputs of earlier settings. Apart from them a source can
be bound, which stays bound when settings change.
-/

namespace HarnessIndex.Log

open Settings

/-- The level from which on an output takes messages that the log has let through. -/
def outputLevel (settings : Logging) (output : Output) : Level :=
  output.level.getD settings.level

/-- An output that is open, with the level from which on it takes messages. -/
structure Channel where
  output : Output
  threshold : Level
  deriving DecidableEq, Repr, Inhabited

/-- The state of the log. -/
structure State where
  loggerLevel : Level
  rootLevel : Level
  channels : List Channel
  file? : Option Text
  source : Option Text
  deriving DecidableEq, Repr, Inhabited

/-- A message on its way to an output, with the source that was bound. -/
structure Delivery where
  output : Output
  message : Message
  bound : Option Text
  deriving Repr, Inhabited

namespace Delivery

/-- The entries that are written, at some time. -/
def entries (delivery : Delivery) (stamp : Text) : List (Text × Value) :=
  delivery.message.entries stamp delivery.bound

/-- The line that is written, at some time. -/
def line (delivery : Delivery) (stamp : Text) : Text :=
  Log.line delivery.output.format (delivery.entries stamp)

end Delivery

/-- One use of the log. -/
inductive Step where
  | configure (settings : Logging)
  | bind (source : Text)
  | clear
  | tell (message : Message)
  deriving Repr, Inhabited

namespace State

/-- The log before it is used: it has no outputs. -/
def initial : State :=
  ⟨.debug, .warning, [], none, none⟩

/-- Open one more output. The first file among the outputs is remembered. -/
def opened (settings : Logging) (state : State) (output : Output) : State :=
  { state with
    channels := state.channels ++ [⟨output, outputLevel settings output⟩]
    file? := state.file?.or output.destination.path? }

/-- Let settings take effect: the outputs of earlier settings and their file are let go of, and the
new outputs are opened one after the other. -/
def configured (state : State) (settings : Logging) : State :=
  settings.outputs.foldl (opened settings)
    { state with
      loggerLevel := settings.level
      rootLevel := settings.level
      channels := []
      file? := none }

/-- Whether a message of a level gets past its logger and the log itself. -/
def letsThrough (state : State) (level : Level) : Bool :=
  state.loggerLevel.rank ≤ level.rank && state.rootLevel.rank ≤ level.rank

/-- Where a message goes. -/
def deliver (state : State) (message : Message) : List Delivery :=
  if state.letsThrough message.level then
    (state.channels.filter fun channel => channel.threshold.rank ≤ message.level.rank).map
      fun channel => ⟨channel.output, message, state.source⟩
  else []

def after (state : State) : Step → State
  | .configure settings => state.configured settings
  | .bind source => { state with source := some source }
  | .clear => { state with source := none }
  | .tell _ => state

def delivered (state : State) : Step → List Delivery
  | .tell message => state.deliver message
  | _ => []

/-- The state after several uses. -/
def afterAll (state : State) (steps : List Step) : State :=
  steps.foldl after state

/-- What several uses deliver, in order. -/
def deliveredAll (state : State) : List Step → List Delivery
  | [] => []
  | step :: rest => state.delivered step ++ (state.after step).deliveredAll rest

@[simp] theorem afterAll_nil (state : State) : state.afterAll [] = state := rfl

@[simp] theorem afterAll_cons (state : State) (step : Step) (rest : List Step) :
    state.afterAll (step :: rest) = (state.after step).afterAll rest := rfl

@[simp] theorem deliveredAll_nil (state : State) : state.deliveredAll [] = [] := rfl

end State

end HarnessIndex.Log
