import HarnessIndex.Grammar.Registry
import HarnessIndex.Log.State
import HarnessIndex.Settings.Load
import HarnessIndex.Text.Path

/-!
# What a run does

A run is a script of acts, one after the other: it looks for the next source, reads a file, binds
the log to a source, analyses it, lets go of it, reports events and prints results. Performing a
script gives what is written, and where. A script ends in a status, or it is cut short.
-/

namespace HarnessIndex.Command

open Settings Grammar

/-- One thing that a run does. -/
inductive Act where
  | search
  | read (path : Path)
  | bind (source : Path)
  | findHarnesses (path : Path)
  | findTests (path : Path)
  | clear
  | report (event : Event)
  | print (text : Text)
  deriving DecidableEq, Repr, Inhabited

/-- A way in which a run breaks down. -/
inductive Breakdown where
  | settingsUnreadable (path reason : Text)
  | settingsAreNoText (path : Text)
  | unreadFile (path reason : Text)
  | badVariable (sectionName : Text)
  | otherKey (key : Text)
  | abandoned (reason : Text)
  | unwritable (field : Text)
  | unmatchedTag
  deriving DecidableEq, Repr, Inhabited

def Breakdown.message : Breakdown → Text
  | settingsUnreadable path reason => "Cannot read the settings at " ++ path ++ ": " ++ reason
  | settingsAreNoText path => "The settings at " ++ path ++ " are no UTF-8 text"
  | unreadFile path reason => "Cannot read the settings at " ++ path ++ ": " ++ reason
  | badVariable sectionName => Settings.Trouble.variableText sectionName
  | otherKey key => "The key " ++ key ++ " of the settings is no text"
  | abandoned reason => reason
  | unwritable field => "The value of " ++ field ++ " has a number with too many digits"
  | unmatchedTag => "A closing tag in a table does not match any opening one"

/-- Why a script is cut short. -/
inductive Stop where
  | refused (message : Text)
  | brokenDown (breakdown : Breakdown)
  deriving DecidableEq, Repr, Inhabited

/-- How far a run has come: the grammar at hand and what has been done. -/
structure Progress where
  registry : Registry
  acts : List Act
  deriving Inhabited

abbrev Run := ExceptT Stop (StateM Progress)

namespace Run

/-- Do one thing. -/
def act (next : Act) : Run Unit :=
  modify fun progress => { progress with acts := progress.acts ++ [next] }

/-- Do several things. -/
def acts : List Act → Run Unit
  | [] => pure ()
  | next :: rest => do
      act next
      acts rest

/-- Cut the script short. -/
def stop {α : Type} (reason : Stop) : Run α :=
  throw reason

/-- Do something with the grammar, and report what happens. -/
def analyse {α : Type} (next : Act) (use : Registry → Outcome α) : Run α := do
  act next
  let outcome := use (← get).registry
  modify fun progress => { progress with registry := outcome.registry }
  acts (outcome.events.map .report)
  match outcome.result with
  | .ok value => return value
  | .error failure => stop (.refused failure.text)

/-- Do something while a source is bound, and let go of it however that ends. -/
def bound {α : Type} (source : Path) (body : Run α) : Run α := do
  act (.bind source)
  try body finally act .clear

/-- The acts of a run that begins with a registry, and how it ends. -/
def script {α : Type} (registry : Registry) (body : Run α) : Except Stop α × List Act :=
  let (result, progress) := (ExceptT.run body).run ⟨registry, []⟩
  (result, progress.acts)

end Run

def Act.logStep? : Act → Option Log.Step
  | .bind source => some (.bind source.toText)
  | .clear => some .clear
  | .report event => some (.tell (.ofEvent event))
  | _ => none

def Act.logAfter (log : Log.State) (next : Act) : Log.State :=
  match next.logStep? with
  | some step => log.after step
  | none => log

/-- Something that is written somewhere. -/
abbrev Writing := Destination × Text

def deliveryWriting (stamp : Text) (delivery : Log.Delivery) : Writing :=
  (delivery.output.destination, delivery.line stamp ++ ['\n'])

def Act.writings (stamp : Text) (log : Log.State) : Act → List Writing
  | .print text => [(.stdout, text)]
  | .report event => (log.deliver (.ofEvent event)).map (deliveryWriting stamp)
  | _ => []

/-- What acts write, in order, when the log is in some state. -/
def perform (stamp : Text) (log : Log.State) : List Act → List Writing
  | [] => []
  | next :: rest => next.writings stamp log ++ perform stamp (next.logAfter log) rest

/-- The source that is bound after an act, when one may be bound before. -/
def Act.boundAfter (source : Option Text) : Act → Option Text
  | .bind path => some path.toText
  | .clear => none
  | _ => source

/-- The source that is bound after some acts. -/
def boundAfter (source : Option Text) (acts : List Act) : Option Text :=
  acts.foldl Act.boundAfter source

@[simp] theorem perform_nil (stamp : Text) (log : Log.State) : perform stamp log [] = [] := rfl

@[simp] theorem boundAfter_nil (source : Option Text) : boundAfter source [] = source := rfl

@[simp] theorem boundAfter_cons (source : Option Text) (next : Act) (rest : List Act) :
    boundAfter source (next :: rest) = boundAfter (next.boundAfter source) rest := rfl

end HarnessIndex.Command
