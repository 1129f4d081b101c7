import HarnessIndex.Command.Commands
import HarnessIndex.Command.Usage

/-!
# The program

A run from its command line to its outcome: the front of the command line, the settings, the
arguments of the command, and the command itself, each of which can end the run.
-/

namespace HarnessIndex.Command

open Files Settings

/-- What comes of a run: its status, what it has written, and how it broke down, if it did. -/
structure Outcome where
  status : Nat
  written : List Writing
  breakdown : Option Breakdown
  deriving Inhabited

namespace Outcome

/-- A run that only prints. -/
def printed (text : Text) : Outcome :=
  ⟨0, [(.stdout, text)], none⟩

/-- A run that was misused. -/
def misused (text : Text) : Outcome :=
  ⟨2, [(.stderr, text)], none⟩

/-- A run that stopped after it had written something. -/
def stopped (written : List Writing) : Stop → Outcome
  | .refused message => ⟨1, written ++ [(.stderr, "Error: " ++ message ++ "\n")], none⟩
  | .brokenDown breakdown => ⟨1, written, some breakdown⟩

end Outcome

/-- The path that a command is given, as it is written. A scan looks at the current directory
otherwise. -/
def givenPath? (name : Name) (words : List Text) : Option Text :=
  match words.head? with
  | some word => some word
  | none => if name.wantsDirectory then some ['.'] else none

/-- The path and the entry that a command looks at. -/
def target (place : Place) (name : Name) (words : List Text) : Except Misuse (Path × Entry) :=
  match givenPath? name words with
  | none => .error .missingPath
  | some written =>
      match place.entry? written with
      | none => .error (.noSuchPath written)
      | some .dangling => .error (.noSuchPath written)
      | some entry =>
          if name.wantsDirectory && !entry.isDirectory then .error (.isFile written)
          else if !name.wantsDirectory && entry.isDirectory then .error (.isDirectory written)
          else
            match words.drop 1 with
            | [] => .ok (Path.ofText written, entry)
            | first :: rest => .error (.extraArguments first rest)

def command (place : Place) (settings : Config) (name : Name) (json : Bool)
    (path : Path) (entry : Entry) : Run Nat :=
  match name with
  | .check => check place path
  | .harnesses => harnesses place json path
  | .playback => playback place json path
  | .scan => scan place settings.scan json path entry

def withDetails (settings : Config) : Config :=
  { settings with logging := { settings.logging with level := .debug } }

def runScript (place : Place) (stamp : Text) (settings : Config) (script : Run Nat) : Outcome :=
  let (result, acts) := script.script (.fresh place.package)
  let written := perform stamp (Log.State.initial.after (.configure settings.logging)) acts
  match result with
  | .ok status => ⟨status, written, none⟩
  | .error reason => .stopped written reason

def runCommand (place : Place) (stamp : Text) (settings : Config) (name : Name)
    (arguments : List Text) : Outcome :=
  match readInvocation name arguments with
  | .error misuse => .misused (misuseText place.program (some name) misuse)
  | .ok invocation =>
      if invocation.help then .printed (helpPage place.program (some name))
      else
        match target place name invocation.words with
        | .error misuse => .misused (misuseText place.program (some name) misuse)
        | .ok (path, entry) =>
            runScript place stamp settings
              (command place settings name invocation.json path entry)

/-- Run the program. The time stamp goes into the lines of the log. -/
def run (place : Place) (stamp : Text) (arguments : List Text) : Outcome :=
  if arguments.isEmpty then .misused (helpPage place.program none)
  else
    match readRequest arguments with
    | .error misuse => .misused (misuseText place.program none misuse)
    | .ok .help => .printed (helpPage place.program none)
    | .ok .version => .printed (versionLine ++ ['\n'])
    | .ok (.run verbose name rest) =>
        match place.settings with
        | .error reason => .stopped [] reason
        | .ok settings =>
            runCommand place stamp (if verbose then withDetails settings else settings) name rest

end HarnessIndex.Command
