import HarnessIndex.Text.Blank
import HarnessIndex.Text.Quoted

/-!
# The command line

A command line has options for all commands, the name of a command, and the arguments of that
command, among which its options may stand anywhere. Two dashes by themselves end the options. A
command line that cannot be understood is misused in one of a few ways, and the first one counts.
-/

namespace HarnessIndex.Command

/-- The commands. -/
inductive Name where
  | check
  | harnesses
  | playback
  | scan
  deriving DecidableEq, Repr, Inhabited

namespace Name

def all : List Name :=
  [check, harnesses, playback, scan]

def text : Name → Text
  | check => "check"
  | harnesses => "harnesses"
  | playback => "playback"
  | scan => "scan"

def ofText? (word : Text) : Option Name :=
  all.find? fun name => name.text = word

/-- Whether a command looks at a directory and not at a file. -/
def wantsDirectory : Name → Bool
  | scan => true
  | _ => false

/-- Whether a command can answer in JSON. -/
def hasJson : Name → Bool
  | check => false
  | _ => true

/-- How the path is called in the usage of a command. -/
def pathName : Name → Text
  | scan => "[ROOT]"
  | _ => "PATH"

@[simp] theorem ofText?_text (name : Name) : ofText? name.text = some name := by
  cases name <;> rfl

end Name

/-- How a command line can be misused. -/
inductive Misuse where
  | noSuchOption (option : Text)
  | takesNoValue (option : Text)
  | missingCommand
  | noSuchCommand (word : Text)
  | missingPath
  | noSuchPath (path : Text)
  | isDirectory (path : Text)
  | isFile (path : Text)
  | extraArguments (first : Text) (rest : List Text)
  deriving DecidableEq, Repr, Inhabited

/-- An option, known by its long name and perhaps a letter. -/
structure Flag where
  long : Text
  letter : Option Char
  deriving DecidableEq, Repr, Inhabited

namespace Flag

def help : Flag := ⟨"--help", none⟩

def version : Flag := ⟨"--version", none⟩

/-- Ask for detailed reports. -/
def verbose : Flag := ⟨"--verbose", some 'v'⟩

/-- Ask for an answer in JSON. -/
def json : Flag := ⟨"--json", none⟩

end Flag

def frontFlags : List Flag :=
  [.version, .verbose, .help]

def commandFlags (name : Name) : List Flag :=
  if name.hasJson then [.json, .help] else [.help]

/-- Read the letters of an argument with one dash as options. -/
def readLetters (flags : List Flag) : Text → Except Misuse (List Flag)
  | [] => .ok []
  | c :: rest =>
      match flags.find? fun flag => flag.letter = some c with
      | none => .error (.noSuchOption ['-', c])
      | some flag => (readLetters flags rest).map (flag :: ·)

/-- Read an argument that begins with a dash as options. -/
def readFlags (flags : List Flag) (argument : Text) : Except Misuse (List Flag) :=
  let name := argument.takeWhile (· ≠ '=')
  match flags.find? fun flag => flag.long = name with
  | some flag => if argument.contains '=' then .error (.takesNoValue name) else .ok [flag]
  | none =>
      if Text.startsWith ['-', '-'] argument then .error (.noSuchOption name)
      else readLetters flags (argument.drop 1)

/-- Whether an argument is read as options. -/
def isFlag (argument : Text) : Bool :=
  Text.startsWith ['-'] argument && 1 < argument.length

/-- The options at the front of a command line, and what follows them. -/
def readFront (flags : List Flag) : List Text → Except Misuse (List Flag × List Text)
  | [] => .ok ([], [])
  | argument :: rest =>
      if argument = ['-', '-'] then .ok ([], rest)
      else if isFlag argument then do
        let given ← readFlags flags argument
        let (more, words) ← readFront flags rest
        return (given ++ more, words)
      else .ok ([], argument :: rest)

/-- The options anywhere in a command line, and the other arguments. -/
def readMixed (flags : List Flag) : List Text → Except Misuse (List Flag × List Text)
  | [] => .ok ([], [])
  | argument :: rest =>
      if argument = ['-', '-'] then .ok ([], rest)
      else if isFlag argument then do
        let given ← readFlags flags argument
        let (more, words) ← readMixed flags rest
        return (given ++ more, words)
      else (readMixed flags rest).map fun (more, words) => (more, argument :: words)

/-- What the front of a command line asks for. -/
inductive Request where
  | help
  | version
  | run (verbose : Bool) (name : Name) (arguments : List Text)
  deriving DecidableEq, Repr, Inhabited

/-- The first of the given options that is answered at once. -/
def immediate? (given : List Flag) : Option Flag :=
  given.find? fun flag => flag = .help || flag = .version

def readCommand (verbose : Bool) : List Text → Except Misuse Request
  | [] => .error .missingCommand
  | word :: arguments =>
      match Name.ofText? word with
      | some name => .ok (.run verbose name arguments)
      | none =>
          match readFront frontFlags (word :: arguments) with
          | .error misuse => .error misuse
          | .ok _ => .error (.noSuchCommand word)

/-- Read the front of a command line. -/
def readRequest (arguments : List Text) : Except Misuse Request := do
  let (given, words) ← readFront frontFlags arguments
  match immediate? given with
  | some flag => return if flag = .help then .help else .version
  | none => readCommand (given.contains .verbose) words

/-- What the arguments of a command ask for. -/
structure Invocation where
  help : Bool
  json : Bool
  words : List Text
  deriving DecidableEq, Repr, Inhabited

def readInvocation (name : Name) (arguments : List Text) : Except Misuse Invocation := do
  let (given, words) ← readMixed (commandFlags name) arguments
  return ⟨given.contains .help, given.contains .json, words⟩

end HarnessIndex.Command
