import HarnessIndex.Command.Arguments

/-!
# How the program is used

The wording of a misuse, and the pages that are shown when help is asked for.
-/

namespace HarnessIndex.Command

def versionLine : Text := "proofscan, version 0.1.0"

/-- How the thing at the path of a command is called. -/
def pathNoun (name : Option Name) : Text :=
  if name.any Name.wantsDirectory then "Directory" else "File"

def pathProblem (name : Option Name) (problem : Text) : Text :=
  "Invalid value for '" ++ (name.getD .check).pathName ++ "': " ++ pathNoun name ++ " " ++ problem

/-- The wording of a misuse of a command, or of the front of a command line. -/
def Misuse.message (name : Option Name) : Misuse → Text
  | .noSuchOption option => "No such option " ++ Text.quoted option ++ "."
  | .takesNoValue option => "Option " ++ Text.quoted option ++ " does not take a value."
  | .missingCommand => "Missing command."
  | .noSuchCommand word => "No such command " ++ Text.quoted word ++ "."
  | .missingPath => "Missing argument '" ++ (name.getD .check).pathName ++ "'."
  | .noSuchPath path => pathProblem name (Text.quoted path ++ " does not exist.")
  | .isDirectory path => pathProblem name (Text.quoted path ++ " is a directory.")
  | .isFile path => pathProblem name (Text.quoted path ++ " is a file.")
  | .extraArguments first [] => "Got unexpected extra argument (" ++ first ++ ")"
  | .extraArguments first rest =>
      "Got unexpected extra arguments (" ++ Text.join [' '] (first :: rest) ++ ")"

/-- The program and a command of it, as they are called. -/
def calledAs (program : Text) : Option Name → Text
  | none => program
  | some name => program ++ ' ' :: name.text

/-- What can follow the program or a command of it. -/
def usageTail : Option Name → Text
  | none => "[OPTIONS] COMMAND [ARGS]..."
  | some name => "[OPTIONS] " ++ name.pathName

/-- The line that says how the program or a command of it is used. -/
def usageLine (program : Text) (name : Option Name) : Text :=
  "Usage: " ++ calledAs program name ++ ' ' :: usageTail name

def misuseText (program : Text) (name : Option Name) (misuse : Misuse) : Text :=
  usageLine program name ++ "\nTry '" ++ calledAs program name ++ " --help' for help.\n\nError: " ++
    misuse.message name ++ "\n"

def purpose : Option Name → List Text
  | none => ["ProofScan - find Kani and Bolero verification harnesses in Rust sources."]
  | some .check =>
      ["Report whether PATH mentions a proof marker or harness entry point.", "",
        "Exits with status 1 when nothing is found."]
  | some .harnesses => ["Show every harness in PATH with its line, kind and attributes."]
  | some .playback => ["Show replay tests generated into PATH, grouped by harness."]
  | some .scan =>
      ["Scan ROOT (default: current directory) for Rust files with harnesses.", "",
        "Files failing the cheap pre-check are not parsed."]

/-- What a command does, cut to fit beside its name. -/
def shortPurpose : Name → Text
  | .check => "Report whether PATH mentions a proof marker or harness entry..."
  | .harnesses => "Show every harness in PATH with its line, kind and attributes."
  | .playback => "Show replay tests generated into PATH, grouped by harness."
  | .scan => "Scan ROOT (default: current directory) for Rust files with..."

def optionRows (name : Option Name) : List (Text × Text) :=
  let help : Text × Text := ("--help", "Show this message and exit.")
  match name with
  | none =>
      [("--version", "Show the version and exit."), ("-v, --verbose", "Enable debug logging"), help]
  | some name => if name.hasJson then [("--json", "Output as JSON"), help] else [help]

/-- Rows of two columns, the second ones below each other. -/
def twoColumns (rows : List (Text × Text)) : List Text :=
  let size := (rows.map fun row => row.1.length).foldl max 0
  rows.map fun row =>
    "  " ++ row.1 ++ List.replicate (size - row.1.length + 2) ' ' ++ row.2

def commandLines : Option Name → List Text
  | none =>
      [] :: "Commands:" :: twoColumns (Name.all.map fun name => (name.text, shortPurpose name))
  | some _ => []

/-- A line moved in by two blanks, unless it is empty. -/
def moveIn (line : Text) : Text :=
  if line.isEmpty then [] else "  " ++ line

/-- The page that is shown when help is asked for. -/
def helpPage (program : Text) (name : Option Name) : Text :=
  let options : List Text := [] :: "Options:" :: twoColumns (optionRows name)
  (usageLine program name :: [] :: (purpose name).map moveIn ++ options ++
    commandLines name).flatMap fun line => line ++ ['\n']

end HarnessIndex.Command
