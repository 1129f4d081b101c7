import HarnessIndex.Event
import HarnessIndex.Settings.Check
import HarnessIndex.Text.Path

/-!
# Settings

The settings of the program: where reports go and which files are looked at. Each group of settings
has its defaults, a check that makes it from a value, and a form as a value; the check accepts that
form and gives the same settings again.
-/

namespace HarnessIndex.Settings

/-- How a line of the log is written. -/
inductive Format where
  | json
  | console
  deriving DecidableEq, Repr, Inhabited

namespace Format

def name : Format → Text
  | json => "json"
  | console => "console"

def choices : List (Text × Format) :=
  [(json.name, json), (console.name, console)]

end Format

def levelName : Level → Text
  | .debug => "DEBUG"
  | .info => "INFO"
  | .warning => "WARNING"
  | .error => "ERROR"
  | .critical => "CRITICAL"

def levelChoices : List (Text × Level) :=
  [Level.debug, .info, .warning, .error, .critical].map fun level => (levelName level, level)

/-- Where lines of the log go. -/
inductive Destination where
  | stderr
  | stdout
  | file (path : Text)
  deriving DecidableEq, Repr, Inhabited

namespace Destination

def name : Destination → Text
  | stderr => "stderr"
  | stdout => "stdout"
  | file path => path

/-- The path of a destination that is a file. -/
def path? : Destination → Option Text
  | file path => some path
  | _ => none

end Destination

/-- One output of the log. Without a level of its own it has that of the whole log. -/
structure Output where
  format : Format
  destination : Destination
  level : Option Level
  deriving DecidableEq, Repr, Inhabited

/-- The settings of the log. -/
structure Logging where
  level : Level
  outputs : List Output
  deriving DecidableEq, Repr, Inhabited

/-- Which files are looked at. -/
structure Scan where
  maxFileSizeKb : Int
  extensions : List Text
  excludeDirs : List Text
  deriving DecidableEq, Repr, Inhabited

/-- All settings. -/
structure Config where
  logging : Logging
  scan : Scan
  deriving DecidableEq, Repr, Inhabited

namespace Output

/-- The output that holds when nothing is set. -/
def standard : Output :=
  ⟨.console, .stderr, none⟩

def toValue (output : Output) : Value :=
  .record [("format", .text output.format.name), ("destination", .text output.destination.name),
    ("level", match output.level with
      | some level => .text (levelName level)
      | none => .null)]

end Output

namespace Logging

/-- The log settings that hold when nothing is set. -/
def standard : Logging :=
  ⟨.warning, [.standard]⟩

/-- The form of log settings as a value. -/
def toValue (logging : Logging) : Value :=
  .record [("level", .text (levelName logging.level)),
    ("outputs", .list (logging.outputs.map Output.toValue))]

end Logging

namespace Scan

/-- The scan settings that hold when nothing is set. -/
def standard : Scan :=
  ⟨1024, [".rs"], ["target", ".git"]⟩

def toValue (scan : Scan) : Value :=
  .record [("max_file_size_kb", .int scan.maxFileSizeKb),
    ("extensions", .list (scan.extensions.map .text)),
    ("exclude_dirs", .list (scan.excludeDirs.map .text))]

end Scan

namespace Config

/-- The settings that hold when nothing is set. -/
def standard : Config :=
  ⟨.standard, .standard⟩

def toValue (config : Config) : Value :=
  .record [("logging", config.logging.toValue), ("scan", config.scan.toValue)]

end Config

namespace Checked

def level (input : Value) : Checked Level :=
  oneOf levelChoices "Input should be 'DEBUG', 'INFO', 'WARNING', 'ERROR' or 'CRITICAL'" input

def optionalLevel : Value → Checked (Option Level)
  | .null => .ok none
  | input => (level input).map some

def format (input : Value) : Checked Format :=
  oneOf Format.choices "Input should be 'json' or 'console'" input

/-- A destination: one of the two standard streams, or a file with an absolute path. A path may
begin at a home directory. -/
def destination (homes : Path.Homes) (input : Value) : Checked Destination := do
  let name ← text input
  if name = Destination.stderr.name then return .stderr
  else if name = Destination.stdout.name then return .stdout
  else
    match Path.expandHome homes (Path.ofText name) with
    | none => throw (.abandoned "Could not determine home directory.")
    | some path =>
        if path.isAbsolute then return .file path.toText
        else rule ("File destination must be absolute path: " ++ name) input

def output (homes : Path.Homes) (input : Value) : Checked Output := do
  let entries ← record "LogOutputConfig" input
  let standard := Output.standard
  let parts ← both (field "format" standard.format format entries)
    (both (field "destination" standard.destination (destination homes) entries)
      (field "level" standard.level optionalLevel entries))
  return ⟨parts.1, parts.2.1, parts.2.2⟩

def logging (homes : Path.Homes) (input : Value) : Checked Logging := do
  let entries ← record "LoggingConfig" input
  let standard := Logging.standard
  let parts ← both (field "level" standard.level level entries)
    (field "outputs" standard.outputs (list (output homes)) entries)
  return ⟨parts.1, parts.2⟩

/-- The settings that the log takes: those that it is given, or else one output with a level, INFO
unless another one is asked for, and with lines in JSON when these are asked for. -/
def loggingOr (given : Option Logging) (asked : Option Value) (json : Bool) : Checked Logging :=
  match given with
  | some settings => .ok settings
  | none => do
      let level ← (level (asked.getD (.text (levelName .info)))).under (.key "level")
      return ⟨level, [{ Output.standard with format := if json then .json else .console }]⟩

/-- What is wrong with a size that is not positive. -/
def notPositive (size : Int) : Text :=
  if (Value.int size).isWritable then
    "max_file_size_kb must be positive, got " ++ Value.intText size
  else Value.tooManyDigits

def maxFileSize (input : Value) : Checked Int := do
  let size ← int input
  if size ≤ 0 then rule (notPositive size) input else return size

def withDot (suffix : Text) : Text :=
  if Text.startsWith ['.'] suffix then suffix else '.' :: suffix

/-- File suffixes. -/
def extensions (input : Value) : Checked (List Text) := do
  return (← list text input).map withDot

/-- Which files are looked at. -/
def scan (input : Value) : Checked Scan := do
  let entries ← record "ScanConfig" input
  let standard := Scan.standard
  let parts ← both (field "max_file_size_kb" standard.maxFileSizeKb maxFileSize entries)
    (both (field "extensions" standard.extensions extensions entries)
      (field "exclude_dirs" standard.excludeDirs (list text) entries))
  return ⟨parts.1, parts.2.1, parts.2.2⟩

def sections (homes : Path.Homes) (entries : List (Text × Value)) : Checked Config := do
  let standard := Config.standard
  let parts ← both (field "logging" standard.logging (logging homes) entries)
    (field "scan" standard.scan scan entries)
  return ⟨parts.1, parts.2⟩

def config (homes : Path.Homes) (input : Value) : Checked Config := do
  sections homes (← record "ProofScanConfig" input)

end Checked

end HarnessIndex.Settings
