import HarnessIndex.Command.Program
import HarnessIndex.Value.Yaml
import Std.Time.DateTime

/-!
# The executable

Gathers what a run can see of the machine, runs the program, and writes what it has written. Only
the files that the run reads are read here: the settings, the file that a command is given, and the
sources that a scan finds.
-/

namespace HarnessIndex.Executable

open Command Files Settings

/-- A text for the functions of the system. -/
def spelled (text : Text) : String := String.ofList text

/-- The bytes of a file, or why it cannot be read. -/
def readBytes (path : Text) : IO (Except Text (List UInt8)) := do
  try
    return .ok (← IO.FS.readBinFile (spelled path)).toList
  catch
    | .permissionDenied .. => return .error "Permission denied"
    | .noFileOrDirectory .. => return .error "No such file or directory"
    | .inappropriateType .. => return .error isADirectory
    | failure => return .error (toString failure).toList

/-- What stands at a path that is no directory. -/
def leafAt (path : Text) : IO Entry := do
  try
    let facts ← ((← IO.currentDir) / spelled path).metadata
    return .file facts.byteSize.toNat
  catch _ => return .dangling

/-- What stands in a directory. The directories in it are gone into where `enters` allows it, and at
most so many below each other. -/
def directoryAt (enters : Text → Bool) (path : Text) : (depth : Nat) → IO Entry
  | 0 => return .directory []
  | depth + 1 => do
      let mut entries := []
      for found in ← ((← IO.currentDir) / spelled path).readDir do
        let name := found.fileName.toList
        let inner := path ++ ['/'] ++ name
        let linked := (← found.path.symlinkMetadata).type matches .symlink
        let entry ←
          if ← found.path.isDir then
            if linked then pure .linkedDirectory
            else if enters name then
              try directoryAt enters inner depth catch _ => pure (.directory [])
            else pure (.directory [])
          else leafAt inner
        entries := (name, entry) :: entries
      return .directory entries

def entryAt (enters : Text → Bool) (path : Text) (depth : Nat) : IO (Option Entry) := do
  if ← ((← IO.currentDir) / spelled path).isDir then
    return some (← directoryAt enters path depth)
  else
    match ← leafAt path with
    | .dangling => return none
    | entry => return some entry

/-- How deep a scan goes. -/
def deepest : Nat := 4096

/-- The variables of this process. -/
def environment : IO (List (Text × Text)) := do
  match ← readBytes "/proc/self/environ" with
  | .error _ => return []
  | .ok bytes =>
      return (Text.splitOn '\x00' (Text.decode bytes)).filterMap fun setting =>
        let name := setting.takeWhile (· ≠ '=')
        if name.isEmpty || name = setting then none
        else some (name, setting.drop (name.length + 1))

/-- The home directories of the users of this machine. -/
def namedHomes : IO (List (Text × Text)) := do
  match ← readBytes "/etc/passwd" with
  | .error _ => return []
  | .ok bytes =>
      return (Text.lines (Text.decode bytes)).filterMap fun line =>
        match Text.splitOn ':' line with
        | [name, _, _, _, _, home, _] => some (name, home)
        | _ => none

/-- The path that a command line leads to, and whether a scan goes through it. -/
def lookedAt (arguments : List Text) : Option (Text × Bool) :=
  match readRequest arguments with
  | .ok (.run _ name rest) =>
      match readInvocation name rest with
      | .ok invocation =>
          (givenPath? name invocation.words).map fun path => (path, name.wantsDirectory)
      | .error _ => none
  | _ => none

/-- The place of a run with its settings, before anything else is known. -/
def settingsPlace : IO Place := do
  let known ← environment
  let home := (known.lookup "HOME".toList).getD ['/']
  let globalSettings := Path.ofText (home ++ "/.config/proofscan/config.yaml")
  let mut entries : List (Text × Entry) := []
  let mut contents : List (Text × Except Text (List UInt8)) := []
  for path in [globalSettings.toText, Place.projectSettings.toText] do
    if let some entry ← entryAt (fun _ => false) path 0 then
      entries := (path, entry) :: entries
      contents := (path, ← readBytes path) :: contents
  return {
    program := "proofscan"
    directory := Path.ofText (← IO.currentDir).toString.toList
    globalSettings
    homes := ⟨home, ← namedHomes⟩
    environment := known
    package := Grammar.standardName
    dialect := .bare
    document := Yaml.read
    entry? := fun path => entries.lookup path
    read := fun path => (contents.lookup path.toText).getD (.error "No such file or directory") }

/-- A place at which one more path can be seen. -/
def seeing (place : Place) (written : Text) (entry : Entry)
    (contents : List (Path × Except Text (List UInt8))) : Place :=
  { place with
    entry? := fun path => if path = written then some entry else place.entry? path
    read := fun path => (contents.lookup path).getD (place.read path) }

/-- The place of a run with what its command looks at. -/
def fullPlace (place : Place) (settings : Config) (arguments : List Text) : IO Place := do
  match lookedAt arguments with
  | none => return place
  | some ([], _) => return place
  | some (written, goesThrough) =>
      let depth := if goesThrough then deepest else 0
      match ← entryAt (isEntered settings.scan) written depth with
      | none => return place
      | some entry => do
          let path := Path.ofText written
          let wanted :=
            if goesThrough then sources path settings.scan entry
            else if entry.isFile then [path] else []
          let contents ← wanted.mapM fun source => do
            return (source, ← readBytes source.toText)
          return seeing place written entry contents

/-- Append a text to a file, whose directory is made first. -/
def appendTo (path : Text) (text : Text) : IO Unit := do
  let directory : Path := ⟨(Path.ofText path).slashes, (Path.ofText path).parts.dropLast⟩
  IO.FS.createDirAll (spelled directory.toText)
  let handle ← IO.FS.Handle.mk (spelled path) .append
  handle.putStr (spelled text)

/-- Write one text where it belongs. -/
def write (writing : Writing) : IO Unit := do
  match writing with
  | (.stdout, text) => (← IO.getStdout).putStr (spelled text)
  | (.stderr, text) => (← IO.getStderr).putStr (spelled text)
  | (.file path, text) => appendTo path text

/-- A number with at least two digits. -/
def twoDigits (n : Int) : Text :=
  let digits := Value.intText n
  List.replicate (2 - digits.length) '0' ++ digits

/-- The time for the lines of the log. -/
def timeStamp : IO Text := do
  let moment := (Std.Time.DateTime.ofTimestampWithZone (← Std.Time.Timestamp.now) .UTC).date.get
  let day := [Value.intText moment.date.year.toInt, twoDigits moment.date.month.val,
    twoDigits moment.date.day.val]
  let hour := [twoDigits moment.time.hour.val, twoDigits moment.time.minute.val,
    twoDigits moment.time.second.val]
  return Text.join ['-'] day ++ ' ' :: Text.join [':'] hour

/-- Run the program with a command line, and give its status. -/
def execute (arguments : List Text) : IO UInt32 := do
  let bare ← settingsPlace
  let place ← match bare.settings with
    | .ok settings => fullPlace bare settings arguments
    | .error _ => pure bare
  let outcome := run place (← timeStamp) arguments
  outcome.written.forM write
  if let some breakdown := outcome.breakdown then
    write (.stderr, "Error: " ++ breakdown.message ++ "\n")
  return outcome.status.toUInt32

end HarnessIndex.Executable

/-- Run the program. -/
def main (arguments : List String) : IO UInt32 :=
  HarnessIndex.Executable.execute (arguments.map String.toList)
