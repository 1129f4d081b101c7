import HarnessIndex.Command.Script
import HarnessIndex.Files.Content
import HarnessIndex.Files.Entry
import HarnessIndex.Report.Markup
import HarnessIndex.Settings.Load
import HarnessIndex.Text.Lines
import HarnessIndex.Text.Utf8

/-!
# Where a run takes place

What a run can see of the machine it runs on: files, the environment, the grammar packages, the
reader of documents, and the terminal. The settings of a run come from the files and the environment
of its place.
-/

namespace HarnessIndex.Command

open Files Settings

/-- The place of a run. `entry?` tells what stands at a path, `read` gives the bytes of a file or
says why it cannot be read, and `document` is what comes of reading the text of a settings file. -/
structure Place where
  program : Text
  directory : Path
  globalSettings : Path
  homes : Path.Homes
  environment : List (Text × Text)
  package : Text
  dialect : Markup.Dialect
  entry? : Text → Option Entry
  read : Path → Except Text (List UInt8)
  document : Text → Document

namespace Place

def projectSettings : Path :=
  ⟨0, [".proofscan", "config.yaml"]⟩

/-- The content of a settings file, which is shown with a path. A file that is not there holds
nothing. -/
def settingsFile (place : Place) (shown : Path) (path : Path) : Except Breakdown File :=
  match place.entry? path.toText with
  | none => .ok (.absent shown.toText)
  | some .dangling => .ok (.absent shown.toText)
  | some entry =>
      if entry.isDirectory then .error (.settingsUnreadable shown.toText isADirectory)
      else
        match place.read path with
        | .error reason => .error (.settingsUnreadable shown.toText reason)
        | .ok bytes =>
            match Text.decode? bytes with
            | none => .error (.settingsAreNoText shown.toText)
            | some text => .ok ⟨shown.toText, place.document (Text.unixLines text)⟩

/-- A trouble with the settings as a reason to stop. -/
def stopFor : Trouble → Stop
  | .failure failure => .refused failure.text
  | .unreadFile path reason => .brokenDown (.unreadFile path reason)
  | .badVariable sectionName => .brokenDown (.badVariable sectionName)
  | .otherKey key => .brokenDown (.otherKey key)
  | .abandoned reason => .brokenDown (.abandoned reason)
  | .unwritable field => .brokenDown (.unwritable field)

/-- The settings of a run, before its options are taken into account. The global file has to be in
order before the file of the project is looked at. -/
def settings (place : Place) : Except Stop Config := do
  let globalFile ←
    (place.settingsFile place.globalSettings place.globalSettings).mapError Stop.brokenDown
  let _ ← (fileEntries globalFile).mapError stopFor
  let shown : Path := ⟨place.directory.slashes, place.directory.parts ++ projectSettings.parts⟩
  let projectFile ← (place.settingsFile shown projectSettings).mapError Stop.brokenDown
  (load place.homes ⟨globalFile, projectFile, place.environment, []⟩).mapError stopFor

/-- The entry at a path in a directory tree, as it is written: the empty path leads nowhere, and a
path that ends in a slash leads to a directory. -/
def entryIn (tree : Entry) (written : Text) : Option Entry :=
  let path := Path.ofText written
  if written.isEmpty || path.isAbsolute then none
  else
    match Entry.find? [] tree path.parts with
    | none => none
    | some entry =>
        if entry.isDirectory || !(Text.endsWith ['/'] written || Text.endsWith ['/', '.'] written)
        then some entry else none

end Place

end HarnessIndex.Command
