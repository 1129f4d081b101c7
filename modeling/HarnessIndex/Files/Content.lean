import HarnessIndex.Text.Lines
import HarnessIndex.Text.Path
import HarnessIndex.Text.Utf8

/-!
# The content of source files

A source file holds UTF-8. Bytes that are no UTF-8 are read as replacement characters, and every way
to end a line is read as a line feed, so reading never fails once the bytes are there.
-/

namespace HarnessIndex.Files

def sourceText (bytes : List UInt8) : Text :=
  Text.unixLines (Text.decode bytes)

/-- Why a directory cannot be read as a file. -/
def isADirectory : Text := "Is a directory"

def cannotRead (path : Path) (reason : Text) : Text :=
  "Cannot read " ++ path.toText ++ ": " ++ reason

end HarnessIndex.Files
