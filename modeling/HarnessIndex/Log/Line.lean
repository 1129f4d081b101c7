import HarnessIndex.Log.Message
import HarnessIndex.Settings.Model
import HarnessIndex.Text.Order

/-!
# Lines of the log

A line is written as JSON, or for reading: the time, the level in brackets, the event, the logger in
brackets, and then the other entries by name. There a text stands bare unless it holds a blank, a
quote or an equals sign.
-/

namespace HarnessIndex.Log

open Settings

/-- A character that a text cannot hold without quotes. -/
def needsQuotes (c : Char) : Bool :=
  c = ' ' || c = '\t' || c = '=' || c = '\r' || c = '\n' || c = Text.doubleQuote ||
    c = Text.singleQuote

/-- The written form of the value of an entry. -/
def entryText : Value → Text
  | .text text => if text.any needsQuotes then Text.quoted text else text
  | value => value.inner

/-- The entries that stand at the front of a line, with what surrounds them. -/
def leadingEntries : List (Text × Text × Text) :=
  [(timeKey, [], []), (levelKey, ['['], [']']), (eventKey, [], []), (loggerKey, ['['], [']']),
    ("logger_name", ['['], [']'])]

/-- The front of a line. -/
def leadingTexts (entries : List (Text × Value)) : List Text :=
  leadingEntries.filterMap fun (key, opener, closer) =>
    (Assoc.get? key entries).map fun value => opener ++ value.display ++ closer

/-- The rest of a line. -/
def otherTexts (entries : List (Text × Value)) : List Text :=
  let others := entries.filter fun entry => !leadingEntries.any fun leading => leading.1 = entry.1
  (Stable.sort (fun left right => Text.precedes left.1 right.1) others).map fun entry =>
    entry.1 ++ '=' :: entryText entry.2

/-- Drop the spaces at the back of a line. -/
def withoutTrailingSpaces (line : Text) : Text :=
  (line.reverse.dropWhile (· = ' ')).reverse

/-- A line for reading. -/
def consoleLine (entries : List (Text × Value)) : Text :=
  withoutTrailingSpaces (Text.join [' ']
    ((leadingTexts entries ++ otherTexts entries).filter fun part => !part.isEmpty))

def line (format : Format) (entries : List (Text × Value)) : Text :=
  match format with
  | .json => Json.write .flat (.record entries)
  | .console => consoleLine entries

end HarnessIndex.Log
