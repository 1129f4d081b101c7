import HarnessIndex.Value.Value

/-!
# JSON

Reading and writing values as JSON. A number without a fraction and without an exponent is a whole
number, every other number is a binary floating point number, and the three names of numbers that
are not finite are accepted. A whole number with too many digits is not read. When a key of an object comes again its last value counts, at its first
place. Written text is plain ASCII.
-/

namespace HarnessIndex.Json

open Text

/-- A blank between tokens. -/
def isSpace (c : Char) : Bool :=
  c = ' ' || c = '\t' || c = '\n' || c = '\r'

/-- Drop the blanks at the front. -/
def skipSpace (text : Text) : Text :=
  text.dropWhile isSpace

/-- The code that four hexadecimal digits spell. -/
def code? (digits : List Char) : Option Nat :=
  if digits.all isHex then some (digitsValue 16 digits) else none

/-- The character that a letter after a backslash stands for. -/
def escape? : Char → Option Char
  | '\x22' => some '\x22'
  | '\x5c' => some '\x5c'
  | '/' => some '/'
  | 'b' => some '\x08'
  | 'f' => some '\x0c'
  | 'n' => some '\n'
  | 'r' => some '\r'
  | 't' => some '\t'
  | _ => none

/-- Whether a code is the first half of a pair. -/
def isHighHalf (code : Nat) : Bool :=
  0xd800 ≤ code && code < 0xdc00

/-- Whether a code is the second half of a pair. -/
def isLowHalf (code : Nat) : Bool :=
  0xdc00 ≤ code && code < 0xe000

/-- The rest of a string after its opening quote, and what follows it. `text` is what has been read,
backwards, and `high` is a first half that waits for its second one; a half that stays alone becomes
the replacement character. -/
def readString (text : Text) (high : Option Nat) : Text → Option (Text × Text)
  | [] => none
  | '\x5c' :: 'u' :: a :: b :: c :: d :: rest => do
      let code ← code? [a, b, c, d]
      let before := if high.isSome then '\uFFFD' :: text else text
      if isHighHalf code then readString before (some code) rest
      else
        match high with
        | some first =>
            if isLowHalf code then
              let whole := 0x10000 + (first - 0xd800) * 0x400 + (code - 0xdc00)
              readString (Char.ofNat whole :: text) none rest
            else readString (Char.ofNat code :: before) none rest
        | none =>
            let c := if isLowHalf code then '\uFFFD' else Char.ofNat code
            readString (c :: before) none rest
  | '\x5c' :: c :: rest => do
      let escaped ← escape? c
      readString (escaped :: (if high.isSome then '\uFFFD' :: text else text)) none rest
  | c :: rest =>
      let before := if high.isSome then '\uFFFD' :: text else text
      if c = doubleQuote then some (before.reverse, rest)
      else if c.toNat < 0x20 || c = backslash then none
      else readString (c :: before) none rest

/-- The digits of a fraction, if there is one, and what follows. -/
def readFraction (text : Text) : Text × Text :=
  match text with
  | '.' :: rest =>
      let (digits, after) := Binary64.takeDigits rest
      if digits.isEmpty then ([], text) else (digits, after)
  | _ => ([], text)

/-- The power of ten, if there is one, and what follows. -/
def readExponent (text : Text) : Option Int × Text :=
  match text with
  | e :: rest =>
      if e = 'e' || e = 'E' then
        let (negative, unsigned) :=
          match rest with
          | '-' :: more => (true, more)
          | '+' :: more => (false, more)
          | _ => (false, rest)
        let (digits, after) := Binary64.takeDigits unsigned
        if digits.isEmpty then (none, text)
        else
          let size : Int := digitsValue 10 digits
          (some (if negative then -size else size), after)
      else (none, text)
  | [] => (none, text)

/-- The number that a text begins with, after its sign. -/
def readMagnitude (negative : Bool) (text : Text) : Option (Value × Text) := do
  let (digits, rest) := Binary64.takeDigits text
  let (whole, rest) ←
    match digits with
    | [] => none
    | '0' :: more => some (['0'], more ++ rest)
    | _ => some (digits, rest)
  let (fraction, rest) := readFraction rest
  let (exponent, rest) := readExponent rest
  if fraction.isEmpty && exponent.isNone then
    if Value.mostDigits < whole.length then none
    let size : Int := digitsValue 10 whole
    return (.int (if negative then -size else size), rest)
  else
    let power := exponent.getD 0 - fraction.length
    return (.real (.ofDecimal negative (digitsValue 10 (whole ++ fraction)) power), rest)

def readNumber (text : Text) : Option (Value × Text) :=
  match text with
  | '-' :: rest =>
      match after? "Infinity" rest with
      | some rest => some (.real (.infinite true), rest)
      | none => readMagnitude true rest
  | _ => readMagnitude false text

/-- The value with a name that a text begins with. -/
def readName (text : Text) : Option (Value × Text) :=
  let names : List (Text × Value) :=
    [("null", .null), ("true", .bool true), ("false", .bool false), ("NaN", .real .nan),
      ("Infinity", .real (.infinite false))]
  names.findSome? fun entry => (after? entry.1 text).map fun rest => (entry.2, rest)

mutual

/-- The value that a text begins with, and what follows it, for at most `steps` values. -/
def readValue : (steps : Nat) → Text → Option (Value × Text)
  | 0, _ => none
  | steps + 1, text =>
      match skipSpace text with
      | '\x22' :: rest => (readString [] none rest).map fun (text, rest) => (.text text, rest)
      | '[' :: rest =>
          match skipSpace rest with
          | ']' :: rest => some (.list [], rest)
          | rest => readItems steps [] rest
      | '\x7b' :: rest =>
          match skipSpace rest with
          | '\x7d' :: rest => some (.record [], rest)
          | rest => readEntries steps [] rest
      | text => (readName text).or (readNumber text)

/-- The items of a list after those in `items`, and what follows the list. -/
def readItems (steps : Nat) (items : List Value) (text : Text) : Option (Value × Text) :=
  match steps with
  | 0 => none
  | steps + 1 => do
      let (item, rest) ← readValue steps text
      match skipSpace rest with
      | ',' :: rest => readItems steps (item :: items) rest
      | ']' :: rest => some (.list (item :: items).reverse, rest)
      | _ => none

/-- The entries of an object after those in `entries`, and what follows the object. -/
def readEntries (steps : Nat) (entries : List (Text × Value)) (text : Text) :
    Option (Value × Text) :=
  match steps with
  | 0 => none
  | steps + 1 =>
      match skipSpace text with
      | '\x22' :: rest => do
          let (key, rest) ← readString [] none rest
          match skipSpace rest with
          | ':' :: rest => do
              let (value, rest) ← readValue steps rest
              let entries := (key, value) :: entries
              match skipSpace rest with
              | ',' :: rest => readEntries steps entries rest
              | '\x7d' :: rest => some (.record (Assoc.ofList entries.reverse), rest)
              | _ => none
          | _ => none
      | _ => none

end

/-- Read a text that holds one value and nothing else. -/
def read? (text : Text) : Option Value := do
  let (value, rest) ← readValue (text.length + 1) text
  if (skipSpace rest).isEmpty then some value else none

def escapeCode (code : Nat) : Text :=
  backslash :: 'u' :: hex 4 code

/-- One character of a string. -/
def writeChar (c : Char) : Text :=
  if c = doubleQuote || c = backslash then [backslash, c]
  else if c = '\n' then [backslash, 'n']
  else if c = '\r' then [backslash, 'r']
  else if c = '\t' then [backslash, 't']
  else if c = '\x08' then [backslash, 'b']
  else if c = '\x0c' then [backslash, 'f']
  else if 0x20 ≤ c.toNat && c.toNat < 0x7f then [c]
  else if c.toNat < 0x10000 then escapeCode c.toNat
  else
    let rest := c.toNat - 0x10000
    escapeCode (0xd800 + rest / 0x400) ++ escapeCode (0xdc00 + rest % 0x400)

def writeString (text : Text) : Text :=
  doubleQuote :: (text.flatMap writeChar ++ [doubleQuote])

def writeReal : Binary64 → Text
  | .infinite true => "-Infinity"
  | .infinite false => "Infinity"
  | .nan => "NaN"
  | number => number.toText

/-- How the parts of a list or an object are set apart: in one line, or each on a line of its own
with two blanks for every level. -/
structure Layout where
  indented : Bool
  level : Nat

namespace Layout

/-- Everything in one line. -/
def flat : Layout := ⟨false, 0⟩

/-- Each part on a line of its own. -/
def tall : Layout := ⟨true, 0⟩

/-- The layout one level deeper. -/
def deeper (layout : Layout) : Layout :=
  { layout with level := layout.level + 1 }

/-- What stands before the first part and after the last one. -/
def newline (layout : Layout) : Text :=
  if layout.indented then '\n' :: List.replicate (2 * layout.level) ' ' else []

/-- What stands between two parts. -/
def separator (layout : Layout) : Text :=
  if layout.indented then ',' :: layout.newline else ", "

end Layout

mutual

def write (layout : Layout) : Value → Text
  | .null => "null"
  | .bool true => "true"
  | .bool false => "false"
  | .int value => Value.intText value
  | .real value => writeReal value
  | .text value => writeString value
  | .other written _ => writeString written
  | .list [] => "[]"
  | .list items =>
      '[' :: layout.deeper.newline ++ writeItems layout.deeper items ++ layout.newline ++ [']']
  | .record [] => ['\x7b', '\x7d']
  | .record entries =>
      '\x7b' :: layout.deeper.newline ++ writeEntries layout.deeper entries ++ layout.newline ++
        ['\x7d']

def writeItems (layout : Layout) : List Value → Text
  | [] => []
  | [item] => write layout item
  | item :: rest => write layout item ++ layout.separator ++ writeItems layout rest

def writeEntries (layout : Layout) : List (Text × Value) → Text
  | [] => []
  | [(key, value)] => writeString key ++ ": " ++ write layout value
  | (key, value) :: rest =>
      writeString key ++ ": " ++ write layout value ++ layout.separator ++
        writeEntries layout rest

end

end HarnessIndex.Json
