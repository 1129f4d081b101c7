import HarnessIndex.Text.Quoted
import HarnessIndex.Text.Lines
import HarnessIndex.Value.Document

/-!
# YAML

Reading small YAML documents: mappings and lists in block and in flow style, plain and quoted
scalars over one or several lines, and comments. Plain scalars are resolved by the rules of YAML
1.1, so that `yes` is a truth value, `0x10` and `1_000` are whole numbers, and `2001-01-13` is a date.
The reader breaks down on what looks like a number or a date and is none.

Not everything in YAML is read: anchors and aliases, tags, block scalars, explicit and merged keys,
directives, times of day, fractions in parts of sixty, and line ends of other systems are not. A
document with one of these is no malformed one. The reader breaks down on it as well.

A place in a document is a `Cursor`: the rest of the text, and the line and the column it begins at.
Every rule reads from a cursor and gives the cursor after what it has read, or a `Fault`. `steps`
bounds the number of nested calls.
-/

namespace HarnessIndex.Yaml

open Text

/-- Why a text is not read: it does not follow the grammar, or the reader breaks down on it. -/
inductive Fault where
  | malformed
  | unread (reason : Text)
  deriving DecidableEq, Repr, Inhabited

/-- What comes of reading a part of a text. -/
abbrev Attempt (α : Type) := Except Fault α

/-- The text does not follow the grammar. -/
def malformed {α : Type} : Attempt α :=
  .error .malformed

/-- The reader breaks down. -/
def unread {α : Type} (reason : Text) : Attempt α :=
  .error (.unread reason)

/-- A part of a document. What a plain scalar stands for is found out once the whole document has
been read. -/
inductive Node where
  | plain (text : Text)
  | quoted (text : Text)
  | list (items : List Node)
  | mapping (entries : List (Node × Node))
  deriving Repr, Inhabited

/-- A value that is left out. -/
def Node.missing : Node :=
  plain []

/-- A place in a document. -/
structure Cursor where
  rest : Text
  line : Nat
  column : Nat

namespace Cursor

/-- The place after one more character. -/
def next (cursor : Cursor) : Cursor :=
  match cursor.rest with
  | [] => cursor
  | '\n' :: rest => ⟨rest, cursor.line + 1, 0⟩
  | _ :: rest => ⟨rest, cursor.line, cursor.column + 1⟩

/-- The place after some more characters of the same line. -/
def forward (cursor : Cursor) (count : Nat) : Cursor :=
  { cursor with rest := cursor.rest.drop count, column := cursor.column + count }

end Cursor

/-- A blank or a tab. -/
def isSpace (c : Char) : Bool :=
  c = ' ' || c = '\t'

/-- Whether a text is at its end or goes on with a blank. -/
def atGap : Text → Bool
  | [] => true
  | c :: _ => isSpace c || c = '\n'

/-- Whether a line begins that separates or ends documents. -/
def atMarker (cursor : Cursor) : Bool :=
  cursor.column = 0 &&
    (startsWith "---" cursor.rest || startsWith "..." cursor.rest) && atGap (cursor.rest.drop 3)

/-- Pass blanks, comments and line ends, for at most `steps` characters. -/
def skip : (steps : Nat) → Cursor → Cursor
  | 0, cursor => cursor
  | steps + 1, cursor =>
      match cursor.rest with
      | ' ' :: _ | '\n' :: _ => skip steps cursor.next
      | '#' :: rest => skip steps (cursor.forward (1 + (rest.takeWhile (· ≠ '\n')).length))
      | _ => cursor

/-- Whether an indicator with a gap after it begins a text. -/
def startsIndicator (c : Char) : Text → Bool
  | first :: rest => first = c && atGap rest
  | [] => false

/-- Whether the colon of a mapping begins a text. In flow style a bracket or a comma may follow. -/
def startsColon (flow : Bool) : Text → Bool
  | ':' :: rest =>
      atGap rest || (flow && rest.head?.any fun c => (",[]\x7b\x7d" : Text).contains c)
  | _ => false

/-! ### Scalars -/

def truthWords : List (Text × Bool) :=
  [("yes", true), ("Yes", true), ("YES", true), ("no", false), ("No", false), ("NO", false),
    ("true", true), ("True", true), ("TRUE", true), ("false", false), ("False", false),
    ("FALSE", false), ("on", true), ("On", true), ("ON", true), ("off", false), ("Off", false),
    ("OFF", false)]

def nullWords : List Text :=
  ["~", "null", "Null", "NULL", ""]

/-- Whether a text has characters and all of them have a property. -/
def allOf (test : Char → Bool) (text : Text) : Bool :=
  !text.isEmpty && text.all test

/-- A digit of a number, or the low line that may stand between digits. -/
def isSpacedDigit (c : Char) : Bool :=
  isAsciiDigit c || c = '_'

/-- The number that digits with low lines between them denote. -/
def spacedValue (base : Nat) (digits : Text) : Nat :=
  digitsValue base (digits.filter (· ≠ '_'))

/-- The number that digits denote after the mark of their base. -/
def markedNumber (base : Nat) (digits : Text) : Attempt Nat :=
  if digits.all (· = '_') then unread "a number has no digits" else .ok (spacedValue base digits)

/-- The number that decimal digits denote, unless they are too many. -/
def decimalNumber (digits : Text) : Attempt Nat :=
  if Value.mostDigits < (digits.filter (· ≠ '_')).length then unread "a number has too many digits"
  else .ok (spacedValue 10 digits)

/-- The parts of a number in parts of sixty: digits, and behind each colon a number below sixty. -/
def sixtieths? (text : Text) : Option (Text × List Text) :=
  match splitOn ':' text with
  | front :: part :: parts =>
      if front.head?.any isAsciiDigit && front.all isSpacedDigit && (part :: parts).all fun part =>
          part.length ≤ 2 && allOf isAsciiDigit part && digitsValue 10 part < 60 then
        some (front, part :: parts)
      else none
  | _ => none

/-- The whole number without a sign that a text spells: binary, hexadecimal, octal, decimal, or in
parts of sixty. -/
def magnitude? (text : Text) : Option (Attempt Nat) :=
  match text with
  | '0' :: 'b' :: digits =>
      if allOf (fun c => c = '0' || c = '1' || c = '_') digits then some (markedNumber 2 digits)
      else none
  | '0' :: 'x' :: digits =>
      if allOf (fun c => isHex c || c = '_') digits then some (markedNumber 16 digits) else none
  | ['0'] => some (.ok 0)
  | '0' :: digits =>
      if allOf (fun c => ('0' ≤ c && c ≤ '7') || c = '_') digits then
        some (.ok (spacedValue 8 digits))
      else none
  | first :: _ =>
      if !isAsciiDigit first then none
      else if text.all isSpacedDigit then some (decimalNumber text)
      else
        (sixtieths? text).map fun (front, parts) => do
          let whole ← decimalNumber front
          return parts.foldl (fun sum part => sum * 60 + digitsValue 10 part) whole
  | [] => none

/-- Take a sign off a text. -/
def unsigned : Text → Bool × Text
  | '-' :: rest => (true, rest)
  | '+' :: rest => (false, rest)
  | rest => (false, rest)

/-- The whole number that a text spells. -/
def int? (text : Text) : Option (Attempt Value) :=
  let (negative, digits) := unsigned text
  (magnitude? digits).map fun outcome => outcome.map fun size =>
    .int (if negative then -(size : Int) else size)

/-- The power of ten at the end of a number, when a text is nothing else. -/
def power? : Text → Option Int
  | [] => some 0
  | e :: sign :: digits =>
      if (e = 'e' || e = 'E') && (sign = '+' || sign = '-') && allOf isAsciiDigit digits then
        let size : Int := digitsValue 10 digits
        some (if sign = '-' then -size else size)
      else none
  | _ => none

/-- The number with a fraction that a text spells. -/
def real? (text : Text) : Option Binary64 :=
  let (negative, size) := unsigned text
  if ([".inf", ".Inf", ".INF"] : List Text).contains size then some (.infinite negative)
  else if ([".nan", ".NaN", ".NAN"] : List Text).contains text then some .nan
  else
    let whole := size.takeWhile isSpacedDigit
    match size.drop whole.length with
    | '.' :: rest =>
        let fraction := rest.takeWhile isSpacedDigit
        let starts :=
          match whole with
          | first :: _ => isAsciiDigit first
          | [] => text.head? = some '.' && fraction.head?.any isAsciiDigit
        if !starts then none
        else
          (power? (rest.drop fraction.length)).map fun power =>
            let kept := fraction.filter (· ≠ '_')
            .ofDecimal negative (spacedValue 10 (whole ++ fraction)) (power - kept.length)
    | _ => none

/-- Whether a text spells a number in parts of sixty with a fraction. -/
def isFractionOfSixty (text : Text) : Bool :=
  let (_, size) := unsigned text
  let whole := size.takeWhile (· ≠ '.')
  (sixtieths? whole).isSome &&
    match size.drop whole.length with
    | '.' :: fraction => fraction.all isSpacedDigit
    | _ => false

def daysIn (year month : Nat) : Nat :=
  let isLeap := year % 4 = 0 && (year % 100 ≠ 0 || year % 400 = 0)
  match month with
  | 2 => if isLeap then 29 else 28
  | 4 | 6 | 9 | 11 => 30
  | _ => 31

/-- The date that a text with these numbers in it is. -/
def date (text : Text) (year month day : Nat) : Attempt Value :=
  if 0 < year && 0 < month && month ≤ 12 && 0 < day && day ≤ daysIn year month then
    let parts := Text.join ", " ([year, month, day].map Text.ofNat)
    .ok (.other text ("datetime.date(" ++ parts ++ ")"))
  else unread "a date is out of range"

def date? (text : Text) : Option (Attempt Value) :=
  match splitOn '-' text with
  | [year, month, day] =>
      if year.length = 4 && month.length = 2 && day.length = 2 &&
          [year, month, day].all (allOf isAsciiDigit) then
        some (date text (digitsValue 10 year) (digitsValue 10 month) (digitsValue 10 day))
      else none
  | _ => none

/-- What follows a run of digits at the front of a text, when they are as many as they have to be. -/
def digits? (least most : Nat) (text : Text) : Option Text :=
  let size := (text.takeWhile isAsciiDigit).length
  if least ≤ size && size ≤ most then some (text.drop size) else none

/-- Whether a text is empty or spells how far the time is ahead. -/
def isZone : Text → Bool
  | [] | ['Z'] => true
  | sign :: rest =>
      (sign = '+' || sign = '-') &&
        match digits? 1 2 rest with
        | some [] => true
        | some (':' :: minutes) => digits? 2 2 minutes = some []
        | _ => false

/-- What follows the blanks or the letter between a date and a time. -/
def behindDate? : Text → Option Text
  | 'T' :: rest | 't' :: rest => some rest
  | c :: rest => if isSpace c then some (rest.dropWhile isSpace) else none
  | [] => none

/-- Whether a text spells a date and a time of day. -/
def isTime (text : Text) : Bool :=
  let behind? : Option Text := do
    let month ← after? "-" (← digits? 4 4 text)
    let day ← after? "-" (← digits? 1 2 month)
    let hour ← behindDate? (← digits? 1 2 day)
    let minute ← after? ":" (← digits? 1 2 hour)
    let second ← after? ":" (← digits? 2 2 minute)
    digits? 2 2 second
  match behind? with
  | some ('.' :: rest) => isZone ((rest.dropWhile isAsciiDigit).dropWhile isSpace)
  | some rest => isZone (rest.dropWhile isSpace)
  | none => false

/-- The value that a plain scalar stands for. An equals sign by itself stands for none. -/
def resolve (text : Text) : Attempt Value :=
  if nullWords.contains text then .ok .null
  else if text = ['='] then malformed
  else if text = ['<', '<'] then unread "merged keys are not read"
  else if isFractionOfSixty text then unread "fractions in parts of sixty are not read"
  else if isTime text then unread "times of day are not read"
  else
    match (truthWords.lookup text).map Value.bool, (int? text).or (date? text), real? text with
    | some value, _, _ => .ok value
    | none, some outcome, _ => outcome
    | none, none, some value => .ok (.real value)
    | none, none, none => .ok (.text text)

/-- The length of the part of a plain scalar on one line. -/
def plainLength (flow : Bool) : Text → Nat
  | [] => 0
  | c :: rest =>
      if atGap (c :: rest) || startsColon flow (c :: rest) ||
          (flow && (",?[]\x7b\x7d" : Text).contains c) then 0
      else 1 + plainLength flow rest

/-- What stands for the blanks between two parts of a scalar: the blanks themselves, or one blank
for a single line end, or the further line ends. -/
def gapText (lineEnds : Nat) (blanks : Text) : Text :=
  match lineEnds with
  | 0 => blanks
  | 1 => [' ']
  | more + 1 => List.replicate more '\n'

/-- Pass blanks and line ends. -/
def skipBlanks : (steps : Nat) → Cursor → Cursor
  | 0, cursor => cursor
  | steps + 1, cursor =>
      match cursor.rest with
      | ' ' :: _ | '\n' :: _ => skipBlanks steps cursor.next
      | _ => cursor

/-- Read a plain scalar after the parts in `text`. Its further lines have to be indented by more
than `indent`. The place is where the last part ends. -/
def plainFrom (flow : Bool) (indent : Int) : (steps : Nat) → (text : Text) → Cursor → Text × Cursor
  | 0, text, cursor => (text, cursor)
  | steps + 1, text, cursor =>
      let size := plainLength flow cursor.rest
      let text := text ++ cursor.rest.take size
      let stop := cursor.forward size
      let blanks := stop.rest.takeWhile (· = ' ')
      let after := stop.forward blanks.length
      let next := skipBlanks (steps + 1) after
      let lineEnds := next.line - after.line
      if (blanks.isEmpty && lineEnds = 0) || next.rest.head? = some '#' || atMarker next ||
          (!flow && lineEnds ≠ 0 && (next.column : Int) ≤ indent) ||
          plainLength flow next.rest = 0 then (text, stop)
      else plainFrom flow indent steps (text ++ gapText lineEnds blanks) next

/-- Whether a plain scalar begins a text. -/
def startsPlain (flow : Bool) : Text → Bool
  | [] => false
  | c :: rest =>
      if ("-?:" : Text).contains c then !atGap rest && (c = '-' || !flow)
      else !atGap (c :: rest) && !("-?:,[]\x7b\x7d#&*!|>'\x22%@\x60" : Text).contains c

/-- The characters that the escapes of one letter stand for. -/
def escapes : List (Char × Char) :=
  [('0', '\x00'), ('a', '\x07'), ('b', '\x08'), ('t', '\t'), ('\t', '\t'), ('n', '\n'), ('v', '\x0b'),
    ('f', '\x0c'), ('r', '\r'), ('e', '\x1b'), (' ', ' '), ('\x22', '\x22'), ('/', '/'),
    ('\x5c', '\x5c'), ('N', '\u0085'), ('_', '\u00a0'), ('L', '\u2028'), ('P', '\u2029')]

/-- How many hexadecimal digits follow the letter of an escape. -/
def escapeDigits : Char → Nat
  | 'x' => 2
  | 'u' => 4
  | 'U' => 8
  | _ => 0

/-- Pass the blanks and line ends inside a quoted scalar. -/
def skipQuotedBlanks : (steps : Nat) → Cursor → Cursor
  | 0, cursor => cursor
  | steps + 1, cursor =>
      match cursor.rest with
      | ' ' :: _ | '\t' :: _ | '\n' :: _ => skipQuotedBlanks steps cursor.next
      | _ => cursor

/-- The character with a code. One half of a pair becomes the replacement character. -/
def charOf (code : Nat) : Attempt Char :=
  if 0x10ffff < code then unread "a code is out of range"
  else .ok (if code.isValidChar then Char.ofNat code else '\uFFFD')

/-- Read a quoted scalar after its opening quote and the characters in `text`, which are in reverse
order. -/
def quotedFrom (quote : Char) : (steps : Nat) → (text : Text) → Cursor → Attempt (Text × Cursor)
  | 0, _, _ => malformed
  | steps + 1, text, cursor =>
      match cursor.rest with
      | [] => malformed
      | c :: rest =>
          if c = quote then
            if quote = singleQuote && rest.head? = some singleQuote then
              quotedFrom quote steps (quote :: text) (cursor.forward 2)
            else .ok (text.reverse, cursor.forward 1)
          else if c = backslash && quote = doubleQuote then
            match rest with
            | [] => malformed
            | '\n' :: _ =>
                let start := cursor.next.next
                let next := skipQuotedBlanks (steps + 1) start
                quotedFrom quote steps (List.replicate (next.line - start.line) '\n' ++ text) next
            | letter :: digits =>
                match escapes.lookup letter, escapeDigits letter with
                | some meant, _ => quotedFrom quote steps (meant :: text) (cursor.forward 2)
                | none, 0 => malformed
                | none, count =>
                    let code := digits.take count
                    if code.length = count && code.all isHex then do
                      let meant ← charOf (digitsValue 16 code)
                      quotedFrom quote steps (meant :: text) (cursor.forward (2 + count))
                    else malformed
          else if isSpace c || c = '\n' then
            let blanks := cursor.rest.takeWhile isSpace
            let next := skipQuotedBlanks (steps + 1) cursor
            if atMarker next then malformed
            else quotedFrom quote steps
              ((gapText (next.line - cursor.line) blanks).reverse ++ text) next
          else quotedFrom quote steps (c :: text) (cursor.forward 1)

/-- Whether something begins that YAML allows here and that is not read. -/
def startsUnread (flow : Bool) (cursor : Cursor) : Bool :=
  match cursor.rest with
  | [] => false
  | c :: rest =>
      c = '&' || c = '*' || c = '!' || (c = '?' && (flow || atGap rest)) ||
        (!flow && (c = '|' || c = '>' || (c = '%' && cursor.column = 0)))

def scalar (flow : Bool) (indent : Int) (cursor : Cursor) : Attempt (Node × Cursor) :=
  let steps := cursor.rest.length + 1
  match cursor.rest with
  | [] => malformed
  | c :: _ =>
      if c = singleQuote || c = doubleQuote then
        (quotedFrom c steps [] (cursor.forward 1)).map fun (text, cursor) => (.quoted text, cursor)
      else if startsPlain flow cursor.rest then
        let (text, cursor) := plainFrom flow indent steps [] cursor
        .ok (.plain text, cursor)
      else if startsUnread flow cursor then unread "a part of the document is not read"
      else malformed

/-! ### Collections -/

/-- Pass blanks, comments and line ends. -/
def toNext (cursor : Cursor) : Cursor :=
  skip (cursor.rest.length + 1) cursor

/-- Pass blanks. -/
def alongLine (cursor : Cursor) : Cursor :=
  cursor.forward (cursor.rest.takeWhile (· = ' ')).length

/-- Whether a document has no more content at a place. -/
def atDocumentEnd (cursor : Cursor) : Bool :=
  cursor.rest.isEmpty || atMarker cursor

/-- Read a key in block style with its colon. -/
def blockKey (cursor : Cursor) : Attempt (Node × Cursor) := do
  let (key, after) ← scalar false cursor.column cursor
  let after := alongLine after
  if after.line = cursor.line && startsColon false after.rest then return (key, after.forward 1)
  else malformed

mutual

/-- Read a value in flow style. -/
def flowNode : (steps : Nat) → Cursor → Attempt (Node × Cursor)
  | 0, _ => malformed
  | steps + 1, cursor =>
      match cursor.rest with
      | '[' :: _ => flowItems steps [] (cursor.forward 1)
      | '\x7b' :: _ => flowEntries steps [] (cursor.forward 1)
      | _ => scalar true (-1) cursor

/-- Read a value after a colon in flow style; it may be missing. -/
def flowValue (steps : Nat) (cursor : Cursor) : Attempt (Node × Cursor) :=
  match steps with
  | 0 => malformed
  | steps + 1 =>
      let cursor := toNext cursor
      match cursor.rest with
      | ',' :: _ | ']' :: _ | '\x7d' :: _ => .ok (.missing, cursor)
      | _ => flowNode steps cursor

/-- Read the items of a list in flow style after those in `items`, which are in reverse order. -/
def flowItems (steps : Nat) (items : List Node) (cursor : Cursor) : Attempt (Node × Cursor) :=
  match steps with
  | 0 => malformed
  | steps + 1 =>
      let cursor := toNext cursor
      match cursor.rest with
      | ']' :: _ => .ok (.list items.reverse, cursor.forward 1)
      | _ => do
          let (first, after) ← flowNode steps cursor
          let after := toNext after
          let (item, after) ←
            match after.rest with
            | ':' :: _ => do
                let (value, after) ← flowValue steps (after.forward 1)
                pure (Node.mapping [(first, value)], toNext after)
            | _ => pure (first, after)
          match after.rest with
          | ',' :: _ => flowItems steps (item :: items) (after.forward 1)
          | ']' :: _ => return (.list (item :: items).reverse, after.forward 1)
          | _ => malformed

/-- Read the entries of a mapping in flow style after those in `entries`, which are in reverse
order. -/
def flowEntries (steps : Nat) (entries : List (Node × Node)) (cursor : Cursor) :
    Attempt (Node × Cursor) :=
  match steps with
  | 0 => malformed
  | steps + 1 =>
      let cursor := toNext cursor
      match cursor.rest with
      | '\x7d' :: _ => .ok (.mapping entries.reverse, cursor.forward 1)
      | _ => do
          let (key, after) ← flowNode steps cursor
          let after := toNext after
          let (value, after) ←
            match after.rest with
            | ':' :: _ => do
                let (value, after) ← flowValue steps (after.forward 1)
                pure (value, toNext after)
            | _ => pure (Node.missing, after)
          let entries := (key, value) :: entries
          match after.rest with
          | ',' :: _ => flowEntries steps entries (after.forward 1)
          | '\x7d' :: _ => return (.mapping entries.reverse, after.forward 1)
          | _ => malformed

end

mutual

/-- Read a value in block style that is indented by more than `indent`. Only a `compact` place, the
beginning of a line or of an item, may begin a block. -/
def blockNode (indent : Int) (compact : Bool) : (steps : Nat) → Cursor → Attempt (Node × Cursor)
  | 0, _ => malformed
  | steps + 1, cursor =>
      if startsIndicator '-' cursor.rest then
        if compact then sequence cursor.column [] steps cursor else malformed
      else
        match cursor.rest with
        | '[' :: _ | '\x7b' :: _ => do
            let (value, after) ← flowNode (cursor.rest.length + 1) cursor
            if startsColon false (alongLine after).rest then malformed else return (value, after)
        | _ => do
            let (first, after) ← scalar false indent cursor
            let colon := alongLine after
            if !startsColon false colon.rest then return (first, after)
            else if compact && colon.line = cursor.line then
              mapping cursor.column [] first steps (colon.forward 1)
            else malformed

/-- Read the items of a list in block style from the dash of an item at a column, after those in
`items`, which are in reverse order. -/
def sequence (column : Nat) (items : List Node) (steps : Nat) (cursor : Cursor) :
    Attempt (Node × Cursor) :=
  match steps with
  | 0 => malformed
  | steps + 1 => do
      let start := cursor.forward 1
      let next := toNext start
      let (item, after) ←
        if !atDocumentEnd next && (next.line = start.line || column < next.column) then
          blockNode column true steps next
        else pure (Node.missing, next)
      let after := toNext after
      if !atDocumentEnd after && after.column = column && startsIndicator '-' after.rest then
        sequence column (item :: items) steps after
      else return (.list (item :: items).reverse, after)

/-- Read the entries of a mapping in block style at a column, after those in `entries`, which are in
reverse order. The place is after the colon of the entry with the key `key`. -/
def mapping (column : Nat) (entries : List (Node × Node)) (key : Node) (steps : Nat)
    (cursor : Cursor) : Attempt (Node × Cursor) :=
  match steps with
  | 0 => malformed
  | steps + 1 => do
      let next := toNext cursor
      let (value, after) ←
        if atDocumentEnd next then pure (Node.missing, next)
        else if next.line = cursor.line then blockNode column false steps next
        else if column < next.column then blockNode column true steps next
        else if next.column = column && startsIndicator '-' next.rest then
          sequence column [] steps next
        else pure (Node.missing, next)
      let entries := (key, value) :: entries
      let after := toNext after
      if atDocumentEnd after || after.column < column then return (.mapping entries.reverse, after)
      else if after.column = column then do
        let (key, after) ← blockKey after
        mapping column entries key steps after
      else malformed

end

/-- Whether a character may stand in a document. -/
def isPrintable (c : Char) : Bool :=
  let code := c.toNat
  code = 0x09 || code = 0x0a || code = 0x0d || (0x20 ≤ code && code ≤ 0x7e) || code = 0x85 ||
    (0xa0 ≤ code && code ≠ 0xfffe && code ≠ 0xffff)

/-- Pass the beginning of a document. -/
def openDocument (cursor : Cursor) : Cursor :=
  let cursor := toNext cursor
  if atMarker cursor && startsWith "---" cursor.rest then toNext (cursor.forward 3) else cursor

/-- Whether nothing but the end of its document follows a place. -/
def closesDocument (cursor : Cursor) : Bool :=
  let cursor := toNext cursor
  let cursor :=
    if atMarker cursor && startsWith "..." cursor.rest then toNext (cursor.forward 3) else cursor
  cursor.rest.isEmpty

/-- A line end that only some systems know. -/
def isForeignLineEnd (c : Char) : Bool :=
  isLineEnd c && c ≠ '\n'

/-- Read a text that holds at most one part that is no part of another one. -/
def readNode (text : Text) : Attempt Node :=
  let text := unixLines text
  let text := if text.head? = some '\uFEFF' then text.drop 1 else text
  if !text.all isPrintable then malformed
  else if text.any isForeignLineEnd then unread "line ends of other systems are not read"
  else do
    let start : Cursor := ⟨text, 0, 0⟩
    let first := toNext start
    let cursor := openDocument start
    let compact := !atMarker first || cursor.line ≠ first.line
    let (node, after) ←
      if atDocumentEnd cursor then pure (Node.missing, cursor)
      else blockNode (-1) compact (2 * text.length + 2) cursor
    if closesDocument after then return node else malformed

/-! ### Values -/

/-- The value of a key. A collection is no key. -/
def keyValue : Node → Attempt Value
  | .plain text => resolve text
  | .quoted text => .ok (.text text)
  | _ => malformed

mutual

/-- The value of a part of a document. Keys that are no texts are taken by their written form. -/
def value : Node → Attempt Value
  | .plain text => resolve text
  | .quoted text => .ok (.text text)
  | .list items => (values items).map .list
  | .mapping entries => do
      let pairs ← pairs entries
      return .record (Assoc.ofList (pairs.map fun pair => (pair.1.display, pair.2)))

/-- The values of parts of a document. -/
def values : List Node → Attempt (List Value)
  | [] => .ok []
  | node :: rest => do return (← value node) :: (← values rest)

/-- The keys of a mapping with their values. -/
def pairs : List (Node × Node) → Attempt (List (Value × Value))
  | [] => .ok []
  | (key, node) :: rest => do return (← keyValue key, ← value node) :: (← pairs rest)

end

/-- The document that a part is when it is no part of another one. -/
def document : Node → Attempt Document
  | .mapping entries => do
      let (texts, others) := (← pairs entries).partition fun pair => pair.1 matches .text _
      let byText (pairs : List (Value × Value)) : List (Text × Value) :=
        pairs.map fun pair => (pair.1.display, pair.2)
      return .mapping (Assoc.ofList (byText texts)) ((byText others).map Prod.fst)
  | node => (value node).map .single

/-- What is said of a text that is no YAML. -/
def notYaml : Text := "the document is not valid YAML"

/-- Read a text that holds at most one document. -/
def read (text : Text) : Document :=
  match readNode text >>= document with
  | .ok document => document
  | .error .malformed => .malformed notYaml
  | .error (.unread reason) => .unread reason

end HarnessIndex.Yaml
