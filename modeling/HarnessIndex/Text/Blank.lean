/-!
# Texts and their blank characters

A text is a list of characters. A blank is a character that separates words: the ASCII blanks, the
four separator controls and the Unicode spaces, but neither the zero-width space nor the byte order
mark. Trimming removes blanks at both ends, and `withoutBlanks` removes all of them.
-/

namespace HarnessIndex

/-- A text, as the list of its characters. -/
abbrev Text := List Char

/-- A string literal may stand for the text it spells. -/
instance : Coe String Text := ⟨String.toList⟩

namespace Text

/-- A character that separates words. -/
def isBlank (c : Char) : Bool :=
  let code := c.toNat
  (0x09 ≤ code && code ≤ 0x0d) || (0x1c ≤ code && code ≤ 0x20) || code = 0x85 || code = 0xa0 ||
    code = 0x1680 || (0x2000 ≤ code && code ≤ 0x200a) || code = 0x2028 || code = 0x2029 ||
    code = 0x202f || code = 0x205f || code = 0x3000

/-- Drop the blanks at the front. -/
def trimStart (text : Text) : Text :=
  text.dropWhile isBlank

/-- Drop the blanks at the back. -/
def trimEnd : Text → Text
  | [] => []
  | c :: rest =>
      match trimEnd rest with
      | [] => if isBlank c then [] else [c]
      | kept => c :: kept

/-- Drop the blanks at both ends. -/
def trim (text : Text) : Text :=
  trimEnd (trimStart text)

/-- Drop every blank. -/
def withoutBlanks (text : Text) : Text :=
  text.filter fun c => !isBlank c

@[simp] theorem trimStart_nil : trimStart [] = [] := rfl

@[simp] theorem trimEnd_nil : trimEnd [] = [] := rfl

@[simp] theorem trim_nil : trim [] = [] := rfl

@[simp] theorem withoutBlanks_nil : withoutBlanks [] = [] := rfl

theorem withoutBlanks_append (front back : Text) :
    withoutBlanks (front ++ back) = withoutBlanks front ++ withoutBlanks back := by
  simp [withoutBlanks]

def startsWith (start : Text) (text : Text) : Bool :=
  start.isPrefixOf text

def endsWith (finish : Text) (text : Text) : Bool :=
  finish.isSuffixOf text

/-- What follows `start` at the front of `text`, if `text` starts with it. -/
def after? : (start : Text) → (text : Text) → Option Text
  | [], text => some text
  | _ :: _, [] => none
  | expected :: start, c :: text => if c = expected then after? start text else none

def occursIn (part : Text) : Text → Bool
  | [] => part.isEmpty
  | c :: rest => startsWith part (c :: rest) || occursIn part rest

/-- The pieces between the occurrences of one character. -/
def splitOn (separator : Char) : Text → List Text
  | [] => [[]]
  | c :: rest =>
      if c = separator then [] :: splitOn separator rest
      else
        match splitOn separator rest with
        | [] => [[c]]
        | piece :: pieces => (c :: piece) :: pieces

/-- Texts written one after the other with a separator between them. -/
def join (separator : Text) : List Text → Text
  | [] => []
  | [text] => text
  | text :: rest => text ++ separator ++ join separator rest

@[simp] theorem join_nil (separator : Text) : join separator [] = [] := rfl

@[simp] theorem join_singleton (separator text : Text) : join separator [text] = text := rfl

@[simp] theorem join_cons_cons (separator text next : Text) (rest : List Text) :
    join separator (text :: next :: rest) = text ++ separator ++ join separator (next :: rest) :=
  rfl

theorem splitOn_ne_nil (separator : Char) (text : Text) : splitOn separator text ≠ [] := by
  induction text with
  | nil => simp [splitOn]
  | cons c rest ih =>
      simp only [splitOn]
      split
      · simp
      · split <;> simp

/-- A natural number in decimal. -/
def ofNat (n : Nat) : Text :=
  Nat.toDigits 10 n

/-- `text` with blanks put in front until it has `size` characters. -/
def padStart (size : Nat) (text : Text) : Text :=
  List.replicate (size - text.length) ' ' ++ text

end Text

end HarnessIndex
