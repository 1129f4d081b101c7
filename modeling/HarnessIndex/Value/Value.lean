import HarnessIndex.Ordered
import HarnessIndex.Text.Quoted
import HarnessIndex.Value.Number

/-!
# Values

The values that settings, environment variables and reports are made of. The entries of a record
keep their order, and a key occurs once.
-/

namespace HarnessIndex

/-- A value. One of a kind that no setting takes, such as a date, is known by its written forms: by
itself, and inside another value. -/
inductive Value where
  | null
  | bool (value : Bool)
  | int (value : Int)
  | real (value : Binary64)
  | text (value : Text)
  | other (written inside : Text)
  | list (items : List Value)
  | record (entries : List (Text × Value))
  deriving Repr, Inhabited, BEq

namespace Value

/-- A whole number in decimal. -/
def intText : Int → Text
  | .ofNat n => Text.ofNat n
  | .negSucc n => '-' :: Text.ofNat (n + 1)

def field? (key : Text) : Value → Option Value
  | record entries => Assoc.get? key entries
  | _ => none

/-- Whether a value counts as nothing: null, false, zero, or empty. -/
def isBlank : Value → Bool
  | null => true
  | bool value => !value
  | int value => value = 0
  | real (.finite _ significand _) => significand = 0
  | real _ => false
  | text value => value.isEmpty
  | other _ _ => false
  | list items => items.isEmpty
  | record entries => entries.isEmpty

mutual

/-- The written form of a value inside another one: texts are quoted. -/
def inner : Value → Text
  | null => "None"
  | bool true => "True"
  | bool false => "False"
  | int value => intText value
  | real value => value.toText
  | text value => Text.quoted value
  | other _ inside => inside
  | list items => '[' :: innerItems items ++ [']']
  | record entries => '\x7b' :: innerEntries entries ++ ['\x7d']

/-- The written form of the items of a list. -/
def innerItems : List Value → Text
  | [] => []
  | [item] => inner item
  | item :: rest => inner item ++ ", " ++ innerItems rest

/-- The written form of the entries of a record. -/
def innerEntries : List (Text × Value) → Text
  | [] => []
  | [(key, value)] => Text.quoted key ++ ": " ++ inner value
  | (key, value) :: rest => Text.quoted key ++ ": " ++ inner value ++ ", " ++ innerEntries rest

end

/-- The written form of a value by itself: a text stands for itself. -/
def display : Value → Text
  | text value => value
  | other written _ => written
  | value => inner value

/-- The largest number of decimal digits that are read or written. -/
def mostDigits : Nat := 4300

/-- What is said of a number with more digits than that. -/
def tooManyDigits : Text :=
  "Exceeds the limit (4300 digits) for integer string conversion; " ++
    "use sys.set_int_max_str_digits() to increase the limit"

mutual

/-- Whether a value can be written: no whole number in it has too many digits. -/
def isWritable : Value → Bool
  | int value => value.natAbs < Binary64.tenTo mostDigits
  | list items => areWritable items
  | record entries => entriesWritable entries
  | _ => true

/-- Whether the items of a list can be written. -/
def areWritable : List Value → Bool
  | [] => true
  | item :: rest => isWritable item && areWritable rest

/-- Whether the entries of a record can be written. -/
def entriesWritable : List (Text × Value) → Bool
  | [] => true
  | (_, value) :: rest => isWritable value && entriesWritable rest

end

mutual

/-- Merge a value over another one: records are merged entry by entry, and any other value replaces
what it is merged over. -/
def mergeOver (base : Value) : Value → Value
  | record upper =>
      match base with
      | record entries => record (mergeEntries entries upper)
      | _ => record upper
  | value => value

/-- Merge the entries of a record over those of another one. -/
def mergeEntries (base : List (Text × Value)) : List (Text × Value) → List (Text × Value)
  | [] => base
  | (key, value) :: rest =>
      mergeEntries
        (match Assoc.get? key base with
        | some current => Assoc.put key (mergeOver current value) base
        | none => Assoc.put key value base)
        rest

end

@[simp] theorem mergeEntries_nil (base : List (Text × Value)) : mergeEntries base [] = base := by
  rw [mergeEntries]

end Value

end HarnessIndex
