import HarnessIndex.Value.Value

/-!
# Checking values

Settings come as values and are checked against what they should be. A check gives a result or
rejects its input; a rejection lists every issue with the path to the offending part, in the order
in which the parts are declared. A check may also be abandoned, when it cannot be decided at all.
-/

namespace HarnessIndex.Settings

/-- A step on the way to a part of a value. -/
inductive Step where
  | key (name : Text)
  | index (position : Nat)
  deriving DecidableEq, Repr, Inhabited

namespace Step

/-- The written form of a step. -/
def text : Step → Text
  | key name => name
  | index position => Text.ofNat position

def toValue : Step → Value
  | key name => .text name
  | index position => .int position

end Step

/-- A part of a value that is not what it should be. -/
structure Issue where
  path : List Step
  code : Text
  message : Text
  input : Value
  deriving Repr, Inhabited

namespace Issue

/-- The path of an issue with dots between its steps. -/
def field (issue : Issue) : Text :=
  Text.join ['.'] (issue.path.map Step.text)

end Issue

/-- Why a value was not accepted. -/
inductive Rejection where
  | issues (first : Issue) (rest : List Issue)
  | abandoned (reason : Text)
  deriving Repr, Inhabited

abbrev Checked (α : Type) := Except Rejection α

namespace Checked

/-- Reject a value for one reason. -/
def issue {α : Type} (code message : Text) (input : Value) : Checked α :=
  .error (.issues ⟨[], code, message, input⟩ [])

/-- The outcome of a check of the part that a step leads to. -/
def under {α : Type} (step : Step) : Checked α → Checked α
  | .ok value => .ok value
  | .error (.issues first rest) =>
      let extend (issue : Issue) : Issue := { issue with path := step :: issue.path }
      .error (.issues (extend first) (rest.map extend))
  | .error (.abandoned reason) => .error (.abandoned reason)

/-- The outcome of two checks, with the issues of both. -/
def both {α β : Type} : Checked α → Checked β → Checked (α × β)
  | .ok first, .ok second => .ok (first, second)
  | .ok _, .error rejection => .error rejection
  | .error (.abandoned reason), _ => .error (.abandoned reason)
  | .error (.issues _ _), .error (.abandoned reason) => .error (.abandoned reason)
  | .error (.issues first rest), .ok _ => .error (.issues first rest)
  | .error (.issues first rest), .error (.issues next more) =>
      .error (.issues first (rest ++ next :: more))

/-- The outcome of a check of every item of a list. -/
def items {α : Type} (check : Value → Checked α) (position : Nat) : List Value → Checked (List α)
  | [] => .ok []
  | item :: rest =>
      (both (under (.index position) (check item)) (items check (position + 1) rest)).map
        fun pair => pair.1 :: pair.2

/-- The outcome of a check of the value of a key, or what holds when there is no such key. -/
def field {α : Type} (name : Text) (absent : α) (check : Value → Checked α)
    (entries : List (Text × Value)) : Checked α :=
  match Assoc.get? name entries with
  | some value => under (.key name) (check value)
  | none => .ok absent

/-- The entries of a record that stands for a model. -/
def record (model : Text) : Value → Checked (List (Text × Value))
  | .record entries => .ok entries
  | input =>
      issue "model_type" ("Input should be a valid dictionary or instance of " ++ model) input

def text : Value → Checked Text
  | .text value => .ok value
  | input => issue "string_type" "Input should be a valid string" input

/-- A list whose items pass a check. -/
def list {α : Type} (check : Value → Checked α) : Value → Checked (List α)
  | .list values => items check 0 values
  | input => issue "list_type" "Input should be a valid list" input

def oneOf {α : Type} (choices : List (Text × α)) (message : Text) (input : Value) : Checked α :=
  match input with
  | .text name =>
      match choices.lookup name with
      | some value => .ok value
      | none => issue "literal_error" message input
  | _ => issue "literal_error" message input

/-- Whether digits have no low line at their ends and no two of them in a row. -/
def wellSpaced : Text → Bool
  | [] => false
  | ['_'] => false
  | '_' :: '_' :: _ => false
  | [_] => true
  | _ :: rest => wellSpaced rest

/-- The number that a text spells: decimal digits with a sign, with single low lines between them,
and with a fraction of zeros. -/
def decimal? (text : Text) : Option Int :=
  let trimmed := Text.trim text
  let (negative, unsigned) :=
    match trimmed with
    | '-' :: rest => (true, rest)
    | '+' :: rest => (false, rest)
    | rest => (false, rest)
  let digits := unsigned.takeWhile (· ≠ '.')
  let fraction := (unsigned.drop digits.length).drop 1
  if digits.head? ≠ some '_' && wellSpaced digits &&
      digits.all (fun c => Text.isAsciiDigit c || c = '_') && fraction.all (· = '0') then
    let size : Int := Text.digitsValue 10 (digits.filter (· ≠ '_'))
    some (if negative then -size else size)
  else none

/-- The longest text that is read as a number. -/
def longestNumber : Nat := 4300

def tooLarge {α : Type} (input : Value) : Checked α :=
  issue "int_parsing_size"
    "Unable to parse input string as an integer, exceeded maximum size" input

/-- A whole number. Truth values count as one and zero, numbers without a fraction and texts that
spell one are accepted. -/
def int (input : Value) : Checked Int :=
  match input with
  | .int value => .ok value
  | .bool value => .ok (if value then 1 else 0)
  | .real value =>
      if !value.isFinite then issue "finite_number" "Input should be a finite number" input
      else
        match value.toInt? with
        | some whole => if whole.natAbs < Binary64.twoTo 63 then .ok whole else tooLarge input
        | none =>
            issue "int_from_float"
              "Input should be a valid integer, got a number with a fractional part" input
  | .text value =>
      match decimal? value with
      | some whole => if longestNumber < value.length then tooLarge input else .ok whole
      | none =>
          issue "int_parsing"
            "Input should be a valid integer, unable to parse string as an integer" input
  | _ => issue "int_type" "Input should be a valid integer" input

/-- The issue that a value is rejected by a rule of its own. -/
def rule {α : Type} (message : Text) (input : Value) : Checked α :=
  issue "value_error" ("Value error, " ++ message) input

end Checked

end HarnessIndex.Settings
