import HarnessIndex.Value.Value

/-!
# Failures

A failure carries a code, a message, whether it may be tried again, and details for programs that
handle it. A bad source text is never a failure; only a bad configuration and a grammar that cannot
be loaded are.
-/

namespace HarnessIndex

/-- The codes of failures. -/
inductive ErrorCode where
  | configParseError
  | configInvalidValue
  | parserUnavailable
  deriving DecidableEq, Repr, Inhabited

namespace ErrorCode

def all : List ErrorCode :=
  [configParseError, configInvalidValue, parserUnavailable]

def number : ErrorCode → Nat
  | configParseError => 2001
  | configInvalidValue => 2002
  | parserUnavailable => 3001

def name : ErrorCode → Text
  | configParseError => "CONFIG_PARSE_ERROR"
  | configInvalidValue => "CONFIG_INVALID_VALUE"
  | parserUnavailable => "PARSER_UNAVAILABLE"

def ofNumber? (number : Int) : Option ErrorCode :=
  all.find? fun code => (code.number : Int) = number

@[simp] theorem ofNumber?_number (code : ErrorCode) : ofNumber? code.number = some code := by
  cases code <;> rfl

end ErrorCode

/-- A failure. -/
structure Failure where
  code : ErrorCode
  message : Text
  retryable : Bool
  details : List (Text × Value)
  deriving Repr, Inhabited

namespace Failure

/-- A configuration file that cannot be read as a configuration. -/
def configParse (path reason : Text) : Failure where
  code := .configParseError
  message := "Failed to parse config at " ++ path ++ ": " ++ reason
  retryable := false
  details := [("path", .text path), ("reason", .text reason)]

/-- A setting with a value that is not allowed. -/
def configValue (field : Text) (value : Value) (reason : Text) : Failure where
  code := .configInvalidValue
  message := "Invalid value for '" ++ field ++ "': " ++ reason
  retryable := false
  details := [("field", .text field), ("value", .text value.display), ("reason", .text reason)]

/-- A grammar that cannot be loaded. The next attempt may succeed. -/
def grammarUnavailable (reason : Text) : Failure where
  code := .parserUnavailable
  message := "Rust grammar unavailable: " ++ reason
  retryable := true
  details := [("reason", .text reason)]

def text (failure : Failure) : Text :=
  '[' :: Text.ofNat failure.code.number ++ "] " ++ failure.code.name ++ ": " ++ failure.message

def toValue (failure : Failure) : Value :=
  .record [("code", .int failure.code.number), ("error", .text failure.code.name),
    ("message", .text failure.message), ("retryable", .bool failure.retryable),
    ("details", .record failure.details)]

end Failure

end HarnessIndex
