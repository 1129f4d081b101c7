import HarnessIndex.Attribute.Arguments

/-!
# Attribute descriptors

What is known about one attribute of a function: its path without blanks, its argument texts, the
line it stands on, and which attribute of the verifier it is. Attributes outside the closed list of
kinds are kept and marked unsupported.

`Descriptor.ofText?` reads an attribute from its written form, as it appears inside a conditional
attribute.
-/

namespace HarnessIndex.Attribute

open Text

/-- The attributes that are understood, and one kind for all others. -/
inductive Kind where
  | proof
  | proofForContract
  | shouldPanic
  | unwind
  | stub
  | stubVerified
  | solver
  | unsupported
  deriving DecidableEq, Repr, Inhabited

namespace Kind

/-- The attribute paths that are understood. -/
def known : List (Text × Kind) :=
  [("kani::proof", proof), ("kani::proof_for_contract", proofForContract),
    ("kani::should_panic", shouldPanic), ("kani::unwind", unwind), ("kani::stub", stub),
    ("kani::stub_verified", stubVerified), ("kani::solver", solver)]

/-- The kind of the attribute with a path. -/
def ofName (name : Text) : Kind :=
  (known.lookup name).getD unsupported

/-- The path that a kind stands for. -/
def name : Kind → Text
  | proof => "kani::proof"
  | proofForContract => "kani::proof_for_contract"
  | shouldPanic => "kani::should_panic"
  | unwind => "kani::unwind"
  | stub => "kani::stub"
  | stubVerified => "kani::stub_verified"
  | solver => "kani::solver"
  | unsupported => "unsupported"

@[simp] theorem ofName_name (kind : Kind) : ofName kind.name = kind := by
  cases kind <;> decide

/-- Whether an attribute of this kind makes its function a harness. -/
def declaresHarness : Kind → Bool
  | proof | proofForContract => true
  | _ => false

end Kind

/-- One attribute of a function. -/
structure Descriptor where
  name : Text
  arguments : List Text
  supported : Bool
  kind : Kind
  line : Nat
  deriving DecidableEq, Repr, Inhabited

namespace Descriptor

/-- The attribute with a path and arguments. -/
def ofName (name : Text) (arguments : List Text) (line : Nat) : Descriptor :=
  { name, arguments, supported := Kind.ofName name ≠ .unsupported, kind := Kind.ofName name, line }

/-- The display form: the path, and the arguments if there are any. -/
def text (descriptor : Descriptor) : Text :=
  if descriptor.arguments.isEmpty then descriptor.name
  else descriptor.name ++ '(' :: join ", " descriptor.arguments ++ [')']

/-- A character that can stand in an attribute path after its first one. -/
def isPathChar (c : Char) : Bool :=
  isWord c || isBlank c || c = ':'

/-- The arguments that a written attribute has after its path: none, a delimited token text, or the
value after an equals sign. -/
def tailArguments? : Text → Option (List Text)
  | [] => some []
  | c :: rest =>
      if isOpener c then some (splitArguments (c :: rest))
      else if c = '=' then some (trimmedPieces [rest])
      else none

/-- Read an attribute from its written form. The answer is `none` when the text does not begin with
a path, or when something other than arguments or a value follows it. -/
def ofText? (text : Text) (line : Nat) : Option Descriptor :=
  match trim text with
  | [] => none
  | first :: rest =>
      if isAsciiLetter first || first = '_' then
        (tailArguments? (rest.dropWhile isPathChar)).map fun arguments =>
          ofName (withoutBlanks (first :: rest.takeWhile isPathChar)) arguments line
      else none

theorem isPathChar_of_isWord {c : Char} (word : isWord c = true) : isPathChar c = true := by
  rw [isPathChar, word, Bool.true_or, Bool.true_or]

@[simp] theorem text_of_no_arguments (name : Text) (line : Nat) :
    (ofName name [] line).text = name := rfl

end Descriptor

/-- Whether one of the attributes makes its function a harness. -/
def declaresHarness (descriptors : List Descriptor) : Bool :=
  descriptors.any fun descriptor => descriptor.kind.declaresHarness

@[simp] theorem declaresHarness_nil : declaresHarness [] = false := rfl

@[simp] theorem declaresHarness_cons (descriptor : Descriptor) (rest : List Descriptor) :
    declaresHarness (descriptor :: rest) =
      (descriptor.kind.declaresHarness || declaresHarness rest) := rfl

end HarnessIndex.Attribute
