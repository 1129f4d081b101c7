import HarnessIndex.Attribute.Descriptor

/-!
# Harness metadata

What is known about one harness. The attribute settings of a harness are read off its descriptors:
where an attribute may be given once, the first one counts.
-/

namespace HarnessIndex.Harness

open Text
open Attribute (Descriptor)

/-- How a harness is run. -/
inductive Kind where
  | proof
  | unitTest
  deriving DecidableEq, Repr, Inhabited

namespace Kind

def name : Kind → Text
  | proof => "proof"
  | unitTest => "unit_test"

def ofName? (name : Text) : Option Kind :=
  if name = proof.name then some proof
  else if name = unitTest.name then some unitTest
  else none

@[simp] theorem ofName?_name (kind : Kind) : ofName? kind.name = some kind := by
  cases kind <;> rfl

end Kind

/-- One harness. `totalProofs` counts the proofs of the whole file. -/
structure Metadata where
  harnessName : Text
  kind : Kind
  startLine : Nat
  endLine : Nat
  attributes : List Descriptor
  totalProofs : Nat
  modulePath : List Text
  doc : Option Text
  entryPoint : Option Text
  deriving DecidableEq, Repr, Inhabited

namespace Metadata

/-- The name with the modules it stands in. -/
def qualifiedName (harness : Metadata) : Text :=
  join "::" (harness.modulePath ++ [harness.harnessName])

def isProof (harness : Metadata) : Bool :=
  harness.kind = .proof

/-- The first attribute of a kind. -/
def first? (harness : Metadata) (kind : Attribute.Kind) : Option Descriptor :=
  harness.attributes.find? fun descriptor => descriptor.kind = kind

/-- The loop bound, as it is written. -/
def unwind (harness : Metadata) : Option Text :=
  (harness.first? .unwind).bind fun descriptor => descriptor.arguments.head?

/-- The solver, as it is written. -/
def solver (harness : Metadata) : Option Text :=
  (harness.first? .solver).bind fun descriptor =>
    if descriptor.arguments.isEmpty then none else some (join ", " descriptor.arguments)

/-- The function whose contract is proved. -/
def contractTarget (harness : Metadata) : Option Text :=
  (harness.first? .proofForContract).bind fun descriptor => descriptor.arguments.head?

def shouldPanic (harness : Metadata) : Bool :=
  (harness.first? .shouldPanic).isSome

/-- The arguments of every stub, in order. -/
def stubs (harness : Metadata) : List (List Text) :=
  (harness.attributes.filter fun descriptor =>
    descriptor.kind = .stub || descriptor.kind = .stubVerified).map Descriptor.arguments

def unsupportedAttributes (harness : Metadata) : List Descriptor :=
  harness.attributes.filter fun descriptor => !descriptor.supported

end Metadata

end HarnessIndex.Harness
