import HarnessIndex.Attribute.Condition
import HarnessIndex.Attribute.Descriptor
import HarnessIndex.Syntax.Items

/-!
# Classifying the attributes of an item

Every attribute item becomes a descriptor. A conditional attribute whose condition holds when the
verifier runs stands for the attributes it wraps, as if they were written on the item; any other
conditional attribute is one descriptor of its own.
-/

namespace HarnessIndex.Attribute

open Syntax

def conditional : Text := "cfg_attr"

/-- The descriptors of one attribute with a path and arguments. -/
def expand (name : Text) (arguments : List Text) (line : Nat) : List Descriptor :=
  match arguments with
  | condition :: next :: wrapped =>
      if name = conditional && enablesUnderKani condition then
        (next :: wrapped).filterMap fun text => Descriptor.ofText? text line
      else [Descriptor.ofName name arguments line]
  | _ => [Descriptor.ofName name arguments line]

/-- The descriptors of one attribute item. -/
def classify (item : Node) : List Descriptor :=
  match item.attributePath? with
  | none => []
  | some name => expand name item.literalArguments item.startLine

/-- Whether two attributes have the same path and the same arguments. -/
def sameAttribute (first second : Descriptor) : Bool :=
  first.name = second.name && first.arguments = second.arguments

/-- Keep the first of the attributes that are the same. -/
def distinct : List Descriptor → List Descriptor
  | [] => []
  | first :: rest => first :: (distinct rest).filter fun later => !sameAttribute first later

/-- The descriptors of all attributes of an item, each attribute once. -/
def classifyAll (item : Node) : List Descriptor :=
  distinct (item.attributes.flatMap classify)

@[simp] theorem distinct_nil : distinct [] = [] := rfl

@[simp] theorem distinct_cons (first : Descriptor) (rest : List Descriptor) :
    distinct (first :: rest) =
      first :: (distinct rest).filter fun later => !sameAttribute first later := rfl

end HarnessIndex.Attribute
