import HarnessIndex.Attribute.Classify
import HarnessIndex.Harness.Metadata

/-!
# Finding harnesses

A function is a harness when one of its attributes declares it, or when its body invokes the entry
point of the test framework. The two ways of finding harnesses are independent of each other; the
index joins what they find.
-/

namespace HarnessIndex.Harness

open Syntax Attribute

def entryMacros : List Text :=
  ["bolero::check", "check"]

def entryFunctions : List Text :=
  ["bolero::check"]

/-- The kinds of nodes whose inside does not belong to a function. -/
def isForeign (kind : Syntax.Kind) : Bool :=
  kind = .functionItem || kind = .closureExpression

/-- A function that was found to be a harness. -/
structure Candidate where
  node : Node
  name : Text
  modulePath : List Text
  attributes : List Descriptor
  declaredByAttribute : Bool
  entryPoint : Option Text
  invocationCount : Nat

def entryPoint? (node : Node) : Option Text := do
  let callee ← node.callee?
  if node.kind = .macroInvocation then
    if entryMacros.contains callee then some callee else none
  else if entryFunctions.contains callee then some callee
  else none

/-- The entry points invoked by one statement of a body. -/
def statementInvocations (statement : Node) : List Text :=
  if isForeign statement.kind then []
  else (statement :: statement.descendants isForeign).filterMap entryPoint?

/-- The entry points that the body of a function invokes, in source order. -/
def invocations (function : Node) : List Text :=
  match function.field? .body with
  | none => []
  | some body => body.children.flatMap statementInvocations

/-- The harness that a function is by its attributes. -/
def byAttribute? (item : Item) : Option Candidate := do
  let name ← item.node.name?
  let attributes := classifyAll item.node
  if declaresHarness attributes then
    some { node := item.node, name, modulePath := item.modulePath, attributes
           declaredByAttribute := true, entryPoint := none, invocationCount := 0 }
  else none

/-- The harness that a function is by what it invokes. -/
def byInvocation? (item : Item) : Option Candidate := do
  let name ← item.node.name?
  match invocations item.node with
  | [] => none
  | first :: rest =>
      some { node := item.node, name, modulePath := item.modulePath
             attributes := classifyAll item.node, declaredByAttribute := false
             entryPoint := some first, invocationCount := rest.length + 1 }

/-- The harnesses of a file that are declared by attributes. -/
def attributeHarnesses (root : Node) : List Candidate :=
  (functionsOf root).filterMap byAttribute?

/-- The harnesses of a file that invoke an entry point. -/
def invocationHarnesses (root : Node) : List Candidate :=
  (functionsOf root).filterMap byInvocation?

end HarnessIndex.Harness
