import HarnessIndex.Proofs.Harness.Kinds
import HarnessIndex.Reader.Source
import HarnessIndex.Replay.Locate

/-!
# The scope of a function body

What a function invokes is looked for in a part of its body: the nodes that are reached from the
body through named children, with no nested function, closure or comment on the way. The invoked
entry points are read off these nodes in pre-order, each position counting once. A generated test is
looked for in the same part, so both searches agree on what belongs to a function.
-/

namespace HarnessIndex.Harness

open Syntax

/-! ## Invoking an entry point -/

/-- The node that a macro invocation or a call names as its callee. Type arguments at the callee of a
call are left off. -/
inductive HasCallee (call target : Node) : Prop where
  | ofMacro : call.kind = .macroInvocation → call.field? .macroPath = some target →
      HasCallee call target
  | plain : call.kind = .callExpression → call.field? .function = some target →
      target.kind ≠ .genericFunction → HasCallee call target
  | withTypes {typed : Node} : call.kind = .callExpression →
      call.field? .function = some typed → typed.kind = .genericFunction →
      typed.field? .function = some target → HasCallee call target

/-- A node invokes an entry point: its callee is a path that, without blanks, names the entry point.
One of the entry points can be invoked as a macro only. -/
structure Invokes (call : Node) (entry : Text) : Prop where
  callee : ∃ target, HasCallee call target ∧ target.kind.isPath = true ∧
    Text.withoutBlanks target.text = entry
  known : entry = "bolero::check" ∨ call.kind = .macroInvocation ∧ entry = "check"

variable {call target : Node} {entry : Text}

theorem calleeNode?_eq_some : call.calleeNode? = some target ↔ HasCallee call target := by
  rw [Node.calleeNode?]
  constructor
  · intro found
    split at found
    · rename_i isMacro
      exact .ofMacro isMacro found
    · split at found
      · rename_i isCall
        obtain ⟨named, filled, found⟩ := Option.bind_eq_some_iff.mp found
        split at found
        · rename_i generic
          exact .withTypes isCall filled generic found
        · rename_i other
          obtain rfl := Option.some.inj found
          exact .plain isCall filled other
      · cases found
  · intro callee
    cases callee with
    | ofMacro isMacro filled => rw [if_pos isMacro, filled]
    | plain isCall filled other => simp [isCall, filled, other]
    | withTypes isCall filled generic inner => simp [isCall, filled, generic, inner]

theorem callee?_eq_some :
    call.callee? = some entry ↔
      (∃ target, HasCallee call target ∧ target.kind.isPath = true ∧
        Text.withoutBlanks target.text = entry) ∧ entry ≠ [] := by
  constructor
  · intro found
    obtain ⟨target, called, isPath, same, some⟩ := Node.exists_of_callee? found
    exact ⟨⟨target, calleeNode?_eq_some.mp called, isPath, same⟩, some⟩
  · rintro ⟨⟨target, called, isPath, same⟩, some⟩
    rw [Node.callee?, calleeNode?_eq_some.mpr called]
    refine (if_pos isPath).trans ?_
    exact Node.nonempty?_eq_some.mpr ⟨same, some⟩

/-- A callee belongs to a macro invocation or to a call. -/
theorem HasCallee.kind_cases (callee : HasCallee call target) :
    call.kind = .macroInvocation ∨ call.kind = .callExpression := by
  cases callee with
  | ofMacro isMacro _ => exact Or.inl isMacro
  | plain isCall _ _ => exact Or.inr isCall
  | withTypes isCall _ _ _ => exact Or.inr isCall

theorem Invokes.isComment_eq_false (invokes : Invokes call entry) : call.isComment = false := by
  obtain ⟨target, callee, -, -⟩ := invokes.callee
  rw [Node.isComment]
  rcases callee.kind_cases with kind | kind <;> rw [kind] <;> rfl

/-- Whether a callee is an entry point depends on the kind of the node. -/
theorem isEntry_iff :
    (if call.kind = .macroInvocation then entryMacros else entryFunctions).contains entry = true ↔
      entry = "bolero::check" ∨ call.kind = .macroInvocation ∧ entry = "check" := by
  rw [List.contains_iff_mem]
  split
  · rename_i isMacro
    simp [entryMacros, isMacro]
  · rename_i other
    simp [entryFunctions, other]

theorem entryPoint?_of_callee? {callee : Text} (named : call.callee? = some callee) :
    entryPoint? call =
      if (if call.kind = .macroInvocation then entryMacros else entryFunctions).contains callee
        then some callee else none := by
  rw [entryPoint?, named, Option.bind_eq_bind, Option.bind_some]
  split <;> rfl

/-- The entry point read off a node is the one that the node invokes. -/
theorem entryPoint?_eq_some : entryPoint? call = some entry ↔ Invokes call entry := by
  constructor
  · intro found
    obtain ⟨callee, named, -⟩ := Option.bind_eq_some_iff.mp found
    rw [entryPoint?_of_callee? named, Option.ite_none_right_eq_some] at found
    obtain ⟨listed, same⟩ := found
    obtain rfl := Option.some.inj same
    exact ⟨(callee?_eq_some.mp named).1, isEntry_iff.mp listed⟩
  · rintro ⟨callee, known⟩
    have some : entry ≠ [] := by
      rcases known with rfl | ⟨-, rfl⟩ <;> decide
    rw [entryPoint?_of_callee? (callee?_eq_some.mpr ⟨callee, some⟩), if_pos (isEntry_iff.mpr known)]

/-! ## Where entry points are looked for -/

/-- A function invokes what stands in its own part of the body, each position counting once, in
pre-order. It is what the walk over this part gives, and a generated test is looked for by the same
walk. -/
theorem invocations_inPreorder {function body : Node} (filled : function.field? .body = some body) :
    InPreorder (fun position entry => ∃ call,
        Node.StandsBelow (Node.endsWalk isForeign) body position call ∧ Invokes call entry)
      (invocations function) ∧
    InPreorder (Node.IsVisited isForeign body) (body.descendants isForeign) ∧
    invocations function = (body.descendants isForeign).filterMap entryPoint? ∧
    Replay.runnerCall? function = (body.descendants isForeign).find? Replay.isRunnerCall := by
  have scope := Node.inPreorder_descendants isForeign body
  have walked : invocations function = (body.descendants isForeign).filterMap entryPoint? := by
    rw [invocations_eq, ownNodes, filled, Node.descendants_eq_below]
  refine ⟨?_, scope, walked, ?_⟩
  · rw [walked]
    refine (scope.filterMap entryPoint?).congr ?_
    intro position entry
    constructor
    · rintro ⟨call, ⟨stands, -⟩, found⟩
      exact ⟨call, stands, entryPoint?_eq_some.mp found⟩
    · rintro ⟨call, stands, invokes⟩
      exact ⟨call, ⟨stands, invokes.isComment_eq_false⟩, entryPoint?_eq_some.mpr invokes⟩
  · rw [Replay.runnerCall?, filled]
    rfl

/-- A file with a function that invokes entry points as a macro and with type arguments, in a block.
Those in a closure, in a comment and in a nested function are none of its own. -/
def layered : Node :=
  (Reader.parse
    "fn f(){check!();|x|check!(x);/*check!()*/fn g(){check!()}{bolero::check::<u8>()}}").root

theorem invocations_inPreorder_layered :
    ∃ item ∈ functionsOf layered, ∃ body, item.node.field? .body = some body ∧
      invocations item.node = ["check", "bolero::check"] ∧
      InPreorder (fun position entry => ∃ call,
        Node.StandsBelow (Node.endsWalk isForeign) body position call ∧ Invokes call entry)
        (invocations item.node) := by
  have known : ((functionsOf layered).any fun item =>
      (item.node.field? .body).isSome &&
        invocations item.node = ["check", "bolero::check"]) = true := by
    decide +kernel
  obtain ⟨item, member, holds⟩ := List.any_eq_true.mp known
  rw [Bool.and_eq_true, decide_eq_true_iff] at holds
  obtain ⟨body, filled⟩ := Option.isSome_iff_exists.mp holds.1
  exact ⟨item, member, body, filled, holds.2, (invocations_inPreorder filled).1⟩

end HarnessIndex.Harness
