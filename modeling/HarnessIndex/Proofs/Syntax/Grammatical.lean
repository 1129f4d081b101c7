import HarnessIndex.Attribute.Descriptor
import HarnessIndex.Proofs.Syntax.Stretch
import HarnessIndex.Proofs.Syntax.Subtrees
import HarnessIndex.Proofs.Text.Spelling
import HarnessIndex.Proofs.Text.Word
import HarnessIndex.Reader.Lexer

/-!
# Trees that follow the grammar

What the grammar promises of the nodes that a harness is recognised by. A path is made of whole
tokens: it neither begins nor ends inside a word, and no blank stands inside one of its words or
between the colons of a separator. After the path of a macro invocation come blanks and comments,
then an exclamation mark that is not followed by an equals sign. The token text of an attribute is a
stretch of the source.
-/

namespace HarnessIndex.Syntax

open Text

/-- Whether a node covers a path of whole tokens. -/
def readsAsPath (source : Text) (node : Node) : Bool :=
  match stretch? source node.startByte node.endByte with
  | none => false
  | some stretch =>
      !endsInWord stretch.before && Attribute.endsWord stretch.after &&
        (!stretch.part.all Attribute.Descriptor.isPathChar || unbroken stretch.part)

/-- The blanks and comments in front of an exclamation mark, and what follows the mark, if nothing
else stands before it. `pending` characters of a comment are still to be passed. -/
def splitAtBang? (pending : Nat) : Text → Option (Text × Text)
  | [] => none
  | c :: rest =>
      match pending with
      | pending + 1 => (splitAtBang? pending rest).map fun split => (c :: split.1, split.2)
      | 0 =>
          if c = '!' then some ([], rest)
          else if isBlank c then (splitAtBang? 0 rest).map fun split => (c :: split.1, split.2)
          else
            match Reader.commentLength? (c :: rest) with
            | none => none
            | some (_, size) =>
                (splitAtBang? (size - 1) rest).map fun split => (c :: split.1, split.2)

/-- What stands between the path of a macro invocation and its exclamation mark, and what follows
the mark. -/
def bang? (source : Text) (path : Node) : Option (Text × Text) :=
  (stretch? source path.startByte path.endByte).bind fun stretch => splitAtBang? 0 stretch.after

/-- Whether a call or a macro invocation is written as the grammar has it. -/
def readsAsCall (source : Text) (node : Node) : Bool :=
  match node.calleeNode? with
  | none => true
  | some callee =>
      !callee.kind.isPath ||
        readsAsPath source callee &&
          (node.kind ≠ .macroInvocation ||
            (bang? source callee).any fun split => !startsWith "=" split.2)

/-- Whether an attribute is written as the grammar has it. -/
def readsAsAttribute (source : Text) (node : Node) : Bool :=
  match node.attributeBody? with
  | none => true
  | some body =>
      (body.children.head?.all fun path => !path.kind.isPath || readsAsPath source path) &&
        (body.field? .arguments).all fun tokens =>
          (stretch? source tokens.startByte tokens.endByte).isSome

/-- A tree of a source follows the grammar in its attributes and calls. -/
def Grammatical (source : Text) (tree : Tree) : Prop :=
  ∀ subtree ∈ tree.subtrees,
    readsAsCall source ⟨.ofText source, subtree, []⟩ = true ∧
      readsAsAttribute source ⟨.ofText source, subtree, []⟩ = true

instance (source : Text) (tree : Tree) : Decidable (Grammatical source tree) :=
  inferInstanceAs (Decidable (∀ subtree ∈ tree.subtrees, _))

theorem splitAtBang?_eq_some {pending : Nat} {text gap following : Text}
    (found : splitAtBang? pending text = some (gap, following)) :
    text = gap ++ '!' :: following := by
  have extended {c : Char} {rest gap following : Text} {inner : Option (Text × Text)}
      (ih : ∀ gap following, inner = some (gap, following) → rest = gap ++ '!' :: following)
      (found : (inner.map fun split => (c :: split.1, split.2)) = some (gap, following)) :
      c :: rest = gap ++ '!' :: following := by
    obtain ⟨split, known, same⟩ := Option.map_eq_some_iff.mp found
    obtain ⟨rfl, rfl⟩ := Prod.mk.inj same
    rw [List.cons_append, ← ih split.1 split.2 known]
  induction text generalizing pending gap following with
  | nil => simp [splitAtBang?] at found
  | cons c rest ih =>
      cases pending with
      | succ pending => exact extended (fun _ _ => ih) found
      | zero =>
          rw [splitAtBang?] at found
          split at found
          · rename_i bang
            obtain ⟨rfl, rfl⟩ := Prod.mk.inj (Option.some.inj found)
            rw [bang, List.nil_append]
          · split at found
            · exact extended (fun _ _ => ih) found
            · split at found
              · simp at found
              · exact extended (fun _ _ => ih) found

end HarnessIndex.Syntax
