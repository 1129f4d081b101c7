import HarnessIndex.Proofs.Attribute.Arguments
import HarnessIndex.Proofs.Attribute.Direct

/-!
# Attributes inside several conditional attributes

A conditional attribute stands for the attribute that it wraps, as if that one were written on the
item. What it wraps is read off its text alone, so another conditional attribute inside it is not
opened: one layer is transparent, and below two or more the wrapped attribute is not seen.
-/

namespace HarnessIndex.Attribute

open Text Syntax

/-- What follows the path of a conditional attribute that wraps an attribute for the verifier. -/
def inCondition (text : Text) : Text :=
  '(' :: (kaniOption ++ ',' :: ' ' :: text) ++ [')']

/-- The text of an attribute inside a number of conditional attributes. -/
def layered : Nat → Text → Text
  | 0, text => text
  | layers + 1, text => conditional ++ inCondition (layered layers text)

theorem pathText_conditional : PathText conditional :=
  .intro (by decide) (List.all_eq_true.mp (by decide))

/-! ## Layers are token text -/

theorem tokenText_layered {text : Text} (token : TokenText false [] text) (layers : Nat)
    (outside : Text) : TokenText false (outside ++ [' ']) (layered layers text) := by
  induction layers generalizing outside with
  | zero => exact token.after_blank (by decide) outside
  | succ layers ih =>
      have pathPlain : ∀ c ∈ conditional, isPlain c = true := List.all_eq_true.mp (by decide)
      have optionPlain : ∀ c ∈ kaniOption, isPlain c = true := List.all_eq_true.mp (by decide)
      have inner :=
        (ih (outside ++ [' '] ++ conditional ++ ['('] ++ kaniOption ++ [','])).allowCommas
      have group : TokenText true (outside ++ [' '] ++ conditional ++ ['('])
          (kaniOption ++ ',' :: ' ' :: layered layers text) :=
        .plains optionPlain (.comma (.plain (by decide) inner))
      exact .plains pathPlain (.group rfl group .nil)

theorem splitArguments_inCondition {text : Text} (token : TokenText false [' '] text)
    (some : trim text ≠ []) : splitArguments (inCondition text) = [kaniOption, trim text] := by
  have optionPlain : ∀ c ∈ kaniOption, isPlain c = true := List.all_eq_true.mp (by decide)
  have first : TokenText false [] kaniOption := .of_plain optionPlain
  have second : TokenText false [] (' ' :: text) := .plain (by decide) token
  have pieces : cut 0 0 none (kaniOption ++ ',' :: ' ' :: text) = [kaniOption, ' ' :: text] := by
    have copied := cut_join first (List.forall_mem_singleton.mpr second)
    rw [join_cons_cons, join_singleton, List.append_assoc] at copied
    exact copied
  have pair : closer? '(' = .some ')' := rfl
  have option : trim kaniOption = kaniOption := by decide
  rw [splitArguments, inCondition, undelimited_of_brackets pair, pieces, trimmedPieces,
    List.map_cons, List.map_singleton, option, trim_cons_blank (by decide),
    List.filter_cons_of_pos (by decide), List.filter_cons_of_pos (by simpa using some),
    List.filter_nil]

theorem trim_layered_ne_nil {text : Text} (some : trim text ≠ []) (layers : Nat) :
    trim (layered layers text) ≠ [] := by
  cases layers with
  | zero => exact some
  | succ layers => exact pathText_conditional.trim_append_ne_nil _

/-! ## What a conditional attribute stands for -/

theorem ofText?_trim (text : Text) (line : Nat) :
    Descriptor.ofText? (trim text) line = Descriptor.ofText? text line := by
  rw [Descriptor.ofText?, Descriptor.ofText?, trim_trim]

/-- The arguments of an attribute that is written with a token text. -/
theorem literalArguments_of_writtenAs {item : Node} {path rest : Text} {opener : Char}
    (written : WrittenAs item path (opener :: rest)) (opens : isOpener opener = true) :
    item.literalArguments = splitArguments (opener :: rest) := by
  obtain ⟨inner, -, -, -, hasTail⟩ := written
  cases hasTail with
  | arguments filled text _ => simp only [Node.literalArguments, inner, filled, text]
  | value => exact absurd opens (by decide)

theorem classify_conditional {outer : Node} {text : Text} (token : TokenText false [' '] text)
    (some : trim text ≠ []) (written : WrittenAs outer conditional (inCondition text)) :
    classify outer = (Descriptor.ofText? text outer.startLine).toList := by
  have arguments : outer.literalArguments = [kaniOption, trim text] := by
    rw [← splitArguments_inCondition token some]
    exact literalArguments_of_writtenAs written (by decide)
  have path : outer.attributePath? = .some conditional :=
    attributePath?_of_writtenAs written pathText_conditional
  rw [classify, path]
  simp only [arguments]
  rw [expand_conditional (by simp) (by decide), List.filterMap_cons, ofText?_trim]
  cases Descriptor.ofText? text outer.startLine <;> rfl

/-- A conditional attribute that is wrapped itself is read as an attribute of its own. -/
theorem ofText?_layered {text : Text} (token : TokenText false [] text) (some : trim text ≠ [])
    (layers line : Nat) :
    Descriptor.ofText? (layered (layers + 1) text) line =
      .some (.ofName conditional [kaniOption, trim (layered layers text)] line) := by
  have arguments := splitArguments_inCondition (tokenText_layered token layers [])
    (trim_layered_ne_nil some layers)
  have path : withoutBlanks conditional = conditional := by decide
  have opens : isOpener '(' = true := by decide
  have stops := not_isPathChar_of_isOpener opens
  rw [inCondition, List.cons_append] at arguments
  rw [layered, inCondition, List.cons_append, ofText?_append pathText_conditional stops,
    Descriptor.tailArguments?, if_pos opens,
    splitArguments_trimEnd (solid_of_not_isPathChar stops), arguments, Option.map_some, path]

/-- What stands inside more than one conditional attribute, and a conditional attribute inside one,
is read as a conditional attribute. -/
theorem exists_ofText?_layered {direct : Node} {path tail : Text} {layers : Nat}
    (isPath : PathText path) (token : TokenText false [] (path ++ tail))
    (written : WrittenAs direct path tail)
    (hidden : ¬(layers = 0 ∧ withoutBlanks path ≠ conditional)) (line : Nat) :
    ∃ arguments, Descriptor.ofText? (layered layers (path ++ tail)) line =
      some (.ofName conditional arguments line) := by
  cases layers with
  | zero =>
      have nested : withoutBlanks path = conditional := by
        by_contra different
        exact hidden ⟨rfl, different⟩
      exact ⟨_, nested ▸ ofText?_of_writtenAs written isPath line⟩
  | succ layers => exact ⟨_, ofText?_layered token (isPath.trim_append_ne_nil tail) layers line⟩

theorem not_declaresHarness_conditional (arguments : List Text) (line : Nat) :
    declaresHarness [.ofName conditional arguments line] = false := by
  have unsupported : Kind.ofName conditional = .unsupported := by decide
  rw [declaresHarness_cons, declaresHarness_nil, Descriptor.ofName, unsupported]
  rfl

/-- An attribute that declares a harness still does so, as the same attribute, inside one
conditional attribute. Inside more of them, or when it is itself a conditional attribute, it is not
seen: what is left is a conditional attribute, and only another attribute can declare the
harness. -/
theorem declaresHarness_layered {function outer direct : Node} {path tail : Text} {layers : Nat}
    (isPath : PathText path) (token : TokenText false [] (path ++ tail))
    (written : WrittenAs direct path tail) (declares : declaresHarness (classify direct) = true)
    (wrapped : WrittenAs outer conditional (inCondition (layered layers (path ++ tail))))
    (carried : outer ∈ function.attributes) :
    (layers = 0 ∧ withoutBlanks path ≠ conditional →
      declaresHarness (classifyAll function) = true ∧
        ∃ plain, classify direct = [plain] ∧ ∃ found ∈ classifyAll function,
          found.name = plain.name ∧ found.arguments = plain.arguments ∧
            found.kind = plain.kind) ∧
    (¬(layers = 0 ∧ withoutBlanks path ≠ conditional) →
      (declaresHarness (classifyAll function) = true ↔ ∃ other ∈ function.attributes,
        other ≠ outer ∧ declaresHarness (classify other) = true) ∧
      ∀ found ∈ classify outer, found.name = conditional) := by
  have opened : classify outer =
      (Descriptor.ofText? (layered layers (path ++ tail)) outer.startLine).toList :=
    classify_conditional (tokenText_layered token layers [])
      (trim_layered_ne_nil (isPath.trim_append_ne_nil tail) layers) wrapped
  constructor
  · rintro ⟨rfl, different⟩
    have plain := classify_of_writtenAs written isPath different
    rw [layered, ofText?_of_writtenAs written isPath, Option.toList_some] at opened
    rw [plain] at declares ⊢
    have declares' : declaresHarness (classify outer) = true := by
      rw [opened]
      exact declares
    obtain ⟨found, kept, same⟩ :=
      exists_same_classifyAll carried (opened ▸ List.mem_singleton_self _)
    exact ⟨declaresHarness_classifyAll.mpr ⟨outer, carried, declares'⟩, _, rfl, found, kept, same⟩
  · intro hidden
    obtain ⟨arguments, read⟩ :=
      exists_ofText?_layered isPath token written hidden outer.startLine
    rw [read, Option.toList_some] at opened
    refine ⟨⟨?_, ?_⟩, ?_⟩
    · intro declared
      obtain ⟨other, known, declared⟩ := declaresHarness_classifyAll.mp declared
      refine ⟨other, known, ?_, declared⟩
      rintro rfl
      rw [opened, not_declaresHarness_conditional] at declared
      exact Bool.false_ne_true declared
    · rintro ⟨other, known, -, declared⟩
      exact declaresHarness_classifyAll.mpr ⟨other, known, declared⟩
    · intro found member
      rw [opened, List.mem_singleton] at member
      exact member ▸ rfl

/-- A file with one function, whose only attribute marks a harness inside a number of conditional
attributes. -/
def markedFile (layers : Nat) : Node :=
  (Reader.parse ("#[" ++ layered layers "kani::proof" ++ "]fn f(){}")).root

def markedFunction (layers : Nat) : Node :=
  ((functionsOf (markedFile layers)).map Item.node).headD default

def markedAttribute (layers : Nat) : Node :=
  (markedFunction layers).attributes.headD default

theorem declaresHarness_layered_marked :
    PathText "kani::proof".toList ∧ TokenText false [] ("kani::proof".toList ++ []) ∧
      withoutBlanks "kani::proof" ≠ conditional ∧ WrittenAs (markedAttribute 0) "kani::proof" [] ∧
      declaresHarness (classify (markedAttribute 0)) = true ∧
      WrittenAs (markedAttribute 1) conditional (inCondition (layered 0 "kani::proof")) ∧
      WrittenAs (markedAttribute 2) conditional (inCondition (layered 1 "kani::proof")) ∧
      (markedFunction 1).attributes = [markedAttribute 1] ∧
      (markedFunction 2).attributes = [markedAttribute 2] ∧
      declaresHarness (classifyAll (markedFunction 1)) = true ∧
      declaresHarness (classifyAll (markedFunction 2)) = false := by
  have facts : withoutBlanks "kani::proof" ≠ conditional ∧
      WrittenAs (markedAttribute 0) "kani::proof" [] ∧
      declaresHarness (classify (markedAttribute 0)) = true ∧
      WrittenAs (markedAttribute 1) conditional (inCondition (layered 0 "kani::proof")) ∧
      WrittenAs (markedAttribute 2) conditional (inCondition (layered 1 "kani::proof")) ∧
      (markedFunction 1).attributes.length = 1 ∧ (markedFunction 2).attributes.length = 1 := by
    decide +kernel
  obtain ⟨different, written, declares, once, twice, single, single'⟩ := facts
  have isPath : PathText "kani::proof".toList :=
    .intro (by decide) (List.all_eq_true.mp (by decide))
  have plain : ∀ c ∈ "kani::proof".toList, isPlain c = true := List.all_eq_true.mp (by decide)
  have token : TokenText false [] ("kani::proof".toList ++ []) := .plains plain .nil
  have only {function : Node} (single : function.attributes.length = 1) :
      function.attributes = [function.attributes.headD default] := by
    obtain ⟨attached, alone⟩ := List.length_eq_one_iff.mp single
    rw [alone]
    rfl
  have carried : (markedFunction 1).attributes = [markedAttribute 1] := only single
  have carried' : (markedFunction 2).attributes = [markedAttribute 2] := only single'
  obtain ⟨seen, -⟩ := declaresHarness_layered isPath token written declares once
    (carried ▸ List.mem_singleton_self _)
  obtain ⟨-, hidden⟩ := declaresHarness_layered isPath token written declares twice
    (carried' ▸ List.mem_singleton_self _)
  refine ⟨isPath, token, different, written, declares, once, twice, carried, carried',
    (seen ⟨rfl, different⟩).1, ?_⟩
  obtain ⟨others, -⟩ := hidden (by simp)
  rw [Bool.eq_false_iff]
  intro declared
  obtain ⟨other, known, distinguished, -⟩ := others.mp declared
  rw [carried', List.mem_singleton] at known
  exact distinguished known

theorem not_declaresHarness_twice_layered :
    ¬∀ layers, declaresHarness (classifyAll (markedFunction 0)) = true →
      declaresHarness (classifyAll (markedFunction (layers + 1))) = true := by
  intro transparent
  have direct : declaresHarness (classifyAll (markedFunction 0)) = true := by decide +kernel
  have twice : declaresHarness (classifyAll (markedFunction 2)) = false := by decide +kernel
  rw [transparent 1 direct] at twice
  exact absurd twice (by decide)

end HarnessIndex.Attribute
