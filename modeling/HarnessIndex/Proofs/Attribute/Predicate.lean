import HarnessIndex.Proofs.Attribute.Arguments
import HarnessIndex.Proofs.Text.Part
import HarnessIndex.Proofs.Text.Spelling

/-!
# Predicates and what they say under the verifier

A condition is a predicate over options, joined by `all`, `any` and `not`. It is not evaluated: it
counts as fulfilled when it names the verifier's option anywhere and is not a negation as a whole.
So a predicate can count as fulfilled although it holds under no assignment that sets the option.
Where no option is used both as it stands and negated, one assignment decides whether there is such
an assignment: the one that sets the verifier's option and all others that are not negated.
-/

namespace HarnessIndex.Attribute

open Text

/-! ## Words around a separator -/

/-- A separator that does not stand in a word ends what can be passed of it. -/
theorem after?_append_cons {word : Text} {c : Char} (absent : c ∉ word) (front back : Text) :
    after? word (front ++ c :: back) = (after? word front).map (· ++ c :: back) := by
  induction word generalizing front with
  | nil => rfl
  | cons expected word ih =>
      obtain ⟨different, absent⟩ := not_or.mp (List.mem_cons.not.mp absent)
      cases front with
      | nil => simp [after?, different]
      | cons first front =>
          rw [List.cons_append, after?, after?]
          split
          · exact ih absent front
          · rfl

/-- What stands before a text counts only as far as it continues a word. -/
theorem hasWordAfter_previous {previous previous' : Option Char}
    (same : previous.any isWord = previous'.any isWord) (word text : Text) :
    hasWordAfter word previous text = hasWordAfter word previous' text := by
  cases text with
  | nil => rfl
  | cons c rest => rw [hasWordAfter, hasWordAfter, same]

theorem hasWordAfter_append_cons {word : Text} {c : Char} (some : word ≠ []) (absent : c ∉ word)
    (noWord : isWord c = false) (previous : Option Char) (front back : Text) :
    hasWordAfter word previous (front ++ c :: back) =
      (hasWordAfter word previous front || hasWord word back) := by
  induction front generalizing previous with
  | nil =>
      have stops : after? word (c :: back) = none := by
        rw [← List.nil_append (c :: back), after?_append_cons absent]
        cases word with
        | nil => exact absurd rfl some
        | cons => rfl
      have later : hasWordAfter word (.some c) back = hasWord word back :=
        hasWordAfter_previous (by simp [noWord]) word back
      simp [hasWordAfter, stops, later]
  | cons first front ih =>
      have begins := after?_append_cons absent (first :: front) back
      rw [List.cons_append] at begins ⊢
      rw [hasWordAfter, hasWordAfter, ih, begins, Bool.or_assoc]
      congr 2
      cases passed : after? word (first :: front) with
      | none => rfl
      | some following =>
          cases following with
          | nil => simp [endsWord, noWord]
          | cons => rfl

/-- Whether the verifier's option stands as a word in a text without its blanks. -/
def namesOption (text : Text) : Bool :=
  hasWord kaniOption (withoutBlanks text)

/-- A separator splits a text into two that can name the option. -/
theorem namesOption_append_cons {c : Char} (noWord : isWord c = false) (solid : isBlank c = false)
    (front back : Text) :
    namesOption (front ++ c :: back) = (namesOption front || namesOption back) := by
  have absent : c ∉ kaniOption := by
    intro member
    have word : ∀ c ∈ kaniOption, isWord c = true := List.all_eq_true.mp (by decide)
    rw [word c member] at noWord
    cases noWord
  rw [namesOption, withoutBlanks_append, withoutBlanks_cons_solid solid]
  exact hasWordAfter_append_cons (by decide) absent noWord none _ _

/-! ## Predicates -/

/-- An option, and the value that it is compared with as that is written. -/
structure Setting where
  name : Text
  value : Option Text
  solid : Solid name
  plain : ∀ c ∈ name, isPlain c = true

/-- How the members of a group are joined. -/
inductive Connective where
  | all
  | any
  deriving DecidableEq

/-- A predicate over options. -/
inductive Predicate where
  | option (setting : Setting)
  | group (connective : Connective) (members : List Predicate)
  | negation (member : Predicate)

/-- Which options are set. An option is known by its name and by the string it is compared with. -/
abbrev Assignment :=
  Text × Option Text → Bool

namespace Setting

/-- The tokens that an option is written with. -/
def tokens (setting : Setting) : List Text :=
  match setting.value with
  | none => [setting.name]
  | some value => [setting.name, "=", value]

/-- The option that is meant, where `meaning` tells which string a literal stands for. -/
def key (meaning : Text → Text) (setting : Setting) : Text × Option Text :=
  (setting.name, setting.value.map meaning)

/-- Whether the verifier's option is named in the name of an option or in its value. -/
def mentions (setting : Setting) : Bool :=
  namesOption setting.name || setting.value.any namesOption

end Setting

namespace Connective

def name : Connective → Text
  | all => "all"
  | any => "any"

/-- Join two truth values. -/
def join : Connective → Bool → Bool → Bool
  | all => and
  | any => or

def joinAll (connective : Connective) : List Bool → Bool
  | [] => connective = all
  | value :: values => connective.join value (connective.joinAll values)

end Connective

namespace Predicate

mutual

def tokens : Predicate → List Text
  | option setting => setting.tokens
  | group connective members => connective.name :: ['('] :: memberTokens members ++ [[')']]
  | negation member => "not".toList :: ['('] :: member.tokens ++ [[')']]

/-- The tokens that the members of a group are written with. -/
def memberTokens : List Predicate → List Text
  | [] => []
  | [member] => member.tokens
  | member :: next :: members => member.tokens ++ [','] :: memberTokens (next :: members)

end

mutual

/-- Whether a predicate holds when `on` tells which options are set. -/
def holds (meaning : Text → Text) (on : Assignment) : Predicate → Bool
  | option setting => on (setting.key meaning)
  | group connective members => connective.joinAll (values meaning on members)
  | negation member => !member.holds meaning on

/-- Whether the members of a group hold, one by one. -/
def values (meaning : Text → Text) (on : Assignment) : List Predicate → List Bool
  | [] => []
  | member :: members => member.holds meaning on :: values meaning on members

end

mutual

/-- The options of a predicate, each with the side it is on: `positive` as long as it is under an
even number of negations. -/
def occurrences (positive : Bool) : Predicate → List (Setting × Bool)
  | option setting => [(setting, positive)]
  | group _ members => memberOccurrences positive members
  | negation member => member.occurrences !positive

/-- The options of the members of a group. -/
def memberOccurrences (positive : Bool) : List Predicate → List (Setting × Bool)
  | [] => []
  | member :: members => member.occurrences positive ++ memberOccurrences positive members

end

mutual

def filled : Predicate → Bool
  | option _ => true
  | group _ members => !members.isEmpty && membersFilled members
  | negation member => member.filled

/-- Whether no group in some members is empty. -/
def membersFilled : List Predicate → Bool
  | [] => true
  | member :: members => member.filled && membersFilled members

end

end Predicate

/-! ## Naming the option -/

theorem Setting.namesOption_tokens (setting : Setting) :
    namesOption setting.tokens.flatten = setting.mentions := by
  unfold Setting.tokens Setting.mentions
  cases setting.value with
  | none => simp
  | some value =>
      have split := namesOption_append_cons (c := '=') (by decide) (by decide) setting.name value
      simpa using split

theorem Connective.not_namesOption_name (connective : Connective) :
    namesOption connective.name = false := by
  cases connective <;> decide

/-- What stands in round brackets names the option when its inside does, unless the name before the
brackets does. -/
theorem namesOption_brackets {name : Text} (other : namesOption name = false) (inner : Text) :
    namesOption (name ++ '(' :: inner ++ [')']) = namesOption inner := by
  have opened := namesOption_append_cons (c := '(') (by decide) (by decide) name (inner ++ [')'])
  have closed := namesOption_append_cons (c := ')') (by decide) (by decide) inner []
  rw [List.append_assoc, List.cons_append, opened, closed, other, Bool.false_or]
  exact Bool.or_false _

mutual

/-- A predicate names the verifier's option when one of its options does. -/
theorem Predicate.namesOption_tokens (positive : Bool) (predicate : Predicate) :
    namesOption predicate.tokens.flatten =
      (predicate.occurrences positive).any fun occurrence => occurrence.1.mentions := by
  cases predicate with
  | option setting => simp [tokens, occurrences, setting.namesOption_tokens]
  | group connective members =>
      have inner := namesOption_memberTokens positive members
      have whole := namesOption_brackets connective.not_namesOption_name
        (memberTokens members).flatten
      simpa [tokens, occurrences, ← inner] using whole
  | negation member =>
      have inner := namesOption_tokens (!positive) member
      have other : namesOption "not" = false := by decide
      have whole := namesOption_brackets other member.tokens.flatten
      simpa [tokens, occurrences, ← inner] using whole

theorem Predicate.namesOption_memberTokens (positive : Bool) (members : List Predicate) :
    namesOption (memberTokens members).flatten =
      (memberOccurrences positive members).any fun occurrence => occurrence.1.mentions := by
  match members with
  | [] => rfl
  | [member] =>
      have first := namesOption_tokens positive member
      simpa [memberTokens, memberOccurrences] using first
  | member :: next :: members =>
      have first := namesOption_tokens positive member
      have rest := namesOption_memberTokens positive (next :: members)
      have split := namesOption_append_cons (c := ',') (by decide) (by decide)
        member.tokens.flatten (memberTokens (next :: members)).flatten
      rw [memberTokens, memberOccurrences, List.any_append, ← first, ← rest, ← split]
      simp

end

/-! ## Negations -/

/-- What has no bracket before its end or before an equals sign begins no negation. -/
theorem not_startsWith_negation {name rest : Text} (plain : ∀ c ∈ name, isPlain c = true)
    (ends : rest = [] ∨ rest.head? = some '=') : startsWith "not(" (name ++ rest) = false := by
  rw [Bool.eq_false_iff]
  intro starts
  obtain ⟨more, same⟩ := startsWith_iff.mp starts
  have noBracket : '(' ∉ name := fun member => absurd (plain '(' member) (by decide)
  rcases List.append_eq_append_iff.mp same with ⟨inner, split, after⟩ | ⟨inner, split, -⟩
  · cases inner with
    | nil =>
        rw [List.append_nil] at split
        exact noBracket (split ▸ by decide)
    | cons c inner =>
        rw [after] at ends
        obtain none | equals := ends
        · cases none
        · have member : '=' ∈ "not(".toList := by
            rw [split, ← Option.some.inj equals]
            simp
          exact absurd member (by decide)
  · exact noBracket (split ▸ List.mem_append_left inner (by decide))

/-- After its name an option has nothing, or an equals sign. -/
theorem Setting.exists_withoutBlanks_tokens (setting : Setting) :
    ∃ rest, withoutBlanks setting.tokens.flatten = setting.name ++ rest ∧
      (rest = [] ∨ rest.head? = some '=') := by
  unfold Setting.tokens
  cases setting.value with
  | none => exact ⟨[], by simpa using setting.solid.withoutBlanks, Or.inl rfl⟩
  | some value =>
      refine ⟨'=' :: withoutBlanks value, ?_, Or.inr rfl⟩
      simp only [List.flatten_cons, List.flatten_nil, List.append_nil, withoutBlanks_append,
        setting.solid.withoutBlanks]
      rfl

/-- A predicate begins like a negation only when it is one. -/
theorem Predicate.startsWith_tokens {predicate : Predicate} :
    startsWith "not(" (withoutBlanks predicate.tokens.flatten) = true ↔
      ∃ member, predicate = .negation member := by
  cases predicate with
  | option setting =>
      obtain ⟨rest, same, ends⟩ := setting.exists_withoutBlanks_tokens
      rw [tokens, same, not_startsWith_negation setting.plain ends]
      simp
  | group connective members =>
      have other : startsWith "not(" (withoutBlanks (group connective members).tokens.flatten) =
          false := by
        cases connective <;> rfl
      rw [other]
      simp
  | negation member =>
      have starts : startsWith "not(" (withoutBlanks (negation member).tokens.flatten) = true := rfl
      rw [starts]
      simp

/-! ## Favourable assignments -/

/-- Values that come nearer to one side join to a value that comes nearer to it. -/
theorem Connective.join_agree (connective : Connective) {side value value' rest rest' : Bool}
    (first : value = side → value' = side) (later : rest = side → rest' = side) :
    connective.join value rest = side → connective.join value' rest' = side := by
  revert first later
  cases connective <;> revert side value value' rest rest' <;> decide

namespace Predicate

variable {meaning : Text → Text} {on on' : Assignment}

mutual

/-- A predicate that comes out on a side under one assignment does so under another one that agrees
wherever an option is on its side. The induction is on the predicate and on the members of a group
at once, and a negation changes the side. -/
theorem holds_agree {side : Bool} {predicate : Predicate}
    (agree : ∀ occurrence ∈ predicate.occurrences side,
      on (occurrence.1.key meaning) = occurrence.2 → on' (occurrence.1.key meaning) = occurrence.2)
    (holds : predicate.holds meaning on = side) : predicate.holds meaning on' = side := by
  cases predicate with
  | option setting => exact agree (setting, side) (List.mem_singleton_self _) holds
  | group connective members => exact joinAll_agree connective agree holds
  | negation member =>
      rw [Predicate.holds, Bool.not_eq_eq_eq_not] at holds ⊢
      exact holds_agree agree holds

theorem joinAll_agree {side : Bool} {members : List Predicate} (connective : Connective)
    (agree : ∀ occurrence ∈ memberOccurrences side members,
      on (occurrence.1.key meaning) = occurrence.2 → on' (occurrence.1.key meaning) = occurrence.2)
    (holds : connective.joinAll (values meaning on members) = side) :
    connective.joinAll (values meaning on' members) = side := by
  cases members with
  | nil => exact holds
  | cons member members =>
      obtain ⟨first, later⟩ := List.forall_mem_append.mp agree
      exact connective.join_agree (holds_agree first) (joinAll_agree connective later) holds

end

mutual

/-- An assignment that favours a side everywhere decides a predicate without empty groups. -/
theorem holds_of_favours {side : Bool} {predicate : Predicate} (filled : predicate.filled = true)
    (favours : ∀ occurrence ∈ predicate.occurrences side,
      on (occurrence.1.key meaning) = occurrence.2) : predicate.holds meaning on = side := by
  cases predicate with
  | option setting => exact favours (setting, side) (List.mem_singleton_self _)
  | group connective members =>
      obtain ⟨nonempty, filled⟩ := Bool.and_eq_true_iff.mp filled
      exact joinAll_of_favours connective (by simpa using nonempty) filled favours
  | negation member =>
      rw [Predicate.holds, Bool.not_eq_eq_eq_not]
      exact holds_of_favours filled favours

theorem joinAll_of_favours {side : Bool} {members : List Predicate} (connective : Connective)
    (nonempty : members ≠ []) (filled : membersFilled members = true)
    (favours : ∀ occurrence ∈ memberOccurrences side members,
      on (occurrence.1.key meaning) = occurrence.2) :
    connective.joinAll (values meaning on members) = side := by
  cases members with
  | nil => exact absurd rfl nonempty
  | cons member members =>
      obtain ⟨filledHere, filled⟩ := Bool.and_eq_true_iff.mp filled
      obtain ⟨first, later⟩ := List.forall_mem_append.mp favours
      rw [values, Connective.joinAll, holds_of_favours filledHere first]
      cases members with
      | nil => cases connective <;> cases side <;> rfl
      | cons next members =>
          rw [joinAll_of_favours connective (List.cons_ne_nil _ _) filled later]
          cases connective <;> cases side <;> rfl

end

end Predicate

/-! ## The verifier's option -/

/-- The verifier's option as an option of a predicate. -/
def kaniKey : Text × Option Text :=
  (kaniOption, none)

namespace Predicate

/-- Every option but the verifier's is used on one side only. -/
def Unopposed (meaning : Text → Text) (predicate : Predicate) : Prop :=
  ∀ first ∈ predicate.occurrences true, ∀ second ∈ predicate.occurrences true,
    first.1.key meaning = second.1.key meaning → first.1.key meaning ≠ kaniKey →
      first.2 = second.2

instance (meaning : Text → Text) (predicate : Predicate) :
    Decidable (predicate.Unopposed meaning) :=
  inferInstanceAs (Decidable (∀ _ ∈ _, ∀ _ ∈ _, _))

/-- The assignment that sets the verifier's option, and all options that are not negated. -/
def favourable (meaning : Text → Text) (predicate : Predicate) (key : Text × Option Text) : Bool :=
  key = kaniKey || !(predicate.occurrences true).any fun occurrence =>
    occurrence.1.key meaning = key && !occurrence.2

variable {meaning : Text → Text} {predicate : Predicate}

theorem favourable_kaniKey : predicate.favourable meaning kaniKey = true := by
  simp [favourable]

/-- The favourable assignment favours every use of an option that is not opposed. -/
theorem favourable_eq (unopposed : predicate.Unopposed meaning) {occurrence : Setting × Bool}
    (member : occurrence ∈ predicate.occurrences true)
    (plain : occurrence.1.key meaning = kaniKey → occurrence.2 = true) :
    predicate.favourable meaning (occurrence.1.key meaning) = occurrence.2 := by
  cases side : occurrence.2 with
  | true =>
      by_cases isKani : occurrence.1.key meaning = kaniKey
      · rw [isKani, favourable_kaniKey]
      · have noOther : ((predicate.occurrences true).any fun other =>
            other.1.key meaning = occurrence.1.key meaning && !other.2) = false := by
          rw [List.any_eq_false]
          intro other known opposed
          simp only [Bool.and_eq_true, decide_eq_true_iff, Bool.not_eq_true'] at opposed
          have same := unopposed occurrence member other known opposed.1.symm isKani
          rw [side, opposed.2] at same
          cases same
        rw [favourable, noOther, Bool.not_false, Bool.or_true]
  | false =>
      have notKani : occurrence.1.key meaning ≠ kaniKey := fun isKani => by
        rw [plain isKani] at side
        cases side
      have negated : ((predicate.occurrences true).any fun other =>
          other.1.key meaning = occurrence.1.key meaning && !other.2) = true :=
        List.any_eq_true.mpr ⟨occurrence, member, by simp [side]⟩
      rw [favourable, negated, decide_eq_false notKani]
      rfl

/-- A predicate without opposed options can hold where the verifier's option is set only if it holds
under the favourable assignment. -/
theorem exists_holds_iff (unopposed : predicate.Unopposed meaning) :
    (∃ on, on kaniKey = true ∧ predicate.holds meaning on = true) ↔
      predicate.holds meaning (predicate.favourable meaning) = true := by
  constructor
  · rintro ⟨on, kani, holds⟩
    refine holds_agree (fun occurrence member same => ?_) holds
    apply favourable_eq unopposed member
    intro isKani
    rw [← same, isKani, kani]
  · intro holds
    exact ⟨predicate.favourable meaning, favourable_kaniKey, holds⟩

/-- A predicate without opposed options and without empty groups holds under the favourable
assignment when the verifier's option is not negated. -/
theorem holds_favourable (unopposed : predicate.Unopposed meaning)
    (plain : ∀ occurrence ∈ predicate.occurrences true,
      occurrence.1.key meaning = kaniKey → occurrence.2 = true)
    (filled : predicate.filled = true) :
    predicate.holds meaning (predicate.favourable meaning) = true :=
  holds_of_favours filled fun occurrence member =>
    favourable_eq unopposed member (plain occurrence member)

end Predicate

/-- A written predicate counts as fulfilled exactly when one of its options names the verifier's
option and it is not a negation as a whole. Where no other option is used on both sides, it holds
under some assignment that sets the verifier's option exactly when it holds under the favourable
one, and so when that option is not negated and no group is empty. -/
theorem enablesUnderKani_tokens {predicate : Predicate} {text rest : Text}
    (spells : Spells predicate.tokens text rest) (blank : ∀ c ∈ rest, isBlank c = true)
    (meaning : Text → Text) :
    (enablesUnderKani text = true ↔
      (∃ occurrence ∈ predicate.occurrences true, occurrence.1.mentions = true) ∧
        ∀ member, predicate ≠ .negation member) ∧
    (predicate.Unopposed meaning →
      ((∃ on, on kaniKey = true ∧ predicate.holds meaning on = true) ↔
        predicate.holds meaning (predicate.favourable meaning) = true) ∧
      ((∀ occurrence ∈ predicate.occurrences true,
        occurrence.1.key meaning = kaniKey → occurrence.2 = true) → predicate.filled = true →
          predicate.holds meaning (predicate.favourable meaning) = true)) := by
  refine ⟨?_, fun unopposed =>
    ⟨Predicate.exists_holds_iff unopposed, Predicate.holds_favourable unopposed⟩⟩
  have same : withoutBlanks text = withoutBlanks predicate.tokens.flatten := by
    rw [spells.withoutBlanks_flatten, withoutBlanks_append, withoutBlanks_of_blank blank,
      List.append_nil]
  have named : hasWord kaniOption (withoutBlanks text) = true ↔
      ∃ occurrence ∈ predicate.occurrences true, occurrence.1.mentions = true := by
    rw [same, ← namesOption, Predicate.namesOption_tokens true, List.any_eq_true]
  have negated : startsWith "not(" (withoutBlanks text) = false ↔
      ∀ member, predicate ≠ .negation member := by
    rw [same, Bool.eq_false_iff, ne_eq, Predicate.startsWith_tokens, not_exists]
  rw [← named, ← negated, enablesUnderKani, Bool.and_eq_true, Bool.not_eq_true']

/-- An option without a value. -/
def plainOption (name : Text) (solid : Solid name) (plain : name.all isPlain = true) : Predicate :=
  .option ⟨name, none, solid, List.all_eq_true.mp plain⟩

/-- The verifier's option as a predicate. -/
def kaniPredicate : Predicate :=
  plainOption kaniOption (by decide) (by decide)

/-- A predicate that holds where the verifier's option and another one are set. -/
def kaniTested : Predicate :=
  .group .all [.option ⟨"feature", some "\"x y\"", by decide, List.all_eq_true.mp (by decide)⟩,
    kaniPredicate, .negation (plainOption "test" (by decide) (by decide))]

theorem enablesUnderKani_tokens_tested :
    Spells kaniTested.tokens "all(feature=\"x y\",kani,not(test))" [] ∧
      kaniTested.Unopposed id ∧ enablesUnderKani "all(feature=\"x y\",kani,not(test))" = true ∧
      ∃ on, on kaniKey = true ∧ kaniTested.holds id on = true := by
  have spells : Spells kaniTested.tokens "all(feature=\"x y\",kani,not(test))" [] :=
    spells_flatten kaniTested.tokens
  obtain ⟨accepted, favoured⟩ := enablesUnderKani_tokens spells nofun id
  have unopposed : kaniTested.Unopposed id := by decide
  have plain : ∀ occurrence ∈ kaniTested.occurrences true,
      occurrence.1.key id = kaniKey → occurrence.2 = true := by decide
  have named : ∃ occurrence ∈ kaniTested.occurrences true, occurrence.1.mentions = true := by
    decide
  obtain ⟨exact, holds⟩ := favoured unopposed
  exact ⟨spells, unopposed, accepted.mpr ⟨named, nofun⟩, exact.mpr (holds plain rfl)⟩

/-- A predicate that does not hold where the verifier's option is set. -/
def kaniNegated : Predicate :=
  .group .all [plainOption "unix" (by decide) (by decide), .negation kaniPredicate]

/-- A predicate whose negations are inside counts as fulfilled, although it holds under no
assignment that sets the verifier's option. -/
theorem not_enablesUnderKani_tokens :
    ¬∀ (predicate : Predicate) (text rest : Text), Spells predicate.tokens text rest →
      (∀ c ∈ rest, isBlank c = true) → enablesUnderKani text = true →
      ∃ on, on kaniKey = true ∧ predicate.holds id on = true := by
  intro sound
  have accepted : enablesUnderKani kaniNegated.tokens.flatten = true := by decide
  obtain ⟨on, set, holds⟩ :=
    sound kaniNegated _ [] (spells_flatten kaniNegated.tokens) nofun accepted
  have refuted : kaniNegated.holds id on = (on ("unix".toList, none) && (!on kaniKey && true)) := rfl
  rw [refuted, set, Bool.not_true, Bool.false_and, Bool.and_false] at holds
  cases holds

end HarnessIndex.Attribute
