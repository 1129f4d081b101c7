import HarnessIndex.Proofs.Harness.Scope
import HarnessIndex.Proofs.Ordered
import HarnessIndex.Proofs.Replay.Name
import HarnessIndex.Reader.Source

/-!
# Which functions are generated tests

A function is a generated test when its name is that of one and a runner is called in its own part
of the body. Each such function gives one record, and the records are sorted by the lines they start
on. The harness is read from what stands second in the argument list of the first call of a runner.
That is the second argument unless the list begins with an attribute or has one in its second place:
an attribute counts as if it were an argument.
-/

namespace HarnessIndex.Replay

open Syntax
open Harness (HasCallee isForeign)

/-! ## The last segment of a path -/

/-- The last segment of a path: what follows the last pair of colons, or else the whole path. -/
inductive IsLastSegment (path : Text) : Text → Prop where
  | whole : (∀ front back, path ≠ front ++ ':' :: ':' :: back) → IsLastSegment path path
  | behind {front segment : Text} : path = front ++ ':' :: ':' :: segment →
      (∀ front' segment', path = front' ++ ':' :: ':' :: segment' →
        segment.length ≤ segment'.length) →
      IsLastSegment path segment

variable {path segment : Text}

theorem IsLastSegment.unique {other : Text} (last : IsLastSegment path segment)
    (last' : IsLastSegment path other) : segment = other := by
  cases last with
  | whole none =>
      cases last' with
      | whole _ => rfl
      | behind split _ => exact absurd split (none _ _)
  | @behind front _ split shortest =>
      cases last' with
      | whole none => exact absurd split (none _ _)
      | @behind front' _ split' shortest' =>
          have same := Nat.le_antisymm (shortest _ _ split') (shortest' _ _ split)
          have ends := (List.append_inj' (split.symm.trans split') (by simp [same])).2
          simpa using ends

theorem occursIn_colons {text : Text} :
    Text.occursIn "::" text = true ↔ ∃ front back, text = front ++ ':' :: ':' :: back := by
  have spelled (front back : Text) :
      front ++ ("::" : Text) ++ back = front ++ ':' :: ':' :: back :=
    List.append_assoc ..
  rw [Text.occursIn_iff]
  simp only [spelled]

/-- A character in front of a path with colons leaves its last segment as it is. -/
theorem IsLastSegment.cons (last : IsLastSegment path segment)
    (occurs : ∃ front back, path = front ++ ':' :: ':' :: back) (c : Char) :
    IsLastSegment (c :: path) segment := by
  cases last with
  | whole none =>
      obtain ⟨front, back, split⟩ := occurs
      exact absurd split (none front back)
  | @behind front _ split shortest =>
      have longer : c :: path = (c :: front) ++ ':' :: ':' :: segment := congrArg (c :: ·) split
      refine .behind longer ?_
      intro front' segment' split'
      cases front' with
      | nil =>
          have size := congrArg List.length (List.cons.inj split').2
          rw [split, List.length_append, List.length_cons, List.length_cons,
            List.length_cons] at size
          omega
      | cons first front' => exact shortest front' segment' (List.cons.inj split').2

theorem isLastSegment_lastSegment (path : Text) : IsLastSegment path (lastSegment path) := by
  induction path with
  | nil => exact .whole (by simp)
  | cons c rest ih =>
      rw [lastSegment]
      split
      · rename_i occurs
        exact ih.cons (occursIn_colons.mp occurs) c
      · rename_i absent
        -- Colons can only stand in front.
        have inFront (front segment : Text) (split : c :: rest = front ++ ':' :: ':' :: segment) :
            front = [] := by
          cases front with
          | nil => rfl
          | cons first front =>
              exact absurd (occursIn_colons.mpr ⟨front, segment, (List.cons.inj split).2⟩) absent
        cases after : Text.after? "::" (c :: rest) with
        | some segment =>
            have passed := Text.after?_eq_some.mp after
            have split : c :: rest = [] ++ ':' :: ':' :: segment := passed
            refine .behind split ?_
            intro front' segment' split'
            obtain rfl := inFront front' segment' split'
            rw [(List.cons.inj (List.cons.inj (split.symm.trans split')).2).2]
            exact Nat.le_refl _
        | none =>
            refine .whole ?_
            intro front segment split
            obtain rfl := inFront front segment split
            have spelled : c :: rest = ("::" : Text) ++ segment := split
            rw [Text.after?_eq_some.mpr spelled] at after
            cases after

theorem isLastSegment_iff : IsLastSegment path segment ↔ lastSegment path = segment :=
  ⟨fun last => (isLastSegment_lastSegment path).unique last,
    fun same => same ▸ isLastSegment_lastSegment path⟩

/-! ## The harness that an argument names -/

/-- An argument names a harness: it is an identifier or a path, and the harness is its last segment,
blanks left out. -/
structure Names (argument : Node) (harness : Text) : Prop where
  isPath : argument.kind = .identifier ∨ argument.kind = .scopedIdentifier
  segment : IsLastSegment (Text.withoutBlanks argument.text) harness
  nonempty : harness ≠ []

/-- The harness that a test belongs to when it is read from an argument, if there is one. When the
argument names no harness, it is the one encoded in the name of the test. -/
inductive Originates (argument : Option Node) (encoded : Text) : Text → Prop where
  | named {node : Node} {harness : Text} : argument = some node → Names node harness →
      Originates argument encoded harness
  | encoded : (∀ node harness, argument = some node → ¬Names node harness) →
      Originates argument encoded encoded

/-- The arguments of a call: what stands in its argument list without the attributes. -/
def arguments (call : Node) : List Node :=
  call.callArguments.filter fun entry => entry.kind ≠ .attributeItem

/-- The argument that a call hands over as the harness. It is the second one when no attribute stands
first or second in the argument list. When only the first place is taken by an attribute it is the
first one, and when the second place is, there is none. -/
inductive HandsOver (call : Node) : Option Node → Prop where
  | second : (∀ entry ∈ call.callArguments.take 2, entry.kind ≠ .attributeItem) →
      HandsOver call (arguments call)[1]?
  | first {decoration : Node} {rest : List Node} : call.callArguments = decoration :: rest →
      decoration.kind = .attributeItem → (∀ entry ∈ rest.head?, entry.kind ≠ .attributeItem) →
      HandsOver call (arguments call)[0]?
  | nothing {entry decoration : Node} {rest : List Node} :
      call.callArguments = entry :: decoration :: rest → decoration.kind = .attributeItem →
      HandsOver call none

variable {argument : Option Node} {encoded harness : Text} {call : Node}

theorem harnessArgument?_eq_some :
    harnessArgument? call = some harness ↔
      ∃ node, call.callArguments[1]? = some node ∧ Names node harness := by
  rw [harnessArgument?, Option.bind_eq_bind, Option.bind_eq_some_iff]
  refine exists_congr fun node => and_congr_right fun _ => ?_
  rw [Option.ite_none_right_eq_some, Node.nonempty?_eq_some, ← isLastSegment_iff]
  constructor
  · rintro ⟨isPath, segment, nonempty⟩
    exact ⟨by simpa using isPath, segment, nonempty⟩
  · rintro ⟨isPath, segment, nonempty⟩
    exact ⟨by simpa using isPath, segment, nonempty⟩

theorem Names.unique {node : Node} {name name' : Text} (names : Names node name)
    (names' : Names node name') : name = name' :=
  names.segment.unique names'.segment

theorem Originates.eq_of_names {node : Node} {name : Text}
    (origin : Originates argument encoded harness) (found : argument = some node)
    (names : Names node name) : harness = name := by
  cases origin with
  | named found' names' =>
      obtain rfl := Option.some.inj (found.symm.trans found')
      exact names'.unique names
  | encoded none => exact absurd names (none node name found)

theorem originates_of_unnamed (unnamed : ∀ node name, argument = some node → ¬Names node name) :
    Originates argument encoded harness ↔ encoded = harness := by
  constructor
  · intro origin
    cases origin with
    | named found names => exact absurd names (unnamed _ _ found)
    | encoded _ => rfl
  · rintro rfl
    exact .encoded unnamed

theorem originates_second_iff :
    Originates call.callArguments[1]? encoded harness ↔
      (harnessArgument? call).getD encoded = harness := by
  cases found : harnessArgument? call with
  | some named =>
      obtain ⟨node, second, names⟩ := harnessArgument?_eq_some.mp found
      rw [Option.getD_some]
      constructor
      · intro origin
        exact (origin.eq_of_names second names).symm
      · rintro rfl
        exact .named second names
  | none =>
      rw [Option.getD_none]
      apply originates_of_unnamed
      intro node name second names
      rw [harnessArgument?_eq_some.mpr ⟨node, second, names⟩] at found
      cases found

theorem not_names_of_attributeItem {node : Node} (kind : node.kind = .attributeItem) :
    ¬Names node harness := by
  intro names
  rcases names.isPath with other | other <;> rw [kind] at other <;> cases other

/-- What a call hands over tells the harness that the second entry of its argument list tells. -/
theorem HandsOver.originates_iff (hands : HandsOver call argument) :
    Originates argument encoded harness ↔
      Originates call.callArguments[1]? encoded harness := by
  cases hands with
  | second plain =>
      have same : (arguments call)[1]? = call.callArguments[1]? := by
        rw [arguments]
        match call.callArguments, plain with
        | [], _ => rfl
        | [_], plain => simp at plain; simp [plain]
        | _ :: _ :: _, plain => simp at plain; simp [plain]
      rw [same]
  | @first decoration rest entries attached plain =>
      have same : (arguments call)[0]? = call.callArguments[1]? := by
        rw [arguments, entries, List.filter_cons_of_neg (by simp [attached])]
        cases rest with
        | nil => rfl
        | cons next rest => simp at plain; simp [plain]
      rw [same]
  | nothing entries attached =>
      rw [entries, originates_of_unnamed (by simp), originates_of_unnamed]
      rintro node name second
      obtain rfl := Option.some.inj second
      exact not_names_of_attributeItem attached

theorem exists_handsOver (call : Node) : ∃ argument, HandsOver call argument := by
  match entries : call.callArguments with
  | [] => exact ⟨_, .second (by simp [entries])⟩
  | [first] =>
      by_cases attached : first.kind = .attributeItem
      · exact ⟨_, .first entries attached (by simp)⟩
      · exact ⟨_, .second (by simp [entries, attached])⟩
  | first :: next :: rest =>
      by_cases behind : next.kind = .attributeItem
      · exact ⟨_, .nothing entries behind⟩
      · by_cases attached : first.kind = .attributeItem
        · exact ⟨_, .first entries attached (by simp [behind])⟩
        · exact ⟨_, .second (by simp [entries, attached, behind])⟩

/-! ## Tests and their records -/

/-- A call runs a replay: its callee is a path that, without blanks, names a runner. -/
structure RunsReplay (call : Node) : Prop where
  isCall : call.kind = .callExpression
  callee : ∃ target, HasCallee call target ∧ target.kind.isPath = true ∧
    (Text.withoutBlanks target.text = "kani::concrete_playback_run" ∨
      Text.withoutBlanks target.text = "concrete_playback_run")

/-- The first call that runs a replay in a body: it stands in the function's own part of the body,
outside nested functions and closures, and no other such call stands before it. -/
def IsFirstRun (body call : Node) : Prop :=
  ∃ position, Node.StandsBelow (Node.endsWalk isForeign) body position call ∧ RunsReplay call ∧
    ∀ position' call', Node.StandsBelow (Node.endsWalk isForeign) body position' call' →
      RunsReplay call' → position ≤ position'

/-- A function is a generated test: its name reads as that of one, and its body runs a replay. -/
structure IsTest (function : Node) (generated : GeneratedName) (call : Node) : Prop where
  name : ∃ name, function.name? = some name ∧ generated.IsReadOff name
  body : ∃ body, function.field? .body = some body ∧ IsFirstRun body call

/-- A record tells of a generated test what stands there, and whose it is by an argument of the
call. -/
structure Describes (record : Record) (function : Node) (generated : GeneratedName)
    (argument : Option Node) : Prop where
  testFunctionName : record.testFunctionName = generated.name
  originatingHarnessName : Originates argument generated.harness record.originatingHarnessName
  insertionLine : record.insertionLine = (function.attributes.head?.getD function).startLine
  endLine : record.endLine = function.endLine
  playbackId : record.playbackId = generated.id

variable {function : Node} {generated : GeneratedName}

theorem contains_runners {callee : Text} :
    runners.contains callee = true ↔
      callee = "kani::concrete_playback_run" ∨ callee = "concrete_playback_run" := by
  simp [runners]

theorem isRunnerCall_iff : isRunnerCall call = true ↔ RunsReplay call := by
  rw [isRunnerCall, Bool.and_eq_true, decide_eq_true_iff, Option.any_eq_true]
  constructor
  · rintro ⟨isCall, callee, named, known⟩
    obtain ⟨⟨target, called, isPath, rfl⟩, -⟩ := Harness.callee?_eq_some.mp named
    exact ⟨isCall, target, called, isPath, contains_runners.mp known⟩
  · rintro ⟨isCall, target, called, isPath, known⟩
    have nonempty : Text.withoutBlanks target.text ≠ [] := by
      rcases known with known | known <;> rw [known] <;> decide
    exact ⟨isCall, _, Harness.callee?_eq_some.mpr ⟨⟨target, called, isPath, rfl⟩, nonempty⟩,
      contains_runners.mpr known⟩

theorem RunsReplay.isComment_eq_false (runs : RunsReplay call) : call.isComment = false := by
  rw [Node.isComment, runs.isCall]
  rfl

theorem runnerCall?_eq_some :
    runnerCall? function = some call ↔
      ∃ body, function.field? .body = some body ∧ IsFirstRun body call := by
  rw [runnerCall?, Option.bind_eq_bind, Option.bind_eq_some_iff]
  refine exists_congr fun body => and_congr_right fun _ => ?_
  rw [(Node.inPreorder_descendants isForeign body).find?_eq_some]
  simp only [isRunnerCall_iff]
  constructor
  · rintro ⟨position, visited, runs, first⟩
    refine ⟨position, visited.1, runs, ?_⟩
    intro position' call' stands runs'
    exact first position' call' ⟨stands, runs'.isComment_eq_false⟩ runs'
  · rintro ⟨position, stands, runs, first⟩
    refine ⟨position, ⟨stands, runs.isComment_eq_false⟩, runs, ?_⟩
    intro position' call' visited runs'
    exact first position' call' visited.1 runs'

theorem isTest_iff :
    IsTest function generated call ↔
      (∃ name, function.name? = some name ∧ GeneratedName.ofText? name = some generated) ∧
        runnerCall? function = some call := by
  simp only [GeneratedName.ofText?_eq_some, runnerCall?_eq_some]
  exact ⟨fun test => ⟨test.name, test.body⟩, fun test => ⟨test.1, test.2⟩⟩

theorem record?_eq_some {item : Item} {record : Record} :
    record? item = some record ↔
      ∃ generated call argument, IsTest item.node generated call ∧ HandsOver call argument ∧
        Describes record item.node generated argument := by
  have line : insertionLine item.node =
      (item.node.attributes.head?.getD item.node).startLine := by
    rw [insertionLine]
    cases item.node.attributes <;> rfl
  constructor
  · intro found
    obtain ⟨name, named, found⟩ := Option.bind_eq_some_iff.mp found
    obtain ⟨generated, read, found⟩ := Option.bind_eq_some_iff.mp found
    obtain ⟨call, runs, found⟩ := Option.bind_eq_some_iff.mp found
    obtain rfl := Option.some.inj found
    obtain ⟨argument, hands⟩ := exists_handsOver call
    have origin : Originates argument generated.harness
        ((harnessArgument? call).getD generated.harness) :=
      hands.originates_iff.mpr (originates_second_iff.mpr rfl)
    exact ⟨generated, call, argument, isTest_iff.mpr ⟨⟨name, named, read⟩, runs⟩, hands,
      ⟨rfl, origin, line, rfl, rfl⟩⟩
  · rintro ⟨generated, call, argument, test, hands, testName, origin, lines, endLine, id⟩
    obtain ⟨⟨name, named, read⟩, runs⟩ := isTest_iff.mp test
    have origin := originates_second_iff.mp (hands.originates_iff.mp origin)
    rw [record?, named, Option.bind_eq_bind, Option.bind_some, read, Option.bind_eq_bind,
      Option.bind_some, runs, Option.bind_eq_bind, Option.bind_some, origin, line, ← lines,
      ← testName, ← endLine, ← id]
    rfl

theorem exists_record_of_isTest {item : Item} (test : IsTest item.node generated call) :
    ∃ record, record? item = some record := by
  obtain ⟨argument, hands⟩ := exists_handsOver call
  refine ⟨⟨generated.name, (harnessArgument? call).getD generated.harness,
    (item.node.attributes.head?.getD item.node).startLine, item.node.endLine, generated.id⟩, ?_⟩
  exact record?_eq_some.mpr ⟨generated, call, argument, test, hands,
    ⟨rfl, hands.originates_iff.mpr (originates_second_iff.mpr rfl), rfl, rfl, rfl⟩⟩

/-! ## The records of a file -/

/-- Records, each with the number of its function among the functions of a file: one record for
every generated test and no other, sorted by the lines, those of one line in the order of the
functions. `hands` says by which argument of a call the harness is told. -/
structure Lists (hands : Node → Option Node → Prop) (root : Node)
    (placed : List (Nat × Record)) : Prop where
  nodup : (placed.map Prod.fst).Nodup
  sorted : placed.Pairwise fun first later =>
    first.2.insertionLine < later.2.insertionLine ∨
      first.2.insertionLine = later.2.insertionLine ∧ first.1 < later.1
  tests : ∀ index, index ∈ placed.map Prod.fst ↔ ∃ item generated call,
    (functionsOf root)[index]? = some item ∧ IsTest item.node generated call
  records : ∀ index record, (index, record) ∈ placed → ∃ item generated call argument,
    (functionsOf root)[index]? = some item ∧ IsTest item.node generated call ∧
      hands call argument ∧ Describes record item.node generated argument

/-- The records of a file are those of its generated tests. -/
theorem locate_lists (root : Node) :
    ∃ placed, placed.map Prod.snd = locate root ∧ Lists HandsOver root placed := by
  obtain ⟨placed, shown, nodup, sorted, exact⟩ :=
    Stable.exists_numbered_sortOn Record.insertionLine record? (functionsOf root)
  refine ⟨placed, shown, nodup, sorted, ?_, ?_⟩
  · intro index
    rw [List.mem_map]
    constructor
    · rintro ⟨⟨index, record⟩, member, rfl⟩
      obtain ⟨item, found, read⟩ := (exact index record).mp member
      obtain ⟨generated, call, -, test, -⟩ := record?_eq_some.mp read
      exact ⟨item, generated, call, found, test⟩
    · rintro ⟨item, generated, call, found, test⟩
      obtain ⟨record, read⟩ := exists_record_of_isTest test
      exact ⟨(index, record), (exact index record).mpr ⟨item, found, read⟩, rfl⟩
  · intro index record member
    obtain ⟨item, found, read⟩ := (exact index record).mp member
    obtain ⟨generated, call, argument, test, hands, describes⟩ := record?_eq_some.mp read
    exact ⟨item, generated, call, argument, found, test, hands, describes⟩

/-- A generated test whose runner gets the values, with an attribute in front, and the harness. -/
def attributedRun : Node :=
  (Reader.parse
    "fn kani_concrete_playback_f_1(){concrete_playback_run(#[a]v,f);}").root

/-- An attribute in front of the values makes them the second entry, so the record tells that the
test belongs to them and not to the harness. -/
theorem not_lists_secondArgument :
    ¬∀ root, ∃ placed, placed.map Prod.snd = locate root ∧
      Lists (fun call argument => argument = (arguments call)[1]?) root placed := by
  intro lists
  obtain ⟨placed, shown, listed⟩ := lists attributedRun
  have told : (locate attributedRun).map Record.originatingHarnessName = ["v"] := by
    decide +kernel
  have second : ∀ item ∈ functionsOf attributedRun, ∀ call ∈ runnerCall? item.node,
      ∃ node ∈ (arguments call)[1]?, node.kind = .identifier ∧
        lastSegment (Text.withoutBlanks node.text) = "f" := by
    decide +kernel
  obtain ⟨⟨index, record⟩, member, told⟩ :
      ∃ entry ∈ placed, entry.2.originatingHarnessName = "v" := by
    rw [← shown, List.map_map] at told
    exact List.mem_map.mp (told ▸ List.mem_singleton_self _)
  obtain ⟨item, generated, call, argument, found, test, rfl, describes⟩ :=
    listed.records index record member
  obtain ⟨node, stands, isPath, named⟩ :=
    second item (List.mem_of_getElem? found) call (isTest_iff.mp test).2
  have names : Names node "f" := ⟨.inl isPath, isLastSegment_iff.mpr named, by decide⟩
  have other := describes.originatingHarnessName.eq_of_names stands names
  rw [told] at other
  exact absurd other (by decide)

end HarnessIndex.Replay
