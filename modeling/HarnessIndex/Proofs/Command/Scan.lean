import HarnessIndex.Command.Commands
import HarnessIndex.Proofs.Harness.Unseen

/-!
# What a scan lists

A scan that comes to its end lists every file that the pre-check sees and that has harnesses. Only
files whose harnesses are all marked apart can be missing.
-/

namespace HarnessIndex.Command

open Files Settings Harness Run

/-- A part of a run that starts from some progress ends with a value. -/
def Ends {α : Type} (body : Run α) (progress : Progress) (value : α) (after : Progress) : Prop :=
  (ExceptT.run body).run progress = (.ok value, after)

section

variable {α β : Type} {body : Run α} {progress after : Progress}

theorem ends_pure {value result : α} :
    Ends (pure value) progress result after ↔ value = result ∧ progress = after := by
  constructor
  · intro ends
    obtain ⟨same, progressed⟩ := Prod.mk.inj ends
    exact ⟨Except.ok.inj same, progressed⟩
  · rintro ⟨rfl, rfl⟩
    rfl

theorem run_bind (next : α → Run β) :
    (ExceptT.run (body >>= next)).run progress =
      match (ExceptT.run body).run progress with
      | (.ok value, between) => (ExceptT.run (next value)).run between
      | (.error reason, between) => (.error reason, between) := by
  unfold ExceptT.run StateT.run
  simp only [bind, ExceptT.bind, ExceptT.mk, StateT.bind, ExceptT.bindCont]
  cases body progress with
  | mk result between => cases result <;> rfl

/-- A run of two parts ends when the first part ends and then the second one. -/
theorem ends_bind {next : α → Run β} {result : β} :
    Ends (body >>= next) progress result after ↔
      ∃ value between, Ends body progress value between ∧
        Ends (next value) between result after := by
  rw [Ends, run_bind]
  constructor
  · intro ends
    split at ends
    · rename_i value between first
      exact ⟨value, between, first, ends⟩
    · exact absurd (Prod.mk.inj ends).1 (by simp)
  · rintro ⟨value, between, first, second⟩
    rw [first]
    exact second

theorem exists_ends_of_isOk (given : ((ExceptT.run body).run progress).1.isOk = true) :
    ∃ value after, Ends body progress value after := by
  cases ran : (ExceptT.run body).run progress with
  | mk result after =>
      cases result with
      | ok value => exact ⟨value, after, ran⟩
      | error reason => simp [ran, Except.isOk, Except.toBool] at given

theorem not_ends_stop {reason : Stop} {value : α} : ¬ Ends (stop reason) progress value after := by
  intro ends
  simpa using (Prod.mk.inj ends).1

/-- Progress after one more thing. -/
def done (next : Act) (progress : Progress) : Progress :=
  { progress with acts := progress.acts ++ [next] }

/-- What is done while a source is bound ends as it does by itself. -/
theorem run_bound (path : Path) :
    (ExceptT.run (bound path body)).run progress =
      (((ExceptT.run body).run (done (.bind path) progress)).1,
        done .clear ((ExceptT.run body).run (done (.bind path) progress)).2) := by
  unfold bound ExceptT.run StateT.run
  have first : act (.bind path) progress = (.ok (), done (.bind path) progress) := rfl
  simp only [bind, ExceptT.bind, ExceptT.mk, StateT.bind, ExceptT.bindCont, tryFinally,
    tryFinally', Functor.map, ExceptT.map, first]
  cases body (done (.bind path) progress) with
  | mk result after => cases result <;> rfl

theorem exists_ends_of_bound {path : Path} {value : α}
    (ends : Ends (bound path body) progress value after) :
    ∃ before between, Ends body before value between := by
  rw [Ends, run_bound] at ends
  exact ⟨done (.bind path) progress, _, Prod.ext (Prod.mk.inj ends).1 rfl⟩

/-- What is found with the grammar is what the analysis gives. -/
theorem exists_result_of_analyse {next : Act} {use : Grammar.Registry → Grammar.Outcome α}
    {value : α}
    (ends : Ends (analyse next use) progress value after) :
    ∃ registry, (use registry).result = .ok value := by
  rw [analyse, ends_bind] at ends
  obtain ⟨-, before, -, ends⟩ := ends
  rw [ends_bind] at ends
  obtain ⟨found, before, got, ends⟩ := ends
  simp only [ends_bind] at ends
  obtain ⟨-, between, -, -, between', -, ends⟩ := ends
  refine ⟨found.registry, ?_⟩
  split at ends
  · rename_i result same
    rw [same, (ends_pure.mp ends).1]
  · exact absurd ends not_ends_stop

end

/-- What is found with the grammar is what it is used for. -/
theorem value_of_withGrammar {α : Type} {registry : Grammar.Registry}
    {use : Unit → α × List Event} {value : α}
    (result : (Grammar.withGrammar registry use).result = .ok value) : value = (use ()).1 := by
  rw [Grammar.withGrammar] at result
  cases obtained : registry.obtain.result with
  | error failure => simp [obtained] at result
  | ok _ =>
      simp only [obtained] at result
      exact (Except.ok.inj result).symm

/-- The harnesses that are found in a source are those of its index. -/
theorem index_of_findHarnesses {path : Path} {source : Text} {progress after : Progress}
    {found : Harness.Index} (ends : Ends (findHarnesses path source) progress found after) :
    found = (Harness.index source (some (Reader.parse source))).1 := by
  obtain ⟨registry, result⟩ := exists_result_of_analyse ends
  rw [Analysis.harnesses] at result
  split at result
  · rename_i blank
    rw [Harness.index, if_pos blank]
    exact (Except.ok.inj result).symm
  · exact value_of_withGrammar result

theorem source_of_readSource {place : Place} {path : Path} {bytes : List UInt8}
    {source : Text} {progress after : Progress}
    (ends : Ends (readSource place path) progress source after)
    (read : place.read path = .ok bytes) : source = sourceText bytes := by
  rw [readSource, ends_bind] at ends
  obtain ⟨_, between, -, ends⟩ := ends
  rw [read] at ends
  exact (ends_pure.mp ends).1.symm

/-- A file that the pre-check sees and that has harnesses is not left out. -/
theorem exists_scanned_of_scanFile {place : Place} {path : Path} {bytes : List UInt8}
    {result : Option Scanned} {progress after : Progress}
    (ends : Ends (scanFile place path) progress result after)
    (read : place.read path = .ok bytes) (seen : mentionsProof (sourceText bytes) = true)
    (some : (Harness.index (sourceText bytes) (.some (Reader.parse (sourceText bytes)))).1 ≠ []) :
    ∃ scanned, result = .some scanned := by
  rw [scanFile, ends_bind] at ends
  obtain ⟨source, before, first, ends⟩ := ends
  obtain rfl := source_of_readSource first read
  rw [seen] at ends
  simp only [Bool.not_true, Bool.false_eq_true, if_false] at ends
  rw [ends_bind] at ends
  obtain ⟨scanned, between, inner, last⟩ := ends
  obtain ⟨start, stop, inner⟩ := exists_ends_of_bound inner
  rw [ends_bind] at inner
  obtain ⟨found, between, finds, inner⟩ := inner
  rw [ends_bind] at inner
  obtain ⟨records, _, -, inner⟩ := inner
  have listed : scanned.index ≠ [] := by
    rw [← (ends_pure.mp inner).1]
    exact index_of_findHarnesses finds ▸ some
  refine ⟨scanned, ?_⟩
  rw [← (ends_pure.mp last).1, if_neg (by simpa using listed)]

/-- The entry of a file in a scan, if the file is not left out. -/
def entryOf (names : List Text) (result : Option Scanned) : List (Text × Value) :=
  result.toList.map fun scanned => (Text.join ['/'] names, scanned.toValue)

section

variable {place : Place} {settings : Scan} {root : Path} {json : Bool} {rest : List Finding}
  {listed : List (Text × Value)} {progress after : Progress}

/-- A file that is too large leaves the scan to the rest. -/
theorem ends_scanAll_tooLarge {names : List Text} {size : Nat}
    (ends : Ends (scanAll place settings root json (.tooLarge names size :: rest)) progress listed
      after) :
    ∃ between, Ends (scanAll place settings root json rest) between listed after := by
  rw [scanAll, ends_bind] at ends
  obtain ⟨_, _, -, ends⟩ := ends
  rw [ends_bind] at ends
  obtain ⟨_, between, -, ends⟩ := ends
  exact ⟨between, ends⟩

theorem ends_scanAll_source {names : List Text}
    (ends : Ends (scanAll place settings root json (.source names :: rest)) progress listed
      after) :
    ∃ before result scanned, Ends (scanFile place (below root names)) before result scanned ∧
      ∃ between others, Ends (scanAll place settings root json rest) between others after ∧
        listed = entryOf names result ++ others := by
  rw [scanAll, ends_bind] at ends
  obtain ⟨_, before, -, ends⟩ := ends
  rw [ends_bind] at ends
  obtain ⟨result, between, first, ends⟩ := ends
  refine ⟨before, result, between, first, ?_⟩
  cases result with
  | none => exact ⟨between, listed, ends, rfl⟩
  | some scanned =>
      have shown : ∃ between, Ends (scanAll place settings root json rest >>= fun others =>
          pure ((Text.join ['/'] names, scanned.toValue) :: others)) between listed after := by
        simp only at ends
        split at ends
        · rw [ends_bind] at ends
          obtain ⟨_, between, -, ends⟩ := ends
          exact ⟨between, ends⟩
        · exact ⟨between, ends⟩
      obtain ⟨between, ends⟩ := shown
      rw [ends_bind] at ends
      obtain ⟨others, last, scans, whole⟩ := ends
      obtain ⟨same, rfl⟩ := ends_pure.mp whole
      exact ⟨between, others, scans, same.symm⟩

/-- A scan that ends lists every file that the pre-check sees and that has harnesses. -/
theorem exists_listed_of_scanAll {findings : List Finding}
    (ends : Ends (scanAll place settings root json findings) progress listed after)
    {names : List Text} (member : .source names ∈ findings) {bytes : List UInt8}
    (read : place.read (below root names) = .ok bytes)
    (seen : mentionsProof (sourceText bytes) = true)
    (some : (Harness.index (sourceText bytes) (.some (Reader.parse (sourceText bytes)))).1 ≠ []) :
    ∃ value, (Text.join ['/'] names, value) ∈ listed := by
  induction findings generalizing listed progress with
  | nil => simp at member
  | cons finding rest ih =>
      cases finding with
      | tooLarge others size =>
          obtain ⟨between, ends⟩ := ends_scanAll_tooLarge ends
          exact ih ends (by simpa using member)
      | source others =>
          obtain ⟨_, result, _, first, _, _, scans, rfl⟩ := ends_scanAll_source ends
          rcases List.mem_cons.mp member with same | later
          · obtain rfl := Finding.source.inj same
            obtain ⟨scanned, rfl⟩ := exists_scanned_of_scanFile first read seen some
            exact ⟨scanned.toValue, by simp [entryOf]⟩
          · obtain ⟨value, known⟩ := ih scans later
            exact ⟨value, List.mem_append_right _ known⟩

end

/-- The pre-check sees a source that has harnesses, and a scan that ends lists every file that holds
it, unless all harnesses are marked apart: by a bare entry point with a comment before its
exclamation mark, or by a wrapped path with blanks inside its words. Such harnesses are not seen. -/
theorem scan_lists_or_hidden (source : Text) (tree : Syntax.Tree)
    (grammatical : Syntax.Grammatical source tree)
    (some : (Harness.index source (some (.ofTree (.ofText source) tree))).1 ≠ []) :
    (mentionsProof source = true ∧
      ∀ (place : Place) (settings : Scan) (root : Path) (json : Bool) (entry : Entry)
        (listed : List (Text × Value)) (progress after : Progress),
        Ends (scanAll place settings root json (search settings entry)) progress listed after →
        ∀ (names : List Text) (bytes : List UInt8), .source names ∈ search settings entry →
          place.read (below root names) = .ok bytes → sourceText bytes = source →
            Reader.read source = tree → ∃ value, (Text.join ['/'] names, value) ∈ listed) ∨
      Hidden source (.root (.ofText source) tree) ∧
        ∀ item ∈ harnessItems (.root (.ofText source) tree), Unseen source item := by
  rcases mentionsProof_or_hidden grammatical some with seen | hidden
  · refine Or.inl ⟨seen, ?_⟩
    intro place settings root json entry listed progress after ends names bytes member read same
      parsed
    subst same parsed
    exact exists_listed_of_scanAll ends member read seen some
  · refine Or.inr ⟨hidden, ?_⟩
    intro item member
    exact (hidden.2 item member).unseen (List.mem_filter.mp member).1

/-- A file whose harness has a plain marker. -/
def plain : Text :=
  "#[kani::proof] fn f() {}"

/-- A file whose only harness has a comment before the exclamation mark of its entry point. -/
def commented : Text :=
  "fn f() { check /* c */ !(1); }"

/-- A place in which every file holds the same text. -/
def everywhere (source : Text) : Place where
  program := []
  directory := ⟨1, []⟩
  globalSettings := ⟨1, []⟩
  homes := ⟨[], []⟩
  environment := []
  package := Grammar.standardName
  dialect := .bare
  entry? _ := none
  read _ := .ok (Text.encode source)
  document _ := .mapping [] []

/-- The scan of a directory with one file that holds a text. -/
def scanOne (source : Text) : Run (List (Text × Value)) :=
  scanAll (everywhere source) ⟨1, [".rs"], []⟩ ⟨0, []⟩ true
    (search ⟨1, [".rs"], []⟩ (.directory [("a.rs", .file source.length)]))

/-- The pre-check does not see a harness with a comment before its exclamation mark. -/
theorem not_mentionsProof_commented :
    Syntax.Grammatical commented (Reader.read commented) ∧
      (Harness.index commented (some (Reader.parse commented))).1 ≠ [] ∧
      mentionsProof commented = false := by
  decide +kernel

/-- A file with a plain marker is listed, and one with a commented marker is hidden and not seen. -/
theorem scan_lists_or_hidden_plain_and_commented :
    (∃ listed after, Ends (scanOne plain) ⟨.initial, []⟩ listed after ∧
      ∃ value, (Text.join ['/'] ["a.rs"], value) ∈ listed) ∧
    Hidden commented (Reader.parse commented).root ∧
    ∀ item ∈ harnessItems (Reader.parse commented).root, Unseen commented item := by
  constructor
  · obtain ⟨listed, after, ends⟩ :
        ∃ listed after, Ends (scanOne plain) ⟨.initial, []⟩ listed after :=
      exists_ends_of_isOk (by decide +kernel)
    have direct : ∃ item ∈ harnessItems (Reader.parse plain).root,
        ∃ found ∈ item.node.attributes,
          Attribute.declaresHarness (Attribute.classify found) = true ∧
            found.attributePath? ≠ some Attribute.conditional := by
      decide +kernel
    obtain ⟨item, member, found, attached, declares, path⟩ := direct
    rcases scan_lists_or_hidden plain (Reader.read plain) (by decide +kernel) (by decide +kernel)
      with ⟨-, lists⟩ | ⟨hidden, -⟩
    · exact ⟨listed, after, ends, lists _ _ _ _ _ _ _ _ ends ["a.rs"] (Text.encode plain)
        (by decide +kernel) rfl (by decide +kernel) rfl⟩
    · exact absurd ((hidden.2 item member).attributes found attached declares).1 path
  · rcases scan_lists_or_hidden commented (Reader.read commented) (by decide +kernel)
      (by decide +kernel) with ⟨seen, -⟩ | hidden
    · exact absurd seen (by decide +kernel)
    · exact hidden

end HarnessIndex.Command
