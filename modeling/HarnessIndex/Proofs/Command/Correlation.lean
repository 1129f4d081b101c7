import HarnessIndex.Proofs.Command.Moment
import HarnessIndex.Proofs.Harness.Collisions
import HarnessIndex.Proofs.Log.Delivery

/-!
# Which source is bound

A scan goes from file to file while the search for further files reports on its own. Whatever
becomes of a file, its path is bound to the log exactly while it is analysed: no source is bound
when the search goes on, when a file is read or when a table is printed, and none is left bound when
a command ends.
-/

namespace HarnessIndex.Command

open Files Settings Run

/-! ## Reports of the analysis -/

/-- Whether a report comes from the search for files, and not from an analysis. -/
def isOfSearch : Event → Bool
  | .fileSkippedTooLarge .. => true
  | _ => false

theorem isOfSearch_index {source : Text} {parsed : Option Syntax.Parsed} {event : Event}
    (member : event ∈ (Harness.index source parsed).2) : isOfSearch event = false := by
  unfold Harness.index at member
  split at member
  · simp at member
  · cases parsed with
    | none => exact List.mem_singleton.mp member ▸ rfl
    | some parsed =>
        obtain ⟨duels, settles⟩ := Harness.exists_settles
          (Harness.join (Harness.attributeHarnesses parsed.root)
            (Harness.invocationHarnesses parsed.root))
        rcases List.mem_append.mp member with early | last
        · rcases List.mem_append.mp early with malformed | collided
          · split at malformed
            · exact List.mem_singleton.mp malformed ▸ rfl
            · simp at malformed
          · rw [Harness.collect, settles.reported] at collided
            obtain ⟨duel, -, rfl⟩ := List.mem_map.mp collided
            rfl
        · exact List.mem_singleton.mp last ▸ rfl

theorem isOfSearch_extract {source : Text} {parsed : Option Syntax.Parsed} {event : Event}
    (member : event ∈ (Replay.extract source parsed).2) : isOfSearch event = false := by
  unfold Replay.extract at member
  split at member
  · simp at member
  · cases parsed with
    | none => exact List.mem_singleton.mp member ▸ rfl
    | some parsed => exact List.mem_singleton.mp member ▸ rfl

theorem isOfSearch_obtain {registry : Grammar.Registry} {event : Event}
    (member : event ∈ registry.obtain.events) : isOfSearch event = false := by
  rw [Grammar.Registry.obtain] at member
  split at member
  · simp at member
  · split at member
    · exact List.mem_singleton.mp member ▸ rfl
    · exact List.mem_singleton.mp member ▸ rfl

/-- What needs the grammar reports about the grammar and what it reports itself. -/
theorem isOfSearch_withGrammar {α : Type} {registry : Grammar.Registry}
    {use : Unit → α × List Event}
    (own : ∀ event ∈ (use ()).2, isOfSearch event = false) {event : Event}
    (member : event ∈ (Grammar.withGrammar registry use).events) : isOfSearch event = false := by
  rw [Grammar.withGrammar] at member
  cases access : registry.obtain.result with
  | error failure =>
      simp only [access] at member
      exact isOfSearch_obtain member
  | ok _ =>
      simp only [access] at member
      rcases List.mem_append.mp member with early | late
      · exact isOfSearch_obtain early
      · exact own event late

theorem isOfSearch_harnesses {registry : Grammar.Registry} {source : Text} {event : Event}
    (member : event ∈ (Analysis.harnesses registry source).events) :
    isOfSearch event = false := by
  rw [Analysis.harnesses] at member
  split at member
  · simp [Grammar.Outcome.pure] at member
  · exact isOfSearch_withGrammar (fun _ => isOfSearch_index) member

theorem isOfSearch_generatedTests {registry : Grammar.Registry} {source : Text} {event : Event}
    (member : event ∈ (Analysis.generatedTests registry source).events) :
    isOfSearch event = false := by
  rw [Analysis.generatedTests] at member
  split at member
  · simp [Grammar.Outcome.pure] at member
  · exact isOfSearch_withGrammar (fun _ => isOfSearch_extract) member

/-! ## A scan -/

/-- What an act of a scan needs of its moment: an analysis and its reports are about the file that
was read last, and all else is done while no source is bound. -/
def FitsScan (moment : Moment) : Act → Prop
  | .search | .read _ | .print _ => moment.IsFree
  | .findHarnesses path | .findTests path => moment.IsAbout path
  | .report event => if isOfSearch event then moment.IsFree else ∃ path, moment.IsAbout path
  | .bind _ | .clear => True

/-- No source is bound, after some files have been read. -/
def FreeAfter (files : List Path) (moment : Moment) : Prop :=
  moment.files = files ∧ moment.IsFree

section

variable {place : Place} {settings : Scan} {root path : Path} {json : Bool} {source : Text}
  {files : List Path}

theorem prints_freeAfter : Prints FitsScan (FreeAfter files) :=
  fun _ _ free => ⟨free.2, (List.append_nil _).trans free.1, free.2⟩

theorem leads_search : Leads FitsScan (FreeAfter files) (act .search) (FreeAfter files) :=
  leads_act (fun _ free => free.2) fun _ free => ⟨(List.append_nil _).trans free.1, free.2⟩

theorem leads_readSource :
    Leads FitsScan (FreeAfter files) (readSource place path) (FreeAfter (files ++ [path])) := by
  have reads : Leads FitsScan (FreeAfter files) (act (.read path)) (FreeAfter (files ++ [path])) :=
    leads_act (fun _ free => free.2) fun _ free => ⟨congrArg (· ++ [path]) free.1, free.2⟩
  refine leads_stay reads fun _ => ?_
  split
  · exact leads_pure
  · exact leads_stop

theorem fits_report {moment : Moment} {event : Event} (own : isOfSearch event = false)
    (about : moment.IsAbout path) : FitsScan moment (.report event) := by
  rw [FitsScan, own]
  exact ⟨path, about⟩

/-- The files that have been read, and the last one is bound. -/
def BoundAfter (files : List Path) (path : Path) (moment : Moment) : Prop :=
  moment.files = files ++ [path] ∧ moment.source = some path.toText

theorem BoundAfter.isAbout {moment : Moment} (bound : BoundAfter files path moment) :
    moment.IsAbout path := by
  rw [Moment.IsAbout, bound.1, List.getLast?_concat]
  exact ⟨rfl, bound.2⟩

theorem leads_findHarnesses :
    Leads FitsScan (BoundAfter files path) (findHarnesses path source) (BoundAfter files path) := by
  refine leads_analyse ?_ ?_
  · intro moment bound
    exact ⟨bound.isAbout, (List.append_nil _).trans bound.1, bound.2⟩
  · intro registry event member moment bound
    exact ⟨fits_report (isOfSearch_harnesses member) bound.isAbout,
      (List.append_nil _).trans bound.1, bound.2⟩

theorem leads_findTests :
    Leads FitsScan (BoundAfter files path) (findTests path source) (BoundAfter files path) := by
  refine leads_analyse ?_ ?_
  · intro moment bound
    exact ⟨bound.isAbout, (List.append_nil _).trans bound.1, bound.2⟩
  · intro registry event member moment bound
    exact ⟨fits_report (isOfSearch_generatedTests member) bound.isAbout,
      (List.append_nil _).trans bound.1, bound.2⟩

/-- Whatever becomes of a file, it has been read and no source is bound after it. -/
theorem leads_scanFile :
    Leads FitsScan (FreeAfter files) (scanFile place path) (FreeAfter (files ++ [path])) := by
  have analysed (source : Text) : Leads FitsScan (BoundAfter files path)
      (do
        let index ← findHarnesses path source
        let records ← findTests path source
        return (⟨index, Replay.groupByHarness records⟩ : Scanned)) (BoundAfter files path) :=
    leads_stay leads_findHarnesses fun index =>
      leads_stay leads_findTests fun records => leads_pure
  refine leads_stay leads_readSource fun source => ?_
  split
  · exact leads_pure
  · refine leads_stay (leads_bound ?_ (analysed source) ?_) fun scanned => leads_pure
    · intro moment free
      exact ⟨trivial, (List.append_nil _).trans free.1, rfl⟩
    · intro moment bound
      exact ⟨trivial, (List.append_nil _).trans bound.1, rfl⟩

/-- No source is bound, and of some files that were found the first ones have been read after
others. -/
def FreeAmong (files found : List Path) (moment : Moment) : Prop :=
  moment.IsFree ∧ ∃ read, read <+: found ∧ moment.files = files ++ read

theorem freeAmong_of_freeAfter {moment : Moment} (free : FreeAfter files moment)
    (found : List Path) : FreeAmong files found moment :=
  ⟨free.2, [], List.nil_prefix, free.1.trans (List.append_nil files).symm⟩

theorem freeAmong_cons {moment : Moment} {found : List Path}
    (free : FreeAmong (files ++ [path]) found moment) : FreeAmong files (path :: found) moment := by
  obtain ⟨unbound, read, begins, same⟩ := free
  exact ⟨unbound, path :: read, List.cons_prefix_cons.mpr ⟨rfl, begins⟩, by
    rw [same, List.append_assoc, List.singleton_append]⟩

/-- What the search comes to besides sources is reported while no source is bound. -/
theorem leads_reports (names : List Text) (size : Nat) :
    Leads FitsScan (FreeAfter files)
      (acts ((Finding.event? root settings (.tooLarge names size)).toList.map .report))
      (FreeAfter files) := by
  refine leads_acts fun report member moment free => ?_
  obtain ⟨event, known, rfl⟩ := List.mem_map.mp member
  cases Option.mem_toList.mp known
  exact ⟨free.2, (List.append_nil _).trans free.1, free.2⟩

/-- A scan reads the files that were found in their order, until it is cut short, and binds no
source in between. -/
theorem leads_scanAll (findings : List Finding) :
    Leads FitsScan (FreeAfter files) (scanAll place settings root json findings)
      (FreeAmong files (findings.filterMap (Finding.path? root))) := by
  induction findings generalizing files with
  | nil =>
      rw [scanAll]
      refine leads_bind leads_search (fun _ => ?_) fun _ free => freeAmong_of_freeAfter free _
      exact leads_pure.weaken (fun _ free => free) fun _ free => freeAmong_of_freeAfter free _
  | cons finding rest ih =>
      cases finding with
      | tooLarge names size =>
          rw [scanAll]
          refine leads_bind leads_search (fun _ => ?_) fun _ free => freeAmong_of_freeAfter free _
          exact leads_bind (leads_reports names size) (fun _ => ih)
            fun _ free => freeAmong_of_freeAfter free _
      | source names =>
          have later : Leads FitsScan (FreeAfter (files ++ [below root names]))
              (scanAll place settings root json rest)
              (FreeAmong files ((Finding.source names :: rest).filterMap (Finding.path? root))) :=
            ih.weaken (fun _ free => free) fun _ free => freeAmong_cons free
          have short (moment : Moment) (free : FreeAfter (files ++ [below root names]) moment) :
              FreeAmong files ((Finding.source names :: rest).filterMap (Finding.path? root))
                moment :=
            freeAmong_cons (freeAmong_of_freeAfter free _)
          have listed (entry : Text × Value) :
              Leads FitsScan (FreeAfter (files ++ [below root names]))
                (scanAll place settings root json rest >>= fun others => pure (entry :: others))
                (FreeAmong files
                  ((Finding.source names :: rest).filterMap (Finding.path? root))) :=
            leads_stay later fun _ => leads_pure
          rw [scanAll]
          refine leads_bind leads_search (fun _ => ?_) fun _ free => freeAmong_of_freeAfter free _
          refine leads_bind leads_scanFile (fun result => ?_) short
          cases result with
          | none => exact later
          | some scanned =>
              simp only
              split
              · exact leads_bind (leads_sayTable prints_freeAfter _ _) (fun _ => listed _) short
              · exact listed _

theorem prints_freeAmong {found : List Path} : Prints FitsScan (FreeAmong files found) :=
  fun _ _ ⟨free, read, begins, same⟩ => ⟨free, free, read, begins, (List.append_nil _).trans same⟩

theorem leads_scan (tree : Entry) :
    Leads FitsScan (FreeAfter files) (scan place settings json root tree)
      (FreeAmong files (sources root settings tree)) := by
  refine leads_stay (leads_scanAll (search settings tree)) fun found => ?_
  simp only
  split
  · exact leads_stay (leads_print prints_freeAmong _) fun _ => leads_pure
  · split
    · exact leads_stay (leads_print prints_freeAmong _) fun _ => leads_pure
    · exact leads_pure

end

/-! ## Commands for one file -/

/-- What an act of a command for one file needs of its moment: the file is bound while it is read
and analysed, and nothing is bound when the command prints. -/
def FitsFile (path : Path) (moment : Moment) : Act → Prop
  | .read _ | .findHarnesses _ | .findTests _ | .report _ => moment.source = some path.toText
  | .search | .print _ => moment.IsFree
  | .bind _ | .clear => True

section

variable {place : Place} {path : Path} {json : Bool} {source : Text}

/-- The source of a file is bound. -/
def IsBound (path : Path) (moment : Moment) : Prop :=
  moment.source = some path.toText

theorem prints_isFree : Prints (FitsFile path) Moment.IsFree :=
  fun _ _ free => ⟨free, free⟩

theorem leads_readSource_bound :
    Leads (FitsFile path) (IsBound path) (readSource place path) (IsBound path) := by
  have reads : Leads (FitsFile path) (IsBound path) (act (.read path)) (IsBound path) :=
    leads_act (fun _ bound => bound) fun _ bound => bound
  refine leads_stay reads fun _ => ?_
  split
  · exact leads_pure
  · exact leads_stop

/-- What reads a file and analyses it while it is bound leaves no source bound. -/
theorem leads_bound_analysis {α : Type} {analysis : Text → Run α}
    (analyses : ∀ source, Leads (FitsFile path) (IsBound path) (analysis source) (IsBound path)) :
    Leads (FitsFile path) Moment.IsFree (bound path do analysis (← readSource place path))
      Moment.IsFree := by
  have inside : Leads (FitsFile path) (IsBound path)
      (do analysis (← readSource place path)) (IsBound path) :=
    leads_stay leads_readSource_bound analyses
  exact leads_bound (fun _ _ => ⟨trivial, rfl⟩) inside fun _ _ => ⟨trivial, rfl⟩

theorem leads_harnesses :
    Leads (FitsFile path) Moment.IsFree (harnesses place json path) Moment.IsFree := by
  have analysed : ∀ source,
      Leads (FitsFile path) (IsBound path) (findHarnesses path source) (IsBound path) :=
    fun _ => leads_analyse (fun _ bound => ⟨bound, bound⟩) fun _ _ _ _ bound => ⟨bound, bound⟩
  refine leads_stay (leads_bound_analysis analysed) fun index => ?_
  simp only
  split
  · exact leads_stay (leads_print prints_isFree _) fun _ => leads_pure
  · split
    · exact leads_stay (leads_print prints_isFree _) fun _ => leads_pure
    · exact leads_stay (leads_sayTable prints_isFree _ _) fun _ => leads_pure

theorem leads_playback :
    Leads (FitsFile path) Moment.IsFree (playback place json path) Moment.IsFree := by
  have analysed : ∀ source,
      Leads (FitsFile path) (IsBound path) (findTests path source) (IsBound path) :=
    fun _ => leads_analyse (fun _ bound => ⟨bound, bound⟩) fun _ _ _ _ bound => ⟨bound, bound⟩
  refine leads_stay (leads_bound_analysis analysed) fun records => ?_
  simp only
  split
  · exact leads_stay (leads_print prints_isFree _) fun _ => leads_pure
  · split
    · exact leads_stay (leads_print prints_isFree _) fun _ => leads_pure
    · exact leads_stay (leads_sayAll prints_isFree _) fun _ => leads_pure

end

/-! ## Whole runs -/

/-- The file that was read last in some acts. -/
def lastRead? (acts : List Act) : Option Path :=
  (acts.filterMap Act.reads?).getLast?

/-- In the acts of a scan the files that were found are read in order, and the source of a file is
bound while the file that was read last is analysed. No source is bound when the search goes on,
when it reports a file as too large, when a file is read, or in the end. -/
structure ScanCorrelated (found : List Path) (acts : List Act) : Prop where
  files : acts.filterMap Act.reads? <+: found
  search : ∀ front back, acts = front ++ .search :: back → boundAfter none front = none
  read : ∀ front path back, acts = front ++ .read path :: back → boundAfter none front = none
  harnesses : ∀ front path back, acts = front ++ .findHarnesses path :: back →
    lastRead? front = some path ∧ boundAfter none front = some path.toText
  tests : ∀ front path back, acts = front ++ .findTests path :: back →
    lastRead? front = some path ∧ boundAfter none front = some path.toText
  reported : ∀ front event back, acts = front ++ .report event :: back →
    isOfSearch event = false →
      ∃ path, lastRead? front = some path ∧ boundAfter none front = some path.toText
  skipped : ∀ front path size limit back,
    acts = front ++ .report (.fileSkippedTooLarge path size limit) :: back →
      boundAfter none front = none ∧ ∀ stamp, Assoc.get? Log.sourceKey
        ((Log.Message.ofEvent (.fileSkippedTooLarge path size limit)).entries stamp
          (boundAfter none front)) = none
  released : boundAfter none acts = none

/-- In the acts of a command for one file all reports are made while the file is bound, and no
source is bound in the end. -/
structure FileCorrelated (path : Path) (acts : List Act) : Prop where
  reported : ∀ front event back, acts = front ++ .report event :: back →
    boundAfter none front = some path.toText
  released : boundAfter none acts = none

theorem Leads.script {α : Type} {fits : Moment → Act → Prop} {before after : Moment → Prop}
    {body : Run α} (leads : Leads fits before body after) (registry : Grammar.Registry)
    (holds : before .start) :
    AllFit fits .start (body.script registry).2 ∧
      after (Moment.start.afterAll (body.script registry).2) := by
  obtain ⟨acts, done, allFit, holds⟩ := leads ⟨registry, []⟩ .start holds
  obtain rfl : (body.script registry).2 = acts := done
  exact ⟨allFit, holds⟩

theorem lastRead?_eq (acts : List Act) :
    (Moment.start.afterAll acts).files.getLast? = lastRead? acts :=
  congrArg List.getLast? (Moment.files_afterAll .start acts)

theorem boundAfter_eq (acts : List Act) :
    (Moment.start.afterAll acts).source = boundAfter none acts :=
  Moment.source_afterAll .start acts

theorem isAbout_afterAll {acts : List Act} {path : Path}
    (about : (Moment.start.afterAll acts).IsAbout path) :
    lastRead? acts = some path ∧ boundAfter none acts = some path.toText := by
  rw [← lastRead?_eq, ← boundAfter_eq]
  exact about

theorem isFree_afterAll {acts : List Act} (free : (Moment.start.afterAll acts).IsFree) :
    boundAfter none acts = none :=
  (boundAfter_eq acts).symm.trans free

theorem scanCorrelated_of_allFit {found : List Path} {acts : List Act}
    (allFit : AllFit FitsScan .start acts)
    (free : FreeAmong [] found (Moment.start.afterAll acts)) : ScanCorrelated found acts where
  files := by
    obtain ⟨-, read, begins, same⟩ := free
    rw [Moment.files_afterAll] at same
    obtain rfl : acts.filterMap Act.reads? = read := same
    exact begins
  search := by
    rintro front back rfl
    exact isFree_afterAll allFit.at
  read := by
    rintro front path back rfl
    exact isFree_afterAll allFit.at
  harnesses := by
    rintro front path back rfl
    exact isAbout_afterAll allFit.at
  tests := by
    rintro front path back rfl
    exact isAbout_afterAll allFit.at
  reported := by
    rintro front event back rfl own
    have fits := allFit.at
    rw [FitsScan, own] at fits
    obtain ⟨path, about⟩ := fits
    exact ⟨path, isAbout_afterAll about⟩
  skipped := by
    rintro front path size limit back rfl
    have unbound : boundAfter none front = none := isFree_afterAll allFit.at
    refine ⟨unbound, fun stamp => ?_⟩
    rw [unbound, Log.get?_source_entries]
    rfl
  released := isFree_afterAll free.1

theorem fileCorrelated_of_allFit {path : Path} {acts : List Act}
    (allFit : AllFit (FitsFile path) .start acts) (free : (Moment.start.afterAll acts).IsFree) :
    FileCorrelated path acts where
  reported := by
    rintro front event back rfl
    exact (boundAfter_eq front).symm.trans allFit.at
  released := isFree_afterAll free

/-- Whatever files are found and whatever becomes of each, a scan binds the source of a file exactly
while it analyses the file, and neither a scan nor another command leaves a source bound, also when
it is cut short. -/
theorem source_correlated (place : Place) (settings : Scan) (root : Path) (json : Bool)
    (registry : Grammar.Registry) :
    (∀ findings, ScanCorrelated (findings.filterMap (Finding.path? root))
      ((scanAll place settings root json findings).script registry).2) ∧
    (∀ tree, ScanCorrelated (sources root settings tree)
      ((scan place settings json root tree).script registry).2) ∧
    ∀ path, FileCorrelated path ((harnesses place json path).script registry).2 ∧
      FileCorrelated path ((playback place json path).script registry).2 := by
  refine ⟨fun findings => ?_, fun tree => ?_, fun path => ⟨?_, ?_⟩⟩
  · obtain ⟨allFit, free⟩ := (leads_scanAll findings).script registry ⟨rfl, rfl⟩
    exact scanCorrelated_of_allFit allFit free
  · obtain ⟨allFit, free⟩ := (leads_scan tree).script registry ⟨rfl, rfl⟩
    exact scanCorrelated_of_allFit allFit free
  · obtain ⟨allFit, free⟩ := leads_harnesses.script registry rfl
    exact fileCorrelated_of_allFit allFit free
  · obtain ⟨allFit, free⟩ := leads_playback.script registry rfl
    exact fileCorrelated_of_allFit allFit free

/-- A place with a file that has a harness and one that cannot be read; all others mention no
proof. -/
def mixedPlace : Place :=
  { everywhere plain with
    read := fun path =>
      if path.parts = ["proof.rs"] then .ok (Text.encode plain)
      else if path.parts = ["gone.rs"] then .error "Permission denied"
      else .ok [] }

/-- Files of all kinds, one of them after the one that cannot be read. -/
def mixedFindings : List Finding :=
  [.tooLarge ["big.rs"] 2048, .source ["empty.rs"], .source ["proof.rs"], .source ["gone.rs"],
    .source ["unseen.rs"]]

/-- What a scan of these files does. -/
def mixedActs : List Act :=
  ((scanAll mixedPlace ⟨1, [".rs"], []⟩ ⟨0, []⟩ true mixedFindings).script .initial).2

theorem source_correlated_mixed :
    mixedActs = [.search, .report (.fileSkippedTooLarge "big.rs" 2048 1024),
        .search, .read ⟨0, ["empty.rs"]⟩,
        .search, .read ⟨0, ["proof.rs"]⟩, .bind ⟨0, ["proof.rs"]⟩,
        .findHarnesses ⟨0, ["proof.rs"]⟩, .report (.grammarLoaded Grammar.standardName),
        .report (.harnessesExtracted 1), .findTests ⟨0, ["proof.rs"]⟩, .clear,
        .search, .read ⟨0, ["gone.rs"]⟩] ∧
      ScanCorrelated (mixedFindings.filterMap (Finding.path? ⟨0, []⟩)) mixedActs := by
  refine ⟨by decide +kernel, ?_⟩
  obtain ⟨scans, -⟩ := source_correlated mixedPlace ⟨1, [".rs"], []⟩ ⟨0, []⟩ true .initial
  exact scans mixedFindings

end HarnessIndex.Command
