import HarnessIndex.Proofs.Command.Scan

/-!
# Moments of a run

Between two acts of a run there is a moment: some files have been read, and perhaps a source is
bound to the log. What a part of a run does is described by `Leads`: from moments of one kind it
comes to moments of another kind, also when it is cut short, and every act that it does on the way
fits its moment. The rules follow the ways in which runs are put together.
-/

namespace HarnessIndex.Command

open Run

/-! ## Moments of a run -/

def Act.reads? : Act → Option Path
  | .read path => some path
  | _ => none

/-- What counts between two acts: the files that have been read, and the source that is bound. -/
structure Moment where
  files : List Path
  source : Option Text

namespace Moment

def after (moment : Moment) (next : Act) : Moment :=
  ⟨moment.files ++ next.reads?.toList, next.boundAfter moment.source⟩

def afterAll (moment : Moment) (acts : List Act) : Moment :=
  acts.foldl after moment

/-- Before a run. -/
def start : Moment :=
  ⟨[], none⟩

theorem source_afterAll (moment : Moment) (acts : List Act) :
    (moment.afterAll acts).source = boundAfter moment.source acts := by
  induction acts generalizing moment with
  | nil => rfl
  | cons next rest ih => exact ih (moment.after next)

theorem files_afterAll (moment : Moment) (acts : List Act) :
    (moment.afterAll acts).files = moment.files ++ acts.filterMap Act.reads? := by
  induction acts generalizing moment with
  | nil => simp [afterAll]
  | cons next rest ih =>
      refine (ih (moment.after next)).trans ?_
      rw [after, List.append_assoc, List.filterMap_cons]
      cases next.reads? <;> rfl

/-- No source is bound. -/
def IsFree (moment : Moment) : Prop :=
  moment.source = none

/-- The file that was read last is bound. -/
def IsAbout (path : Path) (moment : Moment) : Prop :=
  moment.files.getLast? = some path ∧ moment.source = some path.toText

end Moment

/-! ## What a part of a run leads to -/

/-- All acts fit the moments at which they are done. -/
def AllFit (fits : Moment → Act → Prop) (moment : Moment) : List Act → Prop
  | [] => True
  | next :: rest => fits moment next ∧ AllFit fits (moment.after next) rest

theorem allFit_append {fits : Moment → Act → Prop} {moment : Moment} {first second : List Act} :
    AllFit fits moment (first ++ second) ↔
      AllFit fits moment first ∧ AllFit fits (moment.afterAll first) second := by
  induction first generalizing moment with
  | nil => simp [AllFit, Moment.afterAll]
  | cons next rest ih =>
      rw [List.cons_append, AllFit, AllFit, ih, and_assoc]
      rfl

theorem AllFit.at {fits : Moment → Act → Prop} {moment : Moment} {front back : List Act}
    {next : Act} (allFit : AllFit fits moment (front ++ next :: back)) :
    fits (moment.afterAll front) next :=
  (allFit_append.mp allFit).2.1

/-- A part of a run leads from moments of one kind to moments of another kind, however it ends, and
all its acts fit. -/
def Leads {α : Type} (fits : Moment → Act → Prop) (before : Moment → Prop) (body : Run α)
    (after : Moment → Prop) : Prop :=
  ∀ progress moment, before moment →
    ∃ acts, ((ExceptT.run body).run progress).2.acts = progress.acts ++ acts ∧
      AllFit fits moment acts ∧ after (moment.afterAll acts)

section

variable {α β : Type} {fits : Moment → Act → Prop} {before between after : Moment → Prop}
  {body : Run α}

theorem Leads.weaken {before' after' : Moment → Prop} (leads : Leads fits before body after)
    (first : ∀ moment, before' moment → before moment)
    (last : ∀ moment, after moment → after' moment) : Leads fits before' body after' := by
  intro progress moment holds
  obtain ⟨acts, done, allFit, holds⟩ := leads progress moment (first moment holds)
  exact ⟨acts, done, allFit, last _ holds⟩

theorem leads_silent
    (silent : ∀ progress, ((ExceptT.run body).run progress).2.acts = progress.acts)
    (kept : ∀ moment, before moment → after moment) : Leads fits before body after := by
  intro progress moment holds
  exact ⟨[], by rw [silent, List.append_nil], trivial, kept moment holds⟩

theorem leads_pure {value : α} : Leads fits before (pure value) before :=
  leads_silent (fun _ => rfl) fun _ holds => holds

theorem leads_stop {reason : Stop} : Leads fits before (stop reason : Run α) before :=
  leads_silent (fun _ => rfl) fun _ holds => holds

theorem leads_act {next : Act} (fit : ∀ moment, before moment → fits moment next)
    (kept : ∀ moment, before moment → after (moment.after next)) :
    Leads fits before (act next) after := by
  intro progress moment holds
  exact ⟨[next], rfl, ⟨fit moment holds, trivial⟩, kept moment holds⟩

/-- A run of two parts leads where the second part leads, or where the first part leads when it is
cut short. -/
theorem leads_bind {next : α → Run β} (first : Leads fits before body between)
    (second : ∀ value, Leads fits between (next value) after)
    (short : ∀ moment, between moment → after moment) :
    Leads fits before (body >>= next) after := by
  intro progress moment holds
  obtain ⟨acts, done, allFit, holds⟩ := first progress moment holds
  rw [run_bind]
  cases ran : (ExceptT.run body).run progress with
  | mk result middle =>
      rw [ran] at done
      cases result with
      | error reason => exact ⟨acts, done, allFit, short _ holds⟩
      | ok value =>
          obtain ⟨others, done', allFit', holds'⟩ := second value middle _ holds
          refine ⟨acts ++ others, ?_, allFit_append.mpr ⟨allFit, allFit'⟩, ?_⟩
          · rw [done', done, List.append_assoc]
          · rw [Moment.afterAll, List.foldl_append]
            exact holds'

/-- A run of two parts leads where the first part leads if the second part stays there. -/
theorem leads_stay {next : α → Run β} (first : Leads fits before body after)
    (second : ∀ value, Leads fits after (next value) after) :
    Leads fits before (body >>= next) after :=
  leads_bind first second fun _ holds => holds

theorem leads_acts {next : List Act}
    (each : ∀ act ∈ next, ∀ moment, before moment →
      fits moment act ∧ before (moment.after act)) : Leads fits before (acts next) before := by
  induction next with
  | nil => exact leads_pure
  | cons first rest ih =>
      obtain ⟨now, later⟩ := List.forall_mem_cons.mp each
      exact leads_stay (leads_act (fun moment holds => (now moment holds).1)
        fun moment holds => (now moment holds).2) fun _ => ih later

/-- What is done while a source is bound comes between binding it and letting go of it. -/
theorem leads_bound {path : Path} {inside inside' : Moment → Prop}
    (bind : ∀ moment, before moment →
      fits moment (.bind path) ∧ inside (moment.after (.bind path)))
    (leads : Leads fits inside body inside')
    (clear : ∀ moment, inside' moment → fits moment .clear ∧ after (moment.after .clear)) :
    Leads fits before (bound path body) after := by
  intro progress moment holds
  obtain ⟨fit, holds⟩ := bind moment holds
  obtain ⟨acts, ran, allFit, holds⟩ := leads (done (.bind path) progress) _ holds
  obtain ⟨fit', holds⟩ := clear _ holds
  refine ⟨.bind path :: acts ++ [.clear], ?_, ?_, ?_⟩
  · rw [run_bound]
    simp only [done] at ran ⊢
    rw [ran]
    simp
  · rw [List.cons_append]
    exact ⟨fit, allFit_append.mpr ⟨allFit, fit', trivial⟩⟩
  · rw [Moment.afterAll, List.foldl_append]
    exact holds

/-- An analysis is one act, followed by its reports. -/
theorem leads_analyse {next : Act} {use : Grammar.Registry → Grammar.Outcome α}
    (now : ∀ moment, before moment → fits moment next ∧ before (moment.after next))
    (reports : ∀ registry, ∀ event ∈ (use registry).events, ∀ moment, before moment →
      fits moment (.report event) ∧ before (moment.after (.report event))) :
    Leads fits before (analyse next use) before := by
  have kept : ∀ moment, before moment → before moment := fun _ holds => holds
  refine leads_stay (leads_act (fun moment holds => (now moment holds).1)
    fun moment holds => (now moment holds).2) fun _ => ?_
  refine leads_stay (leads_silent (fun _ => rfl) kept) fun progress => ?_
  refine leads_stay (leads_silent (fun _ => rfl) kept) fun _ => ?_
  refine leads_stay (leads_acts ?_) fun _ => ?_
  · intro report member
    obtain ⟨event, known, rfl⟩ := List.mem_map.mp member
    exact reports _ event known
  · split
    · exact leads_pure
    · exact leads_stop

/-- Printing fits and keeps a property. -/
def Prints (fits : Moment → Act → Prop) (before : Moment → Prop) : Prop :=
  ∀ text moment, before moment → fits moment (.print text) ∧ before (moment.after (.print text))

theorem leads_print (prints : Prints fits before) (text : Text) :
    Leads fits before (act (.print text)) before :=
  leads_act (fun moment holds => (prints text moment holds).1)
    fun moment holds => (prints text moment holds).2

theorem leads_sayTable (prints : Prints fits before) (place : Place) (table : Report.Table) :
    Leads fits before (sayTable place table) before := by
  rw [sayTable]
  split
  · exact leads_stop
  · exact leads_print prints _

theorem leads_sayAll (prints : Prints fits before) (lines : List Text) :
    Leads fits before (sayAll lines) before := by
  induction lines with
  | nil => exact leads_pure
  | cons line rest ih => exact leads_stay (leads_print prints _) fun _ => ih

end

end HarnessIndex.Command
