import HarnessIndex.Log.State
import HarnessIndex.Proofs.Ordered

/-!
# Where messages go

What the log delivers depends on its past only through the settings that were given last and the
source that was bound last: a message goes to those outputs of these settings whose threshold it
reaches, in their order, and to no output of earlier settings. It names the bound source unless it
names one itself.
-/

namespace HarnessIndex.Log

open Settings

/-! ## What counts of the past -/

/-- The settings that a use of the log gives. -/
def Step.settings? : Step → Option Logging
  | .configure settings => some settings
  | _ => none

/-- The source that a use of the log binds, or lets go of. -/
def Step.source? : Step → Option (Option Text)
  | .bind source => some (some source)
  | .clear => some none
  | _ => none

def Step.message? : Step → Option Message
  | .tell message => some message
  | _ => none

/-- The settings that were given last. -/
def latestSettings? (past : List Step) : Option Logging :=
  (past.filterMap Step.settings?).getLast?

/-- The source that is bound after some uses of the log, if none was bound before. -/
def latestSource (past : List Step) : Option Text :=
  (past.filterMap Step.source?).getLast?.join

/-- The messages that are told after some past, each with all uses of the log before it. -/
def tellings (past : List Step) : List Step → List (List Step × Message)
  | [] => []
  | step :: rest => step.message?.toList.map (past, ·) ++ tellings (past ++ [step]) rest

/-- The rank that a message must have to reach an output: that of the log or that of the output,
whichever is higher. -/
def threshold (settings : Logging) (output : Output) : Nat :=
  max settings.level.rank (output.level.getD settings.level).rank

/-- The outputs that take messages of a level. -/
def takers (settings : Logging) (level : Level) : List Output :=
  settings.outputs.filter fun output => threshold settings output ≤ level.rank

/-- What has to be delivered of a message after some past. -/
def due (past : List Step) (message : Message) : List Delivery :=
  match latestSettings? past with
  | none => []
  | some settings =>
      (takers settings message.level).map fun output => ⟨output, message, latestSource past⟩

/-- The first file among the outputs. -/
def firstFile? (settings : Logging) : Option Text :=
  settings.outputs.findSome? fun output => output.destination.path?

theorem latestSettings?_concat (past : List Step) (step : Step) :
    latestSettings? (past ++ [step]) = step.settings?.or (latestSettings? past) := by
  rw [latestSettings?, List.filterMap_append]
  cases step <;> simp [latestSettings?, Step.settings?]

theorem latestSource_concat (past : List Step) (step : Step) :
    latestSource (past ++ [step]) = step.source?.getD (latestSource past) := by
  rw [latestSource, List.filterMap_append]
  cases step <;> simp [latestSource, Step.source?]

/-! ## What settings set up -/

/-- The outputs of some settings as they are opened. -/
def channels (settings : Logging) : List Channel :=
  settings.outputs.map fun output => ⟨output, outputLevel settings output⟩

/-- Opening outputs adds them to those that are open, and remembers the first file if there is none
yet. -/
theorem foldl_opened (settings : Logging) (outputs : List Output) (state : State) :
    outputs.foldl (State.opened settings) state =
      { state with
        channels := state.channels ++
          outputs.map fun output => ⟨output, outputLevel settings output⟩
        file? := state.file?.or (outputs.findSome? fun output => output.destination.path?) } := by
  induction outputs generalizing state with
  | nil => simp
  | cons output rest ih =>
      rw [List.foldl_cons, ih, List.findSome?_cons, State.opened]
      cases output.destination.path? <;> cases state.file? <;> simp

theorem configured_eq (state : State) (settings : Logging) :
    state.configured settings =
      { state with
        loggerLevel := settings.level
        rootLevel := settings.level
        channels := channels settings
        file? := firstFile? settings } := by
  rw [State.configured, foldl_opened]
  rfl

/-! ## The state after a past -/

/-- The state is set up as some settings say. -/
structure SetUp (settings : Logging) (state : State) : Prop where
  loggerLevel : state.loggerLevel = settings.level
  rootLevel : state.rootLevel = settings.level
  channels : state.channels = Log.channels settings
  file : state.file? = firstFile? settings

/-- The state has of the past what counts. -/
structure Reflects (past : List Step) (state : State) : Prop where
  source : state.source = latestSource past
  setUp : ∀ settings, latestSettings? past = some settings → SetUp settings state
  fresh : latestSettings? past = none → state.file? = none

theorem reflects_initial : Reflects [] .initial where
  source := rfl
  setUp := by simp [latestSettings?]
  fresh _ := rfl

theorem source_after (state : State) (step : Step) :
    (state.after step).source = step.source?.getD state.source := by
  cases step with
  | configure settings =>
      rw [State.after, configured_eq]
      rfl
  | bind source => rfl
  | clear => rfl
  | tell message => rfl

/-- A use of the log that gives settings sets the log up. -/
theorem setUp_after {step : Step} {settings : Logging} (given : step.settings? = some settings)
    (state : State) : SetUp settings (state.after step) := by
  cases step with
  | configure settings =>
      obtain rfl := Option.some.inj given
      rw [State.after, configured_eq]
      exact ⟨rfl, rfl, rfl, rfl⟩
  | bind source => cases given
  | clear => cases given
  | tell message => cases given

/-- A use of the log that gives no settings changes the source at most. -/
theorem after_eq_of_settings?_eq_none {step : Step} (none : step.settings? = none)
    (state : State) :
    state.after step = { state with source := step.source?.getD state.source } := by
  cases step with
  | configure settings => cases none
  | bind source => rfl
  | clear => rfl
  | tell message => rfl

/-- Every use of the log keeps what counts of the past. -/
theorem Reflects.after {past : List Step} {state : State} (reflects : Reflects past state)
    (step : Step) : Reflects (past ++ [step]) (state.after step) := by
  have source : (state.after step).source = latestSource (past ++ [step]) := by
    rw [source_after, latestSource_concat, reflects.source]
  have latest := latestSettings?_concat past step
  cases given : step.settings? with
  | some settings =>
      rw [given, Option.some_or] at latest
      refine ⟨source, ?_, ?_⟩
      · intro other same
        obtain rfl : settings = other := Option.some.inj (latest.symm.trans same)
        exact setUp_after given state
      · intro none
        rw [latest] at none
        exact absurd none (by simp)
  | none =>
      rw [given, Option.none_or] at latest
      rw [after_eq_of_settings?_eq_none given] at source ⊢
      refine ⟨source, ?_, ?_⟩
      · intro settings same
        obtain ⟨loggerLevel, rootLevel, channels, file⟩ :=
          reflects.setUp settings (latest.symm.trans same)
        exact ⟨loggerLevel, rootLevel, channels, file⟩
      · intro none
        exact reflects.fresh (latest.symm.trans none)

theorem Reflects.afterAll {past : List Step} {state : State} (reflects : Reflects past state)
    (steps : List Step) : Reflects (past ++ steps) (state.afterAll steps) := by
  induction steps generalizing past state with
  | nil =>
      rw [List.append_nil]
      exact reflects
  | cons step rest ih =>
      have later := ih (reflects.after step)
      rw [List.append_assoc] at later
      exact later

theorem reflects_afterAll (past : List Step) : Reflects past (State.initial.afterAll past) :=
  reflects_initial.afterAll past

/-! ## What is delivered -/

/-- A state that is set up delivers a message to the outputs whose threshold it reaches. -/
theorem deliver_of_setUp {settings : Logging} {state : State} (setUp : SetUp settings state)
    (message : Message) :
    state.deliver message =
      (takers settings message.level).map fun output => ⟨output, message, state.source⟩ := by
  rw [State.deliver, State.letsThrough, setUp.loggerLevel, setUp.rootLevel, setUp.channels,
    channels, takers, List.filter_map, List.map_map]
  by_cases passes : settings.level.rank ≤ message.level.rank
  · simp [passes, threshold, outputLevel, Function.comp_def]
  · simp [passes, threshold]

theorem deliver_of_reflects {past : List Step} {state : State} (reflects : Reflects past state)
    {settings : Logging} (given : latestSettings? past = some settings) (message : Message) :
    state.deliver message = due past message := by
  rw [deliver_of_setUp (reflects.setUp settings given), due, given, reflects.source]

theorem delivered_eq_flatMap (state : State) (step : Step) :
    state.delivered step = step.message?.toList.flatMap state.deliver := by
  cases step <;> simp [State.delivered, Step.message?]

theorem exists_latestSettings? {past : List Step} {settings : Logging}
    (given : latestSettings? past = some settings) (step : Step) :
    ∃ later, latestSettings? (past ++ [step]) = some later := by
  rw [latestSettings?_concat, given]
  cases step.settings? with
  | none => exact ⟨settings, rfl⟩
  | some later => exact ⟨later, rfl⟩

theorem exists_latestSettings?_of_mem_tellings {past steps : List Step} {settings : Logging}
    (given : latestSettings? past = some settings) {telling : List Step × Message}
    (member : telling ∈ tellings past steps) :
    ∃ later, latestSettings? telling.1 = some later := by
  induction steps generalizing past settings with
  | nil => simp [tellings] at member
  | cons step rest ih =>
      rw [tellings] at member
      rcases List.mem_append.mp member with now | later
      · obtain ⟨message, -, rfl⟩ := List.mem_map.mp now
        exact ⟨settings, given⟩
      · obtain ⟨next, given⟩ := exists_latestSettings? given step
        exact ih given later

/-- Once settings have been given, what is delivered is what is due of each message. -/
theorem deliveredAll_of_reflects {past : List Step} {state : State}
    (reflects : Reflects past state) {settings : Logging}
    (given : latestSettings? past = some settings) (steps : List Step) :
    state.deliveredAll steps =
      (tellings past steps).flatMap fun telling => due telling.1 telling.2 := by
  induction steps generalizing past state settings with
  | nil => rfl
  | cons step rest ih =>
      obtain ⟨next, later⟩ := exists_latestSettings? given step
      have now : state.delivered step =
          (step.message?.toList.map (past, ·)).flatMap fun telling => due telling.1 telling.2 := by
        rw [delivered_eq_flatMap, List.flatMap_map]
        exact List.flatMap_congr fun message _ => deliver_of_reflects reflects given message
      rw [State.deliveredAll, tellings, List.flatMap_append, now, ih (reflects.after step) later]

/-! ## The source of a message -/

/-- The source that a message names itself. -/
def Message.ownSource? (message : Message) : Option Value :=
  Assoc.get? sourceKey (Assoc.ofList message.fields)

/-- The source that is shown for a bound one: an empty one is not shown. -/
def shownSource? (bound : Option Text) : Option Value :=
  (bound.filter fun source => !source.isEmpty).map .text

/-- The source in the entries of a message before the bound one is added. -/
theorem get?_source_bare (stamp : Text) (message : Message) :
    Assoc.get? sourceKey (message.bare stamp) = message.ownSource? := by
  have named : Assoc.get? sourceKey
      (message.logger.map fun name => (loggerKey, Value.text name)).toList = none := by
    cases message.logger with
    | none => rfl
    | some name => rfl
  rw [Message.bare, Assoc.get?_put_of_ne (by decide), Assoc.get?_put_of_ne (by decide),
    Assoc.get?_put_of_ne (by decide), ← Assoc.putAll, Assoc.get?_putAll, named, Option.or_none,
    Message.ownSource?]

/-- A message shows the source that it names itself, and else the bound one. -/
theorem get?_source_entries (stamp : Text) (bound : Option Text) (message : Message) :
    Assoc.get? sourceKey (message.entries stamp bound) =
      message.ownSource?.or (shownSource? bound) := by
  rw [Message.entries, ← get?_source_bare stamp message]
  cases bound with
  | none =>
      rw [Message.addSource, shownSource?, Option.filter_none, Option.map_none, Option.or_none]
  | some source =>
      rw [Message.addSource, Assoc.has]
      cases own : Assoc.get? sourceKey (message.bare stamp) with
      | some value => simp [own]
      | none =>
          by_cases empty : source = []
          · simp [own, empty, shownSource?]
          · have fresh := Assoc.get?_eq_none.mp own
            rw [if_neg (by simp [empty]), ← Assoc.put_of_notMem fresh, Assoc.get?_put_self]
            simp [shownSource?, empty]

/-! ## The whole run -/

/-- After the first settings, what the log delivers is, message by message, what goes to the outputs
of the latest settings whose threshold the message reaches, with the source that the message names
or that is bound; and the file of the log is the first one among the outputs of the latest
settings. -/
theorem deliveredAll_latest (earlier : List Step) (first : Logging) (steps : List Step) :
    (State.initial.afterAll (earlier ++ [.configure first])).deliveredAll steps =
      ((tellings (earlier ++ [.configure first]) steps).flatMap fun telling =>
        due telling.1 telling.2) ∧
    (∀ telling ∈ tellings (earlier ++ [.configure first]) steps,
      ∃ settings, latestSettings? telling.1 = some settings ∧
        due telling.1 telling.2 = (takers settings telling.2.level).map fun output =>
          ⟨output, telling.2, latestSource telling.1⟩) ∧
    (∀ past message, ∀ delivery ∈ due past message, ∀ stamp,
      Assoc.get? sourceKey (delivery.entries stamp) =
        message.ownSource?.or (shownSource? (latestSource past))) ∧
    ∀ past, (State.initial.afterAll past).file? = (latestSettings? past).bind firstFile? := by
  have given : latestSettings? (earlier ++ [.configure first]) = some first := by
    rw [latestSettings?_concat]
    rfl
  refine ⟨deliveredAll_of_reflects (reflects_afterAll _) given steps, ?_, ?_, ?_⟩
  · intro telling member
    obtain ⟨settings, latest⟩ := exists_latestSettings?_of_mem_tellings given member
    refine ⟨settings, latest, ?_⟩
    rw [due, latest]
  · intro past message delivery member stamp
    rw [due] at member
    split at member
    · simp at member
    · obtain ⟨output, -, rfl⟩ := List.mem_map.mp member
      exact get?_source_entries stamp _ message
  · intro past
    have reflects := reflects_afterAll past
    cases latest : latestSettings? past with
    | none => exact reflects.fresh latest
    | some settings => exact (reflects.setUp settings latest).file

/-- Settings whose outputs take all that the log lets through. -/
def firstSettings : Logging :=
  ⟨.debug, [⟨.console, .stderr, none⟩, ⟨.json, .file "/tmp/first.log", none⟩]⟩

/-- Settings with one output that takes errors only. -/
def nextSettings : Logging :=
  ⟨.info, [⟨.json, .stdout, some .error⟩, ⟨.console, .file "/tmp/next.log", some .debug⟩,
    ⟨.console, .file "/tmp/last.log", none⟩]⟩

/-- A run in which the settings change between two messages while a source is bound. -/
def changingRun : List Step :=
  [.bind "a.rs", .tell ⟨.debug, "before", none, []⟩, .configure nextSettings,
    .tell ⟨.warning, "after", none, []⟩, .tell ⟨.debug, "hidden", none, []⟩, .clear,
    .tell ⟨.error, "last", none, [("source", .text "b.rs")]⟩]

theorem deliveredAll_latest_changed :
    let log := State.initial.afterAll [.configure firstSettings]
    (log.deliveredAll changingRun).map (fun delivery => (delivery.output.destination,
      String.ofList delivery.message.event, delivery.bound)) =
      [(.stderr, "before", some "a.rs".toList), (.file "/tmp/first.log", "before", some "a.rs"),
        (.file "/tmp/next.log", "after", some "a.rs"),
        (.file "/tmp/last.log", "after", some "a.rs"),
        (.stdout, "last", none), (.file "/tmp/next.log", "last", none),
        (.file "/tmp/last.log", "last", none)] ∧
    (log.afterAll changingRun).file? = some "/tmp/next.log".toList := by
  obtain ⟨delivered, -, -, file⟩ := deliveredAll_latest [] firstSettings changingRun
  constructor
  · rw [List.nil_append] at delivered
    rw [delivered]
    decide
  · exact file (.configure firstSettings :: changingRun)

end HarnessIndex.Log
