import HarnessIndex.Text.Blank

/-!
# Events

What the analysis reports while it works, apart from its results.
-/

namespace HarnessIndex

/-- How serious an event is. -/
inductive Level where
  | debug
  | info
  | warning
  | error
  | critical
  deriving DecidableEq, Repr, Inhabited

namespace Level

/-- The rank of a level; an output with a threshold takes the levels of at least that rank. -/
def rank : Level → Nat
  | debug => 10
  | info => 20
  | warning => 30
  | error => 40
  | critical => 50

def name : Level → Text
  | debug => "debug"
  | info => "info"
  | warning => "warning"
  | error => "error"
  | critical => "critical"

end Level

/-- One report. -/
inductive Event where
  | harnessNameCollision (harness : Text) (keptLine droppedLine : Nat)
  | sourceParseFailed (reason : Text)
  | malformedSource (errorCount totalNodes : Nat)
  | harnessesExtracted (count : Nat)
  | generatedTestsExtracted (count : Nat)
  | grammarLoaded (package : Text)
  | grammarLoadFailed (package reason : Text)
  | fileSkippedTooLarge (path : Text) (size limit : Nat)
  deriving DecidableEq, Repr, Inhabited

namespace Event

/-- How serious a report is. -/
def level : Event → Level
  | harnessNameCollision .. => .warning
  | sourceParseFailed .. => .warning
  | malformedSource .. => .debug
  | harnessesExtracted .. => .debug
  | generatedTestsExtracted .. => .debug
  | grammarLoaded .. => .debug
  | grammarLoadFailed .. => .error
  | fileSkippedTooLarge .. => .info

def name : Event → Text
  | harnessNameCollision .. => "harness_name_collision"
  | sourceParseFailed .. => "source_parse_failed"
  | malformedSource .. => "malformed_source"
  | harnessesExtracted .. => "harnesses_extracted"
  | generatedTestsExtracted .. => "generated_tests_extracted"
  | grammarLoaded .. => "grammar_loaded"
  | grammarLoadFailed .. => "grammar_load_failed"
  | fileSkippedTooLarge .. => "file_skipped_too_large"

end Event

end HarnessIndex
