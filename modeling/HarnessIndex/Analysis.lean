import HarnessIndex.Grammar.Registry
import HarnessIndex.Harness.Index
import HarnessIndex.Reader.Source
import HarnessIndex.Replay.Locate

/-!
# Analysing a source

What a source holds, found with the grammar at hand. A source without anything to find is answered
without the grammar: a blank source has no harnesses, and a source that does not mention the start
of a generated name has no generated tests.
-/

namespace HarnessIndex.Analysis

open Grammar Syntax

/-- The syntax tree of a source. -/
def parse (registry : Registry) (source : Text) : Outcome Parsed :=
  withGrammar registry fun _ => (Reader.parse source, [])

def harnesses (registry : Registry) (source : Text) : Outcome Harness.Index :=
  if (Text.trim source).isEmpty then .pure registry []
  else withGrammar registry fun _ => Harness.index source (some (Reader.parse source))

def generatedTests (registry : Registry) (source : Text) : Outcome (List Replay.Record) :=
  if !Text.occursIn Replay.start source then .pure registry []
  else withGrammar registry fun _ => Replay.extract source (some (Reader.parse source))

end HarnessIndex.Analysis
