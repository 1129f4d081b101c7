import HarnessIndex.Event
import HarnessIndex.Value.Json

/-!
# Messages of the log

A message has a level, the name of an event, perhaps the name of the logger it came through, and
fields. What is written of it has a time stamp too, and the source that is being analysed, unless
the message names a source of its own.
-/

namespace HarnessIndex.Log

/-- What is told to the log. -/
structure Message where
  level : Level
  event : Text
  logger : Option Text
  fields : List (Text × Value)
  deriving Repr, Inhabited

/-- The entry with the name of the logger. -/
def loggerKey : Text := "logger"

/-- The entry with the name of the event. -/
def eventKey : Text := "event"

def levelKey : Text := "level"

def timeKey : Text := "timestamp"

/-- The entry with the source that is being analysed. -/
def sourceKey : Text := "source"

def eventFields : Event → List (Text × Value)
  | .harnessNameCollision harness keptLine droppedLine =>
      [("harness", .text harness), ("kept_line", .int keptLine), ("dropped_line", .int droppedLine)]
  | .sourceParseFailed reason => [("error", .text reason)]
  | .malformedSource errorCount totalNodes =>
      [("error_count", .int errorCount), ("total_nodes", .int totalNodes)]
  | .harnessesExtracted count => [("count", .int count)]
  | .generatedTestsExtracted count => [("count", .int count)]
  | .grammarLoaded package => [("module", .text package)]
  | .grammarLoadFailed package reason => [("module", .text package), ("error", .text reason)]
  | .fileSkippedTooLarge path size limit =>
      [("path", .text path), ("size", .int size), ("limit", .int limit)]

namespace Message

def ofEvent (event : Event) : Message :=
  ⟨event.level, event.name, none, eventFields event⟩

/-- The entries of a message before its source is known. A field with the name of the event, the
level or the time gives way. -/
def bare (stamp : Text) (message : Message) : List (Text × Value) :=
  let named : List (Text × Value) := (message.logger.map fun name => (loggerKey, .text name)).toList
  Assoc.put timeKey (.text stamp)
    (Assoc.put levelKey (.text message.level.name)
      (Assoc.put eventKey (.text message.event)
        (message.fields.foldl (fun known field => Assoc.put field.1 field.2 known) named)))

/-- Add the source that is bound, unless there is one already or the bound one is empty. -/
def addSource (bound : Option Text) (entries : List (Text × Value)) : List (Text × Value) :=
  match bound with
  | none => entries
  | some source =>
      if source.isEmpty || Assoc.has sourceKey entries then entries
      else entries ++ [(sourceKey, .text source)]

def entries (stamp : Text) (bound : Option Text) (message : Message) : List (Text × Value) :=
  addSource bound (message.bare stamp)

end Message

end HarnessIndex.Log
