import HarnessIndex.Harness.Index
import HarnessIndex.Replay.Locate
import HarnessIndex.Value.Value

/-!
# Results as values

The forms of harnesses and generated tests as values, for programs that read the results.
-/

namespace HarnessIndex.Report

def optionalText : Option Text → Value
  | some text => .text text
  | none => .null

def textList (texts : List Text) : Value :=
  .list (texts.map .text)

def descriptorValue (descriptor : Attribute.Descriptor) : Value :=
  .record [("name", .text descriptor.name), ("arguments", textList descriptor.arguments),
    ("supported", .bool descriptor.supported), ("line", .int descriptor.line)]

def harnessValue (harness : Harness.Metadata) : Value :=
  .record [("harness_name", .text harness.harnessName),
    ("qualified_name", .text harness.qualifiedName), ("kind", .text harness.kind.name),
    ("start_line", .int harness.startLine), ("end_line", .int harness.endLine),
    ("attributes", .list (harness.attributes.map descriptorValue)),
    ("total_proofs", .int harness.totalProofs), ("module_path", textList harness.modulePath),
    ("doc", optionalText harness.doc), ("entry_point", optionalText harness.entryPoint)]

def indexValue (index : Harness.Index) : Value :=
  .record (index.map fun entry => (entry.1, harnessValue entry.2))

/-- The form of a generated test. -/
def recordValue (record : Replay.Record) : Value :=
  .record [("test_function_name", .text record.testFunctionName),
    ("originating_harness_name", .text record.originatingHarnessName),
    ("insertion_line", .int record.insertionLine), ("end_line", .int record.endLine),
    ("playback_id", optionalText record.playbackId)]

/-- The form of generated tests. -/
def recordsValue (records : List Replay.Record) : Value :=
  .list (records.map recordValue)

/-- The form of generated tests under their harnesses. -/
def groupsValue (groups : Replay.Groups) : Value :=
  .record (groups.map fun group => (group.1, recordsValue group.2))

end HarnessIndex.Report
