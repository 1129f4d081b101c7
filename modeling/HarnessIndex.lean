import HarnessIndex.Analysis
import HarnessIndex.Attribute.Arguments
import HarnessIndex.Attribute.Classify
import HarnessIndex.Attribute.Condition
import HarnessIndex.Attribute.Descriptor
import HarnessIndex.Command.Arguments
import HarnessIndex.Command.Commands
import HarnessIndex.Command.Place
import HarnessIndex.Command.Program
import HarnessIndex.Command.Script
import HarnessIndex.Command.Usage
import HarnessIndex.Event
import HarnessIndex.Failure
import HarnessIndex.Files.Content
import HarnessIndex.Files.Discovery
import HarnessIndex.Files.Entry
import HarnessIndex.Grammar.Flight
import HarnessIndex.Grammar.Package
import HarnessIndex.Grammar.Registry
import HarnessIndex.Harness.Detect
import HarnessIndex.Harness.Index
import HarnessIndex.Harness.Marker
import HarnessIndex.Harness.Metadata
import HarnessIndex.Log.Line
import HarnessIndex.Log.Message
import HarnessIndex.Log.State
import HarnessIndex.Main
import HarnessIndex.Ordered
import HarnessIndex.Proofs.Analysis
import HarnessIndex.Proofs.Attribute.Arguments
import HarnessIndex.Proofs.Attribute.Classify
import HarnessIndex.Proofs.Attribute.Direct
import HarnessIndex.Proofs.Attribute.Display
import HarnessIndex.Proofs.Attribute.Distinct
import HarnessIndex.Proofs.Attribute.Layers
import HarnessIndex.Proofs.Attribute.LiteralTokens
import HarnessIndex.Proofs.Attribute.Literals
import HarnessIndex.Proofs.Attribute.MissingCloser
import HarnessIndex.Proofs.Attribute.Pieces
import HarnessIndex.Proofs.Attribute.Predicate
import HarnessIndex.Proofs.Attribute.TokenText
import HarnessIndex.Proofs.Attribute.Wrapped
import HarnessIndex.Proofs.Attribute.Written
import HarnessIndex.Proofs.Command.Correlation
import HarnessIndex.Proofs.Command.Scan
import HarnessIndex.Proofs.Command.Settings
import HarnessIndex.Proofs.Files.Search
import HarnessIndex.Proofs.Files.Tree
import HarnessIndex.Proofs.Grammar.SingleFlight
import HarnessIndex.Proofs.Harness.Candidates
import HarnessIndex.Proofs.Harness.Choosing
import HarnessIndex.Proofs.Harness.Collisions
import HarnessIndex.Proofs.Harness.Hidden
import HarnessIndex.Proofs.Harness.Kinds
import HarnessIndex.Proofs.Harness.Language
import HarnessIndex.Proofs.Harness.Marker
import HarnessIndex.Proofs.Harness.Merging
import HarnessIndex.Proofs.Harness.Order
import HarnessIndex.Proofs.Harness.Reports
import HarnessIndex.Proofs.Harness.Scope
import HarnessIndex.Proofs.Harness.SourceOrder
import HarnessIndex.Proofs.Harness.Unseen
import HarnessIndex.Proofs.Harness.Winners
import HarnessIndex.Proofs.Log.Delivery
import HarnessIndex.Proofs.Ordered
import HarnessIndex.Proofs.Replay.Groups
import HarnessIndex.Proofs.Replay.Locate
import HarnessIndex.Proofs.Replay.Name
import HarnessIndex.Proofs.Report.Emoji
import HarnessIndex.Proofs.Report.Escaping
import HarnessIndex.Proofs.Report.ReplayColumn
import HarnessIndex.Proofs.Report.Showing
import HarnessIndex.Proofs.Report.TableTags
import HarnessIndex.Proofs.Report.Tags
import HarnessIndex.Proofs.Settings.Checks
import HarnessIndex.Proofs.Settings.Layers
import HarnessIndex.Proofs.Settings.Normal
import HarnessIndex.Proofs.Settings.Troubles
import HarnessIndex.Proofs.Syntax.Attached
import HarnessIndex.Proofs.Syntax.Counts
import HarnessIndex.Proofs.Syntax.Documentation
import HarnessIndex.Proofs.Syntax.Grammatical
import HarnessIndex.Proofs.Syntax.Items
import HarnessIndex.Proofs.Syntax.Position
import HarnessIndex.Proofs.Syntax.Reachable
import HarnessIndex.Proofs.Syntax.Spans
import HarnessIndex.Proofs.Syntax.Stretch
import HarnessIndex.Proofs.Syntax.Subtrees
import HarnessIndex.Proofs.Syntax.Walk
import HarnessIndex.Proofs.Text.Lossy
import HarnessIndex.Proofs.Text.Part
import HarnessIndex.Proofs.Text.Path
import HarnessIndex.Proofs.Text.Spelling
import HarnessIndex.Proofs.Text.Trim
import HarnessIndex.Proofs.Text.Utf8
import HarnessIndex.Proofs.Text.Word
import HarnessIndex.Proofs.Value.Merge
import HarnessIndex.Proofs.Value.Paths
import HarnessIndex.Reader.Expressions
import HarnessIndex.Reader.Items
import HarnessIndex.Reader.Lexer
import HarnessIndex.Reader.Macros
import HarnessIndex.Reader.Paths
import HarnessIndex.Reader.Patterns
import HarnessIndex.Reader.Rule
import HarnessIndex.Reader.Source
import HarnessIndex.Reader.Token
import HarnessIndex.Reader.Types
import HarnessIndex.Reader.Words
import HarnessIndex.Replay.Locate
import HarnessIndex.Replay.Name
import HarnessIndex.Report.Drawing
import HarnessIndex.Report.Emoji
import HarnessIndex.Report.HarnessTable
import HarnessIndex.Report.Markup
import HarnessIndex.Report.Values
import HarnessIndex.Report.Wrap
import HarnessIndex.Settings.Check
import HarnessIndex.Settings.Environment
import HarnessIndex.Settings.Load
import HarnessIndex.Settings.Model
import HarnessIndex.Syntax.Items
import HarnessIndex.Syntax.Kind
import HarnessIndex.Syntax.Node
import HarnessIndex.Syntax.Tree
import HarnessIndex.Syntax.Walk
import HarnessIndex.Text.Blank
import HarnessIndex.Text.Display
import HarnessIndex.Text.Lines
import HarnessIndex.Text.Order
import HarnessIndex.Text.Path
import HarnessIndex.Text.Quoted
import HarnessIndex.Text.Utf8
import HarnessIndex.Text.Word
import HarnessIndex.Value.Document
import HarnessIndex.Value.Json
import HarnessIndex.Value.Number
import HarnessIndex.Value.Value
import HarnessIndex.Value.Yaml
