import TemplateMarkup.Text.White
import TemplateMarkup.Text.Word
import TemplateMarkup.Text.Lines
import TemplateMarkup.Text.Indent
import TemplateMarkup.Text.Remark
import TemplateMarkup.Text.Utf8
import TemplateMarkup.Node.Basic
import TemplateMarkup.Node.Outline
import TemplateMarkup.Node.Json
import TemplateMarkup.Diagnostic
import TemplateMarkup.Owner
import TemplateMarkup.Builder
import TemplateMarkup.Line.Head
import TemplateMarkup.Tag.Quoted
import TemplateMarkup.Tag.Attributes
import TemplateMarkup.Tag.Tail
import TemplateMarkup.TextBlock
import TemplateMarkup.Json.Basic
import TemplateMarkup.Json.Quoted
import TemplateMarkup.Json.Numeral
import TemplateMarkup.Json.Reader
import TemplateMarkup.Settings.Basic
import TemplateMarkup.Settings.Json
import TemplateMarkup.Settings.Reader
import TemplateMarkup.Reading.State
import TemplateMarkup.Reading.Feed
import TemplateMarkup.Reading.Basic
import TemplateMarkup.Encoding
import TemplateMarkup.Files.Path
import TemplateMarkup.Files.Disk
import TemplateMarkup.Files.Templates
import TemplateMarkup.Command.Invocation
import TemplateMarkup.Command.Plan
import TemplateMarkup.Main
import TemplateMarkup.Proofs.Builder.Moves
import TemplateMarkup.Proofs.Builder.Align
import TemplateMarkup.Proofs.Builder.Acts
import TemplateMarkup.Proofs.Builder.Stack
import TemplateMarkup.Proofs.Builder.Sole
import TemplateMarkup.Proofs.Builder.Congruence
import TemplateMarkup.Proofs.Reading.Dispatch
import TemplateMarkup.Proofs.Reading.Moves
import TemplateMarkup.Proofs.Reading.Faults
import TemplateMarkup.Proofs.Reading.Simulation
import TemplateMarkup.Proofs.Reading.Gap
import TemplateMarkup.Proofs.Reading.Quiet
import TemplateMarkup.Proofs.Reading.Dispatched
import TemplateMarkup.Proofs.RemarkBlocks
import TemplateMarkup.Proofs.Sections
import TemplateMarkup.Proofs.Spacing
import TemplateMarkup.Proofs.Text.Words
import TemplateMarkup.Proofs.Text.Blank
import TemplateMarkup.Proofs.Text.Spans
import TemplateMarkup.Proofs.Layout.Items
import TemplateMarkup.Proofs.Layout.Lines
import TemplateMarkup.Proofs.Layout.RoundTrip
import TemplateMarkup.Proofs.Chronicle
import TemplateMarkup.Proofs.Nesting
import TemplateMarkup.Proofs.Locality
import TemplateMarkup.Proofs.Text.Lines
import TemplateMarkup.Proofs.Text.Remarks
import TemplateMarkup.Proofs.Line.Readers
import TemplateMarkup.Proofs.Tag.Listed
import TemplateMarkup.Proofs.Line.Rest
import TemplateMarkup.Proofs.LineEnds.Tree
import TemplateMarkup.Proofs.LineEnds.Reading
import TemplateMarkup.Proofs.WellFormed.Tree
import TemplateMarkup.Proofs.Diagnostics
import TemplateMarkup.Proofs.WellFormed.Line
import TemplateMarkup.Proofs.WellFormed.Reading
import TemplateMarkup.Proofs.Reading.Opening
import TemplateMarkup.Proofs.Tag.Quoted
import TemplateMarkup.Proofs.Tag.Layouts
import TemplateMarkup.Proofs.Tag.Readers
import TemplateMarkup.Proofs.Tag.Lines
import TemplateMarkup.Proofs.Tag.RoundTrip
import TemplateMarkup.Proofs.Passage.Gathering
import TemplateMarkup.Proofs.Passage.RoundTrip
import TemplateMarkup.Proofs.Builder.Pruned
import TemplateMarkup.Proofs.BlankLines
import TemplateMarkup.Proofs.Builder.Scaled
import TemplateMarkup.Proofs.Reading.Scaled
import TemplateMarkup.Proofs.Widths
import TemplateMarkup.Proofs.Builder.Rows
import TemplateMarkup.Proofs.Reading.Rows
import TemplateMarkup.Proofs.SeparatingSpaces
import TemplateMarkup.Proofs.InlineRemarks
import TemplateMarkup.Proofs.Tag.Remarked
import TemplateMarkup.Proofs.Line.Remarked
import TemplateMarkup.Proofs.Text.Utf8
import TemplateMarkup.Proofs.Decoding
import TemplateMarkup.Proofs.Files.Paths
import TemplateMarkup.Proofs.Files.Trees
import TemplateMarkup.Proofs.Except
import TemplateMarkup.Proofs.Files.Writing
import TemplateMarkup.Proofs.Discovery
import TemplateMarkup.Proofs.AllOrNothing
import TemplateMarkup.Proofs.Json.Grammar
import TemplateMarkup.Proofs.Json.Reading
import TemplateMarkup.Proofs.Json.Values
import TemplateMarkup.Proofs.Json.Pretty
import TemplateMarkup.Proofs.Passage.Joined
import TemplateMarkup.Proofs.Printing
import TemplateMarkup.Proofs.Settings.Overlay
import TemplateMarkup.Proofs.Configuration
import TemplateMarkup.Proofs.Reading.Tabs
import TemplateMarkup.Proofs.Builder.Renamed
import TemplateMarkup.Proofs.Reading.Renamed
import TemplateMarkup.Proofs.TagNames.Tree
import TemplateMarkup.Proofs.TagNames.Sources
import TemplateMarkup.Proofs.Influence
import TemplateMarkup.Proofs.Alignment
import TemplateMarkup.Proofs.Markers
import TemplateMarkup.Proofs.ClosedTags
import TemplateMarkup.Proofs.Tag.Ended
import TemplateMarkup.Proofs.CodeSegments
import TemplateMarkup.Proofs.Tag.Consumed
import TemplateMarkup.Proofs.Reading.Walk
import TemplateMarkup.Proofs.SelfClosing
import TemplateMarkup.Proofs.Line.Grammar
import TemplateMarkup.Proofs.LineKinds
import TemplateMarkup.Proofs.DoctypeHeader
import TemplateMarkup.Proofs.Cursor.Bytes
import TemplateMarkup.Proofs.Cursor.Scan
import TemplateMarkup.Proofs.Cursor.Columns
import TemplateMarkup.Proofs.Cursor.Readers
import TemplateMarkup.Proofs.Cursor.Feed
import TemplateMarkup.Proofs.Cursor.Steps
import TemplateMarkup.Proofs.Cursor.Reading
import TemplateMarkup.Proofs.CharacterBoundaries
import TemplateMarkup.Proofs.MachineWords
