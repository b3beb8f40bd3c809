import Cadence.CommandLine.Argument
import Cadence.CommandLine.Help
import Cadence.CommandLine.Reading
import Cadence.CommandLine.Refusal
import Cadence.CommandLine.Run
import Cadence.Diagnostic.Basic
import Cadence.Diagnostic.Code
import Cadence.Diagnostic.Collector
import Cadence.Diagnostic.Render
import Cadence.Diagnostic.Sorted
import Cadence.Diagnostic.Terminal
import Cadence.Main
import Cadence.Parse.Annotation
import Cadence.Parse.Basic
import Cadence.Parse.Declaration
import Cadence.Parse.Error
import Cadence.Parse.Expression
import Cadence.Parse.File
import Cadence.Resolution.Basic
import Cadence.Resolution.Error
import Cadence.Resolution.Tree
import Cadence.Resolution.Type
import Cadence.Resolution.Unit
import Cadence.Session.Archive
import Cadence.Session.Basic
import Cadence.Session.Check
import Cadence.Session.FileTree
import Cadence.Session.Loading
import Cadence.Session.Pass
import Cadence.Source.Bytes
import Cadence.Source.File
import Cadence.Source.Map
import Cadence.Source.Path
import Cadence.Source.Span
import Cadence.Style.Basic
import Cadence.Style.Paint
import Cadence.Symbol.Builder
import Cadence.Symbol.Fault
import Cadence.Symbol.Registration
import Cadence.Symbol.Table
import Cadence.Syntax.Render
import Cadence.Syntax.Tree
import Cadence.Syntax.Type
import Cadence.Syntax.Usage
import Cadence.Text.CharacterClass
import Cadence.Text.CodeRanges
import Cadence.Text.Difference
import Cadence.Text.Distance
import Cadence.Text.Listing
import Cadence.Text.Quoted
import Cadence.Text.SignSequence
import Cadence.Text.Similarity
import Cadence.Text.Table.Alphabetic
import Cadence.Text.Table.Emoji
import Cadence.Text.Table.Extending
import Cadence.Text.Table.Invisible
import Cadence.Text.Table.Numeric
import Cadence.Text.Table.Unprintable
import Cadence.Text.Table.Wide
import Cadence.Text.Utf8
import Cadence.Text.Width
import Cadence.Token.Basic
import Cadence.Token.Error
import Cadence.Token.Identifier
import Cadence.Token.Literal
import Cadence.Token.Number
import Cadence.Token.Operator
import Cadence.Token.Reading
import Cadence.Token.Scan
import Cadence.Token.Sign
import Cadence.Token.Word
import Cadence.Proofs.Symbol.Declaration
import Cadence.Proofs.Symbol.Placement
import Cadence.Proofs.Symbol.Registration
import Cadence.Proofs.Parse.WellFormed
import Cadence.Proofs.Parse.Results
import Cadence.Proofs.Resolution.Place
import Cadence.Proofs.Resolution.Tracking
import Cadence.Proofs.Resolution.Lockstep
import Cadence.Proofs.Resolution.Unit
import Cadence.Proofs.Session.Reports
import Cadence.Proofs.Session.Loading
import Cadence.Proofs.Session.Check
import Cadence.Proofs.Parse.Progress
import Cadence.Proofs.Parse.Grammar
import Cadence.Proofs.Parse.Acceptance
import Cadence.Proofs.Parse.Recognition
import Cadence.Proofs.Parse.Climbing
import Cadence.Proofs.Parse.Operators
import Cadence.Proofs.Parse.Expressions
import Cadence.Proofs.Parse.Declarations
import Cadence.Proofs.Parse.Language
import Cadence.Proofs.Resolution.StructNames
import Cadence.Proofs.Resolution.FieldAccess
import Cadence.Proofs.Resolution.NodeOrder
import Cadence.Proofs.Resolution.FileOrder
import Cadence.Proofs.Resolution.FixedPoint
import Cadence.Proofs.Token.Layout
import Cadence.Proofs.Token.Separation
import Cadence.Proofs.Parse.Accuracy
import Cadence.Proofs.Resolution.Failures
import Cadence.Proofs.Symbol.Tree
import Cadence.Proofs.Syntax.Usage
import Cadence.Proofs.Symbol.Unit
import Cadence.Proofs.Session.Reachability
import Cadence.Proofs.Session.Loads
import Cadence.Proofs.Parse.Repetition
import Cadence.Proofs.Session.Rendering
import Cadence.Proofs.Parse.Readiness
import Cadence.Proofs.Parse.LineBreaks
import Cadence.Proofs.Parse.Totality
import Cadence.Proofs.Token.Signs
import Cadence.Proofs.Parse.Integers
import Cadence.Proofs.Parse.Printing
import Cadence.Proofs.Token.Texts
import Cadence.Proofs.Source.Locations
import Cadence.Proofs.Source.LineEndings
import Cadence.Proofs.Source.Joining
import Cadence.Proofs.Diagnostic.Collection
import Cadence.Proofs.Diagnostic.Colors
import Cadence.Proofs.Diagnostic.Columns
import Cadence.Proofs.Diagnostic.Flushing
import Cadence.Proofs.Resolution.Frame
import Cadence.Proofs.Resolution.Suggestions
