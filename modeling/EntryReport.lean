import EntryReport.Text.Blank
import EntryReport.Text.CaseTable
import EntryReport.Text.EscapeTable
import EntryReport.Text.Lowercase
import EntryReport.Text.Occurrence
import EntryReport.Text.Parts
import EntryReport.Text.Position
import EntryReport.Text.Quoted
import EntryReport.Text.Ranges
import EntryReport.Text.Similarity
import EntryReport.Number.Binary64
import EntryReport.Number.Numeral
import EntryReport.Number.Shortest
import EntryReport.Json.Basic
import EntryReport.Json.Breach
import EntryReport.Json.Decode
import EntryReport.Json.Diagnosis
import EntryReport.Json.Document
import EntryReport.Json.Fault
import EntryReport.Json.Printer
import EntryReport.Json.Problem
import EntryReport.Json.Token
import EntryReport.Time.Date
import EntryReport.Time.Reading
import EntryReport.Time.Timestamp
import EntryReport.Entry.Basic
import EntryReport.Entry.Codec
import EntryReport.Panel
import EntryReport.Tree.Basic
import EntryReport.Tree.Build
import EntryReport.Tree.Filter
import EntryReport.Tree.NodeSet
import EntryReport.Tree.Order
import EntryReport.Tree.Segments
import EntryReport.UiState
import EntryReport.View
import EntryReport.Report.Console
import EntryReport.Report.Data
import EntryReport.Report.Html
import EntryReport.Report.Page
import EntryReport.Report.Page.Script
import EntryReport.Report.Page.Style
import EntryReport.Config.Basic
import EntryReport.Config.Resolve
import EntryReport.Glob.Basic
import EntryReport.Glob.Expression
import EntryReport.Glob.Kind
import EntryReport.Glob.Marks
import EntryReport.Glob.Match
import EntryReport.Glob.Reading
import EntryReport.Files.FileSystem
import EntryReport.Files.Path
import EntryReport.Fingerprint
import EntryReport.Fingerprint.Sha256
import EntryReport.Failure
import EntryReport.IgnoreSet
import EntryReport.Load
import EntryReport.CommandLine.Arguments
import EntryReport.CommandLine.Outcome
import EntryReport.CommandLine.Parameter
import EntryReport.CommandLine.Rejection
import EntryReport.CommandLine.Run
import EntryReport.Main
import EntryReport.Proofs.Results
import EntryReport.Proofs.Digits
import EntryReport.Proofs.Segments
import EntryReport.Proofs.Json.Strings
import EntryReport.Proofs.Json.Numbers
import EntryReport.Proofs.Json.Tokens
import EntryReport.Proofs.Json.Writing
import EntryReport.Proofs.Json.Documents
import EntryReport.Proofs.Json.Values
import EntryReport.Proofs.Json.Records
import EntryReport.Proofs.Json.Characters
import EntryReport.Proofs.Json.Spelling
import EntryReport.Proofs.Json.Shuffling
import EntryReport.Proofs.Json.Editing
import EntryReport.Proofs.Time.Calendar
import EntryReport.Proofs.Time.Digits
import EntryReport.Proofs.Time.Timestamps
import EntryReport.Proofs.Entry.Codec
import EntryReport.Proofs.Config.Codec
import EntryReport.Proofs.Codec
import EntryReport.Proofs.Tree.Frame
import EntryReport.Proofs.Tree.WellFormed
import EntryReport.Proofs.Tree.Lookup
import EntryReport.Proofs.Tree.Adding
import EntryReport.Proofs.Tree.Reachable
import EntryReport.Proofs.Tree.Traversal
import EntryReport.Proofs.Tree.Building
import EntryReport.Proofs.Tree.Sorting
import EntryReport.Proofs.Tree.Alike
import EntryReport.Proofs.Tree.Ancestors
import EntryReport.Proofs.Tree.Finding
import EntryReport.Proofs.Tree.Hiding
import EntryReport.Proofs.Tree.Panels
import EntryReport.Proofs.State.Operations
import EntryReport.Proofs.State.Alike
import EntryReport.Proofs.State.Session
import EntryReport.Proofs.State.Toggling
import EntryReport.Proofs.View.Render
import EntryReport.Proofs.View.Alike
import EntryReport.Proofs.View.Selection
import EntryReport.Proofs.View.Counts
import EntryReport.Proofs.View.Narrowing
import EntryReport.Proofs.Panel.Warnings
import EntryReport.Proofs.Report.EntryOrder
import EntryReport.Proofs.Report.Tags
import EntryReport.Proofs.Report.WrittenTags
import EntryReport.Proofs.Fingerprint.Stream
import EntryReport.Proofs.Report.Markup
import EntryReport.Proofs.Tree.Preorder
import EntryReport.Proofs.Tree.Walks
import EntryReport.Proofs.Report.Page
import EntryReport.Proofs.Report.Words
import EntryReport.Proofs.Report.Injection
import EntryReport.Proofs.CommandLine.Failing
import EntryReport.Proofs.Tree.Strictness
import EntryReport.Proofs.Files.Locations
import EntryReport.Proofs.Config.Chain
import EntryReport.Proofs.Files.Components
import EntryReport.Proofs.Files.PathOrder
import EntryReport.Proofs.Tree.Covering
import EntryReport.Proofs.Glob.Below
import EntryReport.Proofs.Glob.Matching
import EntryReport.Proofs.Load.EntryFiles
import EntryReport.Proofs.Load.Directory
import EntryReport.Proofs.Load.Ignoring
import EntryReport.Proofs.Text.Lowercase
import EntryReport.Proofs.Text.Normal
import EntryReport.Proofs.Text.Trimming
import EntryReport.Proofs.Tree.Searching
import EntryReport.Proofs.Tree.SearchText
import EntryReport.Proofs.CommandLine.Accepting
import EntryReport.Proofs.CommandLine.Giving
import EntryReport.Proofs.CommandLine.Incidental
import EntryReport.Proofs.CommandLine.ExitCode
import EntryReport.Proofs.CommandLine.ExpandOptions
import EntryReport.Proofs.CommandLine.Expanding
import EntryReport.Proofs.Tree.Stability
import EntryReport.Proofs.View.Outline
import EntryReport.Proofs.Report.Lines
import EntryReport.Proofs.Json.Reading
import EntryReport.Proofs.Report.Listing
import EntryReport.Proofs.Report.ReadTags
import EntryReport.Proofs.Report.Escaping
import EntryReport.Proofs.Report.Matching
import EntryReport.Proofs.Text.ByteOrder
import EntryReport.Proofs.Tree.Rejections
import EntryReport.Proofs.Tree.Canonicity
import EntryReport.Proofs.Panel.FirstUse
import EntryReport.Proofs.Panel.Rows
import EntryReport.Proofs.State.Revealing
import EntryReport.Proofs.CommandLine.Selecting
import EntryReport.Proofs.CommandLine.Quiet
import EntryReport.Proofs.Report.Colours
import EntryReport.Proofs.Json.Scripts
import EntryReport.Proofs.Report.Settings
import EntryReport.Proofs.Files.Ancestors
import EntryReport.Proofs.Files.Keeping
import EntryReport.Proofs.Config.Nearest
import EntryReport.Proofs.Panel.TestResult
import EntryReport.Proofs.Entry.Rearranging
