import MigrationPlan.CommandLine.Arguments
import MigrationPlan.CommandLine.Execution
import MigrationPlan.Config.Basic
import MigrationPlan.Config.Form
import MigrationPlan.Config.Load
import MigrationPlan.Digest.Sha256
import MigrationPlan.Document
import MigrationPlan.Fault
import MigrationPlan.Files.Path
import MigrationPlan.Files.Tree
import MigrationPlan.Job.Basic
import MigrationPlan.Job.Registry
import MigrationPlan.Job.Relations
import MigrationPlan.Json.Printer
import MigrationPlan.Json.Reader
import MigrationPlan.Json.Token
import MigrationPlan.Main
import MigrationPlan.Notice
import MigrationPlan.Plan.Basic
import MigrationPlan.Plan.Form
import MigrationPlan.Plan.Timestamp
import MigrationPlan.Proofs.Selection.Expansion
import MigrationPlan.Proofs.Selection.SelectList
import MigrationPlan.Proofs.Selection.Validation
import MigrationPlan.Proofs.Task.Calls
import MigrationPlan.Proofs.Task.Selection
import MigrationPlan.Proofs.Task.Setup
import MigrationPlan.Query.Basic
import MigrationPlan.Query.Clause
import MigrationPlan.Query.Entry
import MigrationPlan.Query.Parser
import MigrationPlan.Schema.Documents
import MigrationPlan.Schema.Field
import MigrationPlan.Schema.FieldType
import MigrationPlan.Schema.Snapshot
import MigrationPlan.Schema.System
import MigrationPlan.Selection.Expansion
import MigrationPlan.Selection.NameSet
import MigrationPlan.Selection.Pattern
import MigrationPlan.Selection.Resolution
import MigrationPlan.Selection.Validation
import MigrationPlan.Side
import MigrationPlan.Task.Basic
import MigrationPlan.Task.Description
import MigrationPlan.Task.ExternalId
import MigrationPlan.Task.Operation
import MigrationPlan.Task.Relationships
import MigrationPlan.Task.Setup
import MigrationPlan.Text.Blank
import MigrationPlan.Text.Fold
import MigrationPlan.Text.Numeral
import MigrationPlan.Tree
import MigrationPlan.Yaml.BlockText
import MigrationPlan.Yaml.Composition
import MigrationPlan.Yaml.Cursor
import MigrationPlan.Yaml.Document
import MigrationPlan.Yaml.FlowText
import MigrationPlan.Yaml.Marks
import MigrationPlan.Yaml.Node
import MigrationPlan.Yaml.Scalar
import MigrationPlan.Yaml.Scan
import MigrationPlan.Yaml.Token
import MigrationPlan.Yaml.Walk
import MigrationPlan.Yaml.Writer
import MigrationPlan.Proofs.Task.Reconciliation
import MigrationPlan.Proofs.Text.Numeral
import MigrationPlan.Proofs.Query.Entry
import MigrationPlan.Proofs.Query.Keyword
import MigrationPlan.Proofs.Query.Scan
import MigrationPlan.Proofs.Query.Body
import MigrationPlan.Proofs.Query.Layout
import MigrationPlan.Proofs.Query.RoundTrip
import MigrationPlan.Proofs.Query.Splitting
import MigrationPlan.Proofs.Query.Spacing
import MigrationPlan.Proofs.Query.Stability
import MigrationPlan.Proofs.Job.Interleaving
import MigrationPlan.Proofs.Job.SetUp
import MigrationPlan.Proofs.Job.Isolation
import MigrationPlan.Proofs.Job.FirstSeen
import MigrationPlan.Proofs.Job.Calls
import MigrationPlan.Proofs.Job.Repetition
import MigrationPlan.Proofs.Job.Dependencies
import MigrationPlan.Proofs.Query.Nesting
import MigrationPlan.Proofs.Query.Headings
import MigrationPlan.Proofs.Query.Grammar
import MigrationPlan.Proofs.Query.Composition
import MigrationPlan.Proofs.Task.Attempts
import MigrationPlan.Proofs.Task.Views
import MigrationPlan.Proofs.Task.Settling
import MigrationPlan.Proofs.Task.Retry
import MigrationPlan.Proofs.Task.Mirroring
import MigrationPlan.Proofs.Spelling.Outcome
import MigrationPlan.Proofs.Spelling.Query
import MigrationPlan.Proofs.Spelling.Selection
import MigrationPlan.Proofs.Spelling.SetUp
import MigrationPlan.Proofs.Spelling.Description
import MigrationPlan.Proofs.Text.Case
import MigrationPlan.Proofs.Spelling.Calls
import MigrationPlan.Proofs.Task.Lifecycle
import MigrationPlan.Proofs.Job.Tasks
import MigrationPlan.Proofs.Job.Registration
import MigrationPlan.Proofs.Job.Accounting
import MigrationPlan.Proofs.Task.Faults
import MigrationPlan.Proofs.Job.Faults
import MigrationPlan.Proofs.CommandLine.ExitCode
import MigrationPlan.Proofs.Query.Commas
import MigrationPlan.Proofs.Task.Denial
import MigrationPlan.Proofs.Task.Declaration
import MigrationPlan.Proofs.Task.Deletion
import MigrationPlan.Proofs.Selection.Joining
import MigrationPlan.Proofs.Text.Pieces
import MigrationPlan.Proofs.Selection.Keyword
import MigrationPlan.Proofs.Selection.Resolution
import MigrationPlan.Proofs.Task.Pruning
import MigrationPlan.Proofs.Task.ExternalId
import MigrationPlan.Proofs.Task.Matching
import MigrationPlan.Proofs.Task.Completeness
import MigrationPlan.Proofs.Document.Record
import MigrationPlan.Proofs.Selection.Conjunction
import MigrationPlan.Proofs.Config.Form
import MigrationPlan.Proofs.Schema.Form
import MigrationPlan.Proofs.Schema.Index
import MigrationPlan.Proofs.Spelling.Key
import MigrationPlan.Proofs.Query.Markers
import MigrationPlan.Proofs.Query.Search
import MigrationPlan.Proofs.Query.Slices
