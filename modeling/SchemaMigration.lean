import SchemaMigration.Calendar.Date
import SchemaMigration.Calendar.DateTime
import SchemaMigration.Calendar.Iso
import SchemaMigration.ColumnType
import SchemaMigration.CommandLine.Arguments
import SchemaMigration.CommandLine.Console
import SchemaMigration.CommandLine.Options
import SchemaMigration.CommandLine.Run
import SchemaMigration.Dialect
import SchemaMigration.Failure
import SchemaMigration.Fault
import SchemaMigration.Files.Path
import SchemaMigration.Files.Tree
import SchemaMigration.Fingerprint
import SchemaMigration.Inference
import SchemaMigration.Json.Reader
import SchemaMigration.Json.Token
import SchemaMigration.Json.Writer
import SchemaMigration.Main
import SchemaMigration.Migration.Diff
import SchemaMigration.Migration.EnumTypes
import SchemaMigration.Migration.Full
import SchemaMigration.Migration.Reported
import SchemaMigration.Migration.Reset
import SchemaMigration.Migration.Script
import SchemaMigration.Model.Basic
import SchemaMigration.Model.Set
import SchemaMigration.Model.Validation
import SchemaMigration.ModelDirectory
import SchemaMigration.Notice
import SchemaMigration.Number.Decimal
import SchemaMigration.Number.Double
import SchemaMigration.Plan.Basic
import SchemaMigration.Plan.Build
import SchemaMigration.Plan.Document
import SchemaMigration.Proofs.Calendar.DayNumber
import SchemaMigration.Proofs.Calendar.Iso
import SchemaMigration.Proofs.Calendar.Utc
import SchemaMigration.Proofs.Calendar.UtcText
import SchemaMigration.Proofs.CommandLine.Agreement
import SchemaMigration.Proofs.CommandLine.Console
import SchemaMigration.Proofs.CommandLine.Errors
import SchemaMigration.Proofs.CommandLine.Runs
import SchemaMigration.Proofs.CommandLine.SnapshotKept
import SchemaMigration.Proofs.Entries
import SchemaMigration.Proofs.Files.Device
import SchemaMigration.Proofs.Files.Directory
import SchemaMigration.Proofs.Files.Place
import SchemaMigration.Proofs.Files.Tree
import SchemaMigration.Proofs.Fingerprint.Canonical
import SchemaMigration.Proofs.Fingerprint.Plan
import SchemaMigration.Proofs.History.EnumTypes
import SchemaMigration.Proofs.History.PathIndependence
import SchemaMigration.Proofs.History.Recreation
import SchemaMigration.Proofs.History.Replay
import SchemaMigration.Proofs.History.Rewriting
import SchemaMigration.Proofs.Json.Number
import SchemaMigration.Proofs.Json.Plain
import SchemaMigration.Proofs.Json.Reader
import SchemaMigration.Proofs.Json.Text
import SchemaMigration.Proofs.Json.Token
import SchemaMigration.Proofs.Migration.Alteration
import SchemaMigration.Proofs.Migration.Commented
import SchemaMigration.Proofs.Migration.Composition
import SchemaMigration.Proofs.Migration.Content
import SchemaMigration.Proofs.Migration.Created
import SchemaMigration.Proofs.Migration.DiffOutcome
import SchemaMigration.Proofs.Migration.EnumTypes
import SchemaMigration.Proofs.Migration.Exactness
import SchemaMigration.Proofs.Migration.Execution
import SchemaMigration.Proofs.Migration.Files
import SchemaMigration.Proofs.Migration.Growth
import SchemaMigration.Proofs.Migration.IndexKeys
import SchemaMigration.Proofs.Migration.IndexNames
import SchemaMigration.Proofs.Migration.InlineEnums
import SchemaMigration.Proofs.Migration.Mirror
import SchemaMigration.Proofs.Migration.ObjectNames
import SchemaMigration.Proofs.Migration.Outcome
import SchemaMigration.Proofs.Migration.PlaceOrder
import SchemaMigration.Proofs.Migration.Rendering
import SchemaMigration.Proofs.Migration.SilentDifference
import SchemaMigration.Proofs.Migration.Skipped
import SchemaMigration.Proofs.Migration.Slugs
import SchemaMigration.Proofs.Migration.SlugsApart
import SchemaMigration.Proofs.Migration.Step
import SchemaMigration.Proofs.Migration.TableOrder
import SchemaMigration.Proofs.Migration.Tells
import SchemaMigration.Proofs.Migration.Told
import SchemaMigration.Proofs.Migration.TypeSupply
import SchemaMigration.Proofs.Migration.TypeValues
import SchemaMigration.Proofs.Migration.Unapplied
import SchemaMigration.Proofs.Model.Accepted
import SchemaMigration.Proofs.Model.Containment
import SchemaMigration.Proofs.Model.Directory
import SchemaMigration.Proofs.Model.Validation
import SchemaMigration.Proofs.Number.Literal
import SchemaMigration.Proofs.Number.Rounding
import SchemaMigration.Proofs.Number.Shortest
import SchemaMigration.Proofs.Plan.Built
import SchemaMigration.Proofs.Plan.DeclarationOrder
import SchemaMigration.Proofs.Plan.DefaultConflicts
import SchemaMigration.Proofs.Plan.DefaultSizes
import SchemaMigration.Proofs.Plan.Document
import SchemaMigration.Proofs.Plan.Growth
import SchemaMigration.Proofs.Plan.IndexColumns
import SchemaMigration.Proofs.Plan.ModelNames
import SchemaMigration.Proofs.Plan.Named
import SchemaMigration.Proofs.Plan.ObjectNames
import SchemaMigration.Proofs.Plan.Plain
import SchemaMigration.Proofs.Plan.Reading
import SchemaMigration.Proofs.Plan.ReferenceTypes
import SchemaMigration.Proofs.Plan.References
import SchemaMigration.Proofs.Plan.SafeNames
import SchemaMigration.Proofs.Plan.Spelled
import SchemaMigration.Proofs.Plan.TypeNames
import SchemaMigration.Proofs.Plan.Typed
import SchemaMigration.Proofs.Plan.WellFormed
import SchemaMigration.Proofs.Reset.Bookkeeping
import SchemaMigration.Proofs.Reset.DropOrder
import SchemaMigration.Proofs.Reset.Undoing
import SchemaMigration.Proofs.Schema.Database
import SchemaMigration.Proofs.Schema.Object
import SchemaMigration.Proofs.Scripts.Batch
import SchemaMigration.Proofs.Scripts.FileName
import SchemaMigration.Proofs.Scripts.Finding
import SchemaMigration.Proofs.Scripts.OnePerSlug
import SchemaMigration.Proofs.Scripts.Order
import SchemaMigration.Proofs.Scripts.OtherFiles
import SchemaMigration.Proofs.Scripts.Overwriting
import SchemaMigration.Proofs.Scripts.Replacing
import SchemaMigration.Proofs.Scripts.Runs
import SchemaMigration.Proofs.Scripts.Shelf
import SchemaMigration.Proofs.Scripts.Writers
import SchemaMigration.Proofs.Scripts.Writing
import SchemaMigration.Proofs.Snapshot.Diffable
import SchemaMigration.Proofs.Snapshot.Replacing
import SchemaMigration.Proofs.Snapshot.Store
import SchemaMigration.Proofs.Snapshot.Unreadable
import SchemaMigration.Proofs.Snapshot.UpToDate
import SchemaMigration.Proofs.Sql.Default
import SchemaMigration.Proofs.Sql.Definition
import SchemaMigration.Proofs.Sql.Name
import SchemaMigration.Proofs.Sql.Piece
import SchemaMigration.Proofs.Sql.Reading
import SchemaMigration.Proofs.Sql.Redefinition
import SchemaMigration.Proofs.Text.ControlSequence
import SchemaMigration.Proofs.Text.Identifier
import SchemaMigration.Proofs.Text.Joined
import SchemaMigration.Proofs.Text.Numeral
import SchemaMigration.Proofs.Text.Order
import SchemaMigration.Proofs.Text.Slug
import SchemaMigration.Proofs.Value.Agreement
import SchemaMigration.Proofs.Value.Stored
import SchemaMigration.Proofs.Value.Symmetry
import SchemaMigration.Proofs.Work
import SchemaMigration.ScriptDirectory
import SchemaMigration.Settings
import SchemaMigration.Sha256
import SchemaMigration.Snapshot
import SchemaMigration.Snapshot.Store
import SchemaMigration.Sql.Column
import SchemaMigration.Sql.Literal
import SchemaMigration.Sql.Statement
import SchemaMigration.Text.ControlSequence
import SchemaMigration.Text.Identifier
import SchemaMigration.Text.Numeral
import SchemaMigration.Text.Order
import SchemaMigration.Text.Printable
import SchemaMigration.Text.Quoted
import SchemaMigration.Text.Slug
import SchemaMigration.Text.Uppercase
import SchemaMigration.Value.Basic
import SchemaMigration.Value.Comparison
import SchemaMigration.Value.Equality
import SchemaMigration.Value.Text
import SchemaMigration.Work
