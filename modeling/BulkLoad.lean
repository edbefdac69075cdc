import BulkLoad.Api.Client
import BulkLoad.Api.Endpoint
import BulkLoad.Api.Session
import BulkLoad.Api.Settings
import BulkLoad.Calendar.Pattern
import BulkLoad.Calendar.Render
import BulkLoad.Calendar.Rfc3339
import BulkLoad.Command.Ending
import BulkLoad.Command.Error
import BulkLoad.Command.FileSettings
import BulkLoad.Command.Job
import BulkLoad.Command.Lines
import BulkLoad.Command.Run
import BulkLoad.Command.VariableFile
import BulkLoad.Decimal.Integer
import BulkLoad.Double.Read
import BulkLoad.Double.Text
import BulkLoad.Http.Message
import BulkLoad.Import.Run
import BulkLoad.Import.Settings
import BulkLoad.Json.Decode
import BulkLoad.Json.Pretty
import BulkLoad.Json.Text
import BulkLoad.Logging.Filter
import BulkLoad.Logging.Settings
import BulkLoad.Main
import BulkLoad.MessagePack.Reader
import BulkLoad.MessagePack.Writer
import BulkLoad.Part.File
import BulkLoad.Part.Stream
import BulkLoad.Program
import BulkLoad.Rehearsal.Bench
import BulkLoad.Rehearsal.PlannedUploads
import BulkLoad.Rehearsal.Rows
import BulkLoad.Rehearsal.Script
import BulkLoad.Rehearsal.Transcript
import BulkLoad.Rehearsal.Workplace
import BulkLoad.Rehearsal.World
import BulkLoad.Rows.JsonLines
import BulkLoad.Text.Blank
import BulkLoad.Text.ByteSize
import BulkLoad.Text.Hex
import BulkLoad.Text.Percent
import BulkLoad.Toml.Read
import BulkLoad.Proofs.Record.Resolve
import BulkLoad.Proofs.Record.Entries
import BulkLoad.Proofs.Record.Sources
import BulkLoad.Proofs.Record.Numerals
import BulkLoad.Proofs.Record.Conversion
import BulkLoad.Proofs.Program.Trace
import BulkLoad.Proofs.Program.Along
import BulkLoad.Proofs.Program.Twins
import BulkLoad.Proofs.Api.Exchange
import BulkLoad.Proofs.Api.Retries
import BulkLoad.Proofs.Import.Notes
import BulkLoad.Proofs.Import.Course
import BulkLoad.Proofs.Import.Scene
import BulkLoad.Proofs.Import.Tracking
import BulkLoad.Proofs.Import.Packing
import BulkLoad.Proofs.Import.Feeding
import BulkLoad.Proofs.Import.Contents
import BulkLoad.Proofs.Import.Requests
import BulkLoad.Proofs.Import.Stages
import BulkLoad.Proofs.Import.Order
import BulkLoad.Proofs.Import.Delivery
import BulkLoad.Proofs.Import.Player
import BulkLoad.Proofs.Import.Traffic
import BulkLoad.Proofs.Import.Unknown
import BulkLoad.Proofs.Import.Composition
import BulkLoad.Proofs.Import.Tolerance
import BulkLoad.Proofs.Import.Backoff
import BulkLoad.Proofs.Import.Polling
import BulkLoad.Proofs.Import.Ledger
import BulkLoad.Proofs.Import.Admission
import BulkLoad.Proofs.Import.Cancellation
import BulkLoad.Proofs.Import.Settling
import BulkLoad.Proofs.Import.Progress
import BulkLoad.Proofs.Import.Orders
import BulkLoad.Proofs.Import.Verdict
import BulkLoad.Proofs.Import.Custody
import BulkLoad.Proofs.Import.Leftovers
import BulkLoad.Proofs.Service.Behaviour
import BulkLoad.Proofs.Service.Graph
import BulkLoad.Proofs.Service.Landmarks
import BulkLoad.Proofs.Service.Swap
import BulkLoad.Proofs.Service.Depot
import BulkLoad.Proofs.Service.Calls
import BulkLoad.Proofs.Service.Scratch
import BulkLoad.Proofs.Service.Replacement
import BulkLoad.Proofs.Service.Rerun
import BulkLoad.Proofs.Service.Placement
import BulkLoad.Proofs.Record.Sequence
import BulkLoad.Proofs.Text.Encodings
import BulkLoad.Proofs.Api.Paths
import BulkLoad.Proofs.Api.Targets
import BulkLoad.Proofs.Import.Addressing
import BulkLoad.Proofs.MessagePack.Reading
import BulkLoad.Proofs.Part.Content
import BulkLoad.Proofs.Part.Names
import BulkLoad.Proofs.Record.Documents
import BulkLoad.Proofs.Record.Units
import BulkLoad.Proofs.Record.Keys
import BulkLoad.Proofs.Rows.Objects
import BulkLoad.Proofs.Rows.Timestamps
import BulkLoad.Proofs.Calendar.Patterns
import BulkLoad.Proofs.Record.Formatters
import BulkLoad.Proofs.Api.Doubling
import BulkLoad.Proofs.Text.Blanks
import BulkLoad.Proofs.Record.Integers
import BulkLoad.Proofs.Record.Widths
import BulkLoad.Proofs.Rows.Lines
import BulkLoad.Proofs.Import.Watching
import BulkLoad.Proofs.Rows.Numbering
import BulkLoad.Proofs.Record.Names
import BulkLoad.Proofs.Command.Precedence
import BulkLoad.Proofs.Command.Statuses
