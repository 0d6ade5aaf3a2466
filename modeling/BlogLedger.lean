import BlogLedger.Address
import BlogLedger.Bucket
import BlogLedger.Bytes
import BlogLedger.Bytes.Decimal
import BlogLedger.Bytes.Hex
import BlogLedger.Bytes.Map
import BlogLedger.Bytes.Utf8
import BlogLedger.Bytes.Word
import BlogLedger.Collections
import BlogLedger.Command.Arguments
import BlogLedger.Command.Run
import BlogLedger.Config
import BlogLedger.Counters
import BlogLedger.Digest.Crc32
import BlogLedger.Digest.Sha256
import BlogLedger.Disk
import BlogLedger.Edit
import BlogLedger.Failure
import BlogLedger.Identifier
import BlogLedger.Index
import BlogLedger.Index.Fault
import BlogLedger.Index.IdList
import BlogLedger.Journal
import BlogLedger.Journal.Fault
import BlogLedger.Journal.File
import BlogLedger.Journal.Place
import BlogLedger.Journal.Record
import BlogLedger.Json.Basic
import BlogLedger.Json.Fields
import BlogLedger.Json.Number
import BlogLedger.Json.Parser
import BlogLedger.Json.Printer
import BlogLedger.Json.Text
import BlogLedger.Json.Token
import BlogLedger.KeySpace
import BlogLedger.KeySpace.Batch
import BlogLedger.Ledger
import BlogLedger.Ledger.Opening
import BlogLedger.Log
import BlogLedger.Main
import BlogLedger.Message
import BlogLedger.Message.Json
import BlogLedger.Proofs.Address
import BlogLedger.Proofs.Bucket.Entries
import BlogLedger.Proofs.Bucket.Holds
import BlogLedger.Proofs.Bytes.Hex
import BlogLedger.Proofs.Bytes.Map
import BlogLedger.Proofs.Bytes.Order
import BlogLedger.Proofs.Bytes.Start
import BlogLedger.Proofs.Edit
import BlogLedger.Proofs.Failure
import BlogLedger.Proofs.Index.IdList
import BlogLedger.Proofs.Json.Fields
import BlogLedger.Proofs.Json.Lexeme
import BlogLedger.Proofs.Json.Numeral
import BlogLedger.Proofs.Json.RoundTrip
import BlogLedger.Proofs.Json.Stored
import BlogLedger.Proofs.KeySpace.Family
import BlogLedger.Proofs.KeySpace.Layers
import BlogLedger.Proofs.Ledger.Canonical
import BlogLedger.Proofs.Ledger.Deletions
import BlogLedger.Proofs.Ledger.Deliver
import BlogLedger.Proofs.Ledger.Exactness
import BlogLedger.Proofs.Ledger.History
import BlogLedger.Proofs.Ledger.Prediction
import BlogLedger.Proofs.Ledger.Run
import BlogLedger.Proofs.Ledger.Tick
import BlogLedger.Proofs.Schedule.Due
import BlogLedger.Proofs.Schedule.Holds
import BlogLedger.Proofs.Snapshot.Change
import BlogLedger.Proofs.Snapshot.Entry
import BlogLedger.Proofs.Snapshot.Sound
import BlogLedger.Proofs.Snapshot.Stored
import BlogLedger.Proofs.Table
import BlogLedger.Proofs.Timestamp
import BlogLedger.Proofs.Transition.Delivery
import BlogLedger.Query
import BlogLedger.Record
import BlogLedger.Record.Json
import BlogLedger.Schedule
import BlogLedger.Severity
import BlogLedger.Text.Blank
import BlogLedger.Text.Printable
import BlogLedger.Text.Quoted
import BlogLedger.Timestamp
import BlogLedger.Timestamp.Calendar
import BlogLedger.Timestamp.Text
import BlogLedger.Transition.Caller
import BlogLedger.Transition.Handler
import BlogLedger.Transition.Routes
import BlogLedger.Transition.Transaction
import BlogLedger.Validation
import BlogLedger.Proofs.Ledger.Authority
import BlogLedger.Proofs.Ledger.Handles
import BlogLedger.Proofs.Bucket.Names
import BlogLedger.Proofs.Bucket.Indexed
import BlogLedger.Proofs.Bucket.Lookup
import BlogLedger.Proofs.Query
import BlogLedger.Proofs.Snapshot.Kinds
import BlogLedger.Proofs.Ledger.Chronology
import BlogLedger.Proofs.Ledger.Numbers
import BlogLedger.Proofs.Ledger.Portions
import BlogLedger.Proofs.Ledger.Queries
import BlogLedger.Proofs.KeySpace.Batch
import BlogLedger.Proofs.Journal.Replay
import BlogLedger.Proofs.Transition.Layers
import BlogLedger.Proofs.Disk
import BlogLedger.Proofs.Journal.Place
import BlogLedger.Proofs.Ledger.Recorded
import BlogLedger.Proofs.Ledger.Lives
import BlogLedger.Proofs.Ledger.Reopening
import BlogLedger.Proofs.Digest.Crc32
import BlogLedger.Proofs.KeySpace.Direct
import BlogLedger.Proofs.Journal.Damage
import BlogLedger.Proofs.Journal.Attempts
import BlogLedger.Proofs.Ledger.Attempts
import BlogLedger.Proofs.Ledger.Reports
import BlogLedger.Proofs.Ledger.Resurfacing
import BlogLedger.Proofs.Ledger.Commuting
import BlogLedger.Proofs.Json.Line
import BlogLedger.Proofs.Formats
import BlogLedger.Proofs.Ledger.Refusals
import BlogLedger.Proofs.Command.Answers
import BlogLedger.Proofs.Command.Reached
import BlogLedger.Proofs.Command.Splitting
import BlogLedger.Proofs.Bucket.Objections
import BlogLedger.Proofs.Ledger.Counting
import BlogLedger.Proofs.Ledger.Uncommitted
import BlogLedger.Proofs.Snapshot.Size
import BlogLedger.Proofs.Ledger.Balance
import BlogLedger.Proofs.Transition.Touched
import BlogLedger.Proofs.Schedule.WellFormed
import BlogLedger.Proofs.Ledger.Containment
import BlogLedger.Proofs.Bucket.Span
import BlogLedger.Proofs.Schedule.Queue
import BlogLedger.Proofs.Ledger.Undoing
import BlogLedger.Proofs.Transition.Frame
import BlogLedger.Proofs.KeySpace.Scan
import BlogLedger.Proofs.Timestamp.Text
import BlogLedger.Proofs.Log
import BlogLedger.Proofs.Ledger.Owners
import BlogLedger.Proofs.KeyOrder
import BlogLedger.Proofs.Ledger.Resurfacing
