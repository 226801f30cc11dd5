import MobilitySweep.Archive.Gzip
import MobilitySweep.Archive.Inflate
import MobilitySweep.Archive.Logs
import MobilitySweep.Cli.Command
import MobilitySweep.Cli.Flag
import MobilitySweep.Cli.Request
import MobilitySweep.Cli.Run
import MobilitySweep.Cli.Session
import MobilitySweep.Cli.Sweeps
import MobilitySweep.Cli.Traces
import MobilitySweep.Config.Basic
import MobilitySweep.Config.File
import MobilitySweep.Config.Load
import MobilitySweep.Config.Printer
import MobilitySweep.Config.Validate
import MobilitySweep.Digest.Checksums
import MobilitySweep.Digest.Hashes
import MobilitySweep.Digest.Sha256
import MobilitySweep.Fault
import MobilitySweep.Files.Confine
import MobilitySweep.Files.Operations
import MobilitySweep.Files.Path
import MobilitySweep.Files.Tree
import MobilitySweep.Ledger.Address
import MobilitySweep.Ledger.Basic
import MobilitySweep.Ledger.Connection
import MobilitySweep.Ledger.File
import MobilitySweep.Ledger.Query
import MobilitySweep.Ledger.Statement
import MobilitySweep.Ledger.Tables
import MobilitySweep.Log.Event
import MobilitySweep.Log.Line
import MobilitySweep.Main
import MobilitySweep.Mobility.Generator
import MobilitySweep.Mobility.Params
import MobilitySweep.Mobility.Summary
import MobilitySweep.Mobility.Trace
import MobilitySweep.Mobility.Writing
import MobilitySweep.Number.Binary64
import MobilitySweep.Number.Decimal
import MobilitySweep.Number.Elementary
import MobilitySweep.Number.Reading
import MobilitySweep.Number.Shortest
import MobilitySweep.Shell.Arithmetic
import MobilitySweep.Shell.Blocks
import MobilitySweep.Shell.Builtins
import MobilitySweep.Shell.Calculation
import MobilitySweep.Shell.Columns
import MobilitySweep.Shell.Compression
import MobilitySweep.Shell.Condition
import MobilitySweep.Shell.Copying
import MobilitySweep.Shell.Creating
import MobilitySweep.Shell.Dates
import MobilitySweep.Shell.Declarations
import MobilitySweep.Shell.Differences
import MobilitySweep.Shell.Digests
import MobilitySweep.Shell.Editing.Reading
import MobilitySweep.Shell.Editing.Run
import MobilitySweep.Shell.Expansion
import MobilitySweep.Shell.FilePrograms
import MobilitySweep.Shell.Finding
import MobilitySweep.Shell.Format
import MobilitySweep.Shell.Job
import MobilitySweep.Shell.Launching
import MobilitySweep.Shell.Listing
import MobilitySweep.Shell.Pattern
import MobilitySweep.Shell.Permissions
import MobilitySweep.Shell.Programs
import MobilitySweep.Shell.Records.Machine
import MobilitySweep.Shell.Records.Reading
import MobilitySweep.Shell.Records.Run
import MobilitySweep.Shell.Records.Token
import MobilitySweep.Shell.Records.Value
import MobilitySweep.Shell.RegularExpression
import MobilitySweep.Shell.Run
import MobilitySweep.Shell.Script
import MobilitySweep.Shell.Searching
import MobilitySweep.Shell.Sorting
import MobilitySweep.Shell.Statement
import MobilitySweep.Shell.TextPrograms
import MobilitySweep.Shell.Token
import MobilitySweep.Shell.Utility
import MobilitySweep.Steps
import MobilitySweep.Sweep.CommandLine
import MobilitySweep.Sweep.Execution
import MobilitySweep.Sweep.Layout
import MobilitySweep.Sweep.Publishing
import MobilitySweep.Sweep.Setup
import MobilitySweep.Sweep.Simulator
import MobilitySweep.Sweep.Template
import MobilitySweep.Sweep.World
import MobilitySweep.Text.Bytes
import MobilitySweep.Text.Json
import MobilitySweep.Text.Quoted
import MobilitySweep.Text.Utf8
import MobilitySweep.Time.Duration
import MobilitySweep.Time.Instant
import MobilitySweep.Time.Zone
import MobilitySweep.Yaml.Cursor
import MobilitySweep.Yaml.Decoding
import MobilitySweep.Yaml.Event
import MobilitySweep.Yaml.Node
import MobilitySweep.Yaml.Printed
import MobilitySweep.Yaml.Resolve
import MobilitySweep.Yaml.Scalar
import MobilitySweep.Yaml.Source
import MobilitySweep.Yaml.TokenStream
import MobilitySweep.Proofs.Archive.Readback
import MobilitySweep.Proofs.Concurrency.Ensures
import MobilitySweep.Proofs.Concurrency.Groups
import MobilitySweep.Proofs.Config.Acceptance
import MobilitySweep.Proofs.Config.Expansion
import MobilitySweep.Proofs.Config.Readback
import MobilitySweep.Proofs.Files.Appending
import MobilitySweep.Proofs.Files.Components
import MobilitySweep.Proofs.Files.Confinement
import MobilitySweep.Proofs.Files.Enclosure
import MobilitySweep.Proofs.Files.Growth
import MobilitySweep.Proofs.Files.Homes
import MobilitySweep.Proofs.Files.Leading
import MobilitySweep.Proofs.Files.Likeness
import MobilitySweep.Proofs.Files.Names
import MobilitySweep.Proofs.Files.Neighbours
import MobilitySweep.Proofs.Files.Provisioning
import MobilitySweep.Proofs.Files.Publishing
import MobilitySweep.Proofs.Files.Replacing
import MobilitySweep.Proofs.Files.Reprovisioning
import MobilitySweep.Proofs.Files.Tree
import MobilitySweep.Proofs.Ledger.Connecting
import MobilitySweep.Proofs.Ledger.Consistency
import MobilitySweep.Proofs.Ledger.History
import MobilitySweep.Proofs.Ledger.Listing
import MobilitySweep.Proofs.Ledger.Reopening
import MobilitySweep.Proofs.Ledger.Rows
import MobilitySweep.Proofs.Ledger.Vouching
import MobilitySweep.Proofs.Log.Logbook
import MobilitySweep.Proofs.Log.Telling
import MobilitySweep.Proofs.Mobility.Arrangement
import MobilitySweep.Proofs.Mobility.Course
import MobilitySweep.Proofs.Mobility.Drift
import MobilitySweep.Proofs.Mobility.Emission
import MobilitySweep.Proofs.Mobility.Envelope
import MobilitySweep.Proofs.Mobility.FullSink
import MobilitySweep.Proofs.Mobility.Grids
import MobilitySweep.Proofs.Mobility.Inspection
import MobilitySweep.Proofs.Mobility.LineByLine
import MobilitySweep.Proofs.Mobility.Motion
import MobilitySweep.Proofs.Mobility.Overview
import MobilitySweep.Proofs.Mobility.Readback
import MobilitySweep.Proofs.Mobility.Reforming
import MobilitySweep.Proofs.Mobility.Selection
import MobilitySweep.Proofs.Mobility.Summaries
import MobilitySweep.Proofs.Mobility.Travel
import MobilitySweep.Proofs.Number.Digits
import MobilitySweep.Proofs.Number.Numerals
import MobilitySweep.Proofs.Number.Ordering
import MobilitySweep.Proofs.Number.Rounding
import MobilitySweep.Proofs.Sweep.Accounts
import MobilitySweep.Proofs.Sweep.Agreement
import MobilitySweep.Proofs.Sweep.Artifacts
import MobilitySweep.Proofs.Sweep.Atomicity
import MobilitySweep.Proofs.Sweep.Barrier
import MobilitySweep.Proofs.Sweep.Bookkeeping
import MobilitySweep.Proofs.Sweep.Books
import MobilitySweep.Proofs.Sweep.Failures
import MobilitySweep.Proofs.Sweep.Framing
import MobilitySweep.Proofs.Sweep.Idempotence
import MobilitySweep.Proofs.Sweep.InOrder
import MobilitySweep.Proofs.Sweep.Naming
import MobilitySweep.Proofs.Sweep.Opening
import MobilitySweep.Proofs.Sweep.Passes
import MobilitySweep.Proofs.Sweep.Phases
import MobilitySweep.Proofs.Sweep.Placeholders
import MobilitySweep.Proofs.Sweep.Product
import MobilitySweep.Proofs.Sweep.Refusals
import MobilitySweep.Proofs.Sweep.Resumption
import MobilitySweep.Proofs.Sweep.Scheduling
import MobilitySweep.Proofs.Sweep.Snapshots
import MobilitySweep.Proofs.Sweep.Territory
import MobilitySweep.Proofs.Sweep.Turns
import MobilitySweep.Proofs.Sweep.Uniqueness
import MobilitySweep.Proofs.Sweep.Watch
import MobilitySweep.Proofs.Sweep.Work
import MobilitySweep.Proofs.Text.Encoding
import MobilitySweep.Proofs.Text.Readback
import MobilitySweep.Proofs.Text.Words
import MobilitySweep.Proofs.Time.Calendar
import MobilitySweep.Proofs.Time.Durations
import MobilitySweep.Proofs.Yaml.Cursors
import MobilitySweep.Proofs.Yaml.Events
import MobilitySweep.Proofs.Yaml.Nodes
import MobilitySweep.Proofs.Yaml.Records
import MobilitySweep.Proofs.Yaml.Settings
import MobilitySweep.Proofs.Yaml.Spellings
