import Telemetry.Agent.Collector
import Telemetry.Agent.Machine
import Telemetry.Agent.Outcome
import Telemetry.Agent.Plan
import Telemetry.Agent.PollLedger
import Telemetry.Agent.Readings
import Telemetry.Agent.Report
import Telemetry.Agent.Reporter
import Telemetry.Binary64
import Telemetry.Bytes
import Telemetry.CommandLine.Agent
import Telemetry.CommandLine.Option
import Telemetry.CommandLine.Server
import Telemetry.Crypto.Aes
import Telemetry.Crypto.Der
import Telemetry.Crypto.Envelope
import Telemetry.Crypto.Gcm
import Telemetry.Crypto.Hmac
import Telemetry.Crypto.Pem
import Telemetry.Crypto.Rsa
import Telemetry.Crypto.Sha256
import Telemetry.Decimal.Shortest
import Telemetry.Decimal.Text
import Telemetry.Duration
import Telemetry.Fault
import Telemetry.FileTree
import Telemetry.Gzip
import Telemetry.Gzip.Crc32
import Telemetry.Gzip.Deflate
import Telemetry.Gzip.Inflate
import Telemetry.Gzip.Reading
import Telemetry.Hex
import Telemetry.Http.Handler
import Telemetry.Http.IndexPage
import Telemetry.Http.Message
import Telemetry.Http.Problem
import Telemetry.Http.Route
import Telemetry.Http.Server
import Telemetry.Http.StatusText
import Telemetry.Http.Wire
import Telemetry.Json.Defect
import Telemetry.Json.Reader
import Telemetry.Json.Record
import Telemetry.Json.Skim
import Telemetry.Json.Writer
import Telemetry.Kind
import Telemetry.Log
import Telemetry.Main
import Telemetry.Metric
import Telemetry.Metric.Document
import Telemetry.Network.Address
import Telemetry.Network.Endpoint
import Telemetry.Network.Locator
import Telemetry.Network.Subnet
import Telemetry.Postgres.Database
import Telemetry.Postgres.Dsn
import Telemetry.Postgres.Failure
import Telemetry.Postgres.LockKey
import Telemetry.Postgres.Merge
import Telemetry.Postgres.Migration
import Telemetry.Postgres.Statement
import Telemetry.Postgres.Store
import Telemetry.Postgres.Talk
import Telemetry.Program.Agent
import Telemetry.Program.Disk
import Telemetry.Program.Ending
import Telemetry.Program.Network
import Telemetry.Program.Server
import Telemetry.Proofs.Agent.Jobs
import Telemetry.Proofs.Agent.Polls
import Telemetry.Proofs.Fallible
import Telemetry.Proofs.Lookup
import Telemetry.Proofs.Metric.Batch
import Telemetry.Proofs.Metric.Merging
import Telemetry.Proofs.Postgres.Alone
import Telemetry.Proofs.Postgres.Client
import Telemetry.Proofs.Postgres.Database
import Telemetry.Proofs.Postgres.Quiet
import Telemetry.Proofs.Postgres.Retried
import Telemetry.Proofs.Postgres.Rows
import Telemetry.Proofs.Postgres.Serial
import Telemetry.Proofs.Postgres.Stage
import Telemetry.Proofs.Retry.Patient
import Telemetry.Proofs.Server.Answers
import Telemetry.Proofs.Server.Demand
import Telemetry.Proofs.Server.History
import Telemetry.Proofs.Server.Requests
import Telemetry.Proofs.Server.Saved
import Telemetry.Proofs.Server.Shutdown
import Telemetry.Proofs.Server.Signed
import Telemetry.Proofs.Server.Storage
import Telemetry.Proofs.Server.Turns
import Telemetry.Proofs.Store.Agreement
import Telemetry.Proofs.Store.Dumping
import Telemetry.Proofs.Store.Snapshot
import Telemetry.Proofs.Store.Table
import Telemetry.Retry.Loop
import Telemetry.Retry.Policy
import Telemetry.Rpc.Message
import Telemetry.Rpc.Service
import Telemetry.Rpc.Status
import Telemetry.Security.Guard
import Telemetry.Security.KeyFile
import Telemetry.Security.Sealer
import Telemetry.Sender.Basic
import Telemetry.Sender.Http
import Telemetry.Sender.Rpc
import Telemetry.Server.Ingest
import Telemetry.Server.Lifetime
import Telemetry.Server.Plan
import Telemetry.Server.Storage
import Telemetry.Settings.Agent
import Telemetry.Settings.File
import Telemetry.Settings.Retry
import Telemetry.Settings.Server
import Telemetry.Simulation.Clock
import Telemetry.Simulation.Loops
import Telemetry.Simulation.Reporting
import Telemetry.Simulation.Script
import Telemetry.Simulation.Storage
import Telemetry.Startup
import Telemetry.StopSignal
import Telemetry.Store.Call
import Telemetry.Store.Dumping
import Telemetry.Store.Failover
import Telemetry.Store.Memory
import Telemetry.Store.Snapshot
import Telemetry.Store.SnapshotLoop
import Telemetry.Store.Table
import Telemetry.Text.Blank
import Telemetry.Text.Lossy
import Telemetry.Text.Percent
import Telemetry.Text.Quoted
import Telemetry.Text.Unshown
import Telemetry.Ticker
import Telemetry.Proofs.Server.Lasting
import Telemetry.Proofs.Postgres.Locks
import Telemetry.Proofs.Postgres.Deadlock
import Telemetry.Proofs.Store.Draft
import Telemetry.Proofs.Server.Versions
import Telemetry.Proofs.Utf8
import Telemetry.Proofs.Binary64
import Telemetry.Proofs.Json.Text
import Telemetry.Proofs.Decimal.Shortest
import Telemetry.Proofs.Json.Number
import Telemetry.Proofs.Json.Real
import Telemetry.Proofs.Json.Scaled
import Telemetry.Proofs.Json.Structure
import Telemetry.Proofs.Metric.Document
import Telemetry.Proofs.Store.Ordered
import Telemetry.Proofs.Store.Undisturbed
import Telemetry.Proofs.Store.Restart
import Telemetry.Proofs.Metric.Message
import Telemetry.Proofs.Security.Signature
import Telemetry.Proofs.Sender.Headers
import Telemetry.Proofs.Sender.Messages
import Telemetry.Proofs.Sender.Replies
import Telemetry.Proofs.Sender.Sealed
import Telemetry.Proofs.Server.Untrusted
import Telemetry.Proofs.Server.Envelopes
import Telemetry.Proofs.Gzip.Bits
import Telemetry.Proofs.Gzip.Codes
import Telemetry.Proofs.Gzip.RoundTrip
import Telemetry.Proofs.Crypto.Gcm
import Telemetry.Proofs.Crypto.Rsa
import Telemetry.Proofs.Crypto.Envelope
import Telemetry.Proofs.Agent.Accounting
import Telemetry.Proofs.Store.Stepwise
import Telemetry.Proofs.Metric.Sums
import Telemetry.Proofs.Store.Delivery
import Telemetry.Proofs.Store.Failover
import Telemetry.Proofs.Retry.Backoff
import Telemetry.Proofs.Retry.Attempts
import Telemetry.Proofs.Postgres.Migrations
import Telemetry.Proofs.Postgres.Outages
import Telemetry.Proofs.Lifecycle.Stopping
import Telemetry.Proofs.Gzip.Bounded
import Telemetry.Proofs.Security.Acceptance
import Telemetry.Proofs.Store.FiniteMap
import Telemetry.Proofs.Store.Directories
import Telemetry.Proofs.Store.Interrupted
import Telemetry.Proofs.Decimal.Plain
import Telemetry.Proofs.Metric.ValueText
import Telemetry.Proofs.Server.Paths
import Telemetry.Proofs.Agent.Ledger
import Telemetry.Proofs.Agent.Snapshots
import Telemetry.Proofs.Server.IndexPage
import Telemetry.Proofs.Server.Encodings
