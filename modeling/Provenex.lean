import Provenex.Core.Merkle
import Provenex.Lib.Guard
import Provenex.Lib.HashTree
import Provenex.Lib.Json
import Provenex.Proofs.MerkleProof
import Provenex.Index.Base
import Provenex.Index.Sqlite
import Provenex.Proofs.SqliteInvariant
import Provenex.Proofs.SqliteSafety
import Provenex.Proofs.SqliteRollback
import Provenex.Py.Json
import Provenex.Policy.Evaluator
import Provenex.Policy.Rules
import Provenex.ToolCall.Context
import Provenex.Policy.Unified
import Provenex.Proofs.Evaluate
import Provenex.Proofs.StrictLoading
import Provenex.Proofs.Validator
import Provenex.Proofs.Canonical
import Provenex.Proofs.Congruence
import Provenex.Proofs.Totality
import Provenex.Proofs.KeyOrder
import Provenex.Proofs.VersionHash
import Provenex.Proofs.Observation
import Provenex.Proofs.Recorded
import Provenex.Core.Fingerprinter
import Provenex.Core.Receipt
import Provenex.Lib.Effect
import Provenex.Core.Verify
import Provenex.Integrations.Retrieval
import Provenex.ToolCall.Admission
import Provenex.Proofs.Gate
import Provenex.Proofs.Session
import Provenex.Index.Shared
import Provenex.Proofs.Shared
import Provenex.Proofs.Payload
import Provenex.Proofs.Tampering
import Provenex.Index.Postgres
import Provenex.Proofs.PostgresSerial
import Provenex.Index.MerklePostgres
import Provenex.Proofs.PostgresRows
import Provenex.Proofs.PostgresLog
import Provenex.Proofs.OneDocument
import Provenex.Index.SqliteSteps
import Provenex.Proofs.FailedAdd
import Provenex.Index.MerkleSqlite
import Provenex.Proofs.TransparencyLog
import Provenex.Proofs.LogCrash
import Provenex.Cli.Audit
import Provenex.Proofs.Audit
import Provenex.Core.Received
import Provenex.Core.Signature
import Provenex.Lib.Sorted
import Provenex.Proofs.RoundTrip
import Provenex.Proofs.Signatures
import Provenex.Proofs.Binding
import Provenex.Core.TrajectoryAudit
import Provenex.Proofs.TrajectoryAudit
import Provenex.Integrations.CrewAI
import Provenex.Integrations.LangGraph
import Provenex.Integrations.Ingestor
import Provenex.Lib.Windows
import Provenex.Proofs.Windows
import Provenex.Proofs.Whitespace
import Provenex.Proofs.Normalization
import Provenex.Proofs.ZeroWidth
import Provenex.Proofs.StoredWindows
import Provenex.Proofs.Emission
import Provenex.Proofs.Trajectories
import Provenex.Proofs.Crashes
import Provenex.Proofs.Composition
import Provenex.Proofs.Failing
import Provenex.Proofs.Received
import Provenex.Proofs.Redaction
import Provenex.Export.Ocsf
import Provenex.Proofs.Ocsf
import Provenex.Export.Streaming
import Provenex.Proofs.Streaming
import Provenex.Export.MultiSink
import Provenex.Proofs.MultiSink
import Provenex.Proofs.Ingest
import Provenex.Proofs.Rechunking
import Provenex.Proofs.Coordinates
import Provenex.Proofs.Sessions
import Provenex.Proofs.Admission
import Provenex.Proofs.Mcp
import Provenex.Proofs.Anchors
import Provenex.Proofs.ChunkContext
import Provenex.Index.SqliteCells
import Provenex.Proofs.Corruption
import Provenex.ToolCall.Integrations
import Provenex.Cli.Summary
import Provenex.Proofs.Summary
import Provenex.Proofs.Freshness
import Provenex.Index.SqliteTexts
import Provenex.Proofs.Unambiguous
import Provenex.Proofs.AppendOnly
import Provenex.Cli.Commands
import Provenex.Proofs.AuditCommand
import Provenex.Proofs.ReceiptCommand
import Provenex.Proofs.TrajectoryCommand
import Provenex.Integrations.LlamaIndex
import Provenex.Proofs.FrontEnds
import Provenex.Proofs.IngestFrontEnds
import Provenex.Proofs.IngestCommand
import Provenex.Lib.Simulation
import Provenex.Index.Writable
import Provenex.Index.Bloom
import Provenex.Proofs.Answers
import Provenex.Proofs.Bloom
import Provenex.Proofs.LogAnswers
import Provenex.Proofs.PostgresAnswers
