import MemWal.Library.Store
import MemWal.Library.Runs
import MemWal.Library.Merkle
import MemWal.Library.Blake2b
import MemWal.Library.Fallible
import MemWal.Account.Types
import MemWal.Account.Module
import MemWal.Account.Allowlist
import MemWal.Account.World
import MemWal.Account.Representation
import MemWal.Account.History
import MemWal.Account.Revocation
import MemWal.Account.Quarantine
import MemWal.Account.Migration
import MemWal.Account.Schedule
import MemWal.SecurityDelete.Store
import MemWal.SecurityDelete.Changes
import MemWal.SecurityDelete.Ledger
import MemWal.SecurityDelete.Ownership
import MemWal.Library.Programs
import MemWal.SecurityDelete.Chain
import MemWal.SecurityDelete.Inputs
import MemWal.SecurityDelete.Routes
import MemWal.SecurityDelete.Reconciler
import MemWal.SecurityDelete.Moves
import MemWal.SecurityDelete.Protocol
import MemWal.SecurityDelete.Conformance
import MemWal.SecurityDelete.Preparation
import MemWal.SecurityDelete.Completion
import MemWal.Library.Windows
import MemWal.RateLimit.Window
import MemWal.RateLimit.Bound
import MemWal.RateLimit.Charges
import MemWal.RateLimit.Usage
import MemWal.Quota.Storage
import MemWal.Library.Crews
import MemWal.SecurityDelete.Eviction
import MemWal.Remember.Row
import MemWal.Remember.Service
import MemWal.Remember.Wallet
import MemWal.Remember.Sidecar
import MemWal.Remember.Routes
import MemWal.Remember.Order
import MemWal.Remember.Steps
import MemWal.Remember.Conduct
import MemWal.Remember.Parties
import MemWal.Remember.Admission
import MemWal.Remember.Server
import MemWal.Remember.Effects
import MemWal.Remember.Registration
import MemWal.Remember.Transfers
import MemWal.Remember.Finality
import MemWal.Remember.Ciphertexts
import MemWal.Remember.Idempotence
import MemWal.Remember.Carrying
import MemWal.Remember.Stranding
import MemWal.SecurityDelete.Positions
import MemWal.Auth.Middleware
import MemWal.Auth.Replay
import MemWal.Auth.Hints
import MemWal.RateLimit.Spellings
import MemWal.Library.Text
import MemWal.OAuth.Types
import MemWal.OAuth.World
import MemWal.OAuth.Routes
import MemWal.OAuth.Records
import MemWal.OAuth.Custody
import MemWal.OAuth.Lifecycle
import MemWal.OAuth.Conduct
import MemWal.OAuth.Grants
import MemWal.OAuth.Revocation
import MemWal.OAuth.Provenance
import MemWal.OAuth.Bearers
import MemWal.Library.Alone
import MemWal.OAuth.Reconnecting
import MemWal.OAuth.ObjectIds
import MemWal.OAuth.Reconnect
import MemWal.OAuth.Redirect
import MemWal.Mcp.Forgery
import MemWal.Mcp.Sidecar
import MemWal.Library.Embedding
import MemWal.Sponsor.Routes
import MemWal.Sponsor.Binding
import MemWal.Sponsor.Forwards
import MemWal.Funding.Execution
import MemWal.Funding.Soundness
import MemWal.Funding.Exactness
import MemWal.Library.Numerals
import MemWal.Blobs.Ids
import MemWal.Blobs.Listing
import MemWal.Seal.Identity
import MemWal.Blobs.Discovery
import MemWal.Restore.Routes
import MemWal.Restore.Conduct
import MemWal.Restore.Uniqueness
import MemWal.Restore.Completeness
import MemWal.Restore.Convergence
import MemWal.Account.Journal
import MemWal.Indexer.Handler
import MemWal.Indexer.ReadModel
import MemWal.Rpc.Bounds
import MemWal.Rpc.Cancellation
import MemWal.Rpc.Guarantees
import MemWal.Library.Arrange
import MemWal.Recall.Ranking
import MemWal.Recall.Agreement
import MemWal.Library.Checked
import MemWal.Library.Base64
import MemWal.Library.Markers
import MemWal.Seal.Recognition
import MemWal.Blobs.Conversion
import MemWal.Restore.Verdicts
import MemWal.RateLimit.Rejections
import MemWal.Library.Separated
import MemWal.Auth.Canonical
import MemWal.Remember.Fingerprint
import MemWal.Library.Batches
import MemWal.Recall.Hydration
import MemWal.Library.Keyset
import MemWal.SecurityDelete.Listing
import MemWal.SecurityDelete.Sweeping
import MemWal.Auth.Scan
import MemWal.Library.Meters
import MemWal.RateLimit.Allowances
import MemWal.Library.Utf8
import MemWal.Mcp.ClientIp
import MemWal.Mcp.Forgetting
import MemWal.Mcp.Sse
import MemWal.Mcp.Wiring
import MemWal.Remember.Summaries
import MemWal.Walrus.Semaphore
import MemWal.Walrus.UploadSlots
import MemWal.Library.Json
import MemWal.Funding.Snapshot
import MemWal.Funding.Journal
import MemWal.Funding.Script
import MemWal.Funding.Payouts
import MemWal.SecurityDelete.Bearers
import MemWal.Mcp.Replays
import MemWal.Sdk.Client
import MemWal.Sdk.Retries
import MemWal.Sdk.Signing
