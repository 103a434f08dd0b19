import AuditedPetitions.Arithmetic
import AuditedPetitions.Cache.Basic
import AuditedPetitions.Cache.Expiring
import AuditedPetitions.Cache.Memory
import AuditedPetitions.Decimal.Fixed
import AuditedPetitions.Decimal.Shortest
import AuditedPetitions.Duration
import AuditedPetitions.Exposition
import AuditedPetitions.Instant.Basic
import AuditedPetitions.Instant.Calendar
import AuditedPetitions.Instant.Printer
import AuditedPetitions.Instant.Reader
import AuditedPetitions.Json.Decode
import AuditedPetitions.Json.Document
import AuditedPetitions.Json.Number
import AuditedPetitions.Json.Token
import AuditedPetitions.Json.Value
import AuditedPetitions.Json.Writer
import AuditedPetitions.Ledger.Block
import AuditedPetitions.Ledger.Chain
import AuditedPetitions.Ledger.Config
import AuditedPetitions.Ledger.Error
import AuditedPetitions.Ledger.Inspection
import AuditedPetitions.Ledger.Metrics
import AuditedPetitions.Ledger.Snapshot
import AuditedPetitions.Ledger.Template
import AuditedPetitions.Ledger.Transaction
import AuditedPetitions.Ledger.Writer
import AuditedPetitions.Main
import AuditedPetitions.Petition.Alias
import AuditedPetitions.Petition.Audit
import AuditedPetitions.Petition.Basic
import AuditedPetitions.Petition.Caching
import AuditedPetitions.Petition.Config
import AuditedPetitions.Petition.Error
import AuditedPetitions.Petition.Event
import AuditedPetitions.Petition.JointRun
import AuditedPetitions.Petition.Metrics
import AuditedPetitions.Petition.Page
import AuditedPetitions.Petition.Rehearsal
import AuditedPetitions.Petition.Search
import AuditedPetitions.Petition.Service
import AuditedPetitions.Petition.Store
import AuditedPetitions.Petition.Traffic
import AuditedPetitions.Sha256
import AuditedPetitions.Table
import AuditedPetitions.Text.Blank
import AuditedPetitions.Text.Hex
import AuditedPetitions.Text.Numeral
import AuditedPetitions.Text.Printable
import AuditedPetitions.Text.Quoted
import AuditedPetitions.Toml.Reader
import AuditedPetitions.Toml.Scalar
import AuditedPetitions.Toml.Table
import AuditedPetitions.Uuid
import AuditedPetitions.Proofs.Petition.StoreLaws
import AuditedPetitions.Proofs.Petition.ServiceSteps
import AuditedPetitions.Proofs.Petition.Tallies
import AuditedPetitions.Proofs.Instant.RoundTrip
import AuditedPetitions.Proofs.Json.RoundTrip
import AuditedPetitions.Proofs.Ledger.Binding
import AuditedPetitions.Proofs.Ledger.Mailbox
import AuditedPetitions.Proofs.Petition.Transparency
import AuditedPetitions.Proofs.Ledger.Growth
import AuditedPetitions.Proofs.Json.Pretty
import AuditedPetitions.Proofs.Ledger.Export
import AuditedPetitions.Proofs.Petition.Duties
import AuditedPetitions.Proofs.Petition.Isolation
import AuditedPetitions.Proofs.Ledger.Replies
import AuditedPetitions.Proofs.Petition.Appends
import AuditedPetitions.Proofs.Petition.Commitments
import AuditedPetitions.Proofs.Petition.Completeness
import AuditedPetitions.Proofs.Ledger.LiveChain
import AuditedPetitions.Proofs.Petition.Rivals
import AuditedPetitions.Proofs.Petition.CreationOrder
import AuditedPetitions.Proofs.Petition.Fates
import AuditedPetitions.Proofs.Petition.AppendModes
import AuditedPetitions.Proofs.Petition.Preflight
import AuditedPetitions.Proofs.Petition.Deletion
import AuditedPetitions.Proofs.Petition.Transactions
import AuditedPetitions.Proofs.Json.Alike
import AuditedPetitions.Proofs.Json.Nesting
import AuditedPetitions.Proofs.Ledger.CanonicalText
import AuditedPetitions.Proofs.Ledger.NonceSearch
import AuditedPetitions.Proofs.Ledger.FirstFault
import AuditedPetitions.Proofs.Ledger.Separation
import AuditedPetitions.Proofs.Ledger.Difficulty
import AuditedPetitions.Proofs.Petition.Windows
import AuditedPetitions.Proofs.Petition.Regular
import AuditedPetitions.Proofs.Petition.Rejections
import AuditedPetitions.Proofs.Petition.VoteRules
import AuditedPetitions.Proofs.Petition.Listing
import AuditedPetitions.Proofs.Ledger.StaleTemplates
import AuditedPetitions.Proofs.Cache.Expiry
import AuditedPetitions.Proofs.Cache.Deadline
import AuditedPetitions.Proofs.Cache.Invalidation
import AuditedPetitions.Proofs.Cache.ReadThrough
import AuditedPetitions.Proofs.Ledger.Counters
import AuditedPetitions.Proofs.Cache.History
