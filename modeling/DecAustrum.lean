import DecAustrum.HashChain
import DecAustrum.Python.Text
import DecAustrum.Python.Digits
import DecAustrum.Python.Json
import DecAustrum.Python.JsonText
import DecAustrum.Python.JsonRoundTrip
import DecAustrum.Python.JsonKeys
import DecAustrum.Python.Uuid
import DecAustrum.Python.Datetime
import DecAustrum.Platform
import DecAustrum.Serialization
import DecAustrum.Models
import DecAustrum.Integrity
import DecAustrum.Storage.Decisions
import DecAustrum.Storage.Integrity
import DecAustrum.LedgerVerification
import DecAustrum.Reference
import DecAustrum.TamperEvidence
import DecAustrum.EvidenceModels
import DecAustrum.Evidence
import DecAustrum.Python.JsonStrings
import DecAustrum.ModelRoundTrip
import DecAustrum.Storage.LedgerWrites
import DecAustrum.StoredDecisions
import DecAustrum.PolicyEngine
import DecAustrum.Sdk.Decisions
import DecAustrum.LedgerHistory
import DecAustrum.LedgerBackfill
import DecAustrum.Traversal
import DecAustrum.BundleVerification
import DecAustrum.Storage.Evidence
import DecAustrum.StoredProofs
import DecAustrum.Digestible
import DecAustrum.BundleBuilding
import DecAustrum.CapturedRecords
import DecAustrum.OfflineAgreement
import DecAustrum.ExportAgreement
import DecAustrum.Archive
import DecAustrum.ArchiveRoundTrip
import DecAustrum.OfflineSoundness
import DecAustrum.Table
import DecAustrum.Storage.ApprovalTables
import DecAustrum.Storage.ApprovalEnforcement
import DecAustrum.Transaction.Program
import DecAustrum.Transaction.Interleaving
import DecAustrum.Transaction.Rules
import DecAustrum.Transaction.Invariants
import DecAustrum.Transaction.Schedule
import DecAustrum.Resources
import DecAustrum.WebhookModels
import DecAustrum.Audit
import DecAustrum.Storage.Database
import DecAustrum.Storage.Outbox
import DecAustrum.Storage.Projects
import DecAustrum.Storage.Webhooks
import DecAustrum.Storage.OutboxEffects
import DecAustrum.Storage.WebhookEffects
import DecAustrum.DeliveryStates
import DecAustrum.Storage.Policies
import DecAustrum.Storage.Approvals
import DecAustrum.EvidenceStore.Administration
import DecAustrum.Storage.Idempotency
import DecAustrum.EvidenceStore.Authorizations
import DecAustrum.EvidenceStore.ServiceUnits
import DecAustrum.EvidenceStore.Operations
import DecAustrum.EvidenceStore.OutboxUnits
import DecAustrum.EvidenceStore.AuthorityUnits
import DecAustrum.FanOut
import DecAustrum.QueuedDeliveries
import DecAustrum.AdministrativeChanges
import DecAustrum.AdministrativeChain
import DecAustrum.PolicyHistory
import DecAustrum.PolicyWrites
import DecAustrum.PolicyRuns
import DecAustrum.LedgerRuns
import DecAustrum.Evaluation
import DecAustrum.EvaluationOrder
import DecAustrum.OperatorSemantics
import DecAustrum.Python.Base64
import DecAustrum.ExecutionGrants
import DecAustrum.TokenCodec
import DecAustrum.RequestEncoding
import DecAustrum.Transaction.Attempts
import DecAustrum.Services.Requests
import DecAustrum.Services.ExecutionGrants
import DecAustrum.Storage.GrantReads
import DecAustrum.TokenRejection
import DecAustrum.Python.Double
import DecAustrum.RateLimit
import DecAustrum.RateLimitRuns
import DecAustrum.Python.Csv
import DecAustrum.Exports
import DecAustrum.CsvExport
import DecAustrum.ExportStreams
import DecAustrum.Python.IntText
import DecAustrum.WebhookSignatures
import DecAustrum.SignatureVerification
import DecAustrum.CanonicalForms
import DecAustrum.DecisionRoundTrip
import DecAustrum.LiveVerification
import DecAustrum.OfflineVerifier
import DecAustrum.OfflineReports
import DecAustrum.Python.DatetimeOrder
import DecAustrum.Storage.Search
import DecAustrum.SearchableLedgers
import DecAustrum.SearchConditions
import DecAustrum.StoredTimestamps
import DecAustrum.Storage.ApiKeys
import DecAustrum.Authentication
import DecAustrum.Http.TrustedHosts
import DecAustrum.Http.RequestChecks
import DecAustrum.Http.Middleware
import DecAustrum.Storage.AuditEvents
import DecAustrum.Transaction.Preserves
import DecAustrum.PolicyIdentifiers
import DecAustrum.PolicyAudit
import DecAustrum.SearchAgreement
import DecAustrum.Consumption
import DecAustrum.IdempotentAuthorization
import DecAustrum.DispatchRuns
import DecAustrum.DispatchAlone
import DecAustrum.IssuedTokens
