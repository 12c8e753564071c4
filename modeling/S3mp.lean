import S3mp.Applications.AppStore
import S3mp.Files.FileStore
import S3mp.Ledger.Quarantine
import S3mp.Files.FileSpec
import S3mp.Files.IngestionSpec
import S3mp.Governance.QuotaStore
import S3mp.Transition.Run
import S3mp.Ledger.Charge
import S3mp.Files.OperationStore
import S3mp.Operations.Deliveries
import S3mp.Operations.Absorbing
import S3mp.Authorization.Evaluator
import S3mp.Identity.Context
import S3mp.Storage.Policy
import S3mp.Transition.Program
import S3mp.Files.DelayedSubject
import S3mp.Files.OperationWorker
import S3mp.Operations.World
import S3mp.Operations.WorkerRules
import S3mp.Operations.OnlyCopy
import S3mp.Operations.Occupation
import S3mp.Operations.Effects
import S3mp.Operations.Settlement
import S3mp.Files.SessionStore
import S3mp.Platform.System
import S3mp.Uploads.RecordStates
import S3mp.Uploads.SessionStates
import S3mp.Platform.Quotas
import S3mp.Platform.Suspension
import S3mp.Platform.Allocation
import S3mp.Platform.Guarantee
import S3mp.Platform.Release
import S3mp.Files.Reconciler
import S3mp.Uploads.Isolation
import S3mp.Files.ReadCommitted
import S3mp.Operations.Locks
import S3mp.Operations.Exclusive
import S3mp.Operations.Replay
import S3mp.Operations.Broker
import S3mp.Operations.Handover
import S3mp.Operations.NothingLost
import S3mp.Operations.Survival
import S3mp.Files.Command
import S3mp.Files.FileService
import S3mp.Files.UploadService
import S3mp.Operations.Names
import S3mp.Operations.Refusals
import S3mp.Identity.Directory
import S3mp.Identity.DirectoryStore
import S3mp.Identity.Subjects
import S3mp.Transition.Versioned
import S3mp.Identity.Bumps
import S3mp.Identity.Invalidation
import S3mp.Identity.CachedAuthorization
import S3mp.Authorization.ManagementService
import S3mp.Authorization.Delegation
import S3mp.Identity.EffectiveBindings
import S3mp.Authorization.EffectivePermissions
import S3mp.Authorization.Escalation
import S3mp.Files.ServiceWorld
import S3mp.Uploads.Agreement
import S3mp.Accounts.Registry
import S3mp.Platform.Baseline
import S3mp.Accounts.AccountStore
import S3mp.Accounts.MembershipStore
import S3mp.Accounts.Commands
import S3mp.Accounts.Lifecycle
import S3mp.Accounts.SupportAccess
import S3mp.Accounts.Sessions
import S3mp.Accounts.Identities
import S3mp.Authorization.SupportPermissions
import S3mp.Authorization.Explanation
import S3mp.Accounts.Owners
import S3mp.Accounts.OwnerTxns
import S3mp.Accounts.Ownerless
import S3mp.Applications.ApiKeys
import S3mp.Applications.KeyLifecycle
import S3mp.Applications.KeyLaws
import S3mp.Storage.AdminBindings
import S3mp.Governance.Inventory
import S3mp.Governance.Reconciliation
import S3mp.Governance.Projection
import S3mp.Governance.Independence
import S3mp.Ledger.Reconciled
import S3mp.Ledger.Overlap
import S3mp.Knowledge.ExclusionRules
import S3mp.Transition.History
import S3mp.Knowledge.RuleCache
import S3mp.Knowledge.TaskStore
import S3mp.Knowledge.Leases
import S3mp.Knowledge.TaskEffects
import S3mp.Knowledge.Batches
import S3mp.Knowledge.Cards
import S3mp.Knowledge.Receiver
import S3mp.Knowledge.Delivery
import S3mp.Knowledge.Handling
import S3mp.Knowledge.NoTaskLost
import S3mp.Migration.Executor
import S3mp.Migration.Preservation
import S3mp.Encoding.Base64
import S3mp.Encoding.PrefixCode
import S3mp.Encoding.Json
import S3mp.Files.FileRefBackfill
import S3mp.Files.PublicReferences
import S3mp.Governance.ApiObservability
import S3mp.Governance.Counting
import S3mp.Knowledge.Duplicates
import S3mp.Operations.Executions
import S3mp.Operations.LockSetSafety
import S3mp.Transition.Outcomes
import S3mp.Uploads.Parts
import S3mp.Uploads.Progress
import S3mp.Accounts.ExternalIdentities
import S3mp.Accounts.Restoration
import S3mp.Authorization.Offers
import S3mp.Authorization.Semantics
import S3mp.Files.Keys
import S3mp.Files.Listing
import S3mp.Ledger.Reaping
import S3mp.Accounts.Bootstrap
import S3mp.Accounts.SessionAcceptance
import S3mp.Files.Columns
import S3mp.Governance.Partition
import S3mp.Knowledge.TaskRuns
import S3mp.Encoding.Packing
import S3mp.Knowledge.ExclusionMatching
import S3mp.Knowledge.TextExtraction
import S3mp.Operations.NameChecks
import S3mp.Relational.Numbered
import S3mp.Uploads.Completion
import S3mp.Accounts.AccountImport
import S3mp.Accounts.ImportAccounting
import S3mp.Accounts.ImportedAccounts
import S3mp.Common.BareCredentials
import S3mp.Files.FileChanges
import S3mp.Files.Preconditions
import S3mp.Files.RetentionIndex
import S3mp.Files.TombstonePurge
import S3mp.Operations.RowCores
import S3mp.Operations.Takeover
import S3mp.Operations.Tombstones
import S3mp.Common.Cursors
import S3mp.Common.RedisAdapters
import S3mp.Files.KeyRecovery
import S3mp.Identity.LoginLimiters
import S3mp.Files.Custody
import S3mp.Files.RetentionRuns
import S3mp.Files.PlatformTrash
