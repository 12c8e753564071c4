import S3mp.Common.Basic

/-!
# Rows of the file tables

The columns of `files/infrastructure/models.py` and `ingestion_models.py` which
the stores read or decide on.  A record's own id is the key of its table.  All
rows belong to one tenant: every query of the file stores filters on
`tenant_id`, so the rows of other tenants are neither read nor written.
-/

namespace S3mp.Files

structure StorageSpace where
  applicationId : Option Uuid
  active : Bool
  bucket : String
  rootPrefix : String
  storageNamespace : Option String
  profileVersion : ℕ
  providerTargetVersion : ℕ
  deriving DecidableEq, Repr

/-! ## Ingestion -/

inductive IngestionStatus where
  | initiated | uploading | verificationPending | verified | committed | available
  | failed | expired | reconciliationRequired
  deriving DecidableEq, Repr

def IngestionStatus.value : IngestionStatus → String
  | .initiated => "initiated"
  | .uploading => "uploading"
  | .verificationPending => "verification_pending"
  | .verified => "verified"
  | .committed => "committed"
  | .available => "available"
  | .failed => "failed"
  | .expired => "expired"
  | .reconciliationRequired => "reconciliation_required"

/-- The table `VALID_TRANSITIONS`. -/
def validTransitions : IngestionStatus → List IngestionStatus
  | .initiated => [.uploading, .verified, .failed, .reconciliationRequired, .expired]
  | .uploading => [.verificationPending, .failed, .expired]
  | .verificationPending => [.verified, .failed, .expired]
  | .verified => [.committed, .failed, .reconciliationRequired]
  | .committed => [.available, .reconciliationRequired]
  | .available => []
  | .failed => [.reconciliationRequired]
  | .expired => []
  | .reconciliationRequired => [.verified, .committed, .failed]

inductive SubjectKind where
  | human | application
  deriving DecidableEq, Repr

/-- The `authorization_evidence` column: what an accepted command recorded about
the subject it was authorized for. -/
structure AuthorizationEvidence where
  subjectKind : SubjectKind
  targetPrincipalId : Uuid
  membershipId : Option Uuid
  applicationId : Option Uuid
  actorApplicationId : Option Uuid
  actorPrincipalId : Option Uuid
  apiKeyId : Option Uuid
  apiKeyScopes : List String
  apiKeyDirectoryPrefix : Option String
  deriving DecidableEq, Repr

structure IngestionRecord where
  creatorPrincipalId : Uuid
  actingPrincipalId : Uuid
  membershipId : Option Uuid
  storageSpaceId : Uuid
  applicationId : Option Uuid
  storageNamespace : Option String
  profileVersion : ℕ
  bucket : String
  relativeKey : String
  physicalKey : String
  providerTargetVersion : ℕ
  authorizationEvidence : AuthorizationEvidence
  authorizationVersion : ℕ
  idempotencyKey : Option String
  idempotencyFingerprint : Option String
  metadata : Option String
  uploadSessionId : Option Uuid
  multipartSessionId : Option Uuid
  quotaReservationId : Option Uuid
  fileObjectId : Option Uuid
  providerEtag : Option String
  providerVersionId : Option String
  actualSize : Option ℕ
  actualContentType : Option String
  checksum : Option String
  status : IngestionStatus
  committedAt : Option Timestamp
  deriving DecidableEq, Repr

inductive IngestionEventType where
  | created | verificationPassed | committed | reconciliationStarted | expired
  | failedPermanently
  deriving DecidableEq, Repr

/-- The reasons the file service passes to `fail_or_quarantine`. -/
inductive FailureReason where
  | directPresignFailed | providerVerificationFailed | providerUnavailable
  | commitAuthorizationRevoked | databaseCommitFailed
  | multipartProviderAbortFailed | multipartProviderCreateFailed
  | multipartVerificationFailed | multipartProviderFailed | multipartDatabaseCommitFailed
  | reconciliationRetryExhausted | reconciliationAuthorizationRevoked
  | legacyProviderTarget | providerTargetMismatch | reconciliationObjectMissing
  | reconciliationRetryRequired
  deriving DecidableEq, Repr

inductive EventReason where
  | failure (reason : FailureReason)
  | verifiedSizeExceedsQuota
  | sessionExpired
  deriving DecidableEq, Repr

structure IngestionEvent where
  ingestionRecordId : Uuid
  eventType : IngestionEventType
  reason : Option EventReason
  deriving DecidableEq, Repr

/-! ## Sessions -/

inductive SessionStatus where
  | pending | completed | aborted | expired | cancelled
  deriving DecidableEq, Repr

structure UploadSession where
  principalId : Uuid
  storageSpaceId : Uuid
  applicationId : Option Uuid
  storageNamespace : Option String
  profileVersion : ℕ
  objectKey : String
  providerTargetVersion : ℕ
  declaredLength : ℤ
  contentType : String
  checksum : Option String
  metadata : Option String
  status : SessionStatus
  expiresAt : Timestamp
  completedAt : Option Timestamp
  deriving DecidableEq, Repr

structure MultipartSession where
  principalId : Uuid
  storageSpaceId : Uuid
  applicationId : Option Uuid
  storageNamespace : Option String
  profileVersion : ℕ
  objectKey : String
  providerTargetVersion : ℕ
  providerUploadId : Option String
  declaredLength : ℤ
  contentType : String
  checksum : Option String
  metadata : Option String
  quotaReservationId : Uuid
  status : SessionStatus
  expiresAt : Timestamp
  deriving DecidableEq, Repr

structure MultipartPart where
  etag : String
  contentLength : ℤ
  idempotencyKey : Option String
  contentSha256 : Option String
  deriving DecidableEq, Repr

/-! ## File objects -/

inductive FileStatus where
  | available | renaming | renameFailed | deleting | deleted | deleteFailed | quarantined
  deriving DecidableEq, Repr

inductive PurgeState where
  | pendingMigration | scheduled | processing | retryWait | purged
  deriving DecidableEq, Repr

inductive OperationPhase where
  | queued | processing | retryScheduled
  deriving DecidableEq, Repr

/-- A public file reference.  The code publishes the SHA-256 of the
length-prefixed fields; the model keeps the fields, so that two references are
equal exactly when the fields are. -/
structure FileRef where
  applicationId : Uuid
  relativeKey : String
  metadata : Option String
  digest : String
  deriving DecidableEq, Repr

structure FileObject where
  storageSpaceId : Uuid
  applicationId : Option Uuid
  storageNamespace : Option String
  profileVersion : ℕ
  objectKey : String
  providerTargetVersion : ℕ
  contentLength : ℕ
  contentType : String
  etag : Option String
  checksum : Option String
  publicFileRef : Option FileRef
  metadata : Option String
  activeOperationId : Option Uuid
  operationPhase : Option OperationPhase
  processingStartedAt : Option Timestamp
  status : FileStatus
  deletionAttemptCount : ℕ
  deletionNextRetryAt : Option Timestamp
  deletedAt : Option Timestamp
  deletionPrincipalId : Option Uuid
  deletionAuthorizationVersion : Option ℕ
  deletionAuthorizationEvidence : Option AuthorizationEvidence
  deletionIdempotencyKey : Option String
  softDeleted : Bool
  purgeDueAt : Option Timestamp
  purgeState : Option PurgeState
  purgeAttemptCount : ℕ
  purgeNextRetryAt : Option Timestamp
  purgedAt : Option Timestamp
  deriving DecidableEq, Repr

inductive DeletionRecordStatus where
  | requested | retrying | retained | failed
  deriving DecidableEq, Repr

structure FileDeletionRecord where
  fileId : Uuid
  originalRelativeKey : String
  originalPhysicalKey : String
  trashPhysicalKey : String
  contentLength : ℕ
  purgeDueAt : Timestamp
  status : DeletionRecordStatus
  attemptCount : ℕ
  nextRetryAt : Option Timestamp
  idempotencyKey : String
  deriving DecidableEq, Repr

/-! ## Asynchronous operations -/

inductive OperationType where
  | copy | move | rename | delete
  deriving DecidableEq, Repr

inductive OperationStatus where
  | queued | processing | retryScheduled
  | succeeded | partialFailure | failed | cancelled | deadLettered
  | pending | running | retryWait
  deriving DecidableEq, Repr

/-- The `rename_integrity` entry of an operation's evidence: the content identity
of the source row when the rename was accepted. -/
structure RenameIntegrity where
  contentLength : Option ℕ
  etag : Option String
  checksum : Option String
  deriving DecidableEq, Repr

structure OperationEvidence where
  subjectKind : SubjectKind
  applicationId : Option Uuid
  actorApplicationId : Option Uuid
  apiKeyId : Option Uuid
  apiKeyScopes : List String
  apiKeyDirectoryPrefix : Option String
  renameIntegrity : Option RenameIntegrity
  deriving DecidableEq, Repr

structure FileOperation where
  principalId : Uuid
  membershipId : Option Uuid
  operationType : OperationType
  sourceKey : Option String
  destinationKey : Option String
  sourceFileId : Option Uuid
  resultFileId : Option Uuid
  requestFingerprint : Option String
  keys : List String
  status : OperationStatus
  failureReason : Option String
  idempotencyKey : String
  storageSpaceId : Option Uuid
  applicationId : Option Uuid
  actorApplicationId : Option Uuid
  storageNamespace : Option String
  profileVersion : ℕ
  authorizationVersion : ℕ
  providerTargetVersion : ℕ
  authorizationEvidence : OperationEvidence
  attemptCount : ℕ
  recoveryAttemptCount : ℕ
  replayOfEventId : Option Uuid
  leaseExpiresAt : Option Timestamp
  nextRetryAt : Option Timestamp
  completedAt : Option Timestamp
  deriving DecidableEq, Repr

structure OperationOutboxEvent where
  operationId : Uuid
  replayOfEventId : Option Uuid
  publishedAt : Option Timestamp
  publishLeaseExpiresAt : Option Timestamp
  deriving DecidableEq, Repr

structure ResourceReservation where
  storageSpaceId : Uuid
  objectKey : String
  operationId : Uuid
  deriving DecidableEq, Repr

end S3mp.Files
