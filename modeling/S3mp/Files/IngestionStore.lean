import S3mp.Files.FileReference
import S3mp.Files.Reservation

/-!
# The ingestion store

The transactions of `SqlAlchemyIngestionStore`: creating an intent together with
its reservation, recording what the provider holds, committing the file, and the
ways an intent ends without a file.
-/

namespace S3mp.Files

open Relational Governance

/-- The session half of an intent, as the service passes it. -/
structure SessionData where
  principalId : Uuid
  storageSpaceId : Uuid
  applicationId : Option Uuid
  storageNamespace : Option String
  profileVersion : ℕ
  objectKey : String
  contentLength : ℤ
  contentType : String
  checksum : Option String
  metadata : Option String
  expiresAt : Timestamp
  deriving DecidableEq, Repr

structure IngestionData where
  creatorPrincipalId : Uuid
  actingPrincipalId : Uuid
  membershipId : Option Uuid
  storageSpaceId : Uuid
  applicationId : Option Uuid
  storageNamespace : Option String
  profileVersion : ℕ
  bucket : String
  relativeKey : String
  physicalKey : String
  providerTargetVersion : ℕ
  authorizationEvidence : AuthorizationEvidence
  authorizationVersion : ℕ
  idempotencyKey : Option String
  idempotencyFingerprint : Option String
  metadata : Option String
  deriving DecidableEq, Repr

/-- The identifiers one intent draws. -/
structure IntentIds where
  reservation : Uuid
  session : Uuid
  ingestion : Uuid
  deriving DecidableEq, Repr

structure IntentResult where
  sessionId : Uuid
  ingestionId : Uuid
  replayed : Bool
  deriving DecidableEq, Repr

structure ProviderResult where
  providerEtag : Option String
  providerVersionId : Option String
  actualSize : Option ℕ
  actualContentType : Option String
  checksum : Option String
  deriving DecidableEq, Repr

/-! ## Creation -/

def findReplayOrConflict (data : IngestionData) (ingestions : Table Uuid IngestionRecord) :
    Tx (Option (Uuid × IngestionRecord)) :=
  match (truthy data.idempotencyFingerprint).bind fun fingerprint ↦
      ingestions.selectFirst fun _ row ↦ row.idempotencyFingerprint = some fingerprint with
  | some existing => .ok (some existing)
  | none =>
    match (truthy data.idempotencyKey).bind fun key ↦
        ingestions.selectFirst fun _ row ↦ row.idempotencyKey = some key with
    | some _ => raise "idempotency_key_reused"
        "Idempotency-Key was already used with different request semantics" 409
    | none => .ok none

def buildIngestionModel (data : IngestionData) (uploadSessionId multipartSessionId : Option Uuid)
    (quotaReservationId : Uuid) : IngestionRecord where
  creatorPrincipalId := data.creatorPrincipalId
  actingPrincipalId := data.actingPrincipalId
  membershipId := data.membershipId
  storageSpaceId := data.storageSpaceId
  applicationId := data.applicationId
  storageNamespace := data.storageNamespace
  profileVersion := data.profileVersion
  bucket := data.bucket
  relativeKey := data.relativeKey
  physicalKey := data.physicalKey
  providerTargetVersion := data.providerTargetVersion
  authorizationEvidence := data.authorizationEvidence
  authorizationVersion := data.authorizationVersion
  idempotencyKey := data.idempotencyKey
  idempotencyFingerprint := data.idempotencyFingerprint
  metadata := data.metadata
  uploadSessionId := uploadSessionId
  multipartSessionId := multipartSessionId
  quotaReservationId := some quotaReservationId
  fileObjectId := none
  providerEtag := none
  providerVersionId := none
  actualSize := none
  actualContentType := none
  -- the declared checksum of the intent is not among the columns written here
  checksum := none
  status := .initiated
  committedAt := none

def insertIngestion (id : Uuid) (row : IngestionRecord) (db : Db) : Tx Db :=
  if row.idempotencyFingerprint.isSome && db.ingestions.anyRow fun _ other ↦
      other.idempotencyFingerprint = row.idempotencyFingerprint then
    integrityError "file_ingestion_record_idempotency_fingerprint"
  else do
    let ingestions ← insertRow "file_ingestion_record_pkey" id row db.ingestions
    return { db with
      ingestions
      ingestionEvents := ⟨id, .created, none⟩ :: db.ingestionEvents }

def newUpload (s : SessionData) : UploadSession where
  principalId := s.principalId
  storageSpaceId := s.storageSpaceId
  applicationId := s.applicationId
  storageNamespace := s.storageNamespace
  profileVersion := s.profileVersion
  objectKey := s.objectKey
  providerTargetVersion := 1
  declaredLength := s.contentLength
  contentType := s.contentType
  checksum := s.checksum
  metadata := s.metadata
  status := .pending
  expiresAt := s.expiresAt
  completedAt := none

def newMultipart (s : SessionData) (quotaReservationId : Uuid) : MultipartSession where
  principalId := s.principalId
  storageSpaceId := s.storageSpaceId
  applicationId := s.applicationId
  storageNamespace := s.storageNamespace
  profileVersion := s.profileVersion
  objectKey := s.objectKey
  providerTargetVersion := 1
  providerUploadId := none
  declaredLength := s.contentLength
  contentType := s.contentType
  checksum := s.checksum
  metadata := s.metadata
  quotaReservationId := quotaReservationId
  status := .pending
  expiresAt := s.expiresAt

def createUploadIntent (ids : IntentIds) (session : SessionData) (data : IngestionData)
    (db : Db) : Tx (IntentResult × Db) := do
  match ← findReplayOrConflict data db.ingestions with
  | some (ingestionId, existing) =>
    match existing.uploadSessionId with
    | none => raise "invalid_transition" "Ingestion does not reference an upload" 409
    | some uploadId =>
      if uploadId ∈ db.uploads then return (⟨uploadId, ingestionId, true⟩, db)
      else raise "invalid_transition" "Ingestion upload is unavailable" 409
  | none =>
    let (reservationId, ledger) ← reserveQuota ids.reservation session.storageSpaceId
      session.contentLength db.spaces db.ledger
    let uploads ← insertRow "upload_session_pkey" ids.session (newUpload session) db.uploads
    let db ← insertIngestion ids.ingestion
      (buildIngestionModel data (some ids.session) none reservationId) { db with ledger, uploads }
    return (⟨ids.session, ids.ingestion, false⟩, db)

def createMultipartIntent (ids : IntentIds) (session : SessionData) (data : IngestionData)
    (db : Db) : Tx (IntentResult × Db) := do
  match ← findReplayOrConflict data db.ingestions with
  | some (ingestionId, existing) =>
    match existing.multipartSessionId with
    | none => raise "invalid_transition" "Ingestion does not reference multipart" 409
    | some multipartId =>
      if multipartId ∈ db.multiparts then return (⟨multipartId, ingestionId, true⟩, db)
      else raise "invalid_transition" "Ingestion multipart is unavailable" 409
  | none =>
    let (reservationId, ledger) ← reserveQuota ids.reservation session.storageSpaceId
      session.contentLength db.spaces db.ledger
    let multiparts ← insertRow "multipart_session_pkey" ids.session
      (newMultipart session reservationId) db.multiparts
    let db ← insertIngestion ids.ingestion
      (buildIngestionModel data none (some ids.session) reservationId)
      { db with ledger, multiparts }
    return (⟨ids.session, ids.ingestion, false⟩, db)

/-! ## Transitions -/

def lockIngestionRow (id : Uuid) (db : Db) : Tx IngestionRecord :=
  match db.ingestions.lookup id with
  | none => raise "resource_not_found" "Ingestion record not found" 404
  | some row => .ok row

def validateTransition (row : IngestionRecord) (target : IngestionStatus) : Tx Unit :=
  if target ∈ validTransitions row.status then .ok ()
  else raise "invalid_transition"
    ("Cannot transition ingestion from " ++ row.status.value ++ " to " ++ target.value) 409

def putIngestion (id : Uuid) (row : IngestionRecord) (db : Db) : Db :=
  { db with ingestions := db.ingestions.update id fun _ ↦ row }

def appendEvent (id : Uuid) (eventType : IngestionEventType) (reason : Option EventReason)
    (db : Db) : Db :=
  { db with ingestionEvents := ⟨id, eventType, reason⟩ :: db.ingestionEvents }

def recordProviderResult (id : Uuid) (result : ProviderResult) (db : Db) :
    Tx (IngestionRecord × Db) := do
  let row ← lockIngestionRow id db
  validateTransition row .verified
  let row := { row with
    providerEtag := result.providerEtag
    providerVersionId := result.providerVersionId
    actualSize := result.actualSize
    actualContentType := result.actualContentType
    checksum := result.checksum
    status := .verified }
  return (row, appendEvent id .verificationPassed none (putIngestion id row db))

/-! ## Commit -/

def newFile (row : IngestionRecord) : FileObject where
  storageSpaceId := row.storageSpaceId
  applicationId := row.applicationId
  storageNamespace := row.storageNamespace
  profileVersion := row.profileVersion
  objectKey := row.physicalKey
  providerTargetVersion := row.providerTargetVersion
  contentLength := row.actualSize.getD 0
  contentType := (truthy row.actualContentType).getD "application/octet-stream"
  etag := row.providerEtag
  checksum := row.checksum
  publicFileRef := generateFileRef row.applicationId row.relativeKey row.metadata row.checksum
  metadata := row.metadata
  activeOperationId := none
  operationPhase := none
  processingStartedAt := none
  status := .available
  deletionAttemptCount := 0
  deletionNextRetryAt := none
  deletedAt := none
  deletionPrincipalId := none
  deletionAuthorizationVersion := none
  deletionAuthorizationEvidence := none
  deletionIdempotencyKey := none
  softDeleted := false
  purgeDueAt := none
  purgeState := none
  purgeAttemptCount := 0
  purgeNextRetryAt := none
  purgedAt := none

/-- The record as the commit leaves it when the settlement goes through. -/
def IngestionRecord.committedAs (fileId : Uuid) (now : Timestamp) (row : IngestionRecord) :
    IngestionRecord :=
  { row with status := .committed, fileObjectId := some fileId, committedAt := some now }

/-- The verified size cannot be admitted: the file row stays as durable evidence,
out of sight of ordinary reads, and the reservation is given back. -/
def quarantine (now : Timestamp) (id fileId : Uuid) (row : IngestionRecord) (db : Db) : Db :=
  let db := { db with
    files := db.files.update fileId fun f ↦ { f with status := .quarantined }
    ledger := releaseQuotaReservation now row db.ledger }
  appendEvent id .reconciliationStarted (some .verifiedSizeExceedsQuota)
    (putIngestion id { row with status := .reconciliationRequired } db)

def completeSessions (now : Timestamp) (row : IngestionRecord) (db : Db) : Db :=
  { db with
    uploads := match row.uploadSessionId with
      | none => db.uploads
      | some id => db.uploads.update id fun u ↦
          { u with status := .completed, completedAt := some now }
    multiparts := match row.multipartSessionId with
      | none => db.multiparts
      | some id => db.multiparts.update id fun m ↦ { m with status := .completed } }

def commitVerifiedFile (now : Timestamp) (fileId id : Uuid) (db : Db) :
    Tx (IngestionRecord × Db) := do
  let row ← lockIngestionRow id db
  if row.status = .committed then return (row, db)
  else
    validateTransition row .committed
    let files ← insertFile fileId (newFile row) db.files
    let row := row.committedAs fileId now
    let (quotaSettled, ledger) := settleQuotaReservation now row db.ledger
    let db := { db with files, ledger }
    if quotaSettled then
      return (row, appendEvent id .committed none
        (completeSessions now row (putIngestion id row db)))
    else
      return ({ row with status := .reconciliationRequired }, quarantine now id fileId row db)

/-! ## Failure, expiry and reaping -/

def failOrQuarantine (now : Timestamp) (id : Uuid) (status : IngestionStatus)
    (reason : FailureReason) (db : Db) : Tx (IngestionRecord × Db) :=
  if status ∉ [.failed, .reconciliationRequired] then
    .error (.value "status must be FAILED or RECONCILIATION_REQUIRED")
  else do
    let row ← lockIngestionRow id db
    if row.status = status ∧ status = .reconciliationRequired then
      return (row, appendEvent id .reconciliationStarted (some (.failure reason)) db)
    else
      validateTransition row status
      let row := { row with status }
      if status = .failed then
        return (row, appendEvent id .failedPermanently (some (.failure reason))
          (putIngestion id row { db with ledger := releaseQuotaReservation now row db.ledger }))
      else
        return (row, appendEvent id .reconciliationStarted (some (.failure reason))
          (putIngestion id row db))

def expire (now : Timestamp) (id : Uuid) (db : Db) : Tx (IngestionRecord × Db) := do
  let row ← lockIngestionRow id db
  if row.status = .expired then return (row, db)
  else
    validateTransition row .expired
    let row := { row with status := .expired }
    return (row, appendEvent id .expired (some .sessionExpired)
      (putIngestion id row { db with ledger := releaseQuotaReservation now row db.ledger }))

/-- One turn of the reaper's loop.  `sub` is how the reserved bytes are taken off. -/
def reapReservation (sub : ℤ → Quota → Quota) (now : Timestamp) (id : Uuid) (db : Db) : Db :=
  match db.ledger.openReservation (some id) with
  | none => db
  | some (_, r) =>
    match db.ingestions.selectFirst fun _ row ↦ row.quotaReservationId = some id with
    | none => { db with ledger := db.ledger.close sub .quarantined now id r }
    | some (_, ingestion) =>
      if ingestion.status ∈ [.committed, .available] then
        if ingestion.actualSize.isSome then
          { db with ledger := (settleQuotaReservation now ingestion db.ledger).2 }
        else db
      else if ingestion.status ∉ [.failed, .expired, .reconciliationRequired] then db
      else { db with ledger := db.ledger.close sub .released now id r }

/-- The reaper over the reservations its locking query returned.  Which rows in
status `reserved` these are depends on the limit and on other sessions' locks. -/
def reapOrphanReservationsWith (sub : ℤ → Quota → Quota) (now : Timestamp) (picked : List Uuid)
    (db : Db) : Db :=
  picked.foldl (fun db id ↦ reapReservation sub now id db) db

def reapOrphanReservations : Timestamp → List Uuid → Db → Db :=
  reapOrphanReservationsWith Quota.subReservedClamped

end S3mp.Files
