import S3mp.Files.FileService

/-!
# Direct and multipart uploads

The calls of the file service on upload sessions.  A session and its ingestion
record are written by separate transactions.
-/

namespace S3mp.Files

open Authorization Identity Storage Transition

structure UploadBody where
  objectKey : String
  contentLength : ℤ
  contentType : String
  checksum : Option String
  metadata : Option String
  expiresAt : Timestamp
  deriving DecidableEq, Repr

structure DirectUpload where
  upload : FileService.Public UploadSession
  url : Option String

/-- What the completion of an upload returns. -/
inductive Completed where
  | ingestion (row : IngestionRecord) (file : Option (FileService.Public FileObject))
  | session (file : FileService.Public FileObject)

namespace FileService

variable (fingerprint : FingerprintPayload → String) (tenantId : Uuid) (ctx : PrincipalContext)

/-! ## Intents -/

def requireFutureExpiry (expiresAt : Timestamp) : FileService Unit := do
  let now ← read .now
  if expiresAt ≤ now then fail "validation_failed" "Upload expiry must be in the future" 422

def UploadBody.semantics (body : UploadBody) : Semantics :=
  .upload body.contentLength body.contentType.toLower body.checksum body.metadata body.expiresAt

def sessionData (command : AuthorizedFileCommand) (space : StorageSpace) (body : UploadBody) :
    SessionData where
  principalId := ctx.actorPrincipalId.getD ctx.principalId
  storageSpaceId := command.storageSpaceId
  applicationId := space.applicationId
  storageNamespace := space.storageNamespace
  profileVersion := space.profileVersion
  objectKey := command.physicalKey
  contentLength := body.contentLength
  contentType := body.contentType
  checksum := body.checksum
  metadata := body.metadata
  expiresAt := body.expiresAt

def ingestionData (command : AuthorizedFileCommand) (idempotencyKey : Option String)
    (space : StorageSpace) (metadata : Option String) : IngestionData where
  creatorPrincipalId := command.actingPrincipalId
  actingPrincipalId := command.actingPrincipalId
  membershipId := command.authorizationEvidence.membershipId
  storageSpaceId := command.storageSpaceId
  applicationId := space.applicationId
  storageNamespace := space.storageNamespace
  profileVersion := space.profileVersion
  bucket := command.bucket
  relativeKey := command.relativeKey
  physicalKey := command.physicalKey
  providerTargetVersion := command.providerTargetVersion
  authorizationEvidence := command.authorizationEvidence
  authorizationVersion := command.authorizationVersion
  idempotencyKey := idempotencyKey
  idempotencyFingerprint := command.idempotencyFingerprint
  metadata := metadata

/-- The digits of a declared checksum, as the provider is given them. -/
def declaredDigest (checksum : Option String) : Option String :=
  checksum.map fun c ↦ (removePrefix "sha256:" c).getD c

/-- `int(total_seconds())`, at most a quarter of an hour. -/
def urlTtl (expiresAt now : Timestamp) : ℤ :=
  min 900 ((expiresAt - now).tdiv 1000000)

def publicDirectUpload (space : StorageSpace) (id : Uuid) (u : UploadSession) :
    FileService DirectUpload :=
  if u.status ≠ .pending then do
    return ⟨← publicUpload tenantId u.storageSpaceId space id u, none⟩
  else do
    let ttl := urlTtl u.expiresAt (← read .now)
    if ttl < 30 then fail "resource_expired" "Upload session has expired" 410
    let url ← call (.presignPut ⟨space.bucket, u.objectKey, 1⟩ u.contentType ttl.toNat
      (declaredDigest u.checksum))
    return ⟨← publicUpload tenantId u.storageSpaceId space id u, some url⟩

def createDirectUpload (spaceId : Uuid) (body : UploadBody) (idempotencyKey : Option String) :
    FileService DirectUpload := do
  requireFutureExpiry body.expiresAt
  let command ← inputCommand fingerprint tenantId ctx spaceId body.objectKey "files.write"
    idempotencyKey (UploadBody.semantics body)
  let space ← resolveSpace command.storageSpaceId
  let intent ← call (.createUploadIntent (sessionData ctx command space body)
    (ingestionData command idempotencyKey space body.metadata))
  tryCatch
    (do publicDirectUpload tenantId (← resolveSpace command.storageSpaceId) intent.id intent.session)
    fun raised ↦ do
      if intent.session.status = .pending then
        call (.expireUpload intent.id)
        let _ ← call (.failOrQuarantine intent.ingestionId .reconciliationRequired
          .directPresignFailed)
      match raised with
      | .api error => throw (.api error)
      | .other _ => fail "storage_unavailable" "Direct upload preparation failed" 503

/-- The parts of the preparation after the provider has opened the upload; the id is written a
second time if the first attempt raises, and the call fails all the same. -/
def persistProviderId (id : Uuid) (providerUploadId : String) :
    FileService (Option MultipartSession) :=
  tryCatch (call (.setMultipartProviderId id providerUploadId)) fun raised ↦ do
    let _ ← tryCatch (call (.setMultipartProviderId id providerUploadId)) fun _ ↦
      throw (.other "multipart provider id could not be persisted")
    throw raised

/-- The provider's upload is given up, and the session with it. -/
def abandonMultipart (command : AuthorizedFileCommand) (intent : MultipartIntent)
    (providerUploadId : Option String) : FileService (Public MultipartSession) := do
  match providerUploadId with
  | none => pure ()
  | some uploadId =>
    tryCatch (call (.abortMultipartUpload command.providerTarget uploadId)) fun _ ↦ do
      let _ ← call (.failOrQuarantine intent.ingestionId .reconciliationRequired
        .multipartProviderAbortFailed)
      fail "storage_unavailable" "Multipart provider cleanup requires reconciliation" 503
  call (.abortMultipart intent.id)
  let _ ← call (.failOrQuarantine intent.ingestionId .reconciliationRequired
    .multipartProviderCreateFailed)
  fail "storage_unavailable" "Multipart creation requires reconciliation" 503

def createMultipartUpload (spaceId : Uuid) (body : UploadBody) (idempotencyKey : Option String) :
    FileService (Public MultipartSession) := do
  requireFutureExpiry body.expiresAt
  let command ← inputCommand fingerprint tenantId ctx spaceId body.objectKey "files.write"
    idempotencyKey (UploadBody.semantics body)
  let space ← resolveSpace command.storageSpaceId
  let intent ← call (.createMultipartIntent (sessionData ctx command space body)
    (ingestionData command idempotencyKey space body.metadata))
  if intent.replayed then
    publicMultipart tenantId command.storageSpaceId (← resolveSpace command.storageSpaceId)
      intent.id intent.session
  else
    match ← tryCatch (do return Except.ok (← call (.createMultipartUpload command.providerTarget
        body.contentType (declaredDigest body.checksum)))) fun raised ↦ return .error raised with
    | .error _ => abandonMultipart command intent none
    | .ok providerUploadId =>
      tryCatch
        (do
          match ← persistProviderId intent.id providerUploadId with
          | none => throw (.other "multipart not found")
          | some created =>
            publicMultipart tenantId command.storageSpaceId
              (← resolveSpace command.storageSpaceId) intent.id created)
        fun _ ↦ abandonMultipart command intent (some providerUploadId)

/-! ## Expiry of a session -/

/-- The session is looked up first and its record is expired in another transaction. -/
def expireIngestion (session : SessionRef) : FileService Unit := do
  match ← call (.getForSession session) with
  | none => pure ()
  | some (ingestionId, _) =>
    let _ ← call (.expire ingestionId)
    return ()

def ensureUploadActive (id : Uuid) (u : UploadSession) : FileService Unit := do
  let now ← read .now
  if u.expiresAt ≤ now ∧ u.status = .pending then
    call (.expireUpload id)
    expireIngestion (.upload id)
    fail "resource_expired" "Upload session has expired" 410
  else pure ()

/-- The provider gives up the parts it holds; any failure of it is a 503. -/
def abortLapsed (m : MultipartSession) (providerUploadId : String) : FileService Unit :=
  tryCatch
    (do
      let space ← resolveSpace m.storageSpaceId
      if m.providerTargetVersion ≠ space.providerTargetVersion then
        fail "resource_not_found" "Provider target requires migration" 404
      else
        let _ ← lift (relativeKeyOf tenantId m.storageSpaceId space m.objectKey)
        call (.abortMultipartUpload ⟨space.bucket, m.objectKey, 1⟩ providerUploadId))
    fun _ ↦ fail "storage_unavailable" "Expired multipart cleanup requires retry" 503

def ensureMultipartActive (id : Uuid) (m : MultipartSession) : FileService Unit := do
  let now ← read .now
  if m.expiresAt ≤ now ∧ m.status = .pending then
    match truthy m.providerUploadId with
    | none => pure ()
    | some providerUploadId => abortLapsed tenantId m providerUploadId
    call (.expireMultipart id)
    expireIngestion (.multipart id)
    fail "resource_expired" "Multipart upload has expired" 410
  else pure ()

/-! ## Verification and commit -/

def verificationFailed {α : Type} (message : String) : FileService α :=
  fail "upload_verification_failed" message 409

/-- The hash of the object's bytes, which the adapter of the object storage computes. -/
def serverChecksum (target : ProviderTarget) : FileService String := do
  let value ← call (.hashSha256 target)
  match providerChecksumToHex (some value) with
  | none => verificationFailed "Server checksum is invalid"
  | some normalized => return "sha256:" ++ normalized

/-- The expected checksum, if there is one, is the digest of the bytes. -/
def checkChecksum (target : ProviderTarget) (expected : Option String) (message : String) :
    FileService String := do
  let actual ← serverChecksum target
  if (truthy expected).any fun checksum ↦
      providerChecksumToHex (some checksum) ≠ providerChecksumToHex (some actual) then
    verificationFailed message
  else return actual

/-- What a direct upload left at the provider is what its session declares. -/
def verifyDirectUpload (target : ProviderTarget) (u : UploadSession) (checksum : Option String) :
    FileService (ObjectMetadata × String) := do
  match ← call (.head target) with
  | none => verificationFailed "Object not found in storage"
  | some obj =>
    if (obj.contentLength : ℤ) ≠ u.declaredLength then
      verificationFailed "Object size mismatch"
    else if (truthy obj.contentType).any (·.toLower ≠ u.contentType.toLower) then
      verificationFailed "Object content type mismatch"
    else
      let actual ← checkChecksum target ((truthy checksum).or u.checksum) "Object checksum mismatch"
      return (obj, actual)

/-- How the handlers of a verification end the record. -/
structure VerificationReasons where
  rejected : FailureReason
  unavailable : FailureReason
  unavailableMessage : String

/-- An `ApiError` fails the record, anything else leaves it to the reconciliation. -/
def verifying {α : Type} (ingestion : Option (Uuid × IngestionRecord)) (r : VerificationReasons)
    (x : FileService α) : FileService α :=
  tryCatch x fun raised ↦ do
    match raised with
    | .api error =>
      match ingestion with
      | none => pure ()
      | some (ingestionId, _) =>
        let _ ← call (.failOrQuarantine ingestionId .failed r.rejected)
      throw (.api error)
    | .other _ =>
      match ingestion with
      | none => pure ()
      | some (ingestionId, _) =>
        let _ ← call (.failOrQuarantine ingestionId .reconciliationRequired r.unavailable)
      fail "storage_unavailable" r.unavailableMessage 503

def providerResult (metadata : ObjectMetadata) (checksum : String) : ProviderResult where
  providerEtag := metadata.etag
  providerVersionId := metadata.versionId
  actualSize := some metadata.contentLength
  actualContentType := metadata.contentType
  checksum := some checksum

/-- The commit of a verified record, with the file as a client sees it. -/
def commitVerified (spaceId ingestionId : Uuid) : FileService Completed := do
  let (row, file) ← call (.commitVerifiedFile ingestionId)
  match file with
  | none => return .ingestion row none
  | some file =>
    let space ← resolveSpace spaceId
    let file ← publicFile tenantId spaceId space file
    return .ingestion row (some file)

/-- The service checks the subject of the record again before it commits.  A failure of the
commit or of what follows it leaves the record to the reconciliation. -/
def commitIngestion (spaceId ingestionId : Uuid) (row : IngestionRecord)
    (metadata : ObjectMetadata) (checksum : String) (reason : FailureReason) (message : String) :
    FileService Completed := do
  if !(← ofReconciler (revalidateIngestion ⟨tenantId, ingestionId, row⟩)) then
    let _ ← call (.failOrQuarantine ingestionId .failed .commitAuthorizationRevoked)
    fail "permission_denied" "Authorization is no longer valid" 403
  else
    let _ ← call (.recordProviderResult ingestionId (providerResult metadata checksum))
    tryCatch (commitVerified tenantId spaceId ingestionId) fun _ ↦ do
      let _ ← call (.failOrQuarantine ingestionId .reconciliationRequired reason)
      fail "storage_unavailable" message 503

/-! ## Direct uploads -/

/-- The session of this id, if the caller owns it. -/
def ownUpload (id : Uuid) : FileService UploadSession := do
  match ← call (.getUpload id) with
  | none => fail "resource_not_found" "Upload not found" 404
  | some u =>
    checkOwnership u.principalId ctx
    return u

def getDirectUpload (id : Uuid) : FileService DirectUpload := do
  let u ← ownUpload ctx id
  let _ ← commandForRecord fingerprint tenantId ctx u.stored "files.write" none .none
  ensureUploadActive id u
  let space ← resolveSpace u.storageSpaceId
  publicDirectUpload tenantId space id u

def completeDirectUpload (id : Uuid) (checksum idempotencyKey : Option String) :
    FileService Completed := do
  let u ← ownUpload ctx id
  let command ← commandForRecord fingerprint tenantId ctx u.stored "files.write" idempotencyKey
    (.completion checksum)
  ensureUploadActive id u
  if u.status ≠ .pending then verificationFailed "Upload not pending"
  else
    let ingestion ← call (.getForSession (.upload id))
    let (metadata, actual) ← verifying ingestion
      ⟨.providerVerificationFailed, .providerUnavailable, "Object storage verification failed"⟩
      (verifyDirectUpload command.providerTarget u checksum)
    match ingestion with
    | some (ingestionId, row) =>
      commitIngestion tenantId command.storageSpaceId ingestionId row metadata actual
        .databaseCommitFailed "Upload requires reconciliation"
    | none =>
      let file ← call (.completeUpload id
        ⟨u.declaredLength.toNat, u.contentType, metadata.etag, some actual⟩)
      let space ← resolveSpace command.storageSpaceId
      let file ← publicFile tenantId u.storageSpaceId space file
      return .session file

/-! ## Multipart uploads -/

def ownMultipart (id : Uuid) : FileService MultipartSession := do
  match ← call (.getMultipart id) with
  | none => fail "resource_not_found" "Multipart upload not found" 404
  | some m =>
    checkOwnership m.principalId ctx
    return m

def getMultipartUpload (id : Uuid) : FileService (Public MultipartSession) := do
  let m ← ownMultipart ctx id
  let _ ← commandForRecord fingerprint tenantId ctx m.stored "files.write" none .none
  ensureMultipartActive tenantId id m
  let space ← resolveSpace m.storageSpaceId
  publicMultipart tenantId m.storageSpaceId space id m

def abortMultipartUpload (id : Uuid) (idempotencyKey : Option String) : FileService Unit := do
  let m ← ownMultipart ctx id
  let _ ← commandForRecord fingerprint tenantId ctx m.stored "files.write" idempotencyKey .none
  ensureMultipartActive tenantId id m
  match truthy m.providerUploadId with
  | none => pure ()
  | some providerUploadId =>
    tryCatch
      (do
        let command ← commandForRecord fingerprint tenantId ctx m.stored "files.write" none .none
        call (.abortMultipartUpload command.providerTarget providerUploadId))
      fun _ ↦ fail "storage_unavailable" "Multipart abort requires retry" 503
  call (.abortMultipart id)

def listMultipartParts (id : Uuid) : FileService (List (ℕ × MultipartPart)) := do
  let m ← ownMultipart ctx id
  let _ ← commandForRecord fingerprint tenantId ctx m.stored "files.write" none .none
  ensureMultipartActive tenantId id m
  call (.listMultipartParts id)

/-- A part as a client sends it; the digest is that of its bytes. -/
structure PartUpload where
  partNumber : ℕ
  content : List UInt8
  contentLength : ℤ
  contentSha256 : String
  deriving DecidableEq, Repr

def PartUpload.sameContent (p : PartUpload) (part : MultipartPart) : Bool :=
  part.contentLength = p.contentLength && part.contentSha256 = some p.contentSha256

/-- The stored part this request repeats; the same key with another content is a conflict. -/
def replayedPart (p : PartUpload) (idempotencyKey : String) (stored : List (ℕ × MultipartPart)) :
    Except Raised (Option MultipartPart) :=
  let same := (stored.filter fun (number, part) ↦
    number = p.partNumber && part.idempotencyKey = some idempotencyKey).map Prod.snd
  match (stored.filter fun (number, _) ↦ number = p.partNumber).head? with
  | some (_, part) =>
    if part.idempotencyKey = some idempotencyKey ∧ !p.sameContent part then
      apiError "idempotency_key_reused"
        "Idempotency-Key was reused with different part content" 409
    else .ok (same.find? p.sameContent)
  | none => .ok none

def sendPart (id : Uuid) (m : MultipartSession) (p : PartUpload) (idempotencyKey : Option String) :
    FileService MultipartPart :=
  match truthy m.providerUploadId with
  | none => fail "storage_capability_unsupported" "Multipart provider session is unavailable" 422
  | some providerUploadId => do
    let command ← commandForRecord fingerprint tenantId ctx m.stored "files.write" none .none
    let etag ← call (.uploadPart command.providerTarget providerUploadId p.partNumber p.content)
    match truthy etag with
    | none => fail "storage_unavailable" "Multipart provider returned no ETag" 503
    | some etag => call (.recordMultipartPart id p.partNumber
        ⟨etag, p.contentLength, idempotencyKey, some p.contentSha256⟩)

def uploadMultipartPart (id : Uuid) (p : PartUpload) (idempotencyKey : Option String) :
    FileService MultipartPart := do
  let m ← ownMultipart ctx id
  let _ ← commandForRecord fingerprint tenantId ctx m.stored "files.write" idempotencyKey
    (.part p.partNumber p.contentLength)
  ensureMultipartActive tenantId id m
  if p.contentLength ≠ p.content.length ∨ p.contentLength ≤ 0 then
    fail "multipart_parts_invalid" "Part length mismatch" 409
  else if p.partNumber < 1 ∨ 10000 < p.partNumber then
    fail "multipart_parts_invalid" "Part number is invalid" 422
  else
    match truthy idempotencyKey with
    | none => sendPart fingerprint tenantId ctx id m p idempotencyKey
    | some key =>
      let stored ← call (.listMultipartParts id)
      match ← lift (replayedPart p key stored) with
      | some part => return part
      | none => sendPart fingerprint tenantId ctx id m p idempotencyKey

/-- The requested parts are among the stored ones and have the declared length together. -/
def checkParts (m : MultipartSession) (parts : List (ℕ × String))
    (stored : List (ℕ × MultipartPart)) : Except Raised Unit :=
  if parts.map Prod.fst ≠ (parts.map Prod.fst).dedup.insertionSort (· ≤ ·) then
    apiError "multipart_parts_invalid" "Multipart parts must be unique and ordered" 409
  else if parts.any fun (number, etag) ↦
      (stored.lookup number).all (·.etag ≠ etag) then
    apiError "multipart_parts_invalid" "Multipart part does not match stored metadata" 409
  else if (parts.map fun (number, _) ↦ (stored.lookup number).elim 0 (·.contentLength)).sum ≠
      m.declaredLength then
    apiError "multipart_parts_invalid" "Multipart size does not match declaration" 409
  else .ok ()

/-- The provider holds the requested parts. -/
def checkInventory (parts inventory : List (ℕ × String)) : Except Raised Unit :=
  if parts.any fun (number, etag) ↦ inventory.reverse.lookup number ≠ some etag then
    apiError "multipart_parts_invalid" "Multipart provider part metadata mismatch" 409
  else .ok ()

/-- The provider assembles the object, which is then compared with the declaration. -/
def assembleMultipart (target : ProviderTarget) (m : MultipartSession) (providerUploadId : String)
    (parts : List (ℕ × String)) : FileService (ObjectMetadata × String) := do
  let metadata ← call (.completeMultipartUpload target providerUploadId parts)
  if (metadata.contentLength : ℤ) ≠ m.declaredLength then
    verificationFailed "Completed multipart object metadata mismatch"
  else
    let actual ← checkChecksum target m.checksum "Completed multipart object checksum mismatch"
    return (metadata, actual)

def completeMultipartUpload (id : Uuid) (parts : List (ℕ × String))
    (idempotencyKey : Option String) : FileService Completed := do
  let m ← ownMultipart ctx id
  let command ← commandForRecord fingerprint tenantId ctx m.stored "files.write" idempotencyKey
    (.parts parts)
  ensureMultipartActive tenantId id m
  match truthy m.providerUploadId with
  | none => fail "storage_capability_unsupported" "Multipart provider session is unavailable" 422
  | some providerUploadId =>
    let stored ← call (.listMultipartParts id)
    lift (checkParts m parts stored)
    let inventory ← call (.listParts command.providerTarget providerUploadId)
    lift (checkInventory parts inventory)
    let ingestion ← call (.getForSession (.multipart id))
    let (metadata, actual) ← verifying ingestion
      ⟨.multipartVerificationFailed, .multipartProviderFailed,
        "Multipart completion requires reconciliation"⟩
      (assembleMultipart command.providerTarget m providerUploadId parts)
    match ingestion with
    | some (ingestionId, row) =>
      commitIngestion tenantId command.storageSpaceId ingestionId row metadata actual
        .multipartDatabaseCommitFailed "Multipart completion requires reconciliation"
    | none =>
      let file ← call (.completeMultipart id
        ⟨m.declaredLength.toNat, metadata.contentType.getD m.contentType, metadata.etag,
          some actual⟩)
      let space ← resolveSpace command.storageSpaceId
      let file ← publicFile tenantId m.storageSpaceId space file
      return .session file

end FileService

end S3mp.Files
