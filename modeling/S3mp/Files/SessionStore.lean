import S3mp.Files.IngestionStore

/-!
# Sessions without an ingestion record

The file store's own creation and completion of upload sessions, which the
service uses where no ingestion store is configured.  They hold no quota, and the
completion creates the file row from the session.
-/

namespace S3mp.Files

open Relational

def activeSpace (spaceId : Uuid) (db : Db) : Tx StorageSpace :=
  match db.spaces.lookup spaceId with
  | none => .error (.value "storage space is not active")
  | some space =>
    if space.active && db.tenantActive then .ok space
    else .error (.value "storage space is not active")

/-- The session with the defaults taken from its space. -/
def SessionData.inSpace (space : StorageSpace) (s : SessionData) : SessionData :=
  { s with
    applicationId := s.applicationId.or space.applicationId
    storageNamespace := (truthy s.storageNamespace).or space.storageNamespace }

def createUpload (id : Uuid) (providerTargetVersion : ℕ) (s : SessionData) (db : Db) : Tx Db := do
  let space ← activeSpace s.storageSpaceId db
  let uploads ← insertRow "upload_session_pkey" id
    { newUpload (s.inSpace space) with providerTargetVersion } db.uploads
  return { db with uploads }

/-- The reservation id of the session is drawn at random and names no reservation. -/
def createMultipart (id reservationId : Uuid) (providerTargetVersion : ℕ) (s : SessionData)
    (db : Db) : Tx Db := do
  let space ← activeSpace s.storageSpaceId db
  let multiparts ← insertRow "multipart_session_pkey" id
    { newMultipart (s.inSpace space) reservationId with providerTargetVersion } db.multiparts
  return { db with multiparts }

/-- What the provider reports of a completed upload. -/
structure CompletionData where
  contentLength : ℕ
  contentType : String
  etag : Option String
  checksum : Option String
  deriving DecidableEq, Repr

/-- A file row made from a session, without an ingestion record. -/
def sessionFile (storageSpaceId : Uuid) (applicationId : Option Uuid)
    (storageNamespace : Option String) (profileVersion : ℕ) (objectKey : String)
    (providerTargetVersion contentLength : ℕ) (contentType : String) (etag checksum : Option String)
    (publicFileRef : Option FileRef) (metadata : Option String) : FileObject where
  storageSpaceId := storageSpaceId
  applicationId := applicationId
  storageNamespace := storageNamespace
  profileVersion := profileVersion
  objectKey := objectKey
  providerTargetVersion := providerTargetVersion
  contentLength := contentLength
  contentType := contentType
  etag := etag
  checksum := checksum
  publicFileRef := publicFileRef
  metadata := metadata
  activeOperationId := none
  operationPhase := none
  processingStartedAt := none
  status := .available
  deletionAttemptCount := 0
  deletionNextRetryAt := none
  deletedAt := none
  deletionPrincipalId := none
  deletionAuthorizationVersion := none
  deletionAuthorizationEvidence := none
  deletionIdempotencyKey := none
  softDeleted := false
  purgeDueAt := none
  purgeState := none
  purgeAttemptCount := 0
  purgeNextRetryAt := none
  purgedAt := none

/-- The completion of an upload without an ingestion record. -/
def completeUpload (now : Timestamp) (fileId id : Uuid) (data : CompletionData) (db : Db) :
    Tx Db :=
  match db.uploads.lookup id with
  | none => .error (.value "upload not found")
  | some u => do
    let checksum := (truthy data.checksum).or u.checksum
    let files ← insertFile fileId
      (sessionFile u.storageSpaceId u.applicationId u.storageNamespace u.profileVersion u.objectKey
        u.providerTargetVersion u.declaredLength.toNat u.contentType data.etag checksum
        (generateFileRef u.applicationId u.objectKey u.metadata checksum) u.metadata) db.files
    return { db with
      files
      uploads := db.uploads.update id fun u ↦
        { u with status := .completed, completedAt := some now } }

def completeMultipart (fileId id : Uuid) (data : CompletionData) (db : Db) : Tx Db :=
  match db.multiparts.lookup id with
  | none => .error (.value "multipart not found")
  | some m => do
    let files ← insertFile fileId
      (sessionFile m.storageSpaceId m.applicationId m.storageNamespace m.profileVersion m.objectKey
        m.providerTargetVersion data.contentLength data.contentType data.etag data.checksum
        (generateFileRef m.applicationId m.objectKey m.metadata
          ((truthy data.checksum).or m.checksum)) m.metadata) db.files
    return { db with
      files
      multiparts := db.multiparts.update id fun m ↦ { m with status := .completed } }

end S3mp.Files
