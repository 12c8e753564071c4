import S3mp.Common.Clock
import S3mp.Common.Uuids
import S3mp.Database

/-!
# The file store: sessions, deletion and purge

Transactions of `SqlAlchemyFileStore` on upload and multipart sessions, and the
deletion pipeline: a delete retains the row, the trash migration moves the
object, and the purge releases the quota once the object is gone.
-/

namespace S3mp.Files

open Relational Governance

/-! ## Sessions -/

def expireUpload (id : Uuid) (db : Db) : Db :=
  { db with uploads := db.uploads.update id fun u ↦
      if u.status = .pending then { u with status := .expired } else u }

def expireMultipart (id : Uuid) (db : Db) : Db :=
  { db with multiparts := db.multiparts.update id fun m ↦
      if m.status = .pending then { m with status := .expired } else m }

/-- Unlike the expiry this does not look at the current status, and like it the
ingestion record and its reservation stay as they are. -/
def abortMultipart (id : Uuid) (db : Db) : Db :=
  { db with multiparts := db.multiparts.update id fun m ↦ { m with status := .aborted } }

def setMultipartProviderId (id : Uuid) (providerUploadId : String) (db : Db) :
    Tx (MultipartSession × Db) :=
  match db.multiparts.lookup id with
  | none => .error (.value "multipart not found")
  | some m =>
    let m := { m with providerUploadId := some providerUploadId }
    .ok (m, { db with multiparts := db.multiparts.update id fun _ ↦ m })

def recordMultipartPart (id : Uuid) (partNumber : ℕ) (part : MultipartPart) (db : Db) : Db :=
  { db with parts := db.parts.insert (id, partNumber) part }

/-! ## Deletion -/

structure DeleteData where
  actorPrincipalId : Option Uuid
  authorizationVersion : Option ℕ
  authorizationEvidence : Option AuthorizationEvidence
  idempotencyKey : Option String
  ifMatch : Option String
  isFileRef : Bool
  originalRelativeKey : Option String
  purgeDueAt : Timestamp
  deriving DecidableEq, Repr

def requireIfMatch (etag : Option String) : Tx Unit :=
  match truthy etag with
  | none => raise "etag_required" "If-Match header is required for this operation" 428
  | some _ => .ok ()

def checkEtag (current expected : String) : Tx Unit :=
  if current ≠ expected then
    raise "etag_mismatch" "The resource has been modified; fetch the latest version and retry" 412
  else .ok ()

def validateDeleteEtag (currentEtag suppliedEtag : Option String) (isFileRef : Bool) : Tx Unit :=
  if isFileRef then .ok ()
  else
    match suppliedEtag with
    | none => requireIfMatch none
    | some supplied =>
      if currentEtag ≠ some supplied then checkEtag (currentEtag.getD "") supplied else .ok ()

/-- `rsplit("/", 1)`: the text before the last slash, when there is one, and after it. -/
def rsplitSlash (key : String) : Option String × String :=
  let tail := (key.toList.reverse.takeWhile (· ≠ '/')).reverse
  let rest := (key.toList.reverse.dropWhile (· ≠ '/')).reverse
  if rest = [] then (none, key) else (some (String.ofList rest.dropLast), String.ofList tail)

def trashKey (originalKey : String) (deletedAt : Timestamp) (deletionId : Uuid) : String :=
  let (parent, basename) := rsplitSlash originalKey
  parent.getD "" ++ "/__trash__/" ++ stamp deletedAt ++ "-" ++ uuidText deletionId ++ "/" ++
    basename

/-- The row as an accepted delete leaves it. -/
def FileObject.retained (now : Timestamp) (data : DeleteData) (f : FileObject) : FileObject :=
  { f with
    status := .deleting
    softDeleted := true
    deletedAt := some now
    purgeDueAt := some data.purgeDueAt
    purgeState := some .pendingMigration
    purgeAttemptCount := 0
    purgeNextRetryAt := none
    deletionPrincipalId := data.actorPrincipalId
    deletionAuthorizationVersion := data.authorizationVersion
    deletionAuthorizationEvidence := data.authorizationEvidence
    deletionIdempotencyKey := data.idempotencyKey }

def deletionRecord (now : Timestamp) (fileId deletionId : Uuid) (data : DeleteData)
    (f : FileObject) : FileDeletionRecord where
  fileId := fileId
  originalRelativeKey := (truthy data.originalRelativeKey).getD f.objectKey
  originalPhysicalKey := f.objectKey
  trashPhysicalKey := trashKey f.objectKey now deletionId
  contentLength := f.contentLength
  purgeDueAt := data.purgeDueAt
  status := .requested
  attemptCount := 0
  nextRetryAt := none
  idempotencyKey := (truthy data.idempotencyKey).getD (uuidText deletionId)

def deleteFile (now : Timestamp) (deletionId spaceId fileId : Uuid) (data : DeleteData) (db : Db) :
    Tx (Option FileObject × Db) :=
  match db.files.lookup fileId with
  | none => .ok (none, db)
  | some f =>
    if f.storageSpaceId ≠ spaceId then .ok (none, db)
    else if f.softDeleted ∧ f.deletionIdempotencyKey = data.idempotencyKey then .ok (some f, db)
    else if f.status ≠ .available ∨ f.softDeleted then .ok (none, db)
    else if f.activeOperationId.isSome then
      raise "file_operation_in_progress" "File is occupied by an asynchronous operation" 409
    else do
      validateDeleteEtag f.etag data.ifMatch data.isFileRef
      let deletion := deletionRecord now fileId deletionId data f
      if db.deletions.anyRow fun _ d ↦ d.idempotencyKey = deletion.idempotencyKey then
        integrityError "file_deletion_record_idempotency_key"
      else
        let deletions ← insertRow "file_deletion_record_pkey" deletionId deletion db.deletions
        return (some (f.retained now data),
          { db with deletions, files := db.files.update fileId (FileObject.retained now data) })

def deletionOf (fileId : Uuid) (deletions : Table Uuid FileDeletionRecord) :
    Option (Uuid × FileDeletionRecord) :=
  deletions.selectFirst fun _ d ↦ d.fileId = fileId

def finalizeFileTrashMigration (fileId : Uuid) (db : Db) : Tx Db :=
  match db.files.lookup fileId, deletionOf fileId db.deletions with
  | some f, some (deletionId, deletion) =>
    if f.status = .deleting ∧ f.softDeleted then
      let f := { f with
        objectKey := deletion.trashPhysicalKey
        status := .deleted
        purgeState := some .scheduled }
      match f.conflictsIn fileId db.files with
      | some constraint => integrityError constraint
      | none => .ok { db with
          files := db.files.update fileId fun _ ↦ f
          deletions := db.deletions.update deletionId fun d ↦ { d with status := .retained } }
    else .ok db
  | _, _ => .ok db

def recordDeleteFailure (now : Timestamp) (fileId : Uuid) (maxAttempts : ℕ) (db : Db) : Db :=
  match db.files.lookup fileId with
  | none => db
  | some f =>
    if f.status ≠ .deleting then db
    else
      let attempts := f.deletionAttemptCount + 1
      let exhausted := attempts ≥ maxAttempts
      let retryAt := if exhausted then none else some (now + seconds (min 300 (2 ^ attempts)))
      { db with
        files := db.files.update fileId fun f ↦ { f with
          deletionAttemptCount := attempts
          deletionNextRetryAt := retryAt
          status := if exhausted then .deleteFailed else f.status }
        deletions := match deletionOf fileId db.deletions with
          | none => db.deletions
          | some (deletionId, _) => db.deletions.update deletionId fun d ↦
              if exhausted then { d with status := .failed }
              else { d with status := .retrying, attemptCount := attempts, nextRetryAt := retryAt } }

/-! ## Release of usage -/

/-- The quotas from which the usage of a removed file is taken: those of its
application, or else of its storage space, and every tenant total. -/
def releasesFrom (f : FileObject) (q : Quota) : Bool :=
  (match f.applicationId with
    | some applicationId => q.applicationId = some applicationId
    | none => q.storageSpaceId = some f.storageSpaceId) || q.isTenantTotal

def releaseUsageFrom (reason : AdjustmentReason) (fileId : Uuid) (contentLength : ℕ) (l : Ledger)
    (quotaId : Uuid) : Ledger :=
  if l.adjusted reason fileId quotaId then l
  else
    match l.quotas.lookup quotaId with
    | none => l
    | some q =>
      let released := min (max q.usedBytes 0) contentLength
      { l with
        quotas := l.quotas.update quotaId (Quota.subUsed released)
        adjustments := ⟨quotaId, fileId, -released, reason⟩ :: l.adjustments }

def releaseUsage (reason : AdjustmentReason) (fileId : Uuid) (f : FileObject) (l : Ledger) :
    Ledger :=
  ((l.quotas.select fun _ q ↦ releasesFrom f q).map Prod.fst).foldl
    (releaseUsageFrom reason fileId f.contentLength) l

def finalizeFileDelete (now : Timestamp) (fileId : Uuid) (db : Db) : Db :=
  match db.files.lookup fileId with
  | none => db
  | some f =>
    if f.status ≠ .deleting then db
    else { db with
      ledger := releaseUsage .fileDeleted fileId f db.ledger
      files := db.files.update fileId fun f ↦
        { f with status := .deleted, deletedAt := some now } }

/-! ## Purge -/

def claimRetainedFileForPurge (now : Timestamp) (fileId : Uuid) (db : Db) :
    Option FileObject × Db :=
  match db.files.lookup fileId with
  | none => (none, db)
  | some f =>
    if f.softDeleted = false ∨ f.purgeDueAt.all (now < ·) ∨
        f.purgeState ∉ [some .scheduled, some .retryWait] ∨
        f.purgeNextRetryAt.any (now < ·) then (none, db)
    else
      let f := { f with
        purgeState := some .processing
        purgeAttemptCount := f.purgeAttemptCount + 1
        purgeNextRetryAt := none }
      (some f, { db with files := db.files.update fileId fun _ ↦ f })

def finalizeRetainedFilePurge (now : Timestamp) (fileId : Uuid) (db : Db) : Db :=
  match db.files.lookup fileId with
  | none => db
  | some f =>
    if f.softDeleted = false ∨ f.purgeState ≠ some .processing then db
    else { db with
      ledger := releaseUsage .fileRetentionPurged fileId f db.ledger
      files := db.files.update fileId fun f ↦ { f with
        softDeleted := false
        purgeState := some .purged
        purgedAt := some now
        purgeDueAt := none
        purgeNextRetryAt := none } }

def recordRetainedPurgeFailure (now : Timestamp) (fileId : Uuid) (maxAttempts : ℕ) (db : Db) :
    Db :=
  match db.files.lookup fileId with
  | none => db
  | some f =>
    if f.softDeleted = false ∨ f.purgeState ≠ some .processing then db
    else
      let exponent := min maxAttempts (max 1 f.purgeAttemptCount)
      { db with files := db.files.update fileId fun f ↦ { f with
          purgeState := some .retryWait
          purgeNextRetryAt := some (now + seconds (min 3600 (2 ^ exponent))) } }

end S3mp.Files
