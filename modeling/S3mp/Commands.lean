import S3mp.Applications.AppStore
import S3mp.Files.FileStore
import S3mp.Files.IngestionStore
import S3mp.Governance.QuotaStore
import S3mp.Transition.Run

/-!
# The transactions as commands

One command per committed transaction of the ingestion, file, quota and
application stores.  A service call or a background job issues commands one
after the other, so an interleaving of any number of them is a list of commands.
-/

namespace S3mp

open Files Governance Applications

inductive Cmd where
  | createUploadIntent (ids : IntentIds) (session : SessionData) (data : IngestionData)
  | createMultipartIntent (ids : IntentIds) (session : SessionData) (data : IngestionData)
  | recordProviderResult (id : Uuid) (result : ProviderResult)
  | commitVerifiedFile (now : Timestamp) (fileId id : Uuid)
  | failOrQuarantine (now : Timestamp) (id : Uuid) (status : IngestionStatus)
      (reason : FailureReason)
  | expire (now : Timestamp) (id : Uuid)
  | reapOrphanReservations (now : Timestamp) (picked : List Uuid)
  | expireUpload (id : Uuid)
  | expireMultipart (id : Uuid)
  | abortMultipart (id : Uuid)
  | setMultipartProviderId (id : Uuid) (providerUploadId : String)
  | recordMultipartPart (id : Uuid) (partNumber : ℕ) (part : MultipartPart)
  | deleteFile (now : Timestamp) (deletionId spaceId fileId : Uuid) (data : DeleteData)
  | finalizeFileTrashMigration (fileId : Uuid)
  | recordDeleteFailure (now : Timestamp) (fileId : Uuid) (maxAttempts : ℕ)
  | finalizeFileDelete (now : Timestamp) (fileId : Uuid)
  | claimRetainedFileForPurge (now : Timestamp) (fileId : Uuid)
  | finalizeRetainedFilePurge (now : Timestamp) (fileId : Uuid)
  | recordRetainedPurgeFailure (now : Timestamp) (fileId : Uuid) (maxAttempts : ℕ)
  | createPlatformQuota (fresh : Uuid) (applicationId : Option Uuid) (limitBytes : ℤ)
      (bucketCapacity : Option ℤ)
  | revokePlatformQuota (id : Uuid)
  | updatePlatformQuota (id : Uuid) (limitBytes : ℤ) (bucketCapacity : Option ℤ)
  | updateQuota (id : Uuid) (limitBytes : ℤ)
  | deleteApp (applicationId : Uuid)

/-- What the transaction returns to its caller, where the caller uses it. -/
def Cmd.Answer : Cmd → Type
  | .createUploadIntent .. | .createMultipartIntent .. => IntentResult
  | .recordProviderResult .. | .commitVerifiedFile .. | .failOrQuarantine .. | .expire .. =>
      IngestionRecord
  | .setMultipartProviderId .. => MultipartSession
  | .deleteFile .. | .claimRetainedFileForPurge .. => Option FileObject
  | .revokePlatformQuota .. | .updatePlatformQuota .. | .updateQuota .. | .deleteApp .. => Bool
  | _ => Unit

def Cmd.perform : (c : Cmd) → Db → Tx (c.Answer × Db)
  | .createUploadIntent ids session data, db => Files.createUploadIntent ids session data db
  | .createMultipartIntent ids session data, db => Files.createMultipartIntent ids session data db
  | .recordProviderResult id result, db => Files.recordProviderResult id result db
  | .commitVerifiedFile now fileId id, db => Files.commitVerifiedFile now fileId id db
  | .failOrQuarantine now id status reason, db => Files.failOrQuarantine now id status reason db
  | .expire now id, db => Files.expire now id db
  | .reapOrphanReservations now picked, db => .ok ((), Files.reapOrphanReservations now picked db)
  | .expireUpload id, db => .ok ((), Files.expireUpload id db)
  | .expireMultipart id, db => .ok ((), Files.expireMultipart id db)
  | .abortMultipart id, db => .ok ((), Files.abortMultipart id db)
  | .setMultipartProviderId id pid, db => Files.setMultipartProviderId id pid db
  | .recordMultipartPart id n part, db => .ok ((), Files.recordMultipartPart id n part db)
  | .deleteFile now deletionId spaceId fileId data, db =>
      Files.deleteFile now deletionId spaceId fileId data db
  | .finalizeFileTrashMigration fileId, db =>
      (Files.finalizeFileTrashMigration fileId db).map fun db ↦ ((), db)
  | .recordDeleteFailure now fileId n, db => .ok ((), Files.recordDeleteFailure now fileId n db)
  | .finalizeFileDelete now fileId, db => .ok ((), Files.finalizeFileDelete now fileId db)
  | .claimRetainedFileForPurge now fileId, db =>
      .ok (Files.claimRetainedFileForPurge now fileId db)
  | .finalizeRetainedFilePurge now fileId, db =>
      .ok ((), Files.finalizeRetainedFilePurge now fileId db)
  | .recordRetainedPurgeFailure now fileId n, db =>
      .ok ((), Files.recordRetainedPurgeFailure now fileId n db)
  | .createPlatformQuota fresh applicationId limit capacity, db =>
      (Governance.createPlatformQuota fresh applicationId limit capacity db).map fun db ↦ ((), db)
  | .revokePlatformQuota id, db => Governance.revokePlatformQuota id db
  | .updatePlatformQuota id limit capacity, db =>
      Governance.updatePlatformQuota id limit capacity db
  | .updateQuota id limit, db => Governance.updateQuota id limit db
  | .deleteApp applicationId, db => .ok (Applications.deleteApp applicationId db)

def exec (c : Cmd) (db : Db) : Tx Db :=
  (c.perform db).map Prod.snd

theorem exec_eq_ok {c : Cmd} {db db' : Db} :
    exec c db = .ok db' ↔ ∃ answer, c.perform db = .ok (answer, db') := by
  unfold exec
  cases h : c.perform db with
  | error e => simp [Except.map]
  | ok out =>
      obtain ⟨answer, db₁⟩ := out
      simp [Except.map]

/-! ## A small tenant -/

namespace Sample

def tenantQuota : Quota where
  storageSpaceId := none
  applicationId := none
  limitBytes := 100
  usedBytes := 0
  reservedBytes := 0
  allocationMode := .tenantTotal
  status := .active

def space : StorageSpace where
  applicationId := some 5
  active := true
  bucket := "bucket"
  rootPrefix := ""
  storageNamespace := some "ns"
  profileVersion := 1
  providerTargetVersion := 1

/-- One application with one space, under a tenant total of 100 bytes. -/
def tenant : Db where
  tenantActive := true
  applications := (∅ : Relational.Table Uuid Application).insert 5 ⟨6, .active, 1⟩
  spaces := (∅ : Relational.Table Uuid StorageSpace).insert 2 space
  ledger := ⟨(∅ : Relational.Table Uuid Quota).insert 1 tenantQuota, ∅, []⟩
  ingestions := ∅
  ingestionEvents := []
  uploads := ∅
  multiparts := ∅
  parts := ∅
  files := ∅
  deletions := ∅
  operations := ∅
  outbox := ∅
  resourceReservations := ∅

def evidence : AuthorizationEvidence where
  subjectKind := .human
  targetPrincipalId := 3
  membershipId := some 4
  applicationId := none
  actorApplicationId := none
  actorPrincipalId := none
  apiKeyId := none
  apiKeyScopes := []
  apiKeyDirectoryPrefix := none

/-- The identifiers `n`, `n + 1` and `n + 2`. -/
def ids (n : Uuid) : IntentIds := ⟨n, n + 1, n + 2⟩

def session (length : ℤ) : SessionData where
  principalId := 3
  storageSpaceId := 2
  applicationId := some 5
  storageNamespace := some "ns"
  profileVersion := 1
  objectKey := "ns/key"
  contentLength := length
  contentType := "text/plain"
  checksum := none
  metadata := none
  expiresAt := 1000

def data (key : String) : IngestionData where
  creatorPrincipalId := 3
  actingPrincipalId := 3
  membershipId := some 4
  storageSpaceId := 2
  applicationId := some 5
  storageNamespace := some "ns"
  profileVersion := 1
  bucket := "bucket"
  relativeKey := key
  physicalKey := "ns/" ++ key
  providerTargetVersion := 1
  authorizationEvidence := evidence
  authorizationVersion := 1
  idempotencyKey := none
  idempotencyFingerprint := none
  metadata := none

/-- What the provider reports of an object with a digest of the one digit `digit`. -/
def result (size : ℕ) (digit : Char) : ProviderResult where
  providerEtag := some "etag"
  providerVersionId := none
  actualSize := some size
  actualContentType := some "text/plain"
  checksum := some ("sha256:" ++ String.ofList (List.replicate 64 digit))

end Sample

end S3mp
