import S3mp.Commands
import S3mp.Files.FileSpec
import S3mp.Files.IngestionSpec

/-!
# What a command can do

Every committed command is one of the steps below, with the tables it leaves
untouched spelled out by the record update.  Invariants of runs are proved by
cases on the step and never unfold a transaction.
-/

namespace S3mp

open Relational Files Governance Applications

/-- What a deletion or purge transaction writes into a file row while its charge stays. -/
inductive FileEdit : FileObject → FileObject → Prop
  | retained (now : Timestamp) (data : DeleteData) (f : FileObject)
      (hstatus : f.status = .available) (hsoft : f.softDeleted = false)
      (hfree : f.activeOperationId = none) : FileEdit f (f.retained now data)
  | migrated (f : FileObject) (key : String) (hstatus : f.status = .deleting)
      (hsoft : f.softDeleted = true) :
      FileEdit f { f with objectKey := key, status := .deleted, purgeState := some .scheduled }
  | retried (f : FileObject) (attempts : ℕ) (retryAt : Option Timestamp) (status : FileStatus)
      (hstatus : f.status = .deleting) (hnext : status = .deleting ∨ status = .deleteFailed) :
      FileEdit f { f with
        deletionAttemptCount := attempts, deletionNextRetryAt := retryAt, status := status }
  | claimed (f : FileObject) (hsoft : f.softDeleted = true)
      (hstate : f.purgeState = some .scheduled ∨ f.purgeState = some .retryWait) :
      FileEdit f { f with
        purgeState := some .processing
        purgeAttemptCount := f.purgeAttemptCount + 1
        purgeNextRetryAt := none }
  | postponed (f : FileObject) (retryAt : Option Timestamp) (hsoft : f.softDeleted = true)
      (hstate : f.purgeState = some .processing) :
      FileEdit f { f with purgeState := some .retryWait, purgeNextRetryAt := retryAt }

def deletedFile (now : Timestamp) (f : FileObject) : FileObject :=
  { f with status := .deleted, deletedAt := some now }

def purgedFile (now : Timestamp) (f : FileObject) : FileObject :=
  { f with
    softDeleted := false
    purgeState := some .purged
    purgedAt := some now
    purgeDueAt := none
    purgeNextRetryAt := none }

def releasedDb (reason : AdjustmentReason) (fileId : Uuid) (f f' : FileObject) (db : Db) : Db :=
  { db with
    ledger := releaseUsage reason fileId f db.ledger
    files := db.files.update fileId fun _ ↦ f' }

inductive Step (db : Db) : Cmd → Db → Prop
  | idle (c : Cmd) : Step db c db
  | uploadCreated (ids : IntentIds) (session : SessionData) (data : IngestionData) (ledger : Ledger)
      (hsession : ids.session ∉ db.uploads) (hrecord : ids.ingestion ∉ db.ingestions)
      (hheld : Held db.ledger ids.reservation session.contentLength ids.reservation ledger) :
      Step db (.createUploadIntent ids session data) (withIntent ids
        (buildIngestionModel data (some ids.session) none ids.reservation) ledger
        (db.uploads.insert ids.session (newUpload session)) db.multiparts db)
  | multipartCreated (ids : IntentIds) (session : SessionData) (data : IngestionData)
      (ledger : Ledger) (hsession : ids.session ∉ db.multiparts)
      (hrecord : ids.ingestion ∉ db.ingestions)
      (hheld : Held db.ledger ids.reservation session.contentLength ids.reservation ledger) :
      Step db (.createMultipartIntent ids session data) (withIntent ids
        (buildIngestionModel data none (some ids.session) ids.reservation) ledger
        db.uploads (db.multiparts.insert ids.session (newMultipart session ids.reservation)) db)
  | verified (id : Uuid) (result : ProviderResult) (row : IngestionRecord)
      (hrow : db.ingestions.lookup id = some row)
      (hvalid : .verified ∈ validTransitions row.status) :
      Step db (.recordProviderResult id result)
        (appendEvent id .verificationPassed none (putIngestion id (row.verifiedAs result) db))
  | commit (now : Timestamp) (fileId id : Uuid) (db' : Db) (h : Commit now fileId id db db') :
      Step db (.commitVerifiedFile now fileId id) db'
  | failed (now : Timestamp) (id : Uuid) (reason : FailureReason) (row : IngestionRecord)
      (hrow : db.ingestions.lookup id = some row)
      (hvalid : .failed ∈ validTransitions row.status) :
      Step db (.failOrQuarantine now id .failed reason)
        (appendEvent id .failedPermanently (some (.failure reason)) (endedDb now id row .failed db))
  | requeued (now : Timestamp) (id : Uuid) (reason : FailureReason) (row : IngestionRecord)
      (hrow : db.ingestions.lookup id = some row)
      (hvalid : row.status = .reconciliationRequired ∨
        .reconciliationRequired ∈ validTransitions row.status) :
      Step db (.failOrQuarantine now id .reconciliationRequired reason)
        (appendEvent id .reconciliationStarted (some (.failure reason))
          (putIngestion id { row with status := .reconciliationRequired } db))
  | expired (now : Timestamp) (id : Uuid) (row : IngestionRecord)
      (hrow : db.ingestions.lookup id = some row)
      (hvalid : .expired ∈ validTransitions row.status) :
      Step db (.expire now id)
        (appendEvent id .expired (some .sessionExpired) (endedDb now id row .expired db))
  | reaped (now : Timestamp) (picked : List Uuid) :
      Step db (.reapOrphanReservations now picked) (reapOrphanReservations now picked db)
  | sessions (c : Cmd) (uploads : Table Uuid UploadSession)
      (multiparts : Table Uuid MultipartSession) (parts : Table (Uuid × ℕ) MultipartPart) :
      Step db c { db with uploads, multiparts, parts }
  | edited (c : Cmd) (fileId : Uuid) (f f' : FileObject)
      (deletions : Table Uuid FileDeletionRecord) (hf : db.files.lookup fileId = some f)
      (hedit : FileEdit f f')
      (hkey : f'.objectKey = f.objectKey ∨ f'.conflictsIn fileId db.files = none) :
      Step db c { db with deletions, files := db.files.update fileId fun _ ↦ f' }
  | deleted (now : Timestamp) (fileId : Uuid) (f : FileObject)
      (hf : db.files.lookup fileId = some f) (hstatus : f.status = .deleting) :
      Step db (.finalizeFileDelete now fileId)
        (releasedDb .fileDeleted fileId f (deletedFile now f) db)
  | purged (now : Timestamp) (fileId : Uuid) (f : FileObject)
      (hf : db.files.lookup fileId = some f) (hsoft : f.softDeleted = true)
      (hstate : f.purgeState = some .processing) :
      Step db (.finalizeRetainedFilePurge now fileId)
        (releasedDb .fileRetentionPurged fileId f (purgedFile now f) db)
  | quotaCreated (fresh : Uuid) (applicationId : Option Uuid) (limit : ℤ) (capacity : Option ℤ)
      (mode : QuotaAllocationMode) (hfresh : fresh ∉ db.ledger.quotas) (hlimit : 0 ≤ limit) :
      Step db (.createPlatformQuota fresh applicationId limit capacity)
        (setQuotas (db.ledger.quotas.insert fresh (newQuota applicationId limit mode)) db)
  | quotaOverwritten (fresh id : Uuid) (applicationId : Option Uuid) (limit : ℤ)
      (capacity : Option ℤ)
      (htarget : createPlatformQuotaTarget applicationId limit capacity db = .ok (some id)) :
      Step db (.createPlatformQuota fresh applicationId limit capacity)
        (setQuotas (db.ledger.quotas.update id (relimit applicationId limit)) db)
  | quotaRevoked (id : Uuid) :
      Step db (.revokePlatformQuota id) (setQuotas (db.ledger.quotas.update id fun q ↦
        { q with status := .revoked, allocationMode := .applicationReserved }) db)
  | platformLimitSet (id : Uuid) (limit : ℤ) (capacity : Option ℤ)
      (hallowed : updatePlatformQuotaAllowed id limit capacity db = .ok true) :
      Step db (.updatePlatformQuota id limit capacity) (setLimit id limit db)
  | limitSet (id : Uuid) (limit : ℤ) (hallowed : updateQuotaAllowed id limit db = .ok true) :
      Step db (.updateQuota id limit) (setLimit id limit db)
  | appDeleted (applicationId : Uuid) :
      Step db (.deleteApp applicationId) (deleteApp applicationId db).2

section Files

variable {db db' : Db} {now : Timestamp} {fileId : Uuid}

theorem deleteFile_step {c : Cmd} {deletionId spaceId : Uuid} {data : DeleteData}
    {out : Option FileObject}
    (h : deleteFile now deletionId spaceId fileId data db = .ok (out, db')) : Step db c db' := by
  rcases deleteFile_cases h with rfl | ⟨f, hf, havailable, hsoft, hfree, -, rfl⟩
  · exact .idle c
  · rw [AList.update_eq_const hf]
    exact .edited c fileId f _ _ hf (.retained now data f havailable hsoft hfree) (Or.inl rfl)

theorem finalizeFileTrashMigration_step {c : Cmd}
    (h : finalizeFileTrashMigration fileId db = .ok db') : Step db c db' := by
  rcases finalizeFileTrashMigration_cases h with rfl |
    ⟨f, f', deletionId, deletion, hf, -, hdeleting, hsoft, rfl, hunique, rfl⟩
  · exact .idle c
  · exact .edited c fileId f _ _ hf (.migrated f _ hdeleting hsoft) (Or.inr hunique)

theorem recordDeleteFailure_step {c : Cmd} (n : ℕ) :
    Step db c (recordDeleteFailure now fileId n db) := by
  unfold recordDeleteFailure
  split
  · exact .idle c
  rename_i f hf
  split
  · exact .idle c
  rename_i hdeleting
  have hdeleting : f.status = .deleting := not_not.mp hdeleting
  dsimp only
  rw [AList.update_eq_const hf]
  refine .edited c fileId f _ _ hf (.retried f _ _ _ hdeleting ?_) (Or.inl rfl)
  split
  · exact Or.inr rfl
  · exact Or.inl hdeleting

theorem finalizeFileDelete_step :
    Step db (.finalizeFileDelete now fileId) (finalizeFileDelete now fileId db) := by
  unfold finalizeFileDelete
  split
  · exact .idle _
  rename_i f hf
  split
  · exact .idle _
  rename_i hdeleting
  rw [AList.update_eq_const hf]
  exact .deleted now fileId f hf (not_not.mp hdeleting)

theorem claimRetainedFileForPurge_step {c : Cmd} :
    Step db c (claimRetainedFileForPurge now fileId db).2 := by
  unfold claimRetainedFileForPurge
  split
  · exact .idle c
  rename_i f hf
  split
  · exact .idle c
  rename_i hclaim
  rw [not_or, not_or, not_or, Bool.not_eq_false, not_not] at hclaim
  exact .edited c fileId f _ db.deletions hf (.claimed f hclaim.1 (by simpa using hclaim.2.2.1))
    (Or.inl rfl)

theorem finalizeRetainedFilePurge_step :
    Step db (.finalizeRetainedFilePurge now fileId) (finalizeRetainedFilePurge now fileId db) := by
  unfold finalizeRetainedFilePurge
  split
  · exact .idle _
  rename_i f hf
  split
  · exact .idle _
  rename_i hprocessing
  simp only [not_or, Bool.not_eq_false, not_not] at hprocessing
  rw [AList.update_eq_const hf]
  exact .purged now fileId f hf hprocessing.1 hprocessing.2

theorem recordRetainedPurgeFailure_step {c : Cmd} (n : ℕ) :
    Step db c (recordRetainedPurgeFailure now fileId n db) := by
  unfold recordRetainedPurgeFailure
  split
  · exact .idle c
  rename_i f hf
  split
  · exact .idle c
  rename_i hprocessing
  simp only [not_or, Bool.not_eq_false, not_not] at hprocessing
  dsimp only
  rw [AList.update_eq_const hf]
  exact .edited c fileId f _ db.deletions hf (.postponed f _ hprocessing.1 hprocessing.2)
    (Or.inl rfl)

end Files

theorem step_of_map {db db' : Db} {c : Cmd} {x : Tx Db} {answer : Unit}
    (h : (x.map fun db ↦ ((), db)) = .ok (answer, db'))
    (hx : ∀ db₁, x = .ok db₁ → Step db c db₁) : Step db c db' := by
  cases hstep : x with
  | error e =>
      rw [hstep] at h
      cases h
  | ok db₁ =>
      rw [hstep] at h
      cases h
      exact hx db' hstep

theorem exec_step {db db' : Db} {c : Cmd} (h : exec c db = .ok db') : Step db c db' := by
  obtain ⟨answer, h⟩ := exec_eq_ok.mp h
  cases c with
  | createUploadIntent ids session data =>
      rcases createUploadIntent_eq_ok h with ⟨-, rfl⟩ | ⟨-, hsession, hfresh, ledger, hheld, rfl⟩
      · exact .idle _
      · exact .uploadCreated ids session data ledger hsession hfresh hheld
  | createMultipartIntent ids session data =>
      rcases createMultipartIntent_eq_ok h with
        ⟨-, rfl⟩ | ⟨-, hsession, hfresh, ledger, hheld, rfl⟩
      · exact .idle _
      · exact .multipartCreated ids session data ledger hsession hfresh hheld
  | recordProviderResult id result =>
      obtain ⟨row, hrow, hvalid, rfl, rfl⟩ := recordProviderResult_eq_ok.mp h
      exact .verified id result row hrow hvalid
  | commitVerifiedFile now fileId id => exact .commit now fileId id db' (commitVerifiedFile_eq_ok h)
  | failOrQuarantine now id status reason =>
      obtain ⟨row, hrow, ⟨rfl, hvalid, rfl⟩ | ⟨rfl, hvalid, rfl⟩⟩ := failOrQuarantine_eq_ok h
      · exact .failed now id reason row hrow hvalid
      · exact .requeued now id reason row hrow hvalid
  | expire now id =>
      obtain ⟨row, hrow, ⟨-, rfl⟩ | ⟨hvalid, rfl⟩⟩ := expire_eq_ok h
      · exact .idle _
      · exact .expired now id row hrow hvalid
  | reapOrphanReservations now picked =>
      cases h
      exact .reaped now picked
  | expireUpload id =>
      cases h
      exact .sessions _ _ db.multiparts db.parts
  | expireMultipart id | abortMultipart id =>
      cases h
      exact .sessions _ db.uploads _ db.parts
  | setMultipartProviderId id pid =>
      simp only [Cmd.perform, setMultipartProviderId] at h
      split at h
      · cases h
      · cases h
        exact .sessions _ db.uploads _ db.parts
  | recordMultipartPart id n part =>
      cases h
      exact .sessions _ db.uploads db.multiparts _
  | deleteFile now deletionId spaceId fileId data => exact deleteFile_step h
  | finalizeFileTrashMigration fileId =>
      exact step_of_map h fun db₁ ↦ finalizeFileTrashMigration_step
  | recordDeleteFailure now fileId n =>
      cases h
      exact recordDeleteFailure_step n
  | finalizeFileDelete now fileId =>
      cases h
      exact finalizeFileDelete_step
  | claimRetainedFileForPurge now fileId =>
      have heq : (claimRetainedFileForPurge now fileId db).2 = db' :=
        congrArg Prod.snd (Except.ok.inj h)
      rw [← heq]
      exact claimRetainedFileForPurge_step
  | finalizeRetainedFilePurge now fileId =>
      cases h
      exact finalizeRetainedFilePurge_step
  | recordRetainedPurgeFailure now fileId n =>
      cases h
      exact recordRetainedPurgeFailure_step n
  | createPlatformQuota fresh applicationId limit capacity =>
      refine step_of_map h fun db₁ hstep ↦ ?_
      rcases createPlatformQuota_eq_ok hstep with ⟨htarget, hfresh, mode, rfl⟩ | ⟨id, htarget, rfl⟩
      · exact .quotaCreated fresh applicationId limit capacity mode hfresh
          (createPlatformQuotaTarget_nonneg htarget)
      · exact .quotaOverwritten fresh id applicationId limit capacity htarget
  | revokePlatformQuota id =>
      rcases revokePlatformQuota_eq_ok h with rfl | rfl
      · exact .idle _
      · exact .quotaRevoked id
  | updatePlatformQuota id limit capacity =>
      rcases updatePlatformQuota_eq_ok h with rfl | ⟨hallowed, rfl⟩
      · exact .idle _
      · exact .platformLimitSet id limit capacity hallowed
  | updateQuota id limit =>
      rcases updateQuota_eq_ok h with rfl | ⟨hallowed, rfl⟩
      · exact .idle _
      · exact .limitSet id limit hallowed
  | deleteApp applicationId =>
      have heq : (deleteApp applicationId db).2 = db' := congrArg Prod.snd (Except.ok.inj h)
      rw [← heq]
      exact .appDeleted applicationId

end S3mp
