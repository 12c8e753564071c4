import S3mp.Files.RetentionScheduler
import S3mp.Operations.Takeover
import S3mp.Platform.System
import S3mp.Relational.Grown

/-!
# The rows of deleted files

A file which has been deleted keeps its row, and no transaction makes it available
again: the row waits for its object to come into the trash, is kept there until the
purge is due, and ends as purged.
-/

namespace S3mp

open Relational Files Governance Applications Platform

/-- The file has been deleted or renamed away, with or without its object. -/
def Files.FileObject.Closed (f : FileObject) : Prop :=
  f.status = .deleting ∨ f.status = .deleteFailed ∨ f.status = .deleted

def Files.FileObject.migrated (deletion : FileDeletionRecord) (f : FileObject) : FileObject :=
  { f with
    objectKey := deletion.trashPhysicalKey
    status := .deleted
    purgeState := some .scheduled }

/-- What a transaction makes of the row of a deleted file. -/
inductive Retired (c : TenantCmd) (db : Db) (id : Uuid) (f : FileObject) : FileObject → Prop
  | kept (f' : FileObject) (h : f'.core = f.core) : Retired c db id f f'
  | retried (attempts : ℕ) (retryAt : Option Timestamp) (status : FileStatus)
      (hstatus : f.status = .deleting) (hnext : status = .deleting ∨ status = .deleteFailed) :
      Retired c db id f { f with
        deletionAttemptCount := attempts, deletionNextRetryAt := retryAt, status := status }
  | finalized (now : Timestamp) (hc : c = .stored (.finalizeFileDelete now id))
      (hstatus : f.status = .deleting) : Retired c db id f (deletedFile now f)
  | migrated (deletionId : Uuid) (deletion : FileDeletionRecord)
      (hc : c = .stored (.finalizeFileTrashMigration id))
      (hdeletion : deletionOf id db.deletions = some (deletionId, deletion))
      (hstatus : f.status = .deleting) (hsoft : f.softDeleted = true) :
      Retired c db id f (f.migrated deletion)
  | claimed (now : Timestamp) (hc : c = .stored (.claimRetainedFileForPurge now id))
      (hclaim : f.claimable now = true) : Retired c db id f f.claimed
  | postponed (now : Timestamp) (maxAttempts : ℕ)
      (hc : c = .stored (.recordRetainedPurgeFailure now id maxAttempts))
      (hsoft : f.softDeleted = true) (hstate : f.purgeState = some .processing) :
      Retired c db id f (f.postponed now maxAttempts)
  | purged (now : Timestamp) (hc : c = .stored (.finalizeRetainedFilePurge now id))
      (hsoft : f.softDeleted = true) (hstate : f.purgeState = some .processing) :
      Retired c db id f (purgedFile now f)

/-- The columns on which the course of a deleted file depends. -/
theorem core_course {f g : FileObject} (h : f.core = g.core) : f.status = g.status ∧
    f.softDeleted = g.softDeleted ∧ f.purgeState = g.purgeState ∧ f.purgeDueAt = g.purgeDueAt ∧
    f.objectKey = g.objectKey ∧ f.storageSpaceId = g.storageSpaceId := by
  simp only [FileObject.core, FileObject.mk.injEq] at h
  simp only [h, and_self]

theorem Retired.space {c : TenantCmd} {db : Db} {id : Uuid} {f f' : FileObject}
    (h : Retired c db id f f') : f'.storageSpaceId = f.storageSpaceId := by
  cases h with
  | kept _ hcore => exact (core_course hcore).2.2.2.2.2
  | retried | finalized | migrated | claimed | postponed | purged => rfl

section

variable {db db' : Db} {id : Uuid} {f : FileObject}

theorem Files.FileObject.Closed.not_operable (h : f.Closed) : ¬ f.operable := by
  rintro ⟨hstatus, -⟩
  rcases h with h | h | h <;> simp [h] at hstatus

theorem Files.FileObject.Closed.free (h : f.Closed) (hdb : Consistent db)
    (hf : db.files.lookup id = some f) : f.activeOperationId = none := by
  cases hactive : f.activeOperationId with
  | none => rfl
  | some o => exact absurd (hdb.operable id f hf (by rw [hactive]; rfl)) h.not_operable

/-- The row is the same afterwards, or is none which has been deleted. -/
def KeepsClosed (id : Uuid) (db db' : Db) : Prop :=
  ∀ f, db.files.lookup id = some f → f.Closed → db'.files.lookup id = some f

theorem keepsClosed_of_files (h : db'.files = db.files) : KeepsClosed id db db' :=
  fun f hf _ ↦ by rw [h, hf]

theorem keepsClosed_of_insert {k : Uuid} {g : FileObject} (hfresh : k ∉ db.files)
    (h : ∀ j, db'.files.lookup j = if j = k then some g else db.files.lookup j) :
    KeepsClosed id db db' := by
  intro f hf _
  have hne : id ≠ k := by
    rintro rfl
    exact hfresh (AList.mem_of_lookup hf)
  rw [h, if_neg hne, hf]

/-- The transactions on files which are being or have been deleted, and the first of them. -/
def Cmd.retires : Cmd → Bool
  | .deleteFile .. | .finalizeFileTrashMigration .. | .recordDeleteFailure ..
  | .finalizeFileDelete .. | .claimRetainedFileForPurge .. | .finalizeRetainedFilePurge ..
  | .recordRetainedPurgeFailure .. => true
  | _ => false

theorem commit_keepsClosed {now : Timestamp} {fileId recordId : Uuid}
    (h : Commit now fileId recordId db db') : KeepsClosed id db db' ∧ db'.deletions = db.deletions := by
  cases h with
  | replayed => exact ⟨keepsClosed_of_files rfl, rfl⟩
  | unreserved row hready | charged row hready =>
      refine ⟨keepsClosed_of_insert (g := newFile row) hready.fresh fun j ↦ ?_, rfl⟩
      exact AList.lookup_insert' j fileId (newFile row) db.files
  | refused row hready =>
      exact ⟨keepsClosed_of_insert hready.fresh fun j ↦ lookup_quarantinedDb now fileId recordId row db j,
        rfl⟩

/-- The other transactions of the stores leave deletions and the rows of deleted files alone. -/
theorem exec_keepsClosed {c : Cmd} (hc : c.retires = false) (h : exec c db = .ok db') :
    KeepsClosed id db db' ∧ db'.deletions = db.deletions := by
  have hsame : ∀ {db' : Db}, db'.files = db.files → db'.deletions = db.deletions →
      KeepsClosed id db db' ∧ db'.deletions = db.deletions :=
    fun hfiles hdeletions ↦ ⟨keepsClosed_of_files hfiles, hdeletions⟩
  obtain ⟨answer, h⟩ := exec_eq_ok.mp h
  cases c with
  | createUploadIntent ids session data =>
      rcases createUploadIntent_eq_ok h with ⟨-, rfl⟩ | ⟨-, -, -, ledger, -, rfl⟩
      · exact hsame rfl rfl
      · exact hsame rfl rfl
  | createMultipartIntent ids session data =>
      rcases createMultipartIntent_eq_ok h with ⟨-, rfl⟩ | ⟨-, -, -, ledger, -, rfl⟩
      · exact hsame rfl rfl
      · exact hsame rfl rfl
  | recordProviderResult recordId result =>
      obtain ⟨row, -, -, -, rfl⟩ := recordProviderResult_eq_ok.mp h
      exact hsame rfl rfl
  | commitVerifiedFile now fileId recordId => exact commit_keepsClosed (commitVerifiedFile_eq_ok h)
  | failOrQuarantine now recordId status reason =>
      obtain ⟨row, -, ⟨-, -, rfl⟩ | ⟨-, -, rfl⟩⟩ := failOrQuarantine_eq_ok h
      · exact hsame rfl rfl
      · exact hsame rfl rfl
  | expire now recordId =>
      obtain ⟨row, -, ⟨-, rfl⟩ | ⟨-, rfl⟩⟩ := expire_eq_ok h
      · exact hsame rfl rfl
      · exact hsame rfl rfl
  | reapOrphanReservations now picked =>
      cases h
      rw [reapOrphanReservations, reapOrphanReservationsWith_frame]
      exact hsame rfl rfl
  | expireUpload _ | expireMultipart _ | abortMultipart _ | recordMultipartPart _ _ _ =>
      cases h
      exact hsame rfl rfl
  | setMultipartProviderId sessionId pid =>
      simp only [Cmd.perform, setMultipartProviderId] at h
      split at h
      · cases h
      · cases h
        exact hsame rfl rfl
  | createPlatformQuota fresh applicationId limit capacity =>
      obtain ⟨db₁, hcreate, ⟨⟩⟩ := Except.map_eq_ok.mp h
      rcases createPlatformQuota_eq_ok hcreate with ⟨-, -, mode, rfl⟩ | ⟨quotaId, -, rfl⟩
      · exact hsame rfl rfl
      · exact hsame rfl rfl
  | revokePlatformQuota quotaId =>
      rcases revokePlatformQuota_eq_ok h with rfl | rfl
      · exact hsame rfl rfl
      · exact hsame rfl rfl
  | updatePlatformQuota quotaId limit capacity =>
      rcases updatePlatformQuota_eq_ok h with rfl | ⟨-, rfl⟩
      · exact hsame rfl rfl
      · exact hsame rfl rfl
  | updateQuota quotaId limit =>
      rcases updateQuota_eq_ok h with rfl | ⟨-, rfl⟩
      · exact hsame rfl rfl
      · exact hsame rfl rfl
  | deleteApp applicationId =>
      have heq : (deleteApp applicationId db).2 = db' := congrArg Prod.snd (Except.ok.inj h)
      rw [← heq]
      unfold deleteApp
      split
      · exact hsame rfl rfl
      split
      · exact hsame rfl rfl
      · exact hsame rfl rfl
  | deleteFile | finalizeFileTrashMigration | recordDeleteFailure | finalizeFileDelete
  | claimRetainedFileForPurge | finalizeRetainedFilePurge | recordRetainedPurgeFailure =>
      cases hc

/-! ## The transactions on deleted files -/

/-- The transactions on files whose deletion has been accepted. -/
def Cmd.pursues : Cmd → Bool
  | .deleteFile .. => false
  | c => c.retires

/-- The columns of a deletion record which say what it is about and where its object goes. -/
def Files.FileDeletionRecord.place (d : FileDeletionRecord) : Uuid × String × String :=
  (d.fileId, d.originalPhysicalKey, d.trashPhysicalKey)

/-- At most one row is written, and the records of deletions stay. -/
structure Pursued (c : TenantCmd) (db db' : Db) : Prop where
  row : db'.files = db.files ∨ ∃ k g g', db.files.lookup k = some g ∧
    db'.files = db.files.update k (fun _ ↦ g') ∧ Retired c db k g g'
  deletions : KeepsKey FileDeletionRecord.place db.deletions db'.deletions

theorem Pursued.idle (c : TenantCmd) (db : Db) : Pursued c db db :=
  ⟨Or.inl rfl, .refl _ _⟩

theorem exec_pursued {c : Cmd} (hc : c.pursues = true) (h : exec c db = .ok db') :
    Pursued (.stored c) db db' := by
  obtain ⟨answer, h⟩ := exec_eq_ok.mp h
  cases c with
  | finalizeFileTrashMigration k =>
      obtain ⟨db₁, hmigrate, ⟨⟩⟩ := Except.map_eq_ok.mp h
      rcases finalizeFileTrashMigration_cases hmigrate with rfl |
        ⟨g, g', deletionId, deletion, hg, hdeletion, hstatus, hsoft, rfl, -, rfl⟩
      · exact .idle _ _
      · exact ⟨Or.inr ⟨k, g, _, hg, rfl, .migrated deletionId deletion rfl hdeletion hstatus hsoft⟩,
          keeps_update fun _ _ ↦ rfl⟩
  | recordDeleteFailure now k n =>
      cases h
      unfold recordDeleteFailure
      split
      · exact .idle _ _
      rename_i g hg
      split
      · exact .idle _ _
      rename_i hstatus
      have hstatus := not_not.mp hstatus
      dsimp only
      rw [AList.update_eq_const hg]
      refine ⟨Or.inr ⟨k, g, _, hg, rfl, .retried _ _ _ hstatus ?_⟩, ?_⟩
      · split
        · exact Or.inr rfl
        · exact Or.inl hstatus
      · dsimp only
        split
        · exact .refl _ _
        · exact keeps_update fun d _ ↦ by split <;> rfl
  | finalizeFileDelete now k =>
      cases h
      unfold finalizeFileDelete
      split
      · exact .idle _ _
      rename_i g hg
      split
      · exact .idle _ _
      rename_i hstatus
      rw [AList.update_eq_const hg]
      exact ⟨Or.inr ⟨k, g, _, hg, rfl, .finalized now rfl (not_not.mp hstatus)⟩, .refl _ _⟩
  | claimRetainedFileForPurge now k =>
      have heq : (claimRetainedFileForPurge now k db).2 = db' :=
        congrArg Prod.snd (Except.ok.inj h)
      rw [← heq]
      cases hg : db.files.lookup k with
      | none =>
          rw [claimRetainedFileForPurge, hg]
          exact .idle _ _
      | some g =>
          rw [claimRetainedFileForPurge_eq now hg]
          split
          · rename_i hclaim
            exact ⟨Or.inr ⟨k, g, _, hg, rfl, .claimed now rfl hclaim⟩, .refl _ _⟩
          · exact .idle _ _
  | finalizeRetainedFilePurge now k =>
      cases h
      unfold finalizeRetainedFilePurge
      split
      · exact .idle _ _
      rename_i g hg
      split
      · exact .idle _ _
      rename_i hprocessing
      simp only [not_or, Bool.not_eq_false, not_not] at hprocessing
      rw [AList.update_eq_const hg]
      exact ⟨Or.inr ⟨k, g, _, hg, rfl, .purged now rfl hprocessing.1 hprocessing.2⟩, .refl _ _⟩
  | recordRetainedPurgeFailure now k n =>
      cases h
      cases hg : db.files.lookup k with
      | none =>
          rw [recordRetainedPurgeFailure, hg]
          exact .idle _ _
      | some g =>
          rw [recordRetainedPurgeFailure_eq now n hg]
          split
          · rename_i hprocessing
            exact ⟨Or.inr ⟨k, g, _, hg, rfl, .postponed now n rfl hprocessing.1 hprocessing.2⟩,
              .refl _ _⟩
          · exact .idle _ _
  | _ => cases hc

theorem Pursued.retired {c : TenantCmd} (h : Pursued c db db') (hf : db.files.lookup id = some f) :
    ∃ f', db'.files.lookup id = some f' ∧ Retired c db id f f' := by
  rcases h.row with hfiles | ⟨k, g, g', hg, hfiles, hretired⟩
  · exact ⟨f, by rw [hfiles, hf], .kept f rfl⟩
  by_cases hk : id = k
  · subst hk
    obtain rfl := Option.some.inj (hg.symm.trans hf)
    exact ⟨g', by rw [hfiles, AList.lookup_update_self, hf, Option.map_some], hretired⟩
  · exact ⟨f, by rw [hfiles, AList.lookup_update_of_ne hk, hf], .kept f rfl⟩

/-- They add no rows. -/
theorem Pursued.before {c : TenantCmd} (h : Pursued c db db') {f' : FileObject}
    (hf' : db'.files.lookup id = some f') :
    ∃ f, db.files.lookup id = some f ∧ Retired c db id f f' := by
  have hmem : id ∈ db.files := by
    rcases h.row with hfiles | ⟨k, g, g', -, hfiles, -⟩
    · exact hfiles ▸ AList.mem_of_lookup hf'
    · exact AList.mem_update.mp (hfiles ▸ AList.mem_of_lookup hf')
  obtain ⟨f, hf⟩ := AList.exists_lookup_of_mem hmem
  obtain ⟨g, hg, hretired⟩ := h.retired hf
  obtain rfl := Option.some.inj (hg.symm.trans hf')
  exact ⟨f, hf, hretired⟩

theorem exec_retired {c : Cmd} (hf : db.files.lookup id = some f) (hclosed : f.Closed)
    (h : exec c db = .ok db') :
    ∃ f', db'.files.lookup id = some f' ∧ Retired (.stored c) db id f f' := by
  cases hpursues : c.pursues with
  | true => exact (exec_pursued hpursues h).retired hf
  | false =>
      refine ⟨f, ?_, .kept f rfl⟩
      cases hretires : c.retires with
      | false => exact (exec_keepsClosed hretires h).1 f hf hclosed
      | true =>
          cases c with
          | deleteFile now deletionId spaceId fileId data =>
              obtain ⟨answer, h⟩ := exec_eq_ok.mp h
              rcases deleteFile_cases h with rfl | ⟨g, hg, havailable, -, -, -, rfl⟩
              · exact hf
              · refine (AList.lookup_update_of_ne ?_ _ _).trans hf
                rintro rfl
                obtain rfl := Option.some.inj (hg.symm.trans hf)
                rcases hclosed with h | h | h <;> simp [h] at havailable
          | _ => simp_all [Cmd.pursues, Cmd.retires]

/-! ## Every transaction -/

theorem SameCores.retired {c : TenantCmd} (h : SameCores db.files db'.files)
    (hf : db.files.lookup id = some f) :
    ∃ f', db'.files.lookup id = some f' ∧ Retired c db id f f' := by
  obtain ⟨f', hf', hcore⟩ := h.forward hf
  exact ⟨f', hf', .kept f' hcore⟩

theorem opExec_retired {c : OpCmd} (hother : ∀ c₀, c ≠ .other c₀) (hdb : Consistent db)
    (hf : db.files.lookup id = some f) (hclosed : f.Closed) (h : opExec c db = .ok db') :
    ∃ f', db'.files.lookup id = some f' ∧ Retired (.operation c) db id f f' := by
  have hfree := hclosed.free hdb hf
  cases opExec_rowsOf hother h with
  | kept _ hsame _ => exact hsame.retired hf
  | renamed ids spaceId data source hsource hfresh hsame =>
      have hne : id ≠ ids.resultFile := by
        rintro rfl
        exact hfresh (AList.mem_of_lookup hf)
      obtain ⟨f', hf', hcore⟩ := hsame.forward ((AList.lookup_insert_ne hne).trans hf)
      exact ⟨f', hf', .kept f' hcore⟩
  | settled now o status reason op hop hfiles _ =>
      refine ⟨f, ?_, .kept f rfl⟩
      rw [hfiles]
      exact settledFiles_rows hf (by simp [hfree])

variable {t t' : Tenant} {c : TenantCmd}

/-- Whatever happens to the tenant, the row of a deleted file only goes on in its course. -/
theorem tenantExec_retired (hdb : Consistent t.db) (hf : t.db.files.lookup id = some f)
    (hclosed : f.Closed) (h : tenantExec c t = .ok t') :
    ∃ f', t'.db.files.lookup id = some f' ∧ Retired c t.db id f f' := by
  have hkept : t'.db.files = t.db.files →
      ∃ f', t'.db.files.lookup id = some f' ∧ Retired c t.db id f f' :=
    fun hfiles ↦ ⟨f, hfiles ▸ hf, .kept f rfl⟩
  have hinsert : ∀ (k : Uuid) (g : FileObject), k ∉ t.db.files →
      t'.db.files = t.db.files.insert k g →
      ∃ f', t'.db.files.lookup id = some f' ∧ Retired c t.db id f f' := by
    intro k g hfresh hfiles
    have hne : id ≠ k := by
      rintro rfl
      exact hfresh (AList.mem_of_lookup hf)
    exact ⟨f, by rw [hfiles, AList.lookup_insert_ne hne, hf], .kept f rfl⟩
  cases tenantExec_step h with
  | idle _ hsame => exact hkept (by rw [hsame])
  | stored c _ hexec => exact exec_retired hf hclosed hexec
  | operated c hother _ hexec _ => exact opExec_retired hother hdb hf hclosed hexec
  | uploadCreated _ _ _ _ _ _ _ hdb | multipartCreated _ _ _ _ _ _ _ _ hdb =>
      exact hkept (by rw [hdb])
  | uploadCompleted now fileId uploadId data u _ _ _ hfresh hdb =>
      exact hinsert fileId _ hfresh (by rw [hdb])
  | multipartCompleted fileId uploadId data m _ _ _ hfresh hdb =>
      exact hinsert fileId _ hfresh (by rw [hdb])
  | appRestored _ _ _ _ _ hnext | switched _ _ _ hnext | restored _ hnext
  | deleted _ hnext => exact hkept (by rw [hnext.2]; rfl)

theorem tenantExec_consistent (hdb : Consistent t.db) (h : tenantExec c t = .ok t') :
    Consistent t'.db := by
  have hsame : ∀ db' : Db, db'.files = t.db.files → (∀ o, o ∈ db'.operations ↔ o ∈ t.db.operations) →
      Consistent db' :=
    fun db' hfiles hoperations ↦ hdb.changesRow (changesRow_of_files 0 hfiles) hoperations
  cases tenantExec_step h with
  | idle _ hsame => rwa [hsame]
  | stored c _ hexec => exact hdb.step (exec_step hexec)
  | operated c _ _ hexec _ => exact (opExec_framed hdb hexec).consistent
  | uploadCreated _ _ _ _ _ _ _ hdb | multipartCreated _ _ _ _ _ _ _ _ hdb =>
      rw [hdb]
      exact hsame _ rfl fun _ ↦ Iff.rfl
  | uploadCompleted now fileId uploadId data u _ _ hunique hfresh hnext =>
      rw [hnext]
      exact (hdb.insert hunique rfl).changesRow (changesRow_of_files 0 rfl) fun _ ↦ Iff.rfl
  | multipartCompleted fileId uploadId data m _ _ hunique hfresh hnext =>
      rw [hnext]
      exact (hdb.insert hunique rfl).changesRow (changesRow_of_files 0 rfl) fun _ ↦ Iff.rfl
  | appRestored _ _ _ _ _ hnext | switched _ _ _ hnext | restored _ hnext =>
      rw [hnext.2]
      exact hsame _ rfl fun _ ↦ Iff.rfl
  | deleted _ hnext =>
      rw [hnext.2]
      exact hsame _ rfl fun _ ↦ AList.mem_updateWhere

theorem tenantExec_buckets (h : tenantExec c t = .ok t') :
    KeepsKey StorageSpace.bucket t.db.spaces t'.db.spaces := by
  have hsame : ∀ {db' : Db}, db'.spaces = t.db.spaces →
      KeepsKey StorageSpace.bucket t.db.spaces db'.spaces := by
    intro db' hspaces
    rw [hspaces]
    exact .refl _ _
  cases tenantExec_step h with
  | idle _ hidle => exact hsame (by rw [hidle])
  | stored c _ hexec => exact hsame (step_spaces (exec_step hexec))
  | operated c _ _ _ hside => exact hsame hside.spaces
  | uploadCreated _ _ _ _ _ _ _ hdb | multipartCreated _ _ _ _ _ _ _ _ hdb
  | uploadCompleted _ _ _ _ _ _ _ _ _ hdb | multipartCompleted _ _ _ _ _ _ _ _ hdb =>
      exact hsame (by rw [hdb])
  | appRestored _ _ _ _ _ hnext | switched _ _ _ hnext | restored _ hnext =>
      exact hsame (by rw [hnext.2]; rfl)
  | deleted _ hnext =>
      rw [hnext.2]
      exact keeps_updateWhere fun _ ↦ rfl

/-! ## The records of deletions -/

/-- The deletion of a file is accepted, and recorded. -/
structure Accepts (now : Timestamp) (deletionId fileId : Uuid) (data : DeleteData) (db db' : Db) :
    Prop where
  available : ∃ f, db.files.lookup fileId = some f ∧ f.status = .available ∧ f.softDeleted = false ∧
    db'.deletions = db.deletions.insert deletionId (deletionRecord now fileId deletionId data f) ∧
    db'.files = db.files.update fileId (FileObject.retained now data)
  fresh : deletionId ∉ db.deletions

/-- The records of deletions stay, unless the transaction is a deletion which is accepted. -/
def DeletionsKept (c : TenantCmd) (db db' : Db) : Prop :=
  KeepsKey FileDeletionRecord.place db.deletions db'.deletions ∨
    ∃ now deletionId spaceId fileId data, c = .stored (.deleteFile now deletionId spaceId fileId data) ∧
      Accepts now deletionId fileId data db db'

theorem deletionsKept_of_eq (h : db'.deletions = db.deletions) : DeletionsKept c db db' :=
  Or.inl (h ▸ .refl _ _)

theorem exec_deletions {c : Cmd} (h : exec c db = .ok db') : DeletionsKept (.stored c) db db' := by
  cases hpursues : c.pursues with
  | true => exact Or.inl (exec_pursued hpursues h).deletions
  | false =>
      cases hretires : c.retires with
      | false =>
          have hkept : KeepsClosed 0 db db' ∧ _ := exec_keepsClosed hretires h
          exact deletionsKept_of_eq hkept.2
      | true =>
          cases c with
          | deleteFile now deletionId spaceId fileId data =>
              obtain ⟨answer, h⟩ := exec_eq_ok.mp h
              rcases deleteFile_cases h with rfl | ⟨f, hf, havailable, hsoft, -, hfresh, rfl⟩
              · exact deletionsKept_of_eq rfl
              · exact Or.inr ⟨now, deletionId, spaceId, fileId, data, rfl,
                  ⟨f, hf, havailable, hsoft, rfl, rfl⟩, hfresh⟩
          | _ => simp_all [Cmd.pursues, Cmd.retires]

theorem tenantExec_deletions (h : tenantExec c t = .ok t') : DeletionsKept c t.db t'.db := by
  cases tenantExec_step h with
  | idle _ hsame => exact deletionsKept_of_eq (by rw [hsame])
  | stored c _ hexec => exact exec_deletions hexec
  | operated c _ _ _ hside => exact deletionsKept_of_eq (by rw [hside.frame])
  | uploadCreated _ _ _ _ _ _ _ hdb | multipartCreated _ _ _ _ _ _ _ _ hdb
  | uploadCompleted _ _ _ _ _ _ _ _ _ hdb | multipartCompleted _ _ _ _ _ _ _ _ hdb =>
      exact deletionsKept_of_eq (by rw [hdb])
  | appRestored _ _ _ _ _ hnext | switched _ _ _ hnext | restored _ hnext
  | deleted _ hnext => exact deletionsKept_of_eq (by rw [hnext.2]; rfl)

/-! ## The places of deleted files -/

/-- A place which the row of the deleted file or a record of its deletion names. -/
inductive Places (db : Db) (fileId : Uuid) : String → Prop
  | row (f : FileObject) (hf : db.files.lookup fileId = some f)
      (hdeleted : f.softDeleted = true ∨ f.status = .deleting) : Places db fileId f.objectKey
  | record (id : Uuid) (d : FileDeletionRecord) (hd : db.deletions.lookup id = some d)
      (hfile : d.fileId = fileId) : Places db fileId d.trashPhysicalKey

/-- A job names no new places for other files. -/
theorem Places.of_pursued {cmd : Cmd} {fileId : Uuid} {key : String}
    (hc : cmd.pursues = true) (h : exec cmd db = .ok db') (hplaces : Places db' fileId key) :
    Places db fileId key := by
  have hpursued := exec_pursued hc h
  cases hplaces with
  | record id d' hd' hfile =>
      obtain ⟨d, hd, hplace⟩ := hpursued.deletions id d' hd'
      simp only [FileDeletionRecord.place, Prod.mk.injEq] at hplace
      rw [hplace.2.2]
      exact .record id d hd (hplace.1.symm.trans hfile)
  | row f' hf' hdeleted =>
      obtain ⟨f, hf, hretired⟩ := hpursued.before hf'
      cases hretired with
      | kept _ hcore =>
          obtain ⟨hstatus, hsoft, -, -, hkey, -⟩ := core_course hcore
          rw [hkey]
          exact .row f hf (by rwa [hstatus, hsoft] at hdeleted)
      | retried _ _ _ hstatus => exact .row f hf (Or.inr hstatus)
      | finalized _ _ hstatus => exact .row f hf (Or.inr hstatus)
      | claimed _ _ hclaim =>
          simp only [FileObject.claimable, FileObject.awaitsPurge, Bool.and_eq_true] at hclaim
          exact .row f hf (Or.inl hclaim.1.1.1.1)
      | postponed _ _ _ hsoft => exact .row f hf (Or.inl hsoft)
      | purged _ _ hsoft => exact .row f hf (Or.inl hsoft)
      | migrated deletionId deletion _ hdeletion =>
          obtain ⟨hlookup, hfile⟩ := AList.lookup_of_selectFirst hdeletion
          exact .record deletionId deletion hlookup (of_decide_eq_true hfile)

end

end S3mp
