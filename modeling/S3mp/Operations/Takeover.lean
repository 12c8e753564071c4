import S3mp.Files.TombstonePurge
import S3mp.Ledger.Charge
import S3mp.Operations.RowCores

/-!
# Where the bytes of a file row are

A row which comes into the trash gets a deletion record.  A rename which succeeds
leaves its source row behind as deleted, without any such record, and its result row
takes over the bytes.
-/

namespace S3mp

open Relational Files Governance Applications Transition Relation

/-! ## Trash is on record -/

section Trash

variable {db db' : Db}

/-- A deletion of the file has been accepted. -/
def Files.FileObject.Trashed (f : FileObject) : Prop :=
  f.softDeleted = true ∨ f.purgeState.isSome

/-- Rows which come into the trash get a deletion record, and no record is lost. -/
structure RecordsTrash (db db' : Db) : Prop where
  recorded : ∀ j, recordedDeletion j db → recordedDeletion j db'
  trashed : ∀ j f', db'.files.lookup j = some f' → f'.Trashed →
    recordedDeletion j db' ∨ ∃ f, db.files.lookup j = some f ∧ f.Trashed

theorem recordedDeletion_iff {j : Uuid} : recordedDeletion j db = true ↔
    ∃ id d, db.deletions.lookup id = some d ∧ d.fileId = j := by
  unfold recordedDeletion
  simp only [AList.anyRow_eq_true, decide_eq_true_eq]

theorem recordsTrash_of_same (hfiles : db'.files = db.files) (hdeletions : db'.deletions = db.deletions) :
    RecordsTrash db db' := by
  refine ⟨fun j h ↦ ?_, fun j f hf htrash ↦ Or.inr ⟨f, hfiles ▸ hf, htrash⟩⟩
  rwa [recordedDeletion, hdeletions]

/-- A row which was in the trash before is written. -/
theorem recordsTrash_of_update {k : Uuid} {f f' : FileObject} (hf : db.files.lookup k = some f)
    (hfiles : db'.files = db.files.update k fun _ ↦ f') (htrash : f'.Trashed → f.Trashed)
    (hrecorded : ∀ j, recordedDeletion j db → recordedDeletion j db') : RecordsTrash db db' := by
  refine ⟨hrecorded, fun j g hg htrashed ↦ Or.inr ?_⟩
  rw [hfiles, AList.lookup_update] at hg
  split at hg
  · rename_i hj
    subst hj
    rw [hf, Option.map_some] at hg
    obtain rfl := Option.some.inj hg
    exact ⟨f, hf, htrash htrashed⟩
  · exact ⟨g, hg, htrashed⟩

/-- A new row is not in the trash. -/
theorem recordsTrash_of_insert {k : Uuid} {f : FileObject} (hnot : ¬ f.Trashed)
    (hfiles : ∀ j, db'.files.lookup j = if j = k then some f else db.files.lookup j)
    (hdeletions : db'.deletions = db.deletions) : RecordsTrash db db' := by
  refine ⟨fun j h ↦ by rwa [recordedDeletion, hdeletions], fun j g hg htrashed ↦ Or.inr ?_⟩
  rw [hfiles] at hg
  split at hg
  · obtain rfl := Option.some.inj hg
    exact absurd htrashed hnot
  · exact ⟨g, hg, htrashed⟩

theorem recordedDeletion_update {k j : Uuid} {g : FileDeletionRecord → FileDeletionRecord}
    (hg : ∀ d, (g d).fileId = d.fileId) (h : recordedDeletion j db) :
    (db.deletions.update k g).anyRow fun _ d ↦ d.fileId = j := by
  obtain ⟨id, d, hd, rfl⟩ := recordedDeletion_iff.mp h
  refine AList.anyRow_eq_true.mpr ⟨id, if id = k then g d else d, ?_, ?_⟩
  · rw [AList.lookup_update]
    split
    · rename_i hid
      rw [← hid, hd, Option.map_some]
    · exact hd
  · split
    · exact decide_eq_true (hg d)
    · exact decide_eq_true rfl

theorem deleteFile_recordsTrash {now : Timestamp} {deletionId spaceId fileId : Uuid}
    {data : DeleteData} {out : Option FileObject}
    (h : deleteFile now deletionId spaceId fileId data db = .ok (out, db')) : RecordsTrash db db' := by
  rcases deleteFile_cases h with rfl | ⟨f, hf, -, -, -, hfresh, rfl⟩
  · exact recordsTrash_of_same rfl rfl
  refine ⟨fun j hrecorded ↦ ?_, fun j g hg htrashed ↦ ?_⟩
  · obtain ⟨id, d, hd, rfl⟩ := recordedDeletion_iff.mp hrecorded
    have hid : id ≠ deletionId := by
      rintro rfl
      exact hfresh (AList.mem_of_lookup hd)
    exact recordedDeletion_iff.mpr ⟨id, d, (AList.lookup_insert_ne hid).trans hd, rfl⟩
  · by_cases hj : j = fileId
    · subst hj
      exact Or.inl (recordedDeletion_iff.mpr ⟨deletionId, _, AList.lookup_insert _, rfl⟩)
    · exact Or.inr ⟨g, (AList.lookup_update_of_ne hj _ _).symm.trans hg, htrashed⟩

theorem recordDeleteFailure_recordsTrash {now : Timestamp} {fileId : Uuid} {n : ℕ} :
    RecordsTrash db (recordDeleteFailure now fileId n db) := by
  unfold recordDeleteFailure
  split
  · exact recordsTrash_of_same rfl rfl
  rename_i f hf
  split
  · exact recordsTrash_of_same rfl rfl
  dsimp only
  rw [AList.update_eq_const hf]
  refine recordsTrash_of_update hf rfl id fun j hrecorded ↦ ?_
  cases hdeletion : deletionOf fileId db.deletions with
  | none => exact hrecorded
  | some row =>
      obtain ⟨deletionId, deletion⟩ := row
      unfold recordedDeletion
      dsimp only
      refine recordedDeletion_update (fun d ↦ ?_) hrecorded
      split
      · rfl
      · rfl

theorem lookup_quarantinedDb (now : Timestamp) (fileId id : Uuid) (row : IngestionRecord) (db : Db)
    (j : Uuid) : (quarantinedDb now fileId id row db).files.lookup j =
      if j = fileId then some { newFile row with status := .quarantined }
      else db.files.lookup j := by
  refine (AList.lookup_update _ _ _ _).trans ?_
  split
  · rename_i hj
    subst hj
    exact congrArg _ (AList.lookup_insert _)
  · rename_i hj
    exact AList.lookup_insert_ne hj

theorem exec_recordsTrash {c : Cmd} (h : exec c db = .ok db') : RecordsTrash db db' := by
  obtain ⟨answer, h⟩ := exec_eq_ok.mp h
  cases c with
  | createUploadIntent ids session data =>
      rcases createUploadIntent_eq_ok h with ⟨-, rfl⟩ | ⟨-, -, -, ledger, -, rfl⟩
      · exact recordsTrash_of_same rfl rfl
      · exact recordsTrash_of_same rfl rfl
  | createMultipartIntent ids session data =>
      rcases createMultipartIntent_eq_ok h with ⟨-, rfl⟩ | ⟨-, -, -, ledger, -, rfl⟩
      · exact recordsTrash_of_same rfl rfl
      · exact recordsTrash_of_same rfl rfl
  | recordProviderResult id result =>
      obtain ⟨row, -, -, -, rfl⟩ := recordProviderResult_eq_ok.mp h
      exact recordsTrash_of_same rfl rfl
  | commitVerifiedFile now fileId id =>
      cases commitVerifiedFile_eq_ok h with
      | replayed => exact recordsTrash_of_same rfl rfl
      | unreserved row | charged row =>
          refine recordsTrash_of_insert (k := fileId) (f := newFile row) ?_
            (fun j ↦ AList.lookup_insert' j fileId (newFile row) db.files) rfl
          simp [FileObject.Trashed, newFile]
      | refused row =>
          refine recordsTrash_of_insert (k := fileId)
            (f := { newFile row with status := .quarantined }) ?_
            (fun j ↦ lookup_quarantinedDb now fileId id row db j) rfl
          simp [FileObject.Trashed, newFile]
  | failOrQuarantine now id status reason =>
      obtain ⟨row, -, ⟨-, -, rfl⟩ | ⟨-, -, rfl⟩⟩ := failOrQuarantine_eq_ok h
      · exact recordsTrash_of_same rfl rfl
      · exact recordsTrash_of_same rfl rfl
  | expire now id =>
      obtain ⟨row, -, ⟨-, rfl⟩ | ⟨-, rfl⟩⟩ := expire_eq_ok h
      · exact recordsTrash_of_same rfl rfl
      · exact recordsTrash_of_same rfl rfl
  | reapOrphanReservations now picked =>
      cases h
      rw [reapOrphanReservations, reapOrphanReservationsWith_frame]
      exact recordsTrash_of_same rfl rfl
  | expireUpload id | expireMultipart id | abortMultipart id | recordMultipartPart id n part =>
      cases h
      exact recordsTrash_of_same rfl rfl
  | setMultipartProviderId id pid =>
      simp only [Cmd.perform, setMultipartProviderId] at h
      split at h
      · cases h
      · cases h
        exact recordsTrash_of_same rfl rfl
  | deleteFile now deletionId spaceId fileId data => exact deleteFile_recordsTrash h
  | finalizeFileTrashMigration fileId =>
      obtain ⟨db₁, hmigrate, ⟨⟩⟩ := Except.map_eq_ok.mp h
      rcases finalizeFileTrashMigration_cases hmigrate with rfl |
        ⟨f, f', deletionId, deletion, hf, -, -, hsoft, rfl, -, rfl⟩
      · exact recordsTrash_of_same rfl rfl
      · exact recordsTrash_of_update hf rfl (fun _ ↦ Or.inl hsoft) fun _ ↦
          recordedDeletion_update fun _ ↦ rfl
  | recordDeleteFailure now fileId n =>
      cases h
      exact recordDeleteFailure_recordsTrash
  | finalizeFileDelete now fileId =>
      cases h
      unfold finalizeFileDelete
      split
      · exact recordsTrash_of_same rfl rfl
      rename_i f hf
      split
      · exact recordsTrash_of_same rfl rfl
      · rw [AList.update_eq_const hf]
        exact recordsTrash_of_update hf rfl id fun _ ↦ id
  | claimRetainedFileForPurge now fileId =>
      have heq : (claimRetainedFileForPurge now fileId db).2 = db' :=
        congrArg Prod.snd (Except.ok.inj h)
      rw [← heq]
      unfold claimRetainedFileForPurge
      split
      · exact recordsTrash_of_same rfl rfl
      rename_i f hf
      split
      · exact recordsTrash_of_same rfl rfl
      · rename_i hclaim
        rw [not_or, Bool.not_eq_false] at hclaim
        exact recordsTrash_of_update hf rfl (fun _ ↦ Or.inl hclaim.1) fun _ ↦ id
  | finalizeRetainedFilePurge now fileId =>
      cases h
      unfold finalizeRetainedFilePurge
      split
      · exact recordsTrash_of_same rfl rfl
      rename_i f hf
      split
      · exact recordsTrash_of_same rfl rfl
      · rename_i hprocessing
        rw [not_or, Bool.not_eq_false] at hprocessing
        rw [AList.update_eq_const hf]
        exact recordsTrash_of_update hf rfl (fun _ ↦ Or.inl hprocessing.1) fun _ ↦ id
  | recordRetainedPurgeFailure now fileId n =>
      cases h
      unfold recordRetainedPurgeFailure
      split
      · exact recordsTrash_of_same rfl rfl
      rename_i f hf
      split
      · exact recordsTrash_of_same rfl rfl
      · rename_i hprocessing
        rw [not_or, Bool.not_eq_false] at hprocessing
        dsimp only
        rw [AList.update_eq_const hf]
        exact recordsTrash_of_update hf rfl (fun _ ↦ Or.inl hprocessing.1) fun _ ↦ id
  | createPlatformQuota fresh applicationId limit capacity =>
      obtain ⟨db₁, hcreate, ⟨⟩⟩ := Except.map_eq_ok.mp h
      rcases createPlatformQuota_eq_ok hcreate with ⟨-, -, mode, rfl⟩ | ⟨id, -, rfl⟩
      · exact recordsTrash_of_same rfl rfl
      · exact recordsTrash_of_same rfl rfl
  | revokePlatformQuota id =>
      rcases revokePlatformQuota_eq_ok h with rfl | rfl
      · exact recordsTrash_of_same rfl rfl
      · exact recordsTrash_of_same rfl rfl
  | updatePlatformQuota id limit capacity =>
      rcases updatePlatformQuota_eq_ok h with rfl | ⟨-, rfl⟩
      · exact recordsTrash_of_same rfl rfl
      · exact recordsTrash_of_same rfl rfl
  | updateQuota id limit =>
      rcases updateQuota_eq_ok h with rfl | ⟨-, rfl⟩
      · exact recordsTrash_of_same rfl rfl
      · exact recordsTrash_of_same rfl rfl
  | deleteApp applicationId =>
      have heq : (deleteApp applicationId db).2 = db' := congrArg Prod.snd (Except.ok.inj h)
      rw [← heq]
      unfold deleteApp
      split
      · exact recordsTrash_of_same rfl rfl
      split
      · exact recordsTrash_of_same rfl rfl
      · exact recordsTrash_of_same rfl rfl

end Trash

/-! ## Where charges go -/

/-- A rename has the row `j` as its source and the row `d` as its result. -/
def RenamedTo (db : Db) (j d : Uuid) : Prop :=
  ∃ o op, db.operations.lookup o = some op ∧ op.operationType = .rename ∧
    op.sourceFileId = some j ∧ op.resultFileId = some d

/-- Renames lead from the row to one which has its content length and is not itself the
source or the unfinished result of a rename. -/
def TakenOver (db : Db) (j : Uuid) (n : ℕ) : Prop :=
  ∃ d g, TransGen (RenamedTo db) j d ∧ db.files.lookup d = some g ∧ g.Alive ∧ g.contentLength = n

/-- The combinations of the three status columns which occur once rows are renamed. -/
inductive Course : FileStatus → Bool → Option PurgeState → Prop
  | ordinary (status : FileStatus) (soft : Bool) (state : Option PurgeState)
      (h : Lifecycle status soft state) : Course status soft state
  | unfinished : Course .renaming false none
  | failed : Course .renameFailed false none
  | replaced : Course .deleted false none

def Files.FileObject.InCourse (f : FileObject) : Prop :=
  Course f.status f.softDeleted f.purgeState

/-- The row was the source of a rename. -/
def Files.FileObject.Replaced (f : FileObject) : Prop :=
  f.status = .deleted ∧ f.softDeleted = false ∧ f.purgeState = none

/-- The rows a rename occupies: its result awaits the copy and has the length of its source. -/
structure RenameLinked (db : Db) (o : Uuid) (op : FileOperation) : Prop where
  result : ∀ j f, op.resultFileId = some j → db.files.lookup j = some f →
    f.activeOperationId = some o → f.status = .renaming
  pair : ∀ i j f g, op.sourceFileId = some i → op.resultFileId = some j →
    db.files.lookup i = some f → db.files.lookup j = some g → f.activeOperationId = some o →
      g.activeOperationId = some o → i ≠ j ∧ g.contentLength = f.contentLength

/-- What every run keeps true of the rows and where their bytes have gone. -/
structure Traced (db : Db) : Prop where
  consistent : Consistent db
  course : ∀ j f, db.files.lookup j = some f → f.InCourse
  recorded : ∀ j f, db.files.lookup j = some f → f.Trashed → recordedDeletion j db
  linked : ∀ o op, db.operations.lookup o = some op → op.operationType = .rename →
    RenameLinked db o op
  takenOver : ∀ j f, db.files.lookup j = some f → f.Replaced → TakenOver db j f.contentLength

section Course

variable {f g : FileObject}

theorem core_standing (h : f.core = g.core) : f.status = g.status ∧ f.softDeleted = g.softDeleted ∧
    f.purgeState = g.purgeState ∧ f.contentLength = g.contentLength := by
  simp only [FileObject.core, FileObject.mk.injEq] at h
  simp only [h, and_self]

theorem alive_congr (h : f.core = g.core) : f.Alive ↔ g.Alive := by
  obtain ⟨hstatus, hsoft, hstate, -⟩ := core_standing h
  rw [FileObject.Alive, FileObject.Alive, hstatus, hsoft, hstate]

theorem inCourse_congr (h : f.core = g.core) : f.InCourse ↔ g.InCourse := by
  obtain ⟨hstatus, hsoft, hstate, -⟩ := core_standing h
  rw [FileObject.InCourse, FileObject.InCourse, hstatus, hsoft, hstate]

theorem replaced_congr (h : f.core = g.core) : f.Replaced ↔ g.Replaced := by
  obtain ⟨hstatus, hsoft, hstate, -⟩ := core_standing h
  rw [FileObject.Replaced, FileObject.Replaced, hstatus, hsoft, hstate]

theorem trashed_congr (h : f.core = g.core) : f.Trashed ↔ g.Trashed := by
  obtain ⟨-, hsoft, hstate, -⟩ := core_standing h
  rw [FileObject.Trashed, FileObject.Trashed, hsoft, hstate]

theorem inCourse_of_alive (h : f.Alive) : f.InCourse :=
  .ordinary _ _ _ h

theorem not_replaced_of_alive (h : f.Alive) : ¬ f.Replaced := by
  rintro ⟨hstatus, hsoft, hstate⟩
  rw [FileObject.Alive, hstatus, hsoft, hstate] at h
  cases h

theorem not_renaming_of_alive (h : f.Alive) : f.status ≠ .renaming := by
  intro hstatus
  rw [FileObject.Alive, hstatus] at h
  cases h

/-- A row which an operation occupies has no purge state. -/
theorem purgeState_of_operable (h : f.InCourse) (hoperable : f.operable) : f.purgeState = none := by
  obtain ⟨hstatus, hsoft⟩ := hoperable
  rw [FileObject.InCourse, hsoft] at h
  rcases hstatus with hstatus | hstatus
  · rw [hstatus] at h
    generalize f.purgeState = state at h ⊢
    cases h with
    | ordinary _ _ _ h => exact h.available_inv.2
  · rw [hstatus] at h
    generalize f.purgeState = state at h ⊢
    cases h with
    | ordinary _ _ _ h => cases h
    | unfinished => rfl

/-- What is in the course of a deletion is no row of a rename. -/
theorem alive_of_inCourse (h : f.InCourse)
    (hstatus : f.status = .available ∨ f.status = .deleting ∨ f.softDeleted = true) : f.Alive := by
  unfold FileObject.InCourse at h
  unfold FileObject.Alive
  generalize f.status = status at h hstatus ⊢
  generalize f.softDeleted = soft at h hstatus ⊢
  generalize f.purgeState = state at h ⊢
  cases h with
  | ordinary _ _ _ h => exact h
  | unfinished | failed | replaced => simp at hstatus

theorem replaced_of_expired {cutoff : Timestamp} (hexpired : f.expiredTombstone cutoff)
    (hnot : ¬ f.Trashed) : f.Replaced := by
  simp only [FileObject.expiredTombstone, Bool.and_eq_true, decide_eq_true_eq,
    Bool.not_eq_true'] at hexpired
  refine ⟨hexpired.1.1, hexpired.1.2, ?_⟩
  cases hstate : f.purgeState with
  | none => rfl
  | some state => exact absurd (Or.inr (by simp [hstate])) hnot

end Course

/-! ## What a step must keep -/

/-- How a row comes about in a step. -/
inductive RowTraced (db db' : Db) (j : Uuid) (f' : FileObject) : Prop
  | kept (f : FileObject) (hf : db.files.lookup j = some f) (h : f'.core = f.core)
  | ordinary (h : f'.Alive)
  | unfinished (hstatus : f'.status = .renaming ∨ f'.status = .renameFailed)
      (hsoft : f'.softDeleted = false) (hstate : f'.purgeState = none)
  | replaced (h : f'.Replaced) (htaken : TakenOver db' j f'.contentLength)

structure Traces (db db' : Db) : Prop where
  framed : Framed db db'
  trash : RecordsTrash db db'
  rows : ∀ j f', db'.files.lookup j = some f' → RowTraced db db' j f'
  alive : ∀ j f, db.files.lookup j = some f → f.Alive →
    (∃ f', db'.files.lookup j = some f' ∧ f'.Alive ∧ f'.contentLength = f.contentLength) ∨
      TakenOver db' j f.contentLength
  linked : ∀ o op, db'.operations.lookup o = some op → o ∈ db.operations ∨
    op.resultFileId = none ∨ RenameLinked db' o op

section

variable {db db' : Db}

theorem Framed.renamedTo (h : Framed db db') {j d : Uuid} (hrenamed : RenamedTo db j d) :
    RenamedTo db' j d := by
  obtain ⟨o, op, hop, htype, hsource, hresult⟩ := hrenamed
  obtain ⟨op', hop', horder⟩ := h.order o op hop
  have hsame := FileOperation.sameOrder horder
  exact ⟨o, op', hop', hsame.operationType.trans htype, hsame.sourceFileId.trans hsource,
    hsame.resultFileId.trans hresult⟩

theorem Traces.takenOver (h : Traces db db') {j : Uuid} {n : ℕ} (htaken : TakenOver db j n) :
    TakenOver db' j n := by
  obtain ⟨d, g, hchain, hg, halive, rfl⟩ := htaken
  have hchain' : TransGen (RenamedTo db') j d :=
    TransGen.mono (fun _ _ ↦ h.framed.renamedTo) j d hchain
  rcases h.alive d g hg halive with
    ⟨g', hg', halive', hlength⟩ | ⟨d', g', hmore, hg', halive', hlength⟩
  · exact ⟨d, g', hchain', hg', halive', hlength⟩
  · exact ⟨d', g', hchain'.trans hmore, hg', halive', hlength⟩

/-- The rows of a rename which goes on are those it had. -/
theorem Framed.renameLinked (h : Framed db db') {o : Uuid} {op' : FileOperation}
    (hop' : db'.operations.lookup o = some op') (ho : o ∈ db.operations)
    (hlinked : ∀ op, db.operations.lookup o = some op → op.operationType = .rename →
      RenameLinked db o op) (htype : op'.operationType = .rename) : RenameLinked db' o op' := by
  obtain ⟨op, hop⟩ := AList.exists_lookup_of_mem ho
  obtain ⟨op'', hop'', horder⟩ := h.order o op hop
  obtain rfl := Option.some.inj (hop''.symm.trans hop')
  have hsame := FileOperation.sameOrder horder
  obtain ⟨hresult, hpair⟩ := hlinked op hop (hsame.operationType ▸ htype)
  refine ⟨fun j f' hj hf' hheld ↦ ?_, fun i j f' g' hi hj hf' hg' hfheld hgheld ↦ ?_⟩
  · obtain ⟨f, hf, hfheld, hcore⟩ := h.heldBack o ho j f' hf' hheld
    rw [(core_standing hcore).1]
    exact hresult j f (hsame.resultFileId ▸ hj) hf hfheld
  · obtain ⟨f, hf, hfheld₀, hfcore⟩ := h.heldBack o ho i f' hf' hfheld
    obtain ⟨g, hg, hgheld₀, hgcore⟩ := h.heldBack o ho j g' hg' hgheld
    obtain ⟨hne, hlength⟩ := hpair i j f g (hsame.sourceFileId ▸ hi) (hsame.resultFileId ▸ hj) hf hg
      hfheld₀ hgheld₀
    refine ⟨hne, ?_⟩
    rw [(core_standing hgcore).2.2.2, (core_standing hfcore).2.2.2, hlength]

theorem Traced.step (hdb : Traced db) (h : Traces db db') : Traced db' := by
  refine ⟨h.framed.consistent, fun j f' hf' ↦ ?_, fun j f' hf' htrashed ↦ ?_,
    fun o op hop htype ↦ ?_, fun j f' hf' hreplaced ↦ ?_⟩
  · cases h.rows j f' hf' with
    | kept f hf hcore => exact (inCourse_congr hcore).mpr (hdb.course j f hf)
    | ordinary halive => exact inCourse_of_alive halive
    | unfinished hstatus hsoft hstate =>
        rw [FileObject.InCourse, hsoft, hstate]
        rcases hstatus with hstatus | hstatus
        · rw [hstatus]
          exact .unfinished
        · rw [hstatus]
          exact .failed
    | replaced hreplaced =>
        obtain ⟨hstatus, hsoft, hstate⟩ := hreplaced
        rw [FileObject.InCourse, hstatus, hsoft, hstate]
        exact .replaced
  · rcases h.trash.trashed j f' hf' htrashed with hrecorded | ⟨f, hf, hbefore⟩
    · exact hrecorded
    · exact h.trash.recorded j (hdb.recorded j f hf hbefore)
  · rcases h.linked o op hop with ho | hnone | hlinked
    · exact h.framed.renameLinked hop ho (hdb.linked o) htype
    · constructor
      · intro j f hj
        rw [hnone] at hj
        cases hj
      · intro i j f g _ hj
        rw [hnone] at hj
        cases hj
    · exact hlinked
  · cases h.rows j f' hf' with
    | kept f hf hcore =>
        rw [(core_standing hcore).2.2.2]
        exact h.takenOver (hdb.takenOver j f hf ((replaced_congr hcore).mp hreplaced))
    | ordinary halive => exact absurd hreplaced (not_replaced_of_alive halive)
    | unfinished hstatus =>
        rw [hreplaced.1] at hstatus
        simp at hstatus
    | replaced _ htaken => exact htaken

/-! ## Commands beside the operations -/

/-- One row at most is written, and it is left in an ordinary state with its length. -/
structure WritesAlive (k : Uuid) (db db' : Db) : Prop where
  others : ∀ j, j ≠ k → db'.files.lookup j = db.files.lookup j
  alive : ∀ f', db'.files.lookup k = some f' → db.files.lookup k = some f' ∨ f'.Alive
  stays : ∀ f, db.files.lookup k = some f → ∃ f', db'.files.lookup k = some f' ∧
    f'.contentLength = f.contentLength

theorem writesAlive_of_files (k : Uuid) (h : db'.files = db.files) : WritesAlive k db db' :=
  ⟨fun j _ ↦ by rw [h], fun _ hf' ↦ Or.inl (h ▸ hf'), fun f hf ↦ ⟨f, h ▸ hf, rfl⟩⟩

theorem writesAlive_of_update {k : Uuid} {f f' : FileObject} (hf : db.files.lookup k = some f)
    (hfiles : db'.files = db.files.update k fun _ ↦ f') (halive : f'.Alive)
    (hlength : f'.contentLength = f.contentLength) : WritesAlive k db db' := by
  have hk : db'.files.lookup k = some f' := by
    rw [hfiles, AList.lookup_update_self, hf, Option.map_some]
  refine ⟨fun j hj ↦ by rw [hfiles, AList.lookup_update_of_ne hj], fun g hg ↦ Or.inr ?_,
    fun g hg ↦ ⟨f', hk, ?_⟩⟩
  · exact Option.some.inj (hk.symm.trans hg) ▸ halive
  · exact Option.some.inj (hf.symm.trans hg) ▸ hlength

theorem writesAlive_of_insert {k : Uuid} {f' : FileObject} (hfresh : k ∉ db.files)
    (hfiles : ∀ j, db'.files.lookup j = if j = k then some f' else db.files.lookup j)
    (halive : f'.Alive) : WritesAlive k db db' := by
  have hk : db'.files.lookup k = some f' := by rw [hfiles, if_pos rfl]
  refine ⟨fun j hj ↦ by rw [hfiles, if_neg hj], fun g hg ↦ Or.inr ?_,
    fun g hg ↦ absurd (AList.mem_of_lookup hg) hfresh⟩
  exact Option.some.inj (hk.symm.trans hg) ▸ halive

theorem FileEdit.alive {f f' : FileObject} (h : FileEdit f f') (hf : f.InCourse) : f.Alive := by
  refine alive_of_inCourse hf ?_
  cases h with
  | retained _ _ _ hstatus => exact Or.inl hstatus
  | migrated _ _ hstatus => exact Or.inr (Or.inl hstatus)
  | retried _ _ _ _ hstatus => exact Or.inr (Or.inl hstatus)
  | claimed _ hsoft => exact Or.inr (Or.inr hsoft)
  | postponed _ _ hsoft => exact Or.inr (Or.inr hsoft)

theorem deletedFile_alive {now : Timestamp} {f : FileObject} (hf : f.Alive)
    (hstatus : f.status = .deleting) : (deletedFile now f).Alive := by
  rw [FileObject.Alive, hstatus] at hf
  obtain ⟨hsoft, hstate⟩ := hf.deleting_inv
  simpa [FileObject.Alive, deletedFile, hsoft, hstate] using Lifecycle.deleted

theorem purgedFile_alive {now : Timestamp} {f : FileObject} (hf : f.Alive)
    (hstate : f.purgeState = some .processing) : (purgedFile now f).Alive := by
  rw [FileObject.Alive, hstate] at hf
  simpa [FileObject.Alive, purgedFile, hf.soft_inv (by decide)] using Lifecycle.purged

theorem step_writesAlive {c : Cmd} (hdb : ∀ j f, db.files.lookup j = some f → f.InCourse)
    (h : Step db c db') : ∃ k, WritesAlive k db db' := by
  cases h with
  | idle | sessions | quotaCreated | quotaOverwritten | quotaRevoked | platformLimitSet | limitSet
  | uploadCreated | multipartCreated | verified | failed | requeued | expired =>
      exact ⟨0, writesAlive_of_files 0 rfl⟩
  | reaped now picked =>
      rw [reapOrphanReservations, reapOrphanReservationsWith_frame]
      exact ⟨0, writesAlive_of_files 0 rfl⟩
  | edited _ k f f' deletions hf hedit hkey =>
      have hspec := hedit.spec (hedit.alive (hdb k f hf))
      exact ⟨k, writesAlive_of_update hf rfl hspec.1 hspec.2.2.2.1⟩
  | deleted now k f hf hstatus =>
      have halive := alive_of_inCourse (hdb k f hf) (Or.inr (Or.inl hstatus))
      exact ⟨k, writesAlive_of_update hf rfl (deletedFile_alive halive hstatus) rfl⟩
  | purged now k f hf hsoft hstate =>
      have halive := alive_of_inCourse (hdb k f hf) (Or.inr (Or.inr hsoft))
      exact ⟨k, writesAlive_of_update hf rfl (purgedFile_alive halive hstate) rfl⟩
  | commit now fileId id _ hcommit =>
      cases hcommit with
      | replayed => exact ⟨0, writesAlive_of_files 0 rfl⟩
      | unreserved row hready | charged row hready =>
          exact ⟨fileId, writesAlive_of_insert hready.fresh
            (fun j ↦ AList.lookup_insert' j fileId (newFile row) db.files) (newFile_alive row)⟩
      | refused row hready =>
          have halive : ({ newFile row with status := .quarantined } : FileObject).Alive := by
            simpa [FileObject.Alive, newFile] using Lifecycle.quarantined
          exact ⟨fileId, writesAlive_of_insert hready.fresh
            (fun j ↦ lookup_quarantinedDb now fileId id row db j) halive⟩
  | appDeleted applicationId =>
      refine ⟨0, writesAlive_of_files 0 ?_⟩
      unfold deleteApp
      split
      · rfl
      split
      · rfl
      · rfl

theorem exec_traces {c : Cmd} (hdb : Traced db) (h : exec c db = .ok db') : Traces db db' := by
  have hstep := exec_step h
  obtain ⟨k, hothers, halive, hstays⟩ := step_writesAlive hdb.course hstep
  refine ⟨opExec_framed (c := .other c) hdb.consistent h, exec_recordsTrash h, fun j f' hf' ↦ ?_,
    fun j f hf hfalive ↦ Or.inl ?_, fun o op hop ↦ Or.inl ?_⟩
  · by_cases hj : j = k
    · subst hj
      rcases halive f' hf' with hsame | halive
      · exact .kept f' hsame rfl
      · exact .ordinary halive
    · exact .kept f' (hothers j hj ▸ hf') rfl
  · by_cases hj : j = k
    · subst hj
      obtain ⟨f', hf', hlength⟩ := hstays f hf
      rcases halive f' hf' with hsame | halive
      · obtain rfl := Option.some.inj (hsame.symm.trans hf)
        exact ⟨f', hf', hfalive, rfl⟩
      · exact ⟨f', hf', halive, hlength⟩
    · exact ⟨f, (hothers j hj).trans hf, hfalive, rfl⟩
  · exact (step_mem_operations hstep).mp (AList.mem_of_lookup hop)

/-! ## Commands on operations -/

theorem recordsTrash_of_cores {files : Table Uuid FileObject} (hdeletions : db'.deletions = db.deletions)
    (hfiles : SameCores files db'.files)
    (hbefore : ∀ j f, files.lookup j = some f → f.Trashed →
      ∃ f₀, db.files.lookup j = some f₀ ∧ f₀.Trashed) : RecordsTrash db db' := by
  refine ⟨fun j h ↦ by rwa [recordedDeletion, hdeletions], fun j f' hf' htrashed ↦ Or.inr ?_⟩
  obtain ⟨f, hf, hcore⟩ := hfiles.back hf'
  exact hbefore j f hf ((trashed_congr hcore).mpr htrashed)

theorem kept_traces (hframed : Framed db db') (hdeletions : db'.deletions = db.deletions)
    (hfiles : SameCores db.files db'.files) (hnew : NoNewResult db db') : Traces db db' := by
  refine ⟨hframed, recordsTrash_of_cores hdeletions hfiles fun j f hf ht ↦ ⟨f, hf, ht⟩,
    fun j f' hf' ↦ ?_, fun j f hf halive ↦ Or.inl ?_, fun o op hop ↦ ?_⟩
  · obtain ⟨f, hf, hcore⟩ := hfiles.back hf'
    exact .kept f hf hcore.symm
  · obtain ⟨f', hf', hcore⟩ := hfiles.forward hf
    exact ⟨f', hf', (alive_congr hcore).mpr halive, (core_standing hcore).2.2.2⟩
  · exact (hnew o op hop).imp_right Or.inl

/-- The rows of a rename which has just been accepted. -/
theorem renameLinked_of_accepted {o : Uuid} {ids : OperationIds} {data : RenameData}
    {source : FileObject} {spaceId : Uuid}
    (hsource : db.files.lookup data.sourceFileId = some source) (hfresh : ids.resultFile ∉ db.files)
    (hcores : SameCores (db.files.insert ids.resultFile (renamedFile data source)) db'.files) :
    RenameLinked db' o (newRenameOperation spaceId ids.resultFile data) := by
  have hne : data.sourceFileId ≠ ids.resultFile := by
    intro heq
    exact hfresh (heq ▸ AList.mem_of_lookup hsource)
  obtain ⟨g', hg', hgcore⟩ := hcores.forward (AList.lookup_insert _)
  obtain ⟨f', hf', hfcore⟩ := hcores.forward ((AList.lookup_insert_ne hne).trans hsource)
  refine ⟨fun j f hj hf _ ↦ ?_, fun i j f g hi hj hf hg _ _ ↦ ?_⟩
  · obtain rfl := Option.some.inj hj
    obtain rfl := Option.some.inj (hg'.symm.trans hf)
    exact (core_standing hgcore).1
  · obtain rfl := Option.some.inj hi
    obtain rfl := Option.some.inj hj
    obtain rfl := Option.some.inj (hf'.symm.trans hf)
    obtain rfl := Option.some.inj (hg'.symm.trans hg)
    refine ⟨hne, ?_⟩
    rw [(core_standing hgcore).2.2.2, (core_standing hfcore).2.2.2]
    rfl

theorem renamed_traces {ids : OperationIds} {data : RenameData} {source : FileObject}
    {spaceId : Uuid} (hframed : Framed db db') (hdeletions : db'.deletions = db.deletions)
    (hoperations : db'.operations =
      db.operations.insert ids.operation (newRenameOperation spaceId ids.resultFile data))
    (hsource : db.files.lookup data.sourceFileId = some source) (hfresh : ids.resultFile ∉ db.files)
    (hcores : SameCores (db.files.insert ids.resultFile (renamedFile data source)) db'.files) :
    Traces db db' := by
  have hback : ∀ j f', db'.files.lookup j = some f' →
      (j = ids.resultFile ∧ f'.core = (renamedFile data source).core) ∨
        ∃ f, db.files.lookup j = some f ∧ f'.core = f.core := by
    intro j f' hf'
    obtain ⟨f, hf, hcore⟩ := hcores.back hf'
    rw [AList.lookup_insert'] at hf
    split at hf
    · rename_i hj
      exact Or.inl ⟨hj, Option.some.inj hf ▸ hcore.symm⟩
    · exact Or.inr ⟨f, hf, hcore.symm⟩
  have hforward : ∀ j f, db.files.lookup j = some f →
      ∃ f', db'.files.lookup j = some f' ∧ f'.core = f.core := by
    intro j f hf
    have hj : j ≠ ids.resultFile := by
      rintro rfl
      exact hfresh (AList.mem_of_lookup hf)
    exact hcores.forward ((AList.lookup_insert_ne hj).trans hf)
  refine ⟨hframed, ⟨fun j h ↦ by rwa [recordedDeletion, hdeletions], fun j f' hf' htrashed ↦ ?_⟩,
    fun j f' hf' ↦ ?_, fun j f hf halive ↦ Or.inl ?_, fun o op hop ↦ ?_⟩
  · rcases hback j f' hf' with ⟨-, hcore⟩ | ⟨f, hf, hcore⟩
    · have hnot := (trashed_congr hcore).mp htrashed
      simp [FileObject.Trashed, renamedFile] at hnot
    · exact Or.inr ⟨f, hf, (trashed_congr hcore).mp htrashed⟩
  · rcases hback j f' hf' with ⟨-, hcore⟩ | ⟨f, hf, hcore⟩
    · obtain ⟨hstatus, hsoft, hstate, -⟩ := core_standing hcore
      exact .unfinished (Or.inl hstatus) hsoft hstate
    · exact .kept f hf hcore
  · obtain ⟨f', hf', hcore⟩ := hforward j f hf
    exact ⟨f', hf', (alive_congr hcore).mpr halive, (core_standing hcore).2.2.2⟩
  · rw [hoperations, AList.lookup_insert'] at hop
    split at hop
    · obtain rfl := Option.some.inj hop
      exact Or.inr (Or.inr (renameLinked_of_accepted hsource hfresh hcores))
    · exact Or.inl (AList.mem_of_lookup hop)

/-- The result of a rename which succeeds takes the bytes of the source over. -/
theorem takenOver_of_settled {o i destination : Uuid} {op : FileOperation} {f d d' : FileObject}
    (hdb : Traced db) (hframed : Framed db db') (hop : db.operations.lookup o = some op)
    (hrename : op.operationType = .rename) (hsource : op.sourceFileId = some i)
    (hresult : op.resultFileId = some destination) (hf : db.files.lookup i = some f)
    (hheld : f.activeOperationId = some o) (hd : db.files.lookup destination = some d)
    (hdheld : d.activeOperationId = some o) (hd' : db'.files.lookup destination = some d')
    (hcore : d'.core = FileObject.core { d with status := .available }) :
    TakenOver db' i f.contentLength := by
  obtain ⟨-, hlength⟩ :=
    (hdb.linked o op hop hrename).pair i destination f d hsource hresult hf hd hheld hdheld
  obtain ⟨hstatus, hsoft, hstate, hlength'⟩ := core_standing hcore
  have hoperable := hdb.consistent.operable destination d hd (by rw [hdheld]; rfl)
  have hpurge := purgeState_of_operable (hdb.course destination d hd) hoperable
  have halive : d'.Alive := by
    rw [FileObject.Alive, hstatus, hsoft, hstate]
    simpa [hoperable.2, hpurge] using Lifecycle.available
  exact ⟨destination, d', .single (hframed.renamedTo ⟨o, op, hop, hrename, hsource, hresult⟩), hd',
    halive, hlength'.trans hlength⟩

theorem settled_traces {now : Timestamp} {o : Uuid} {op : FileOperation} {status : OperationStatus}
    (hdb : Traced db) (hframed : Framed db db') (hdeletions : db'.deletions = db.deletions)
    (hnew : NoNewResult db db') (hop : db.operations.lookup o = some op)
    (hfiles : db'.files = settledFiles now o op status db.files) : Traces db db' := by
  have hrows : ∀ j f', db'.files.lookup j = some f' → ∃ f, db.files.lookup j = some f ∧
      SettledRow now o op db.files db'.files j f f' := by
    intro j f' hf'
    rw [hfiles] at hf' ⊢
    refine settledFiles_row (fun hrename i hsource hresult ↦ ?_) hf'
    by_contra hheld
    rw [Bool.not_eq_false, heldBy_eq_true] at hheld
    obtain ⟨f, hf, hactive⟩ := hheld
    exact ((hdb.linked o op hop hrename).pair i i f f hsource hresult hf hf hactive hactive).1 rfl
  have hheld : ∀ j f, db.files.lookup j = some f → f.activeOperationId = some o →
      f.softDeleted = false ∧ f.purgeState = none := by
    intro j f hf hactive
    have hoperable := hdb.consistent.operable j f hf (by rw [hactive]; rfl)
    exact ⟨hoperable.2, purgeState_of_operable (hdb.course j f hf) hoperable⟩
  refine ⟨hframed, ⟨fun j h ↦ by rwa [recordedDeletion, hdeletions], fun j f' hf' htrashed ↦ ?_⟩,
    fun j f' hf' ↦ ?_, fun j f hf halive ↦ ?_, fun o op hop ↦ (hnew o op hop).imp_right Or.inl⟩
  · obtain ⟨f, hf, hrow⟩ := hrows j f' hf'
    refine Or.inr ⟨f, hf, ?_⟩
    cases hrow with
    | kept h => exact (trashed_congr h).mp htrashed
    | source _ _ _ _ _ _ _ _ _ _ _ h | destination _ _ _ _ _ h =>
        obtain ⟨-, hsoft, hstate, -⟩ := core_standing h
        rwa [FileObject.Trashed, hsoft, hstate] at htrashed
  · obtain ⟨f, hf, hrow⟩ := hrows j f' hf'
    cases hrow with
    | kept h => exact .kept f hf h
    | source d d' destination hrename hsource hresult hactive hd hdheld hd' hcore' h =>
        obtain ⟨hstatus, hsoft, hstate, hlength⟩ := core_standing h
        obtain ⟨hfsoft, hfstate⟩ := hheld j f hf hactive
        refine .replaced ⟨hstatus, hsoft.trans hfsoft, hstate.trans hfstate⟩ ?_
        have htaken := takenOver_of_settled hdb hframed hop hrename hsource hresult hf hactive hd
          hdheld hd' hcore'
        rwa [← show f'.contentLength = f.contentLength from hlength] at htaken
    | destination status hrename hstatus hresult hactive h =>
        obtain ⟨hstatus', hsoft, hstate, -⟩ := core_standing h
        obtain ⟨hfsoft, hfstate⟩ := hheld j f hf hactive
        rcases hstatus with rfl | rfl
        · refine .ordinary ?_
          rw [FileObject.Alive, hstatus', hsoft, hstate]
          simpa [hfsoft, hfstate] using Lifecycle.available
        · exact .unfinished (Or.inr hstatus') (hsoft.trans hfsoft) (hstate.trans hfstate)
  · have hmem : j ∈ db'.files := by
      rw [hfiles]
      exact mem_settledFiles (AList.mem_of_lookup hf)
    obtain ⟨f', hf'⟩ := AList.exists_lookup_of_mem hmem
    obtain ⟨f₀, hf₀, hrow⟩ := hrows j f' hf'
    obtain rfl := Option.some.inj (hf.symm.trans hf₀)
    cases hrow with
    | kept h => exact Or.inl ⟨f', hf', (alive_congr h).mpr halive, (core_standing h).2.2.2⟩
    | source d d' destination hrename hsource hresult hactive hd hdheld hd' hcore' h =>
        exact Or.inr (takenOver_of_settled hdb hframed hop hrename hsource hresult hf hactive hd
          hdheld hd' hcore')
    | destination status hrename hstatus hresult hactive h =>
        exact absurd ((hdb.linked o op hop hrename).result j f hresult hf hactive)
          (not_renaming_of_alive halive)

theorem opExec_traces {c : OpCmd} (hdb : Traced db) (h : opExec c db = .ok db') :
    Traces db db' := by
  have hframed := opExec_framed hdb.consistent h
  rcases opExec_eq_ok h with ⟨c₀, rfl, h⟩ | ⟨hother, hside⟩
  · exact exec_traces hdb h
  have hdeletions : db'.deletions = db.deletions := by rw [hside.1]
  cases opExec_rowsOf hother h with
  | kept _ hcores hnew => exact kept_traces hframed hdeletions hcores hnew
  | renamed ids spaceId data source hsource hfresh hcores =>
      obtain ⟨op, h⟩ := Except.map_snd_eq_ok.mp h
      rcases createRenameOperation_eq_ok h with
        rfl | ⟨_, _, _, -, -, -, -, -, rfl, -, -, rfl⟩
      · exact kept_traces hframed rfl (.refl _) (noNewResult_of_mem fun _ ho ↦ ho)
      · exact renamed_traces hframed hdeletions rfl hsource hfresh hcores
  | settled now o status reason op hop hfiles hnew =>
      exact settled_traces hdb hframed hdeletions hnew hop hfiles

end

end S3mp
