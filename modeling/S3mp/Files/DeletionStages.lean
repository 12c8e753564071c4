import S3mp.Files.Columns
import S3mp.Files.DeletedRows
import S3mp.Platform.Release

/-!
# The stages of a deletion

The row of a deleted file waits for its object to come into the trash, is retained
there until the purge is due, is claimed for the purge and ends as purged.  Each stage
is entered by a transaction of its own, and none is ever left for an earlier one.
-/

namespace S3mp

open Relational Files Platform Transition

inductive DeletionStage where
  | pending
  | retained
  | claimed
  | purged
  deriving DecidableEq, Repr

/-- The place of the stage in the course of a deletion. -/
def DeletionStage.rank : DeletionStage → ℕ
  | .pending => 0
  | .retained => 1
  | .claimed => 2
  | .purged => 3

/-- A deletion which is asked for, with the row it is asked for. -/
structure FileDeletion where
  fileId : Uuid
  deletionId : Uuid
  now : Timestamp
  data : DeleteData
  file : FileObject

namespace FileDeletion

variable (δ : FileDeletion)

def trashKey : String :=
  Files.trashKey δ.file.objectKey δ.now δ.deletionId

def command : TenantCmd :=
  .stored (.deleteFile δ.now δ.deletionId δ.file.storageSpaceId δ.fileId δ.data)

theorem trashKey_ne : δ.trashKey ≠ δ.file.objectKey := by
  intro heq
  have hslash : '/' ∈ δ.trashKey.toList := by
    have hmem : '/' ∈ ("/__trash__/" : String).toList := by decide
    unfold trashKey Files.trashKey
    simp only [String.toList_append, List.mem_append, hmem, true_or, or_true]
  have hlength := length_trashKey (heq ▸ hslash) δ.now δ.deletionId
  have hsame : (Files.trashKey δ.file.objectKey δ.now δ.deletionId).length =
      δ.file.objectKey.length := congrArg String.length heq
  omega

/-- The columns of the row at each stage. -/
inductive AtStage (f : FileObject) : DeletionStage → Prop
  | pending (hclosed : f.Closed) (hsoft : f.softDeleted = true)
      (hstate : f.purgeState = some .pendingMigration) (hkey : f.objectKey = δ.file.objectKey)
      (hdue : f.purgeDueAt = some δ.data.purgeDueAt) : AtStage f .pending
  | retained (hstatus : f.status = .deleted) (hsoft : f.softDeleted = true)
      (hstate : f.purgeState = some .scheduled) (hkey : f.objectKey = δ.trashKey)
      (hdue : f.purgeDueAt = some δ.data.purgeDueAt) : AtStage f .retained
  | claimed (hstatus : f.status = .deleted) (hsoft : f.softDeleted = true)
      (hstate : f.purgeState = some .processing ∨ f.purgeState = some .retryWait)
      (hkey : f.objectKey = δ.trashKey) (hdue : f.purgeDueAt = some δ.data.purgeDueAt) :
      AtStage f .claimed
  | purged (hstatus : f.status = .deleted) (hsoft : f.softDeleted = false)
      (hstate : f.purgeState = some .purged) (hkey : f.objectKey = δ.trashKey) :
      AtStage f .purged

/-- The transactions which lead from one stage to the next. -/
inductive Advances (c : TenantCmd) : DeletionStage → DeletionStage → Prop
  | stays (stage : DeletionStage) : Advances c stage stage
  | migrated (hc : c = .stored (.finalizeFileTrashMigration δ.fileId)) :
      Advances c .pending .retained
  | claimed (now : Timestamp) (hc : c = .stored (.claimRetainedFileForPurge now δ.fileId))
      (hdue : δ.data.purgeDueAt ≤ now) : Advances c .retained .claimed
  | purged (now : Timestamp) (hc : c = .stored (.finalizeRetainedFilePurge now δ.fileId)) :
      Advances c .claimed .purged

/-- The deletion records of the file are those of the deletion. -/
def Recorded (db : Db) : Prop :=
  ∀ id d, db.deletions.lookup id = some d → d.fileId = δ.fileId → d.trashPhysicalKey = δ.trashKey

variable {δ} {f f' : FileObject} {stage : DeletionStage}

theorem AtStage.closed (h : δ.AtStage f stage) : f.Closed := by
  cases h with
  | pending hclosed => exact hclosed
  | retained hstatus | claimed hstatus | purged hstatus => exact Or.inr (Or.inr hstatus)

/-- What the migration has not yet touched. -/
theorem AtStage.pending_of_deleting (h : δ.AtStage f stage) (hdeleting : f.status = .deleting) :
    stage = .pending ∧ f.softDeleted = true ∧ f.purgeState = some .pendingMigration ∧
      f.objectKey = δ.file.objectKey ∧ f.purgeDueAt = some δ.data.purgeDueAt := by
  cases h with
  | pending _ hsoft hstate hkey hdue => exact ⟨rfl, hsoft, hstate, hkey, hdue⟩
  | retained hstatus | claimed hstatus | purged hstatus => simp [hstatus] at hdeleting

theorem AtStage.claimed_of_processing (h : δ.AtStage f stage)
    (hprocessing : f.purgeState = some .processing) :
    stage = .claimed ∧ f.status = .deleted ∧ f.softDeleted = true ∧ f.objectKey = δ.trashKey ∧
      f.purgeDueAt = some δ.data.purgeDueAt := by
  cases h with
  | pending _ _ hstate | retained _ _ hstate | purged _ _ hstate => simp [hprocessing] at hstate
  | claimed hstatus hsoft _ hkey hdue => exact ⟨rfl, hstatus, hsoft, hkey, hdue⟩

theorem AtStage.core (h : δ.AtStage f stage) (hcore : f'.core = f.core) : δ.AtStage f' stage := by
  obtain ⟨hstatus, hsoft, hstate, hdue, hkey, -⟩ := core_course hcore
  cases h with
  | pending hclosed h₁ h₂ h₃ h₄ =>
      refine .pending ?_ (hsoft.trans h₁) (hstate.trans h₂) (hkey.trans h₃) (hdue.trans h₄)
      rwa [FileObject.Closed, hstatus]
  | retained h₀ h₁ h₂ h₃ h₄ =>
      exact .retained (hstatus.trans h₀) (hsoft.trans h₁) (hstate.trans h₂) (hkey.trans h₃)
        (hdue.trans h₄)
  | claimed h₀ h₁ h₂ h₃ h₄ =>
      exact .claimed (hstatus.trans h₀) (hsoft.trans h₁) (hstate ▸ h₂) (hkey.trans h₃)
        (hdue.trans h₄)
  | purged h₀ h₁ h₂ h₃ =>
      exact .purged (hstatus.trans h₀) (hsoft.trans h₁) (hstate.trans h₂) (hkey.trans h₃)

/-- A transaction keeps the row at its stage or takes it to the next. -/
theorem AtStage.retired {c : TenantCmd} {db : Db} (h : δ.AtStage f stage) (hrecorded : δ.Recorded db)
    (hstep : Retired c db δ.fileId f f') :
    ∃ stage', δ.AtStage f' stage' ∧ δ.Advances c stage stage' := by
  cases hstep with
  | kept _ hcore => exact ⟨stage, h.core hcore, .stays stage⟩
  | retried attempts retryAt status hdeleting hnext =>
      obtain ⟨rfl, hsoft, hstate, hkey, hdue⟩ := h.pending_of_deleting hdeleting
      exact ⟨.pending, .pending (hnext.imp_right Or.inl) hsoft hstate hkey hdue, .stays _⟩
  | finalized now _ hdeleting =>
      obtain ⟨rfl, hsoft, hstate, hkey, hdue⟩ := h.pending_of_deleting hdeleting
      exact ⟨.pending, .pending (Or.inr (Or.inr rfl)) hsoft hstate hkey hdue, .stays _⟩
  | migrated deletionId deletion hc hdeletion hdeleting _ =>
      obtain ⟨rfl, hsoft, -, -, hdue⟩ := h.pending_of_deleting hdeleting
      obtain ⟨hlookup, hfile⟩ := AList.lookup_of_selectFirst hdeletion
      have htrash := hrecorded deletionId deletion hlookup (of_decide_eq_true hfile)
      exact ⟨.retained, .retained rfl hsoft rfl htrash hdue, .migrated hc⟩
  | claimed now hc hclaim =>
      simp only [FileObject.claimable, FileObject.awaitsPurge, Bool.and_eq_true, decide_eq_true_eq]
        at hclaim
      obtain ⟨⟨⟨-, hwaits⟩, hdueNow⟩, -⟩ := hclaim
      cases h with
      | pending _ _ hstate | purged _ _ hstate => simp [hstate] at hwaits
      | retained hstatus hsoft _ hkey hdue =>
          rw [hdue, Option.any_some, decide_eq_true_eq] at hdueNow
          exact ⟨.claimed, .claimed hstatus hsoft (Or.inl rfl) hkey hdue, .claimed now hc hdueNow⟩
      | claimed hstatus hsoft _ hkey hdue =>
          exact ⟨.claimed, .claimed hstatus hsoft (Or.inl rfl) hkey hdue, .stays _⟩
  | postponed now n _ _ hprocessing =>
      obtain ⟨rfl, hstatus, hsoft, hkey, hdue⟩ := h.claimed_of_processing hprocessing
      exact ⟨.claimed, .claimed hstatus hsoft (Or.inr rfl) hkey hdue, .stays _⟩
  | purged now hc _ hprocessing =>
      obtain ⟨rfl, hstatus, -, hkey, -⟩ := h.claimed_of_processing hprocessing
      exact ⟨.purged, .purged hstatus rfl rfl hkey, .purged now hc⟩

end FileDeletion

/-! ## Histories -/

/-- Every recorded deletion is that of a file which has been deleted. -/
structure Founded (db : Db) : Prop where
  consistent : Consistent db
  recorded : ∀ id d, db.deletions.lookup id = some d →
    ∃ f, db.files.lookup d.fileId = some f ∧ f.Closed

theorem Retired.closed {c : TenantCmd} {db : Db} {id : Uuid} {f f' : FileObject}
    (h : Retired c db id f f') (hf : f.Closed) : f'.Closed := by
  cases h with
  | kept _ hcore => rwa [FileObject.Closed, (core_course hcore).1]
  | retried _ _ _ _ hnext => exact hnext.imp_right Or.inl
  | finalized | migrated => exact Or.inr (Or.inr rfl)
  | claimed | postponed | purged => exact hf

section

variable {t t' : Tenant} {c : TenantCmd}

theorem Founded.step (h : Founded t.db) (hexec : tenantExec c t = .ok t') : Founded t'.db := by
  refine ⟨tenantExec_consistent h.consistent hexec, fun id d' hd' ↦ ?_⟩
  have hcloses : ∀ d : FileDeletionRecord, d.fileId = d'.fileId →
      (∃ f, t.db.files.lookup d.fileId = some f ∧ f.Closed) →
        ∃ f, t'.db.files.lookup d'.fileId = some f ∧ f.Closed := by
    rintro d hfile ⟨f, hf, hclosed⟩
    obtain ⟨f', hf', hretired⟩ := tenantExec_retired h.consistent (hfile ▸ hf) hclosed hexec
    exact ⟨f', hf', hretired.closed hclosed⟩
  rcases tenantExec_deletions hexec with hkeeps |
    ⟨now, deletionId, spaceId, fileId, data, -, ⟨f, hf, -, -, hinsert, hfiles⟩, -⟩
  · obtain ⟨d, hd, hplace⟩ := hkeeps id d' hd'
    simp only [FileDeletionRecord.place, Prod.mk.injEq] at hplace
    exact hcloses d hplace.1.symm (h.recorded id d hd)
  · rw [hinsert, AList.lookup_insert'] at hd'
    split at hd'
    · obtain rfl := Option.some.inj hd'
      refine ⟨f.retained now data, ?_, Or.inl rfl⟩
      rw [hfiles]
      exact (AList.lookup_update_self fileId _ _).trans (by rw [hf]; rfl)
    · exact hcloses d' rfl (h.recorded id d' hd')

theorem founded_run (h : Founded t.db) (cs : List TenantCmd) : Founded (run tenantExec t cs).db :=
  run_preserves (I := fun t ↦ Founded t.db) (fun _ _ _ hs hexec ↦ hs.step hexec) h cs

theorem founded_of_empty (hfiles : t.db.files = ∅) (hdeletions : t.db.deletions = ∅) :
    Founded t.db := by
  have hconsistent : Consistent (run opExec t.db []) := consistent_run hfiles
  refine ⟨hconsistent, fun id d hd ↦ ?_⟩
  rw [hdeletions] at hd
  cases hd

end

theorem deleteFile_accepts {now : Timestamp} {deletionId fileId : Uuid} {data : DeleteData}
    {db db' : Db} {f : FileObject} {out : Option FileObject} (hf : db.files.lookup fileId = some f)
    (havailable : f.status = .available) (hsoft : f.softDeleted = false)
    (h : deleteFile now deletionId f.storageSpaceId fileId data db = .ok (out, db')) :
    db' = { db with
      deletions := db.deletions.insert deletionId (deletionRecord now fileId deletionId data f)
      files := db.files.update fileId (FileObject.retained now data) } := by
  unfold deleteFile at h
  rw [hf] at h
  dsimp only at h
  rw [if_neg (by simp), if_neg (by simp [hsoft]), if_neg (by simp [havailable, hsoft])] at h
  split at h
  · cases h
  obtain ⟨-, -, h⟩ := Except.bind_eq_ok.mp h
  split at h
  · cases h
  obtain ⟨deletions, hinsert, h⟩ := Except.bind_eq_ok.mp h
  obtain ⟨-, rfl⟩ := insertRow_eq_ok.mp hinsert
  exact (Prod.mk.inj (Except.pure_eq_ok.mp h)).2.symm

namespace FileDeletion

variable {δ : FileDeletion} {t t' : Tenant}

/-- The tenant accepts the deletion. -/
structure Accepted (δ : FileDeletion) (t t' : Tenant) : Prop where
  file : t.db.files.lookup δ.fileId = some δ.file
  available : δ.file.status = .available
  kept : δ.file.softDeleted = false
  executes : tenantExec δ.command t = .ok t'

/-- The file has been deleted, and how far it has come. -/
structure Deleted (δ : FileDeletion) (stage : DeletionStage) (db : Db) : Prop where
  founded : Founded db
  recorded : δ.Recorded db
  row : ∃ f, db.files.lookup δ.fileId = some f ∧ f.storageSpaceId = δ.file.storageSpaceId ∧
    δ.AtStage f stage

theorem Accepted.deleted (h : δ.Accepted t t') (hfounded : Founded t.db) :
    δ.Deleted .pending t'.db := by
  obtain ⟨-, hexec⟩ := Tenant.transact_eq_ok h.executes fun db' hdb' ↦
    step_tenantActive (exec_step hdb')
  obtain ⟨answer, hperform⟩ := exec_eq_ok.mp hexec
  have hdb := deleteFile_accepts h.file h.available h.kept hperform
  refine ⟨hfounded.step h.executes, fun id d hd hfile ↦ ?_, δ.file.retained δ.now δ.data, ?_, rfl,
    .pending (Or.inl rfl) rfl rfl rfl rfl⟩
  · rw [hdb, AList.lookup_insert'] at hd
    split at hd
    · rw [← Option.some.inj hd]
      rfl
    · obtain ⟨f, hf, hclosed⟩ := hfounded.recorded id d hd
      rw [hfile] at hf
      obtain rfl := Option.some.inj (hf.symm.trans h.file)
      exact absurd hclosed (by simp [FileObject.Closed, h.available])
  · rw [hdb]
    exact (AList.lookup_update_self _ _ _).trans (by rw [h.file]; rfl)

/-- A transaction of the tenant takes the deletion at most to its next stage. -/
theorem Deleted.step {stage : DeletionStage} {c : TenantCmd} (h : δ.Deleted stage t.db)
    (hexec : tenantExec c t = .ok t') :
    ∃ stage', δ.Deleted stage' t'.db ∧ δ.Advances c stage stage' := by
  obtain ⟨f, hf, hspace, hat⟩ := h.row
  obtain ⟨f', hf', hretired⟩ := tenantExec_retired h.founded.consistent hf hat.closed hexec
  obtain ⟨stage', hat', hadvances⟩ := hat.retired h.recorded hretired
  refine ⟨stage', ⟨h.founded.step hexec, fun id d' hd' hfile ↦ ?_, f', hf', ?_, hat'⟩, hadvances⟩
  · rcases tenantExec_deletions hexec with hkeeps |
      ⟨now, deletionId, spaceId, fileId, data, -, ⟨g, hg, havailable, -, hinsert, -⟩, -⟩
    · obtain ⟨d, hd, hplace⟩ := hkeeps id d' hd'
      simp only [FileDeletionRecord.place, Prod.mk.injEq] at hplace
      exact hplace.2.2.trans (h.recorded id d hd (hplace.1.symm.trans hfile))
    · rw [hinsert, AList.lookup_insert'] at hd'
      split at hd'
      · -- A file which has been deleted is not deleted once more.
        obtain rfl := Option.some.inj hd'
        have hsame : fileId = δ.fileId := hfile
        subst hsame
        obtain rfl := Option.some.inj (hg.symm.trans hf)
        exact absurd hat.closed (by simp [FileObject.Closed, havailable])
      · exact h.recorded id d' hd' hfile
  · exact hretired.space.trans hspace

theorem Advances.rank_le {stage stage' : DeletionStage} {c : TenantCmd}
    (h : δ.Advances c stage stage') : stage.rank ≤ stage'.rank := by
  cases h with
  | stays => exact le_rfl
  | migrated | claimed | purged => simp [DeletionStage.rank]

theorem Deleted.unique {stage stage' : DeletionStage} {db : Db} (h : δ.Deleted stage db)
    (h' : δ.Deleted stage' db) : stage = stage' := by
  obtain ⟨f, hf, -, hat⟩ := h.row
  obtain ⟨g, hg, -, hat'⟩ := h'.row
  obtain rfl := Option.some.inj (hf.symm.trans hg)
  cases hat with
  | pending _ _ hstate | retained _ _ hstate | purged _ _ hstate =>
      cases hat' <;> simp_all
  | claimed _ _ hstate => cases hat' <;> rcases hstate with hstate | hstate <;> simp_all

theorem Deleted.advance {stage : DeletionStage} (h : δ.Deleted stage t.db) (c : TenantCmd) :
    ∃ stage', δ.Deleted stage' (advance tenantExec t c).db ∧ δ.Advances c stage stage' := by
  rw [Transition.advance]
  cases hexec : tenantExec c t with
  | error e => exact ⟨stage, h, .stays stage⟩
  | ok t' => exact h.step hexec

theorem Deleted.run {stage : DeletionStage} (h : δ.Deleted stage t.db) (cs : List TenantCmd) :
    ∃ stage', δ.Deleted stage' (run tenantExec t cs).db ∧ stage.rank ≤ stage'.rank := by
  induction cs generalizing t stage with
  | nil => exact ⟨stage, h, le_rfl⟩
  | cons c cs ih =>
      obtain ⟨next, hnext, hadvances⟩ := h.advance c
      obtain ⟨stage', hstage', hle⟩ := ih hnext
      exact ⟨stage', hstage', hadvances.rank_le.trans hle⟩

end FileDeletion

namespace Sample

/-- A tenant with one stored file. -/
def stocked : Tenant :=
  run tenantExec live (uploaded 10 30 40 "a")

theorem stocked_stores : (stocked.db.files.lookup 30).isSome = true := by
  decide +kernel

def erasure : FileDeletion where
  fileId := 30
  deletionId := 40
  now := 0
  data := byReference
  file := (stocked.db.files.lookup 30).get stocked_stores

def bereft : Tenant :=
  advance tenantExec stocked erasure.command

theorem erasure_accepted : erasure.Accepted stocked bereft := by
  refine ⟨(Option.some_get stocked_stores).symm, by decide +kernel, by decide +kernel, ?_⟩
  have hexec : (tenantExec erasure.command stocked).isOk = true := by decide +kernel
  unfold bereft advance
  cases h : tenantExec erasure.command stocked with
  | error e =>
      rw [h] at hexec
      cases hexec
  | ok t' => rfl

end Sample

end S3mp
