import S3mp.Files.FileStore
import Mathlib.Data.List.Sort

/-!
# The removal of tombstones

`purge_deleted_files` removes the rows of deleted files once they are older than the
retention period.  It asks for those without any quota adjustment.  A deletion record
refers to its file by a composite key which is to be set to null as a whole, but its
tenant cannot be null: the file of a deletion record cannot be removed.
-/

namespace S3mp.Files

open Relational Governance

/-- One call of `purge_deleted_files`; rows which others have locked are skipped. -/
structure TombstonePass where
  now : Timestamp
  retentionDays : ℕ
  limit : ℕ
  locked : Uuid → Bool

def TombstonePass.cutoff (p : TombstonePass) : Timestamp :=
  p.now - seconds (86400 * p.retentionDays)

/-- Some quota adjustment names the file. -/
def adjustedFile (fileId : Uuid) (l : Ledger) : Bool :=
  l.adjustments.any (·.fileObjectId = fileId)

/-- Some deletion record names the file. -/
def recordedDeletion (fileId : Uuid) (db : Db) : Bool :=
  db.deletions.anyRow fun _ d ↦ d.fileId = fileId

/-- A row which is deleted for good since the cutoff. -/
def FileObject.expiredTombstone (cutoff : Timestamp) (f : FileObject) : Bool :=
  f.status = .deleted && !f.softDeleted && f.deletedAt.any (· ≤ cutoff)

def tombstonesToPurge (p : TombstonePass) (db : Db) : List (Uuid × FileObject) :=
  ((db.files.select fun id f ↦ f.expiredTombstone p.cutoff && !adjustedFile id db.ledger &&
      !p.locked id).mergeSort fun a b ↦ a.2.deletedAt.getD 0 ≤ b.2.deletedAt.getD 0).take p.limit

def IngestionRecord.withoutFile (row : IngestionRecord) : IngestionRecord :=
  { row with fileObjectId := none }

def deleteFileRow (id : Uuid) (db : Db) : Tx Db :=
  if recordedDeletion id db then integrityError "file_deletion_record.tenant_id"
  else .ok { db with
    files := db.files.erase id
    ingestions := db.ingestions.updateWhere (fun _ row ↦ row.fileObjectId = some id)
      IngestionRecord.withoutFile }

def purgeDeletedFiles (p : TombstonePass) (db : Db) : Tx (ℕ × Db) := do
  let rows := tombstonesToPurge p db
  let db ← rows.foldlM (fun db row ↦ deleteFileRow row.1 db) db
  return (rows.length, db)

/-! ## What a pass does -/

section

variable {p : TombstonePass} {db db' : Db} {n : ℕ} {id : Uuid} {f : FileObject}

theorem mem_tombstonesToPurge (h : (id, f) ∈ tombstonesToPurge p db) :
    db.files.lookup id = some f ∧ f.expiredTombstone p.cutoff ∧ adjustedFile id db.ledger = false := by
  have hselected := List.mem_mergeSort.mp (List.mem_of_mem_take h)
  obtain ⟨hrow, hpick⟩ := AList.mem_select_iff.mp hselected
  simp only [Bool.and_eq_true, Bool.not_eq_true'] at hpick
  exact ⟨hrow, hpick.1.1, hpick.1.2⟩

theorem deleteFileRow_eq_ok (h : deleteFileRow id db = .ok db') :
    recordedDeletion id db = false ∧ db' = { db with
      files := db.files.erase id
      ingestions := db.ingestions.updateWhere (fun _ row ↦ row.fileObjectId = some id)
        IngestionRecord.withoutFile } := by
  unfold deleteFileRow at h
  split at h
  · cases h
  · rename_i hrecorded
    exact ⟨Bool.eq_false_iff.mpr hrecorded, (Except.ok.inj h).symm⟩

/-- The database without some file rows. -/
structure Purged (db : Db) (ids : List Uuid) (db' : Db) : Prop where
  files : ∀ j, db'.files.lookup j = if j ∈ ids then none else db.files.lookup j
  ledger : db'.ledger = db.ledger
  deletions : db'.deletions = db.deletions
  operations : db'.operations = db.operations
  unrecorded : ∀ j ∈ ids, recordedDeletion j db = false

theorem Purged.cons {ids : List Uuid} {db'' : Db} (h : deleteFileRow id db = .ok db')
    (h' : Purged db' ids db'') : Purged db (id :: ids) db'' := by
  obtain ⟨hrecorded, rfl⟩ := deleteFileRow_eq_ok h
  refine ⟨fun j ↦ ?_, h'.ledger, h'.deletions, h'.operations, fun j hj ↦ ?_⟩
  · rw [h'.files j]
    by_cases hids : j ∈ ids
    · rw [if_pos hids, if_pos (List.mem_cons_of_mem _ hids)]
    · rw [if_neg hids]
      by_cases hj : j = id
      · subst hj
        rw [if_pos List.mem_cons_self]
        exact AList.lookup_erase _ _
      · rw [if_neg fun hmem ↦ (List.mem_cons.mp hmem).elim hj hids]
        exact AList.lookup_erase_ne hj
  · rcases List.mem_cons.mp hj with rfl | hj
    · exact hrecorded
    · exact h'.unrecorded j hj

theorem foldlM_deleteFileRow {rows : List (Uuid × FileObject)}
    (h : rows.foldlM (fun db row ↦ deleteFileRow row.1 db) db = .ok db') :
    Purged db (rows.map Prod.fst) db' := by
  induction rows generalizing db with
  | nil =>
      obtain rfl := Except.ok.inj h
      exact ⟨fun _ ↦ rfl, rfl, rfl, rfl, fun _ hj ↦ absurd hj List.not_mem_nil⟩
  | cons row rows ih =>
      rw [List.foldlM_cons] at h
      obtain ⟨db₁, hrow, hrest⟩ := Except.bind_eq_ok.mp h
      exact .cons hrow (ih hrest)

/-- A pass which commits removes the rows it has selected. -/
theorem purgeDeletedFiles_eq_ok (h : purgeDeletedFiles p db = .ok (n, db')) :
    Purged db ((tombstonesToPurge p db).map Prod.fst) db' := by
  obtain ⟨db₁, hrows, hreturn⟩ := Except.bind_eq_ok.mp h
  obtain ⟨-, rfl⟩ := Prod.mk.inj (Except.pure_eq_ok.mp hreturn)
  exact foldlM_deleteFileRow hrows

end

end S3mp.Files
