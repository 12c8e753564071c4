import S3mp.Files.Rows
import S3mp.Governance.Ledger

/-!
# The database of one tenant

The rows a store transaction reads and writes.  Identifiers drawn by `uuid4()`
and clock readings are arguments of the transactions; an identifier already in
use violates the primary key.
-/

namespace S3mp

open Relational Governance Files

inductive ApplicationStatus where
  | active | deleted
  deriving DecidableEq, Repr

structure Application where
  principalId : Uuid
  status : ApplicationStatus
  authorizationVersion : ℕ
  deriving DecidableEq, Repr

structure Db where
  tenantActive : Bool
  applications : Table Uuid Application
  spaces : Table Uuid StorageSpace
  ledger : Ledger
  ingestions : Table Uuid IngestionRecord
  ingestionEvents : List IngestionEvent
  uploads : Table Uuid UploadSession
  multiparts : Table Uuid MultipartSession
  parts : Table (Uuid × ℕ) MultipartPart
  files : Table Uuid FileObject
  deletions : Table Uuid FileDeletionRecord
  operations : Table Uuid FileOperation
  outbox : Table Uuid OperationOutboxEvent
  resourceReservations : Table Uuid ResourceReservation

/-- Insertion under a primary key. -/
def insertRow {α : Type} (constraint : String) (id : Uuid) (row : α) (t : Table Uuid α) :
    Tx (Table Uuid α) :=
  if id ∈ t then integrityError constraint else .ok (t.insert id row)

theorem insertRow_eq_ok {α : Type} {constraint : String} {id : Uuid} {row : α}
    {t t' : Table Uuid α} :
    insertRow constraint id row t = .ok t' ↔ id ∉ t ∧ t' = t.insert id row := by
  unfold insertRow
  split
  · simp_all
  · simp_all [eq_comm]

/-! ## Unique indexes of `file_object` -/

/-- The predicate of the partial index `uq_file_object_active_key`. -/
def Files.FileObject.holdsKey (f : FileObject) : Bool :=
  f.softDeleted || f.status ∈ [.available, .renaming, .renameFailed, .deleting, .deleteFailed]

/-- The row violates a unique index against some other row of the table. -/
def Files.FileObject.conflictsIn (id : Uuid) (f : FileObject) (files : Table Uuid FileObject) :
    Option String :=
  if f.holdsKey && files.anyRow fun j g ↦
      j ≠ id && g.holdsKey && g.storageSpaceId = f.storageSpaceId && g.objectKey = f.objectKey then
    some "uq_file_object_active_key"
  else if f.publicFileRef.isSome && files.anyRow fun j g ↦
      j ≠ id && g.publicFileRef = f.publicFileRef then
    some "uq_file_object_public_file_ref"
  else none

def insertFile (id : Uuid) (f : FileObject) (files : Table Uuid FileObject) :
    Tx (Table Uuid FileObject) :=
  match f.conflictsIn id files with
  | some constraint => integrityError constraint
  | none => insertRow "file_object_pkey" id f files

theorem insertFile_eq_ok {id : Uuid} {f : FileObject} {files files' : Table Uuid FileObject} :
    insertFile id f files = .ok files' ↔
      f.conflictsIn id files = none ∧ id ∉ files ∧ files' = files.insert id f := by
  unfold insertFile
  split
  · simp_all
  · simp_all [insertRow_eq_ok]

end S3mp
