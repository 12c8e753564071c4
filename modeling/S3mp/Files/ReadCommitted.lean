import S3mp.Files.FileStore
import S3mp.Files.OperationStore

/-!
# Transactions at READ COMMITTED

A statement sees what was committed when it began.  `delete_file` reads its row
without a lock and writes it later.  A query `FOR UPDATE` returns the current
version of the rows it saw, but no row which was inserted since.  The transactions
below take the file rows as they were when they read them.  All other
transactions on operations lock the rows they decide on, and
`create_rename_operation` is guarded by unique indexes where it does not.
-/

namespace S3mp.Files

open Relational

/-! ## Creation -/

/-- What the locking query on the keys returns. -/
def lockedRows (seen files : Table Uuid FileObject) (spaceId : Uuid) (keys : List String) :
    Table Uuid FileObject :=
  files.deleteWhere fun j _ ↦
    !(seen.lookup j).any fun f ↦ f.storageSpaceId = spaceId && keys.contains f.objectKey

def OperationData.lockedRows (data : OperationData) (seen : Table Uuid FileObject)
    (spaceId : Uuid) (db : Db) : Table Uuid FileObject :=
  Files.lockedRows seen db.files spaceId
    ((operationResourceKeys data).1 ++ (operationResourceKeys data).2)

/-- The creation of an operation from the rows its query returned. -/
def createOperationSeen (seen : Table Uuid FileObject) (ids : OperationIds) (spaceId : Uuid)
    (data : OperationData) (db : Db) : Tx (FileOperation × Db) := do
  let (operation, locked) ← createOperation ids spaceId data
    { db with files := data.lockedRows seen spaceId db }
  return (operation, { locked with
    files := occupy ids.operation (operationFileIds ids.operation locked) db.files })

/-! ## Deletion -/

/-- A flush writes a column when the value assigned is not the value read. -/
def flushed {α : Type} [DecidableEq α] (read assigned current : α) : α :=
  if assigned = read then current else assigned

/-- The row `f` after the deletion of the version `seen` of it has been flushed. -/
def FileObject.retainedOver (now : Timestamp) (data : DeleteData) (seen f : FileObject) :
    FileObject :=
  { f with
    status := flushed seen.status .deleting f.status
    softDeleted := flushed seen.softDeleted true f.softDeleted
    deletedAt := flushed seen.deletedAt (some now) f.deletedAt
    purgeDueAt := flushed seen.purgeDueAt (some data.purgeDueAt) f.purgeDueAt
    purgeState := flushed seen.purgeState (some .pendingMigration) f.purgeState
    purgeAttemptCount := flushed seen.purgeAttemptCount 0 f.purgeAttemptCount
    purgeNextRetryAt := flushed seen.purgeNextRetryAt none f.purgeNextRetryAt
    deletionPrincipalId :=
      flushed seen.deletionPrincipalId data.actorPrincipalId f.deletionPrincipalId
    deletionAuthorizationVersion :=
      flushed seen.deletionAuthorizationVersion data.authorizationVersion
        f.deletionAuthorizationVersion
    deletionAuthorizationEvidence :=
      flushed seen.deletionAuthorizationEvidence data.authorizationEvidence
        f.deletionAuthorizationEvidence
    deletionIdempotencyKey :=
      flushed seen.deletionIdempotencyKey data.idempotencyKey f.deletionIdempotencyKey }

/-- The flush of a deletion whose checks have passed on the row read. -/
def flushDeletion (now : Timestamp) (deletionId fileId : Uuid) (data : DeleteData)
    (row : FileObject) (db : Db) : Tx (Option FileObject × Db) :=
  match db.files.lookup fileId with
  | none => .error (.value "UPDATE expected to update 1 row(s); 0 were matched")
  | some f =>
    match (FileObject.retainedOver now data row f).conflictsIn fileId db.files with
    | some constraint => integrityError constraint
    | none =>
      let deletion := deletionRecord now fileId deletionId data row
      if db.deletions.anyRow fun _ d ↦ d.idempotencyKey = deletion.idempotencyKey then
        integrityError "file_deletion_record_idempotency_key"
      else do
        let deletions ← insertRow "file_deletion_record_pkey" deletionId deletion db.deletions
        return (some (row.retained now data), { db with
          deletions, files := db.files.update fileId (FileObject.retainedOver now data row) })

/-- `delete_file` on the row as it was read. -/
def deleteFileSeen (seen : Table Uuid FileObject) (now : Timestamp)
    (deletionId spaceId fileId : Uuid) (data : DeleteData) (db : Db) :
    Tx (Option FileObject × Db) :=
  match seen.lookup fileId with
  | none => .ok (none, db)
  | some row =>
    if row.storageSpaceId ≠ spaceId then .ok (none, db)
    else if row.softDeleted ∧ row.deletionIdempotencyKey = data.idempotencyKey then
      .ok (some row, db)
    else if row.status ≠ .available ∨ row.softDeleted then .ok (none, db)
    else if row.activeOperationId.isSome then
      raise "file_operation_in_progress" "File is occupied by an asynchronous operation" 409
    else do
      validateDeleteEtag row.etag data.ifMatch data.isFileRef
      flushDeletion now deletionId fileId data row db

/-! ## Metadata -/

/-- The columns of a file row which only `update_file_metadata` uses. -/
structure MetadataVersion where
  recordVersion : ℕ
  idempotencyKey : Option String
  fingerprint : Option String
  deriving DecidableEq, Repr

def MetadataVersion.initial : MetadataVersion := ⟨1, none, none⟩

structure MetadataData where
  metadata : Option String
  publicFileRef : Option FileRef
  idempotencyKey : String
  requestFingerprint : String
  ifMatch : String

def FileObject.withMetadata (data : MetadataData) (f : FileObject) : FileObject :=
  { f with metadata := data.metadata, publicFileRef := data.publicFileRef }

/-- `recordEtag` is the digest of the file's id and its record version. -/
def updateFileMetadata (recordEtag : Uuid → ℕ → String) (spaceId fileId : Uuid)
    (data : MetadataData) (db : Db) (versions : Table Uuid MetadataVersion) :
    Tx (Option FileObject × Db × Table Uuid MetadataVersion) :=
  match db.files.lookup fileId with
  | none => .ok (none, db, versions)
  | some f =>
    if f.storageSpaceId ≠ spaceId ∨ f.status ≠ .available ∨ f.softDeleted then
      .ok (none, db, versions)
    else if f.activeOperationId.isSome then
      raise "file_operation_in_progress" "File is occupied by an asynchronous operation" 409
    else
      let version := (versions.lookup fileId).getD .initial
      if version.idempotencyKey = some data.idempotencyKey then
        if version.fingerprint ≠ some data.requestFingerprint then
          raise "idempotency_key_reused"
            "Idempotency key was used for a different metadata update" 409
        else .ok (some f, db, versions)
      else do
        checkEtag (recordEtag fileId version.recordVersion) data.ifMatch
        match (f.withMetadata data).conflictsIn fileId db.files with
        | some constraint => integrityError constraint
        | none => return (some (f.withMetadata data),
            { db with files := db.files.update fileId fun _ ↦ f.withMetadata data },
            versions.insert fileId ⟨version.recordVersion + 1, some data.idempotencyKey,
              some data.requestFingerprint⟩)

/-! ## What they write -/

variable {db db' : Db} {now : Timestamp} {spaceId fileId : Uuid}

/-- A deletion goes by the row it has read, and writes the row there is. -/
theorem deleteFileSeen_eq_ok {seen : Table Uuid FileObject} {deletionId : Uuid} {data : DeleteData}
    {out : Option FileObject}
    (h : deleteFileSeen seen now deletionId spaceId fileId data db = .ok (out, db')) :
    db' = db ∨ ∃ row f deletions, seen.lookup fileId = some row ∧ row.status = .available ∧
      row.softDeleted = false ∧ row.activeOperationId = none ∧ db.files.lookup fileId = some f ∧
      (FileObject.retainedOver now data row f).conflictsIn fileId db.files = none ∧
      db' = { db with
        deletions
        files := db.files.update fileId fun _ ↦ FileObject.retainedOver now data row f } := by
  unfold deleteFileSeen at h
  split at h
  · cases h
    exact Or.inl rfl
  rename_i row hrow
  split at h
  · cases h
    exact Or.inl rfl
  split at h
  · cases h
    exact Or.inl rfl
  split at h
  · cases h
    exact Or.inl rfl
  rename_i havailable
  split at h
  · simp at h
  rename_i hfree
  push Not at havailable
  obtain ⟨⟨⟩, -, h⟩ := Except.bind_eq_ok.mp h
  unfold flushDeletion at h
  split at h
  · cases h
  rename_i f hf
  split at h
  · simp at h
  rename_i hconflicts
  dsimp only at h
  split at h
  · simp at h
  obtain ⟨deletions, -, h⟩ := Except.bind_eq_ok.mp h
  obtain ⟨-, rfl⟩ := Prod.mk.inj (Except.pure_eq_ok.mp h)
  refine Or.inr ⟨row, f, deletions, hrow, havailable.1, by simpa using havailable.2,
    by simpa using hfree, hf, hconflicts, ?_⟩
  rw [AList.update_eq_const hf]

theorem updateFileMetadata_eq_ok {recordEtag : Uuid → ℕ → String} {data : MetadataData}
    {versions versions' : Table Uuid MetadataVersion} {out : Option FileObject}
    (h : updateFileMetadata recordEtag spaceId fileId data db versions = .ok (out, db', versions')) :
    db' = db ∨ ∃ f, db.files.lookup fileId = some f ∧ f.activeOperationId = none ∧
      (f.withMetadata data).conflictsIn fileId db.files = none ∧
      db' = { db with files := db.files.update fileId fun _ ↦ f.withMetadata data } := by
  unfold updateFileMetadata at h
  split at h
  · cases h
    exact Or.inl rfl
  rename_i f hf
  split at h
  · cases h
    exact Or.inl rfl
  split at h
  · simp at h
  rename_i hfree
  dsimp only at h
  split at h
  · split at h
    · simp at h
    · cases h
      exact Or.inl rfl
  obtain ⟨⟨⟩, -, h⟩ := Except.bind_eq_ok.mp h
  split at h
  · simp at h
  rename_i hconflicts
  cases h
  exact Or.inr ⟨f, hf, by simpa using hfree, hconflicts, rfl⟩

end S3mp.Files
