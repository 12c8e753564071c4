import S3mp.Files.Command
import S3mp.Files.Reconciler

/-!
# The jobs on deleted files

`reconcile_pending_deletions` of the file service moves the object of a deleted file
into the trash, and `_purge_due` of the retention scheduler removes it from there once
it is due.  Both are programs over the same requests, each of which may raise.
-/

namespace S3mp.Files

open Authorization Storage Transition

/-- A file as `list_pending_deletions` has read it. -/
structure PendingDeletion where
  tenantId : Uuid
  id : Uuid
  file : FileObject
  deletion : Option FileDeletionRecord
  deriving DecidableEq, Repr

/-- A file as its claim for the purge returns it. -/
structure ClaimedFile where
  tenantId : Uuid
  file : FileObject
  deriving DecidableEq, Repr

inductive RetentionRequest where
  | now
  | read (tenantId : Uuid) (r : SubjectRead)
  | getSpace (tenantId spaceId : Uuid)
  | head (target : ProviderTarget)
  | copy (source destination : ProviderTarget)
  | delete (target : ProviderTarget)
  | listPendingDeletions
  | recordDeleteFailure (tenantId fileId : Uuid) (maxAttempts : ℕ)
  | finalizeFileTrashMigration (tenantId fileId : Uuid)
  | zpopmin (count : ℕ)
  | zadd (fileId : Uuid) (score : Timestamp)
  | claimRetainedFileForPurge (fileId : Uuid)
  | finalizeRetainedFilePurge (tenantId fileId : Uuid)
  | recordRetainedPurgeFailure (fileId : Uuid) (maxAttempts : ℕ)
  deriving DecidableEq, Repr

abbrev RetentionRequest.Value : RetentionRequest → Type
  | .now => Timestamp
  | .read _ r => r.Value
  | .getSpace .. => Option StorageSpace
  | .head _ => Option ObjectMetadata
  | .listPendingDeletions => List PendingDeletion
  | .zpopmin _ => List (Uuid × Timestamp)
  | .claimRetainedFileForPurge _ => Option ClaimedFile
  | .copy .. | .delete _ | .recordDeleteFailure .. | .finalizeFileTrashMigration .. | .zadd ..
  | .finalizeRetainedFilePurge .. | .recordRetainedPurgeFailure .. => Unit

abbrev RetentionJob : Type → Type :=
  Raising Raised RetentionRequest.Value

/-- The space still is the one the file was stored in. -/
def FileObject.servedBy (f : FileObject) (space : StorageSpace) : Bool :=
  f.applicationId.all (fun id ↦ space.applicationId = some id) &&
    (truthy f.storageNamespace).all (fun ns ↦ space.storageNamespace = some ns) &&
    f.profileVersion = space.profileVersion

/-- What the evidence says of the subject; without evidence it is a human. -/
def deletionSubject (evidence : Option AuthorizationEvidence) : SubjectEvidence :=
  match evidence with
  | none => ⟨.human, none, none, none⟩
  | some evidence => evidence.subject

namespace RetentionJob

abbrev call (r : RetentionRequest) : RetentionJob r.Value :=
  Transition.call r

abbrev read (tenantId : Uuid) (r : SubjectRead) : RetentionJob r.Value :=
  call (.read tenantId r)

/-! ## The migration into the trash -/

def revalidateDelayedAction (tenantId principalId spaceId : Uuid) (relativeKey permission : String)
    (authorizationVersion : ℕ) (evidence : Option AuthorizationEvidence) : RetentionJob Bool := do
  match ← validateDelayedSubject (read tenantId) principalId (evidence.bind (·.membershipId))
      authorizationVersion (deletionSubject evidence) (some permission) with
  | none => return false
  | some subject =>
    if (truthy subject.apiKeyDirectoryPrefix).any fun directory ↦
        !within directory relativeKey then return false
    else
      let bindings ← read tenantId (.bindingsFor principalId spaceId subject.subjectKind)
      let now ← read tenantId .now
      match evaluate permission bindings spaceId relativeKey now with
      | none => throw (.other "prefix must be canonical and relative")
      | some decision => return decision.decision = .allow

/-- The key of the record is its physical one. -/
def stillAuthorized (p : PendingDeletion) : RetentionJob Bool :=
  match p.file.deletionPrincipalId with
  | none => return false
  | some principalId =>
    revalidateDelayedAction p.tenantId principalId p.file.storageSpaceId p.file.objectKey
      "files.delete" ((p.file.deletionAuthorizationVersion.filter (· ≠ 0)).getD 1)
      p.file.deletionAuthorizationEvidence

def resolveSpace (tenantId spaceId : Uuid) : RetentionJob StorageSpace := do
  match ← call (.getSpace tenantId spaceId) with
  | none => throw (.api ⟨"resource_not_found", "Storage space not found", 404⟩)
  | some space => return space

/-- The object in the trash as an earlier attempt has left it, or as it is copied now. -/
def ensureTrashed (source trash : ProviderTarget) (sourceState trashState : Option ObjectMetadata) :
    RetentionJob (Option ObjectMetadata) := do
  match trashState with
  | some found => return some found
  | none =>
    if sourceState.isNone then throw (.other "source object is missing before trash migration")
    else
      call (.copy source trash)
      call (.head trash)

/-- The object in the trash passes for a copy of the source when the lengths agree. -/
def trashVerified (sourceState trashState : Option ObjectMetadata) : Bool :=
  trashState.any fun found ↦ sourceState.all (found.contentLength = ·.contentLength)

def moveObject (source trash : ProviderTarget) : RetentionJob Unit := do
  let sourceState ← call (.head source)
  let trashState ← call (.head trash)
  let trashState ← ensureTrashed source trash sourceState trashState
  if !trashVerified sourceState trashState then
    throw (.other "trash object verification failed")
  else if sourceState.isSome then call (.delete source)
  else return ()

def migrateToTrash (p : PendingDeletion) (space : StorageSpace) : RetentionJob Unit := do
  match relativeKeyOf p.tenantId p.file.storageSpaceId space p.file.objectKey with
  | .error raised => throw raised
  | .ok _ =>
    match p.deletion.bind fun deletion ↦ truthy (some deletion.trashPhysicalKey) with
    | none => throw (.other "deletion trash target is missing")
    | some trashKey =>
      moveObject ⟨space.bucket, p.file.objectKey, 1⟩ ⟨space.bucket, trashKey, 1⟩
      call (.finalizeFileTrashMigration p.tenantId p.id)

def failDeletion (p : PendingDeletion) (maxAttempts : ℕ) : RetentionJob (Option Uuid) := do
  call (.recordDeleteFailure p.tenantId p.id maxAttempts)
  return none

/-- The body of the loop inside its `try`. -/
def reconcileDeletion (maxAttempts : ℕ) (p : PendingDeletion) : RetentionJob (Option Uuid) := do
  if !(← stillAuthorized p) then failDeletion p 1
  else
    let space ← resolveSpace p.tenantId p.file.storageSpaceId
    if p.file.providerTargetVersion ≠ space.providerTargetVersion then failDeletion p maxAttempts
    else if !p.file.servedBy space then failDeletion p maxAttempts
    else
      migrateToTrash p space
      return some p.id

/-- One turn of the loop.  What the handler's own transaction raises leaves the pass. -/
def deletionTurn (maxAttempts : ℕ) (p : PendingDeletion) : RetentionJob (Option Uuid) :=
  tryCatch (reconcileDeletion maxAttempts p) fun _ ↦ failDeletion p maxAttempts

def reconcilePendingDeletions (maxAttempts : ℕ) : RetentionJob (List Uuid) := do
  let records ← call .listPendingDeletions
  forEach (deletionTurn maxAttempts) records

/-! ## The purge -/

/-- The body of the `try`: whether the file has been purged. -/
def purgeMember (fileId : Uuid) : RetentionJob Bool := do
  match ← call (.claimRetainedFileForPurge fileId) with
  | none => return false
  | some record =>
    match ← call (.getSpace record.tenantId record.file.storageSpaceId) with
    | none => throw (.other "retained file storage space is unavailable")
    | some space =>
      call (.delete ⟨space.bucket, record.file.objectKey, 1⟩)
      call (.finalizeRetainedFilePurge record.tenantId fileId)
      return true

def purgeTurn (maxAttempts : ℕ) (fileId : Uuid) : RetentionJob Bool :=
  tryCatch (purgeMember fileId) fun _ ↦ do
    call (.recordRetainedPurgeFailure fileId maxAttempts)
    return false

def purgeRows (maxAttempts : ℕ) (now : Timestamp) : List (Uuid × Timestamp) → ℕ → RetentionJob ℕ
  | [], purged => return purged
  | (fileId, score) :: rows, purged =>
    -- The first member which is not yet due goes back, and the loop ends.
    if now < score then do
      call (.zadd fileId score)
      return purged
    else do
      let done ← purgeTurn maxAttempts fileId
      purgeRows maxAttempts now rows (if done then purged + 1 else purged)

def purgeDue (limit maxAttempts : ℕ) : RetentionJob ℕ := do
  let now ← call .now
  let rows ← call (.zpopmin limit)
  purgeRows maxAttempts now rows 0

end RetentionJob

end S3mp.Files
