import S3mp.Files.Command
import S3mp.Files.FileStore
import S3mp.Files.ReadCommitted
import S3mp.Files.SessionStore

/-!
# The calls of the file service

`FileApplicationService` as programs.  Their requests are the reads and the
transactions of the stores and the calls to the object storage, each of which may
raise.  The identifiers a transaction draws and the time it reads are part of its
answer.  The service is the one with an ingestion store and an object storage.
-/

namespace S3mp.Files

open Authorization Identity Storage Transition

/-! ## Requests -/

inductive SessionRef where
  | upload (id : Uuid)
  | multipart (id : Uuid)
  deriving DecidableEq, Repr

def IngestionRecord.session (row : IngestionRecord) : Option SessionRef :=
  (row.uploadSessionId.map .upload).or (row.multipartSessionId.map .multipart)

structure UploadIntent where
  id : Uuid
  session : UploadSession
  ingestionId : Uuid
  replayed : Bool

structure MultipartIntent where
  id : Uuid
  session : MultipartSession
  ingestionId : Uuid
  replayed : Bool

structure RenameResult where
  id : Uuid
  operation : FileOperation
  resultFile : Option (Uuid × FileObject)

/-- A file row with the version its record ETag is made of. -/
structure StoredFile where
  id : Uuid
  file : FileObject
  recordVersion : ℕ
  deriving DecidableEq, Repr

structure Provenance where
  ingestion : IngestionRecord
  events : List IngestionEvent
  file : Option FileObject

inductive FileRequest where
  | read (r : SubjectRead)
  | getFile (spaceId fileId : Uuid)
  | getFileByRef (spaceId : Uuid) (ref : FileRef)
  | listFiles (spaceId : Uuid) (pre : String) (status : FileStatus)
  | fileNameIsOccupied (spaceId : Uuid) (physicalKey : String)
  | fileNameIsMigrating (spaceId : Uuid) (physicalKey : String)
  | updateFileMetadata (spaceId fileId : Uuid) (data : MetadataData)
  | deleteFile (spaceId fileId : Uuid) (data : DeleteData)
  | createOperation (spaceId : Uuid) (data : OperationData)
  | createRenameOperation (spaceId : Uuid) (data : RenameData)
  | replayRenameOperation (applicationId : Uuid) (idempotencyKey : String)
  | getOperation (id : Uuid)
  | getProvenance (id : Uuid)
  | createUploadIntent (session : SessionData) (data : IngestionData)
  | createMultipartIntent (session : SessionData) (data : IngestionData)
  | getUpload (id : Uuid)
  | getMultipart (id : Uuid)
  | listMultipartParts (id : Uuid)
  | getForSession (session : SessionRef)
  | expireUpload (id : Uuid)
  | expireMultipart (id : Uuid)
  | abortMultipart (id : Uuid)
  | setMultipartProviderId (id : Uuid) (providerUploadId : String)
  | recordMultipartPart (id : Uuid) (partNumber : ℕ) (part : MultipartPart)
  | completeUpload (id : Uuid) (data : CompletionData)
  | completeMultipart (id : Uuid) (data : CompletionData)
  | recordProviderResult (id : Uuid) (result : ProviderResult)
  | commitVerifiedFile (id : Uuid)
  | failOrQuarantine (id : Uuid) (status : IngestionStatus) (reason : FailureReason)
  | expire (id : Uuid)
  | listPending
  | reconciliationAttemptCount (id : Uuid)
  | head (target : ProviderTarget)
  | hashSha256 (target : ProviderTarget)
  | presignGet (target : ProviderTarget) (ttl : ℕ)
  | presignPut (target : ProviderTarget) (contentType : String) (ttl : ℕ)
      (checksum : Option String)
  | createMultipartUpload (target : ProviderTarget) (contentType : String)
      (checksum : Option String)
  | uploadPart (target : ProviderTarget) (uploadId : String) (partNumber : ℕ)
      (content : List UInt8)
  | completeMultipartUpload (target : ProviderTarget) (uploadId : String)
      (parts : List (ℕ × String))
  | abortMultipartUpload (target : ProviderTarget) (uploadId : String)
  | listParts (target : ProviderTarget) (uploadId : String)

abbrev FileRequest.Value : FileRequest → Type
  | .read r => r.Value
  | .getFile .. | .getFileByRef .. => Option StoredFile
  | .listFiles .. => List StoredFile
  | .fileNameIsOccupied .. | .fileNameIsMigrating .. => Bool
  | .updateFileMetadata .. => Option StoredFile
  | .deleteFile .. => Option FileObject
  | .createOperation .. => Uuid × FileOperation
  | .createRenameOperation .. => RenameResult
  | .replayRenameOperation .. => Option RenameResult
  | .getOperation _ => Option FileOperation
  | .getProvenance _ => Option Provenance
  | .createUploadIntent .. => UploadIntent
  | .createMultipartIntent .. => MultipartIntent
  | .getUpload _ => Option UploadSession
  | .getMultipart _ | .setMultipartProviderId .. => Option MultipartSession
  | .listMultipartParts _ => List (ℕ × MultipartPart)
  | .getForSession _ => Option (Uuid × IngestionRecord)
  | .recordMultipartPart .. => MultipartPart
  | .completeUpload .. | .completeMultipart .. => StoredFile
  | .recordProviderResult .. | .failOrQuarantine .. | .expire _ => IngestionRecord
  | .commitVerifiedFile _ => IngestionRecord × Option StoredFile
  | .listPending => List PendingRecord
  | .reconciliationAttemptCount _ => ℕ
  | .head _ => Option ObjectMetadata
  | .completeMultipartUpload .. => ObjectMetadata
  | .hashSha256 _ | .presignGet .. | .presignPut .. | .createMultipartUpload .. => String
  | .uploadPart .. => Option String
  | .listParts .. => List (ℕ × String)
  | .expireUpload _ | .expireMultipart _ | .abortMultipart _ | .abortMultipartUpload .. => Unit

abbrev FileService : Type → Type :=
  Raising Raised FileRequest.Value

/-! ## Commands -/

/-- What a request may call a file by. -/
inductive Reference where
  | fileRef (ref : FileRef)
  | fileId (id : Uuid)
  | malformed
  deriving DecidableEq, Repr

/-- The columns of a record from which its object is found. -/
structure StoredKey where
  storageSpaceId : Uuid
  providerTargetVersion : ℕ
  objectKey : String
  deriving DecidableEq, Repr

def FileObject.stored (f : FileObject) : StoredKey :=
  ⟨f.storageSpaceId, f.providerTargetVersion, f.objectKey⟩

def UploadSession.stored (u : UploadSession) : StoredKey :=
  ⟨u.storageSpaceId, u.providerTargetVersion, u.objectKey⟩

def MultipartSession.stored (m : MultipartSession) : StoredKey :=
  ⟨m.storageSpaceId, m.providerTargetVersion, m.objectKey⟩

namespace FileService

abbrev call (r : FileRequest) : FileService r.Value :=
  Transition.call r

abbrev read (r : SubjectRead) : FileService r.Value :=
  call (.read r)

def lift {α : Type} : Except Raised α → FileService α
  | .ok a => pure a
  | .error e => throw e

def fail {α : Type} (code message : String) (statusCode : ℕ) : FileService α :=
  throw (.api ⟨code, message, statusCode⟩)

/-- One request of the service. -/
abbrev ask (r : FileRequest) :
    Program (fun r : FileRequest ↦ Except Raised r.Value) (Except Raised r.Value) :=
  Program.ask r

/-- The requests of the reconciliation are among those of the service. -/
def ofReconcile : (r : ReconcileRequest) → Program (fun r : FileRequest ↦ Except Raised r.Value)
    (Except Raised r.Value)
  | .reconciliationAttemptCount _ id => ask (.reconciliationAttemptCount id)
  | .failOrQuarantine _ id status reason => ask (.failOrQuarantine id status reason)
  | .read _ r => ask (.read r)
  | .getSpace _ spaceId => ask (.read (.getSpace spaceId))
  | .commitVerifiedFile _ id => (ask (.commitVerifiedFile id)).bind fun x ↦ .done (x.map Prod.fst)
  | .head target => ask (.head target)
  | .hashSha256 target => ask (.hashSha256 target)
  | .recordProviderResult _ id result => ask (.recordProviderResult id result)

def ofReconciler {α : Type} (x : Reconciler α) : FileService α :=
  .mk (x.run.translate ofReconcile)

def resolveSpace (spaceId : Uuid) : FileService StorageSpace := do
  match ← read (.getSpace spaceId) with
  | none => fail "resource_not_found" "Storage space not found" 404
  | some space => return space

def requireApplicationNamespace (ctx : PrincipalContext) (space : StorageSpace) :
    FileService Unit :=
  if ctx.subjectKind = .application ∧ space.applicationId ≠ ctx.applicationId then
    fail "permission_denied" "Application credentials cannot address another application" 403
  else pure ()

def checkOwnership (principalId : Uuid) (ctx : PrincipalContext) : FileService Unit :=
  if principalId ≠ ctx.actorPrincipalId.getD ctx.principalId then
    fail "permission_denied" "Not authorized for this resource" 403
  else pure ()

section

variable (fingerprint : FingerprintPayload → String) (tenantId : Uuid) (ctx : PrincipalContext)

def command (spaceId : Uuid) (i : CommandInput) : FileService AuthorizedFileCommand := do
  let space ← resolveSpace spaceId
  requireApplicationNamespace ctx space
  let bindings ← read (.bindingsFor ctx.principalId spaceId ctx.subjectKind)
  let now ← read .now
  lift (AuthorizedFileCommand.create fingerprint tenantId ctx spaceId space bindings now i)

/-- A command on new input of the caller. -/
def inputCommand (spaceId : Uuid) (key action : String) (idempotencyKey : Option String)
    (semantics : Semantics) : FileService AuthorizedFileCommand :=
  command fingerprint tenantId ctx spaceId ⟨key, action, idempotencyKey, semantics, false⟩

def commandForRecord (record : StoredKey) (action : String) (idempotencyKey : Option String)
    (semantics : Semantics) : FileService AuthorizedFileCommand := do
  let space ← resolveSpace record.storageSpaceId
  if record.providerTargetVersion ≠ space.providerTargetVersion then
    fail "resource_not_found" "Provider target requires migration" 404
  let key ← lift (relativeKeyOf tenantId record.storageSpaceId space record.objectKey)
  command fingerprint tenantId ctx record.storageSpaceId
    ⟨key, action, idempotencyKey, semantics, true⟩

end

/-! ## Public representations -/

/-- A record as a client sees it: its key is the relative one. -/
structure Public (α : Type) where
  id : Uuid
  objectKey : String
  record : α

section

variable {α : Type} (tenantId spaceId : Uuid) (space : StorageSpace)

def present (id : Uuid) (objectKey : String) (record : α) : FileService (Public α) := do
  let key ← lift (relativeKeyOf tenantId spaceId space objectKey)
  return ⟨id, key, record⟩

def publicFile (f : StoredFile) : FileService (Public FileObject) :=
  present tenantId spaceId space f.id f.file.objectKey f.file

def publicUpload (id : Uuid) (u : UploadSession) : FileService (Public UploadSession) :=
  present tenantId spaceId space id u.objectKey u

def publicMultipart (id : Uuid) (m : MultipartSession) : FileService (Public MultipartSession) :=
  present tenantId spaceId space id m.objectKey m

end

end FileService

end S3mp.Files
