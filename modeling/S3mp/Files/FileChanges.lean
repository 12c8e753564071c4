import S3mp.Common.Clock
import S3mp.Files.FileReference
import S3mp.Files.ServiceWorld

/-!
# Deleting and renaming files

The calls of the file service which retain a file for its purge or accept its rename.
Both resolve a reference, which is a public one or an identifier, and check `If-Match`
against the ETag of the record they have found.
-/

namespace S3mp.Files

open Authorization Identity Storage Transition

/-- The same local clock time three natural months later in China. -/
def softDeleteDueAt (deletedAt : Timestamp) : Timestamp :=
  let moment := deletedAt + chinaOffset
  let (localYear, localMonth, localDay) := civilFromDays (moment / 86400000000)
  let monthIndex := localMonth - 1 + 3
  let year := localYear + monthIndex / 12
  let month := monthIndex % 12 + 1
  let day := min localDay (daysInMonth year month)
  daysFromCivil year month day * 86400000000 + moment % 86400000000 - chinaOffset

-- 2023-11-30T12:00:00Z, and the end of the February after it
example : softDeleteDueAt 1701345600000000 = 1709208000000000 := by decide

/-- The text whose SHA-256 is the fingerprint of a rename, by its fields. -/
structure RenamePayload where
  applicationId : Uuid
  sourceFileId : Uuid
  sourceEtag : Option String
  destinationKey : String
  deriving DecidableEq, Repr

/-- An accepted rename as a client sees it. -/
structure Renamed where
  operationId : Uuid
  operation : FileOperation
  resultFile : FileService.Public FileObject

namespace FileService

/-- Reading a local variable to which nothing has been assigned. -/
def unboundLocal : Raised :=
  .other "UnboundLocalError"

def requireIfMatch (etag : Option String) : FileService Unit :=
  lift ((Files.requireIfMatch etag).mapError ReconcileWorld.raised)

def checkEtag (current expected : String) : FileService Unit :=
  lift ((Files.checkEtag current expected).mapError ReconcileWorld.raised)

/-- The record, and whether a public reference has named it. -/
def foundRecord (byRef : Bool) : Option StoredFile → FileService (StoredFile × Bool)
  | none => fail "resource_not_found" "File not found" 404
  | some record => return (record, byRef)

def resolveFileReference (spaceId : Uuid) : Reference → FileService (StoredFile × Bool)
  | .fileRef ref => do foundRecord true (← call (.getFileByRef spaceId ref))
  | .fileId id => do foundRecord false (← call (.getFile spaceId id))
  | .malformed => fail "resource_not_found" "File not found" 404

variable (fingerprint : FingerprintPayload → String) (renameFingerprint : RenamePayload → String)
  (tenantId : Uuid) (ctx : PrincipalContext)

/-! ## Deletion -/

/-- The name `require_if_match` is imported for the missing header only, which makes it a local
variable of the whole function. -/
def deletePrecondition (etag : Option String) (byRef : Bool) :
    Option String → FileService Unit
  | none => if byRef then pure () else requireIfMatch none
  | some ifMatch => if etag ≠ some ifMatch then throw unboundLocal else pure ()

def deleteData (command : AuthorizedFileCommand) (idempotencyKey ifMatch : Option String)
    (byRef : Bool) (relativeKey : String) (now : Timestamp) : DeleteData where
  actorPrincipalId := some (ctx.actorPrincipalId.getD ctx.principalId)
  authorizationVersion := some ctx.authorizationVersion
  authorizationEvidence := some command.authorizationEvidence
  idempotencyKey := idempotencyKey
  ifMatch := ifMatch
  isFileRef := byRef
  originalRelativeKey := some relativeKey
  purgeDueAt := softDeleteDueAt now

/-- The answer shows when the file is due for its purge. -/
def deleteFile (spaceId : Uuid) (reference : Reference) (idempotencyKey ifMatch : Option String) :
    FileService (Option Timestamp) := do
  let (record, byRef) ← resolveFileReference spaceId reference
  let command ← commandForRecord fingerprint tenantId ctx record.file.stored "files.delete"
    idempotencyKey (.ifMatch ifMatch)
  deletePrecondition record.file.etag byRef ifMatch
  let space ← resolveSpace spaceId
  let relativeKey ← lift (relativeKeyOf tenantId spaceId space record.file.objectKey)
  let now ← read .now
  match ← call (.deleteFile spaceId record.id
    (deleteData ctx command idempotencyKey ifMatch byRef relativeKey now)) with
  | none => fail "resource_not_found" "File not found" 404
  | some deleted => return deleted.purgeDueAt

/-! ## Rename -/

/-- The header is checked for a record which a public reference has named only when there is
one. -/
def renamePrecondition (etag : Option String) : Option String → FileService Unit
  | none => pure ()
  | some ifMatch =>
    if etag ≠ some ifMatch then do
      requireIfMatch (some ifMatch)
      checkEtag (etag.getD "") ifMatch
    else pure ()

/-- The commands of a rename on its source. -/
structure SourceCommands where
  read : AuthorizedFileCommand
  delete : AuthorizedFileCommand
  move : AuthorizedFileCommand

def sourceCommands (record : StoredKey) : FileService SourceCommands := do
  let read ← commandForRecord fingerprint tenantId ctx record "files.read" none .none
  let delete ← commandForRecord fingerprint tenantId ctx record "files.delete" none .none
  let move ← commandForRecord fingerprint tenantId ctx record "files.move" none .none
  return ⟨read, delete, move⟩

def renameEvidence (applicationId : Uuid) (record : FileObject) : OperationEvidence where
  subjectKind := ctx.subjectKind
  applicationId := some applicationId
  actorApplicationId := ctx.actorApplicationId
  apiKeyId := ctx.apiKeyId
  apiKeyScopes := (ctx.apiKeyScopes.getD []).insertionSort (· ≤ ·)
  apiKeyDirectoryPrefix := ctx.apiKeyDirectoryPrefix
  renameIntegrity := some ⟨record.contentLength, record.etag, record.checksum⟩

def renameData (applicationId : Uuid) (record : StoredFile) (source : AuthorizedFileCommand)
    (destination : AuthorizedFileCommand) (space : StorageSpace) (ifMatch : Option String)
    (idempotencyKey : String) : RenameData where
  principalId := ctx.actorPrincipalId.getD ctx.principalId
  membershipId := ctx.membershipId
  applicationId := applicationId
  actorApplicationId := ctx.actorApplicationId
  sourceFileId := record.id
  sourceKey := source.relativeKey
  destinationKey := destination.relativeKey
  destinationPhysicalKey := destination.physicalKey
  resultFileRef := generateFileRef (some applicationId) destination.relativeKey
    record.file.metadata record.file.checksum
  ifMatch := ifMatch
  idempotencyKey := idempotencyKey
  requestFingerprint :=
    renameFingerprint ⟨applicationId, record.id, ifMatch, destination.relativeKey⟩
  storageNamespace := space.storageNamespace
  profileVersion := space.profileVersion
  authorizationVersion := ctx.authorizationVersion
  providerTargetVersion := source.providerTargetVersion
  authorizationEvidence := renameEvidence ctx applicationId record.file

def publicRename (spaceId : Uuid) (space : StorageSpace) (result : RenameResult)
    (resultFile : Uuid × FileObject) : FileService Renamed := do
  let file ← present tenantId spaceId space resultFile.1 resultFile.2.objectKey resultFile.2
  return ⟨result.id, result.operation, file⟩

/-- The source is a tombstone of a rename with the same key; the present authorization still
counts. -/
def replayRename (spaceId applicationId : Uuid) (idempotencyKey : String)
    (destination : AuthorizedFileCommand) (raised : Raised) : FileService Renamed := do
  match ← call (.replayRenameOperation applicationId idempotencyKey) with
  | none => throw raised
  | some replay =>
    match truthy replay.operation.sourceKey with
    | none => throw raised
    | some sourceKey =>
      if replay.operation.destinationKey ≠ some destination.relativeKey then throw raised
      else
        let _ ← inputCommand fingerprint tenantId ctx spaceId sourceKey "files.read" none .none
        let _ ← inputCommand fingerprint tenantId ctx spaceId sourceKey "files.delete" none .none
        let _ ← inputCommand fingerprint tenantId ctx spaceId sourceKey "files.move" none .none
        match replay.resultFile with
        | none => fail "resource_not_found" "Rename result not found" 404
        | some file =>
          let space ← resolveSpace spaceId
          publicRename tenantId spaceId space replay file

/-- The rename of a record which has been found. -/
def renameRecord (spaceId applicationId : Uuid) (record : StoredFile) (byRef : Bool)
    (destination : AuthorizedFileCommand) (ifMatch : Option String) (idempotencyKey : String) :
    FileService Renamed := do
  if ifMatch = none ∧ byRef = false then requireIfMatch none
  let source ← sourceCommands fingerprint tenantId ctx record.file.stored
  if source.read.relativeKey = destination.relativeKey then
    fail "validation_failed" "Destination key must differ from source" 422
  renamePrecondition record.file.etag ifMatch
  let space ← resolveSpace spaceId
  let result ← call (.createRenameOperation spaceId
    (renameData renameFingerprint ctx applicationId record source.read destination space ifMatch
      idempotencyKey))
  match result.resultFile with
  | none => throw (.other "rename operation is missing its result file")
  | some file => publicRename tenantId spaceId space result file

/-- `fileId` is the text of the reference. -/
def renameFile (spaceId : Uuid) (fileId : String) (reference : Reference) (objectKey : String)
    (ifMatch : Option String) (idempotencyKey : String) : FileService Renamed :=
  match ctx.subjectKind, ctx.applicationId with
  | .application, some applicationId => do
    let destination ← inputCommand fingerprint tenantId ctx spaceId objectKey "files.write"
      (some idempotencyKey) (.rename fileId)
    match ← tryCatch (do return Except.ok (← resolveFileReference spaceId reference))
        fun raised ↦ return .error raised with
    | .ok (record, byRef) =>
      renameRecord fingerprint renameFingerprint tenantId ctx spaceId applicationId record byRef
        destination ifMatch idempotencyKey
    | .error (.api error) =>
      if error.code ≠ "resource_not_found" then throw (Raised.api error)
      else
        replayRename fingerprint tenantId ctx spaceId applicationId idempotencyKey destination
          (Raised.api error)
    | .error (.other text) => throw (Raised.other text)
  | _, _ => fail "permission_denied" "Application API key is required" 403

end FileService

end S3mp.Files
