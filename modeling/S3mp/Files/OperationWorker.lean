import S3mp.Files.DelayedSubject
import S3mp.Identity.Context
import S3mp.Storage.Checksum
import S3mp.Storage.Policy
import S3mp.Transition.Raising

/-!
# The operation worker

`FileOperationWorker._execute` as a program: its requests are the reads which
authorize it, the calls to the object storage and the one transaction it commits
itself.  Any of them may raise.  A raise during the authorization of the subject
ends the delivery; a raise after it is an unavailable object storage.
-/

namespace S3mp.Files

open Authorization Identity Storage Transition

structure ObjectMetadata where
  contentLength : ℕ
  etag : Option String
  contentType : Option String
  versionId : Option String
  checksumSha256 : Option String
  deriving DecidableEq, Repr

inductive WorkerRequest where
  | read (r : SubjectRead)
  | head (target : ProviderTarget)
  | copy (source destination : ProviderTarget)
  | delete (target : ProviderTarget)
  | recordRenameProviderResult (id : Uuid) (providerEtag : Option String)
  deriving DecidableEq, Repr

abbrev WorkerRequest.Value : WorkerRequest → Type
  | .read r => r.Value
  | .head _ => Option ObjectMetadata
  | .copy .. | .delete _ | .recordRenameProviderResult .. => Unit

/-- A request either returns its value or raises. -/
abbrev Worker : Type → Type :=
  Raising Unit WorkerRequest.Value

namespace Worker

abbrev call (r : WorkerRequest) : Worker r.Value :=
  Transition.call r

abbrev read (r : SubjectRead) : Worker r.Value :=
  call (.read r)

end Worker

/-- What a delivery reports: a status and a reason. -/
abbrev Outcome := OperationStatus × Option String

def operationContext (op : FileOperation) (subject : DelayedSubject) : Option PrincipalContext :=
  let evidence := op.authorizationEvidence
  PrincipalFields.context <| match subject.subjectKind with
    | .application => forApplication op.principalId op.authorizationVersion evidence.applicationId
        evidence.apiKeyId (some (subject.apiKeyScopes.getD [])) subject.apiKeyDirectoryPrefix
    | .human => forMember op.principalId (op.membershipId.getD 1) op.authorizationVersion

/-- Why the space no longer is the one the operation was accepted for. -/
def spaceMismatch (op : FileOperation) (space : StorageSpace) : Option String :=
  if op.providerTargetVersion ≠ space.providerTargetVersion then some "legacy_provider_target"
  else if op.applicationId.any fun id ↦ space.applicationId ≠ some id then
    some "application_namespace_mismatch"
  else if (truthy op.storageNamespace).any fun ns ↦ space.storageNamespace ≠ some ns then
    some "application_namespace_changed"
  else if op.profileVersion ≠ space.profileVersion then some "storage_profile_changed"
  else none

def authorize (ctx : PrincipalContext) (spaceId : Uuid) (permission key : String) :
    Worker Bool := do
  if ctx.subjectKind = .application ∧ permission ∉ ctx.apiKeyScopes.getD [] then return false
  else if (truthy ctx.apiKeyDirectoryPrefix).any fun directory ↦ !within directory key then
    return false
  else
    let bindings ← Worker.read (.bindingsFor ctx.principalId spaceId ctx.subjectKind)
    let now ← Worker.read .now
    match evaluate permission bindings spaceId key now with
    | none => throw ()
    | some decision => return decision.decision = .allow

/-- The first permission which is not granted ends the checks. -/
def authorizeAll (ctx : PrincipalContext) (spaceId : Uuid) : List (String × String) → Worker Bool
  | [] => return true
  | (permission, key) :: rest => do
      if ← authorize ctx spaceId permission key then authorizeAll ctx spaceId rest
      else return false

/-- The permissions checked before the object storage is used. -/
def requiredPermissions (operationType : OperationType) (source destination : String) :
    List (String × String) :=
  [("files.read", source), ("files.write", destination)] ++
    if operationType = .rename then [("files.move", source)] else []

/-- Why the destination is not accepted as the copy of the source.  A copy or a move
compares lengths only, and the ETag is never compared. -/
def copyMismatch (op : FileOperation) (source : Option ObjectMetadata)
    (destination : ObjectMetadata) : Option String :=
  let integrity := op.authorizationEvidence.renameIntegrity
  if op.operationType = .rename ∧ (integrity.bind (·.contentLength)).any
      (destination.contentLength ≠ ·) then some "rename_content_length_mismatch"
  else if source.any fun s ↦ s.contentLength ≠ destination.contentLength then
    some "copy_verification_failed"
  else if op.operationType = .rename ∧
      ((normalizedSha256 (integrity.bind (·.checksum))).any
          (destination.checksumSha256 ≠ some ·) ∨
        (source.bind (·.checksumSha256)).any (destination.checksumSha256 ≠ some ·)) then
    some "rename_checksum_mismatch"
  else none

/-- The destination as it is found, or as a copy leaves it: an earlier attempt may have
copied and crashed. -/
def ensureCopied (source destination : ProviderTarget) (sourceState : Option ObjectMetadata)
    (destinationState : Option ObjectMetadata) : Worker (Except Outcome ObjectMetadata) := do
  match destinationState with
  | some found => return .ok found
  | none =>
    if sourceState.isNone then return .error (.failed, some "source_object_missing")
    else
      Worker.call (.copy source destination)
      match ← Worker.call (.head destination) with
      | none => return .error (.retryWait, some "copy_verification_failed")
      | some copied => return .ok copied

def removeSource (ctx : PrincipalContext) (spaceId : Uuid) (sourceKey : String)
    (source : ProviderTarget) (sourceState : Option ObjectMetadata) : Worker Outcome := do
  if sourceState.isNone then return (.succeeded, none)
  else if !(← authorize ctx spaceId "files.delete" sourceKey) then
    return (.partialFailure, some "source_delete_authorization_revoked")
  else
    tryCatch (do
      Worker.call (.delete source)
      return (.succeeded, none)) fun _ ↦ return (.partialFailure, some "source_delete_failed")

def recordResult (id : Uuid) (op : FileOperation) (copied : ObjectMetadata) : Worker Unit :=
  if op.operationType = .rename then Worker.call (.recordRenameProviderResult id copied.etag)
  else return ()

/-- Verifies the copy and, unless the operation is a copy, takes the source away. -/
def acceptCopy (id : Uuid) (op : FileOperation) (ctx : PrincipalContext) (spaceId : Uuid)
    (sourceKey : String) (source : ProviderTarget) (sourceState : Option ObjectMetadata)
    (copied : ObjectMetadata) : Worker Outcome := do
  match copyMismatch op sourceState copied with
  | some reason => return (.retryWait, some reason)
  | none =>
    recordResult id op copied
    if op.operationType = .copy then return (.succeeded, none)
    else removeSource ctx spaceId sourceKey source sourceState

def transferObject (id : Uuid) (op : FileOperation) (ctx : PrincipalContext) (spaceId : Uuid)
    (sourceKey : String) (source destination : ProviderTarget) : Worker Outcome := do
  let sourceState ← Worker.call (.head source)
  let destinationState ← Worker.call (.head destination)
  match ← ensureCopied source destination sourceState destinationState with
  | .error outcome => return outcome
  | .ok copied => acceptCopy id op ctx spaceId sourceKey source sourceState copied

def deleteKeys (tenantId : Uuid) (ctx : PrincipalContext) (spaceId : Uuid) (space : StorageSpace) :
    List String → Worker Outcome
  | [] => return (.succeeded, none)
  | key :: keys => do
      if !(← authorize ctx spaceId "files.delete" key) then
        return (.cancelled, some "authorization_revoked")
      else
        match deriveProviderTarget tenantId spaceId space key with
        | none => return (.cancelled, some "storage_target_unverifiable")
        | some target =>
          Worker.call (.delete target)
          deleteKeys tenantId ctx spaceId space keys

def performTransfer (tenantId id : Uuid) (op : FileOperation) (ctx : PrincipalContext)
    (spaceId : Uuid) (space : StorageSpace) : Worker Outcome := do
  match truthy op.sourceKey, truthy op.destinationKey with
  | some sourceKey, some destinationKey =>
    if !(← authorizeAll ctx spaceId (requiredPermissions op.operationType sourceKey
        destinationKey)) then
      return (.cancelled, some "authorization_revoked")
    else
      match deriveProviderTarget tenantId spaceId space sourceKey,
        deriveProviderTarget tenantId spaceId space destinationKey with
      | some source, some destination =>
        transferObject id op ctx spaceId sourceKey source destination
      | _, _ => return (.cancelled, some "storage_target_unverifiable")
  | _, _ => return (.failed, some "operation_keys_missing")

/-- The body of the `try`: whatever raises in it is an unavailable object storage. -/
def performOperation (tenantId id : Uuid) (op : FileOperation) (ctx : PrincipalContext)
    (spaceId : Uuid) (space : StorageSpace) : Worker Outcome :=
  tryCatch
    (if op.operationType = .delete then deleteKeys tenantId ctx spaceId space op.keys
      else performTransfer tenantId id op ctx spaceId space)
    fun _ ↦ return (.retryWait, some "object_storage_unavailable")

def executeOperation (tenantId id : Uuid) (op : FileOperation) : Worker Outcome := do
  match op.storageSpaceId with
  | none => return (.cancelled, some "legacy_operation_missing_storage_space")
  | some spaceId =>
    match ← validateDelayedSubject Worker.read op.principalId op.membershipId
        op.authorizationVersion op.authorizationEvidence.subject none with
    | none => return (.cancelled, some "subject_inactive_or_stale")
    | some subject =>
      match operationContext op subject with
      | none => throw ()
      | some ctx =>
        match ← Worker.read (.getSpace spaceId) with
        | none => return (.cancelled, some "storage_space_missing")
        | some space =>
          match spaceMismatch op space with
          | some reason => return (.cancelled, some reason)
          | none => performOperation tenantId id op ctx spaceId space

end S3mp.Files
