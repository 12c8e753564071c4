import S3mp.Files.DelayedSubject
import S3mp.Files.IngestionStore
import S3mp.Files.OperationWorker
import S3mp.Transition.Play

/-!
# The reconciliation of pending uploads

`reconcile_pending_ingestions` of the file service as a program.  Its requests are
the transactions of the ingestion store, the reads which authorize delayed work and
the calls to the object storage, each of which may raise.  An `ApiError` of one
record leaves the pass; anything else which is raised queues the record again.
-/

namespace S3mp.Files

open Authorization Storage Transition

/-- What is raised, as the handlers of the pass tell it apart. -/
inductive Raised where
  | api (error : ApiError)
  | other (text : String)
  deriving DecidableEq, Repr

def Raised.isApi : Raised → Bool
  | .api _ => true
  | .other _ => false

/-- A record as `list_pending` has read it. -/
structure PendingRecord where
  tenantId : Uuid
  id : Uuid
  row : IngestionRecord
  deriving DecidableEq, Repr

/-- The space is read by the validation of the record, and once more by `_resolve_space`. -/
inductive ReconcileRequest where
  | reconciliationAttemptCount (tenantId id : Uuid)
  | failOrQuarantine (tenantId id : Uuid) (status : IngestionStatus) (reason : FailureReason)
  | read (tenantId : Uuid) (r : SubjectRead)
  | getSpace (tenantId spaceId : Uuid)
  | commitVerifiedFile (tenantId id : Uuid)
  | head (target : ProviderTarget)
  | hashSha256 (target : ProviderTarget)
  | recordProviderResult (tenantId id : Uuid) (result : ProviderResult)
  deriving DecidableEq, Repr

abbrev ReconcileRequest.Value : ReconcileRequest → Type
  | .reconciliationAttemptCount .. => ℕ
  | .failOrQuarantine .. | .commitVerifiedFile .. | .recordProviderResult .. => IngestionRecord
  | .read _ r => r.Value
  | .getSpace .. => Option StorageSpace
  | .head _ => Option ObjectMetadata
  | .hashSha256 _ => String

abbrev Reconciler : Type → Type :=
  Raising Raised ReconcileRequest.Value

namespace Reconciler

abbrev call (r : ReconcileRequest) : Reconciler r.Value :=
  Transition.call r

abbrev read (tenantId : Uuid) (r : SubjectRead) : Reconciler r.Value :=
  call (.read tenantId r)

end Reconciler

/-- The space still is the one the record was made for. -/
def IngestionRecord.servedBy (row : IngestionRecord) (space : StorageSpace) : Bool :=
  row.applicationId.all (fun id ↦ space.applicationId = some id) &&
    (truthy row.storageNamespace).all (fun ns ↦ space.storageNamespace = some ns) &&
    row.profileVersion = space.profileVersion

def revalidateIngestion (p : PendingRecord) : Reconciler Bool := do
  match ← Reconciler.read p.tenantId (.getSpace p.row.storageSpaceId) with
  | none => return false
  | some space =>
    if !p.row.servedBy space then return false
    else
      let principalId := p.row.authorizationEvidence.targetPrincipalId
      match ← validateDelayedSubject (Reconciler.read p.tenantId) principalId p.row.membershipId
          p.row.authorizationVersion p.row.authorizationEvidence.subject (some "files.write") with
      | none => return false
      | some subject =>
        if (truthy subject.apiKeyDirectoryPrefix).any fun directory ↦
            !within directory p.row.relativeKey then return false
        else
          let bindings ← Reconciler.read p.tenantId
            (.bindingsFor principalId p.row.storageSpaceId subject.subjectKind)
          let now ← Reconciler.read p.tenantId .now
          match evaluate "files.write" bindings p.row.storageSpaceId p.row.relativeKey now with
          | none => throw (.other "prefix must be canonical and relative")
          | some decision => return decision.decision = .allow

def resolveSpace (tenantId spaceId : Uuid) : Reconciler StorageSpace := do
  match ← Reconciler.call (.getSpace tenantId spaceId) with
  | none => throw (.api ⟨"resource_not_found", "Storage space not found", 404⟩)
  | some space => return space

/-- The hash of the object's bytes.  The adapter of the object storage has one. -/
def serverChecksum (target : ProviderTarget) : Reconciler String := do
  let value ← Reconciler.call (.hashSha256 target)
  match providerChecksumToHex (some value) with
  | none => throw (.api ⟨"upload_verification_failed", "Server checksum is invalid", 409⟩)
  | some normalized => return "sha256:" ++ normalized

def endIngestion (p : PendingRecord) (status : IngestionStatus) (reason : FailureReason) :
    Reconciler (Option IngestionRecord) := do
  let _ ← Reconciler.call (.failOrQuarantine p.tenantId p.id status reason)
  return none

/-- The record lies where the space puts its key today.  No place is derived for a key which is
not canonical. -/
def checkTarget (p : PendingRecord) (space : StorageSpace) : Reconciler Bool :=
  if p.row.bucket ≠ space.bucket then return false
  else
    match deriveProviderTarget p.tenantId p.row.storageSpaceId space p.row.relativeKey with
    | none => throw (.other "provider target")
    | some target => return p.row.physicalKey = target.key

def commitRecord (p : PendingRecord) : Reconciler (Option IngestionRecord) := do
  let row ← Reconciler.call (.commitVerifiedFile p.tenantId p.id)
  return some row

def verifyAndCommit (p : PendingRecord) : Reconciler (Option IngestionRecord) := do
  let target : ProviderTarget := ⟨p.row.bucket, p.row.physicalKey, 1⟩
  match ← Reconciler.call (.head target) with
  | none => endIngestion p .failed .reconciliationObjectMissing
  | some metadata =>
    let checksum ← serverChecksum target
    let _ ← Reconciler.call (.recordProviderResult p.tenantId p.id
      { providerEtag := metadata.etag
        providerVersionId := metadata.versionId
        actualSize := some metadata.contentLength
        actualContentType := metadata.contentType
        checksum := some checksum })
    commitRecord p

/-- The body of the loop inside its `try`. -/
def reconcileRecord (maxAttempts : ℕ) (p : PendingRecord) :
    Reconciler (Option IngestionRecord) := do
  let attempts ← Reconciler.call (.reconciliationAttemptCount p.tenantId p.id)
  if maxAttempts ≤ attempts then endIngestion p .failed .reconciliationRetryExhausted
  else if !(← revalidateIngestion p) then
    endIngestion p .failed .reconciliationAuthorizationRevoked
  else
    let space ← resolveSpace p.tenantId p.row.storageSpaceId
    if p.row.providerTargetVersion ≠ space.providerTargetVersion then
      endIngestion p .reconciliationRequired .legacyProviderTarget
    else if !(← checkTarget p space) then
      endIngestion p .reconciliationRequired .providerTargetMismatch
    else if p.row.status = .verified then commitRecord p
    else verifyAndCommit p

/-- One turn of the loop.  The handler's own transaction may raise as well. -/
def reconcileTurn (maxAttempts : ℕ) (p : PendingRecord) : Reconciler (Option IngestionRecord) :=
  if p.row.status = .initiated then return none
  else
    tryCatch (reconcileRecord maxAttempts p) fun raised ↦
      match raised with
      | .api error => throw (.api error)
      | .other _ => endIngestion p .reconciliationRequired .reconciliationRetryRequired

/-- The pass over the records `list_pending` has returned. -/
def reconcilePendingIngestions (maxAttempts : ℕ) (records : List PendingRecord) :
    Reconciler (List IngestionRecord) :=
  forEach (reconcileTurn maxAttempts) records

end S3mp.Files
