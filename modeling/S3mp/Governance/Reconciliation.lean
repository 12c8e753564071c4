import S3mp.Database
import S3mp.Governance.Inventory
import S3mp.Storage.Policy

/-!
# Quota reconciliation

`QuotaReconciliationService` over the rows of one tenant: what a run loads, the listing
page by page, and the transaction which records the differences and, in apply mode,
overwrites the usage of the selected quotas.
-/

namespace S3mp.Governance

open Relational Files Storage

inductive ReconciliationMode where
  | audit | apply
  deriving DecidableEq, Repr

def ReconciliationMode.parse : String → Option ReconciliationMode
  | "audit" => some .audit
  | "apply" => some .apply
  | _ => none

inductive RunStatus where
  | running | completed | failed
  deriving DecidableEq, Repr

structure AllocationDrift where
  tenantLimitBytes : ℤ
  allocatedApplicationLimitBytes : ℤ
  excessBytes : ℤ
  deriving DecidableEq, Repr

structure RunReport where
  counts : Table ReconciliationDifference ℕ
  matchedFiles : ℕ
  providerObjects : ℕ
  allocationDrift : Option AllocationDrift

inductive RunSummary where
  | empty
  | report (report : RunReport)
  | failure

structure ReconciliationRun where
  applicationId : Option Uuid
  storageSpaceId : Option Uuid
  mode : ReconciliationMode
  status : RunStatus
  idempotencyKey : Option String
  providerCursor : Option String
  attemptCount : ℕ
  errorCode : Option String
  errorMessage : Option String
  summary : RunSummary
  completedAt : Option Timestamp

inductive DifferenceDetails where
  | mode (mode : ReconciliationMode)
  | drift (drift : AllocationDrift)
  deriving DecidableEq, Repr

/-- A row of the differences.  The code keeps the SHA-256 of the key, the model the key. -/
structure DifferenceRow where
  runId : Uuid
  applicationId : Option Uuid
  storageSpaceId : Option Uuid
  kind : ReconciliationDifference
  physicalKey : Option String
  recordedBytes : Option ℤ
  observedBytes : Option ℤ
  details : DifferenceDetails
  deriving DecidableEq, Repr

structure ReconciliationState where
  db : Db
  runs : Table Uuid ReconciliationRun
  differences : List DifferenceRow

/-! ## Requests -/

structure ReconciliationRequest where
  mode : String
  applicationId : Option Uuid
  storageSpaceId : Option Uuid
  idempotencyKey : Option String
  deriving DecidableEq, Repr

/-- A request of the API is authorized by the permissions of its principal; the internal
one of a trusted scheduler names its tenant. -/
inductive ReconciliationCaller where
  | principal (tenantId : Uuid) (permitted : String → Bool)
  | internal (tenantId : Option Uuid)

def ReconciliationCaller.tenantId : ReconciliationCaller → Option Uuid
  | .principal tenantId _ => some tenantId
  | .internal tenantId => tenantId

def ReconciliationCaller.requirePermission (permission : String) : ReconciliationCaller → Tx Unit
  | .principal _ permitted =>
    if permitted permission then .ok ()
    else raise "permission_denied" "Permission denied" 403
  | .internal _ => .ok ()

/-- What comes before the tenant's lock. -/
def admitReconciliation (caller : ReconciliationCaller) (storageConfigured : Bool)
    (request : ReconciliationRequest) : Tx (Uuid × ReconciliationMode) :=
  match ReconciliationMode.parse request.mode with
  | none => raise "invalid_request" "mode must be audit or apply" 422
  | some mode => do
    caller.requirePermission (if mode = .apply then "quotas.manage" else "quotas.read")
    if !storageConfigured then raise "internal_error" "Object storage is not configured" 500
    else if request.applicationId.isSome && request.storageSpaceId.isSome then
      raise "invalid_request" "application_id and storage_space_id are mutually exclusive" 422
    else
      match caller.tenantId with
      | none => raise "invalid_request" "tenant_id is required for internal reconciliation" 422
      | some tenantId => .ok (tenantId, mode)

def existingRun (request : ReconciliationRequest) (runs : Table Uuid ReconciliationRun) :
    Option (Uuid × ReconciliationRun) :=
  request.idempotencyKey.bind fun key ↦ runs.selectFirst fun _ run ↦ run.idempotencyKey = some key

def newRun (mode : ReconciliationMode) (request : ReconciliationRequest) : ReconciliationRun where
  applicationId := request.applicationId
  storageSpaceId := request.storageSpaceId
  mode := mode
  status := .running
  idempotencyKey := request.idempotencyKey
  providerCursor := none
  attemptCount := 0
  errorCode := none
  errorMessage := none
  summary := .empty
  completedAt := none

/-! ## Loading -/

def spaceServed (db : Db) (space : StorageSpace) : Bool :=
  space.active && space.applicationId.all fun applicationId ↦
    (db.applications.lookup applicationId).any (·.status = .active)

def reconciledSpaces (request : ReconciliationRequest) (db : Db) : List (Uuid × StorageSpace) :=
  ((db.spaces.select fun _ space ↦ spaceServed db space).filter fun row ↦
    request.applicationId.all fun applicationId ↦ row.2.applicationId = some applicationId).filter
      fun row ↦ request.storageSpaceId.all fun spaceId ↦ row.1 = spaceId

/-- `allowed_space_ids or {UUID(int=0)}`: no file lies in the nil space. -/
def spaceFilter (allowed : List Uuid) : List Uuid :=
  if allowed = [] then [0] else allowed

def loadFiles (allowed : List Uuid) (db : Db) : List (Uuid × FileObject) :=
  db.files.select fun _ f ↦ f.status = .available && (spaceFilter allowed).contains f.storageSpaceId

def inventoryFile (f : FileObject) : ReconciliationFile :=
  ⟨f.objectKey, f.contentLength, true⟩

def knownNamespacePrefixes (tenantId : Uuid) (spaces : List (Uuid × StorageSpace)) : List String :=
  spaces.map fun row ↦
    (truthy row.2.storageNamespace).getD (legacyNamespace tenantId row.1 1) ++ "/"

theorem nodup_loadFiles (allowed : List Uuid) (db : Db) :
    ((loadFiles allowed db).map Prod.fst).Nodup :=
  AList.nodup_keys_select _ _

/-- What the run has read of the tenant before it lists the bucket. -/
structure LoadedRows where
  spaces : List (Uuid × StorageSpace)
  files : List (Uuid × FileObject)
  distinct : (files.map Prod.fst).Nodup

/-- The rows read once the spaces are. -/
def loadRowsIn (spaces : List (Uuid × StorageSpace)) (db : Db) : LoadedRows where
  spaces := spaces
  files := loadFiles (spaces.map Prod.fst) db
  distinct := nodup_loadFiles _ db

def loadRows (request : ReconciliationRequest) (db : Db) : LoadedRows :=
  loadRowsIn (reconciledSpaces request db) db

/-! ## Listing -/

structure InventoryPage where
  objects : List ReconciliationObject
  nextToken : Option String
  deriving DecidableEq, Repr

/-- The pages the loop reads of those the provider has to give, and whether it got to
the last one.  A call for a page which is not there raises. -/
def served : List InventoryPage → List InventoryPage × Bool
  | [] => ([], false)
  | page :: pages =>
    match page.nextToken with
    | none => ([page], true)
    | some _ => (page :: (served pages).1, (served pages).2)

def recordPage (run : ReconciliationRun) (page : InventoryPage) : ReconciliationRun :=
  { run with providerCursor := page.nextToken, attemptCount := run.attemptCount + 1 }

def listedObjects (pages : List InventoryPage) : List ReconciliationObject :=
  (served pages).1.flatMap (·.objects)

/-! ## Projection -/

/-- The dictionary `totals`. -/
def projectionTotals (files : List (Uuid × FileObject)) (matched : List String) :
    Table (Option Uuid × Uuid) ℤ :=
  files.foldl (fun totals row ↦
    let key := (row.2.applicationId, row.2.storageSpaceId)
    if row.2.objectKey ∈ matched then
      totals.insert key ((totals.lookup key).getD 0 + row.2.contentLength)
    else totals) ∅

def projectedValue (totals : Table (Option Uuid × Uuid) ℤ) (q : Quota) : ℤ :=
  match q.applicationId, q.storageSpaceId with
  | some applicationId, _ =>
    totals.total fun key size ↦ if key.1 = some applicationId then size else 0
  | none, some spaceId =>
    (totals.lookup (none, spaceId)).getD 0 +
      totals.total fun key size ↦ if key.2 = spaceId then size else 0
  | none, none => totals.total fun _ size ↦ size

def scopeLimited (request : ReconciliationRequest) : Bool :=
  request.applicationId.isSome || request.storageSpaceId.isSome

def Quota.ofApplication (applicationId : Uuid) (q : Quota) : Bool :=
  q.applicationId = some applicationId

def Quota.inSpaces (allowed : List Uuid) (q : Quota) : Bool :=
  q.storageSpaceId.any fun spaceId ↦ allowed.contains spaceId

def quotaPredicates (applicationId : Option Uuid) (allowed : List Uuid) : List (Quota → Bool) :=
  applicationId.toList.map Quota.ofApplication ++
    if allowed = [] then [] else [Quota.inSpaces allowed]

/-- `or_(*predicates)`: no clauses add no filter. -/
def orFilter (predicates : List (Quota → Bool)) (q : Quota) : Bool :=
  predicates.isEmpty || predicates.any fun p ↦ p q

/-- The quotas the projection selects. -/
def projects (request : ReconciliationRequest) (allowed : List Uuid) (q : Quota) : Bool :=
  q.status = .active &&
    (!scopeLimited request || orFilter (quotaPredicates request.applicationId allowed) q)

def applyProjection (request : ReconciliationRequest) (rows : LoadedRows) (matched : List String)
    (db : Db) : Db :=
  { db with ledger := { db.ledger with
    quotas := db.ledger.quotas.updateWhere
      (fun _ q ↦ projects request (rows.spaces.map Prod.fst) q)
      fun q ↦ { q with usedBytes := projectedValue (projectionTotals rows.files matched) q } } }

def allocationDrift (quotas : Table Uuid Quota) : Option AllocationDrift :=
  match quotas.selectFirst fun _ q ↦ q.isTenantTotal && q.status = .active with
  | none => none
  | some (_, tenantQuota) =>
    let allocated := (((quotas.select fun _ q ↦ q.applicationId.isSome && q.status = .active).map
      Prod.snd).map (·.limitBytes)).sum
    if allocated ≤ tenantQuota.limitBytes then none
    else some ⟨tenantQuota.limitBytes, allocated, allocated - tenantQuota.limitBytes⟩

/-! ## The run -/

def inventoryResults (tenantId : Uuid) (rows : LoadedRows) (objects : List ReconciliationObject) :
    List ReconciliationResult :=
  compareInventory (rows.files.map fun row ↦ inventoryFile row.2) objects
    (knownNamespacePrefixes tenantId rows.spaces)

def countKinds (results : List ReconciliationResult) : Table ReconciliationDifference ℕ :=
  results.foldl (fun counts item ↦
    counts.insert item.kind ((counts.lookup item.kind).getD 0 + 1)) ∅

def differenceRow (runId : Uuid) (mode : ReconciliationMode) (request : ReconciliationRequest)
    (item : ReconciliationResult) : DifferenceRow where
  runId := runId
  applicationId := request.applicationId
  storageSpaceId := request.storageSpaceId
  kind := item.kind
  physicalKey := some item.physicalKey
  recordedBytes := item.recordedBytes.map Int.ofNat
  observedBytes := item.observedBytes.map Int.ofNat
  details := .mode mode

def driftRow (runId : Uuid) (request : ReconciliationRequest) (drift : AllocationDrift) :
    DifferenceRow where
  runId := runId
  applicationId := request.applicationId
  storageSpaceId := request.storageSpaceId
  kind := .allocationDrift
  physicalKey := none
  recordedBytes := some drift.tenantLimitBytes
  observedBytes := some drift.allocatedApplicationLimitBytes
  details := .drift drift

def runDifferences (runId : Uuid) (mode : ReconciliationMode) (request : ReconciliationRequest)
    (results : List ReconciliationResult) (drift : Option AllocationDrift) : List DifferenceRow :=
  (results.filter (·.kind ≠ .matched)).map (differenceRow runId mode request) ++
    (drift.map (driftRow runId request)).toList

def runReport (results : List ReconciliationResult) (objects : List ReconciliationObject)
    (drift : Option AllocationDrift) : RunReport where
  counts :=
    if drift.isSome then (countKinds results).insert .allocationDrift 1 else countKinds results
  matchedFiles := (matchedFiles results).length
  providerObjects := objects.length
  allocationDrift := drift

def reportOf (tenantId : Uuid) (rows : LoadedRows) (objects : List ReconciliationObject) (db : Db) :
    RunReport :=
  runReport (inventoryResults tenantId rows objects) objects (allocationDrift db.ledger.quotas)

/-- Everything after the listing, in one transaction. -/
def finishRun (now : Timestamp) (tenantId runId : Uuid) (mode : ReconciliationMode)
    (request : ReconciliationRequest) (rows : LoadedRows) (objects : List ReconciliationObject)
    (s : ReconciliationState) : ReconciliationState :=
  let results := inventoryResults tenantId rows objects
  { db :=
      if mode = .apply then applyProjection request rows (matchedFiles results) s.db else s.db
    runs := s.runs.update runId fun run ↦ { run with
      status := .completed
      summary := .report (reportOf tenantId rows objects s.db)
      completedAt := some now }
    differences := s.differences ++
      runDifferences runId mode request results (allocationDrift s.db.ledger.quotas) }

/-- The `except` branch for a provider which does not answer. -/
def failRun (now : Timestamp) (runId : Uuid) (s : ReconciliationState) : ReconciliationState :=
  { s with runs := s.runs.update runId fun run ↦ { run with
      status := .failed
      errorCode := some "ObjectStorageUnavailable"
      errorMessage := some "S3 object listing failed"
      summary := .failure
      completedAt := some now } }

structure RunView where
  id : Uuid
  mode : ReconciliationMode
  status : RunStatus
  summary : RunSummary

inductive ReconciliationError where
  | store (error : TxError)
  | objectStorageUnavailable
  deriving DecidableEq, Repr

def replayRun (mode : ReconciliationMode) (request : ReconciliationRequest) (id : Uuid)
    (run : ReconciliationRun) : Except ReconciliationError RunView :=
  if run.mode ≠ mode ∨ run.applicationId ≠ request.applicationId ∨
      run.storageSpaceId ≠ request.storageSpaceId then
    .error (.store (.api ⟨"idempotency_key_reused",
      "Idempotency key was already used with a different reconciliation scope", 409⟩))
  else .ok ⟨id, run.mode, run.status, run.summary⟩

def startRun (fresh : Uuid) (mode : ReconciliationMode) (request : ReconciliationRequest)
    (s : ReconciliationState) : Tx ReconciliationState := do
  let runs ← insertRow "quota_reconciliation_run_pkey" fresh (newRun mode request) s.runs
  return { s with runs }

/-- A run from its request to its end, with nothing in between. -/
def reconcile (fresh : Uuid) (now : Timestamp) (caller : ReconciliationCaller)
    (storageConfigured : Bool) (request : ReconciliationRequest) (pages : List InventoryPage)
    (s : ReconciliationState) : Except ReconciliationError RunView × ReconciliationState :=
  match admitReconciliation caller storageConfigured request with
  | .error e => (.error (.store e), s)
  | .ok (tenantId, mode) =>
    match existingRun request s.runs with
    | some (id, run) => (replayRun mode request id run, s)
    | none =>
      match startRun fresh mode request s with
      | .error e => (.error (.store e), s)
      | .ok started =>
        let rows := loadRows request started.db
        let listed := { started with
          runs := started.runs.update fresh fun run ↦ (served pages).1.foldl recordPage run }
        if (served pages).2 then
          (.ok ⟨fresh, mode, .completed, .report (reportOf tenantId rows (listedObjects pages) s.db)⟩,
            finishRun now tenantId fresh mode request rows (listedObjects pages) listed)
        else (.error .objectStorageUnavailable, failRun now fresh listed)

end S3mp.Governance
