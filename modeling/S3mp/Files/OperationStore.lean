import S3mp.Common.Clock
import S3mp.Database
import Mathlib.Data.List.Sort

/-!
# The operation store

Transactions of `SqlAlchemyFileStore` on asynchronous file operations.  An
operation occupies file rows through their `active_operation_id` column from its
acceptance until it is settled.
-/

namespace S3mp.Files

open Relational

structure OperationData where
  principalId : Uuid
  membershipId : Option Uuid
  operationType : OperationType
  sourceKey : Option String
  destinationKey : Option String
  keys : List String
  sourcePhysicalKey : Option String
  destinationPhysicalKey : Option String
  physicalKeys : List String
  idempotencyKey : Option String
  applicationId : Option Uuid
  actorApplicationId : Option Uuid
  storageNamespace : Option String
  profileVersion : ℕ
  authorizationVersion : ℕ
  providerTargetVersion : ℕ
  authorizationEvidence : OperationEvidence

structure RenameData where
  principalId : Uuid
  membershipId : Option Uuid
  applicationId : Uuid
  actorApplicationId : Option Uuid
  sourceFileId : Uuid
  sourceKey : String
  destinationKey : String
  destinationPhysicalKey : String
  resultFileRef : Option FileRef
  ifMatch : Option String
  idempotencyKey : String
  requestFingerprint : String
  storageNamespace : Option String
  profileVersion : ℕ
  authorizationVersion : ℕ
  providerTargetVersion : ℕ
  authorizationEvidence : OperationEvidence

/-- The identifiers a new operation draws. -/
structure OperationIds where
  operation : Uuid
  outbox : Uuid
  resultFile : Uuid
  reservation : String → Uuid

/-! ## Creation -/

/-- The physical source and target keys subject to mutation exclusion. -/
def operationResourceKeys (data : OperationData) : List String × List String :=
  match data.operationType with
  | .delete => (data.physicalKeys.dedup.insertionSort (· ≤ ·), [])
  | _ => ((truthy data.sourcePhysicalKey).toList, (truthy data.destinationPhysicalKey).toList)

/-- `rows_by_key`: of several rows with one key the last in the order of ids counts. -/
def rowByKey (spaceId : Uuid) (key : String) (files : Table Uuid FileObject) :
    Option (Uuid × FileObject) :=
  (files.select fun _ f ↦ f.storageSpaceId = spaceId && f.objectKey = key).foldl
    (fun last row ↦ if last.all fun l ↦ l.1 ≤ row.1 then some row else last) none

def checkOccupied (spaceId : Uuid) (files : Table Uuid FileObject) (key : String) : Tx Uuid :=
  match rowByKey spaceId key files with
  | none => raise "resource_not_found" "File not found" 404
  | some (id, f) =>
    if f.status ≠ .available ∨ f.softDeleted then
      raise "resource_not_found" "File not found" 404
    else if f.activeOperationId.isSome then
      raise "file_operation_in_progress" "File is occupied by an asynchronous operation" 409
    else .ok id

def checkDestination (spaceId : Uuid) (files : Table Uuid FileObject) (key : String) : Tx Unit :=
  if (rowByKey spaceId key files).isSome then
    raise "duplicate_resource" "Destination file already exists" 409
  else .ok ()

def reserveKey (spaceId operationId : Uuid) (id : String → Uuid)
    (reservations : Table Uuid ResourceReservation) (key : String) :
    Tx (Table Uuid ResourceReservation) :=
  if reservations.anyRow (fun _ r ↦ r.storageSpaceId = spaceId && r.objectKey = key) ∨
      id key ∈ reservations then
    raise "file_operation_in_progress"
      "Destination key is reserved by an asynchronous operation" 409
  else .ok (reservations.insert (id key) ⟨spaceId, key, operationId⟩)

def occupy (operationId : Uuid) (ids : List Uuid) (files : Table Uuid FileObject) :
    Table Uuid FileObject :=
  files.updateWhere (fun j _ ↦ ids.contains j) fun f ↦
    { f with activeOperationId := some operationId, operationPhase := some .queued }

def occupyOperationResources (ids : OperationIds) (spaceId : Uuid)
    (occupiedKeys destinationKeys : List String) (db : Db) : Tx Db := do
  let occupied ← occupiedKeys.mapM (checkOccupied spaceId db.files)
  destinationKeys.forM (checkDestination spaceId db.files)
  let resourceReservations ← destinationKeys.foldlM
    (reserveKey spaceId ids.operation ids.reservation) db.resourceReservations
  return { db with files := occupy ids.operation occupied db.files, resourceReservations }

def newOperation (spaceId : Uuid) (data : OperationData) (idempotencyKey : String) :
    FileOperation where
  principalId := data.principalId
  membershipId := data.membershipId
  operationType := data.operationType
  sourceKey := data.sourceKey
  destinationKey := data.destinationKey
  sourceFileId := none
  resultFileId := none
  requestFingerprint := none
  keys := data.keys
  status := .queued
  failureReason := none
  idempotencyKey := idempotencyKey
  storageSpaceId := some spaceId
  applicationId := data.applicationId
  actorApplicationId := data.actorApplicationId
  storageNamespace := data.storageNamespace
  profileVersion := data.profileVersion
  authorizationVersion := data.authorizationVersion
  providerTargetVersion := data.providerTargetVersion
  authorizationEvidence := data.authorizationEvidence
  attemptCount := 0
  recoveryAttemptCount := 0
  replayOfEventId := none
  leaseExpiresAt := none
  nextRetryAt := none
  completedAt := none

def outboxEvent (operationId : Uuid) (replayOfEventId : Option Uuid) : OperationOutboxEvent :=
  ⟨operationId, replayOfEventId, none, none⟩

def addOutboxEvent (outboxId operationId : Uuid) (replayOfEventId : Option Uuid) (db : Db) :
    Tx Db := do
  let outbox ← insertRow "file_operation_event_outbox_pkey" outboxId
    (outboxEvent operationId replayOfEventId) db.outbox
  return { db with outbox }

def createOperation (ids : OperationIds) (spaceId : Uuid) (data : OperationData) (db : Db) :
    Tx (FileOperation × Db) :=
  if !((db.spaces.lookup spaceId).any (·.active) && db.tenantActive) then
    .error (.value "storage space is not active")
  else
    match data.idempotencyKey with
    | none => integrityError "file_operation.idempotency_key"
    | some idempotencyKey => do
      let operation := newOperation spaceId data idempotencyKey
      let operations ← insertRow "file_operation_pkey" ids.operation operation db.operations
      let (occupiedKeys, destinationKeys) := operationResourceKeys data
      let db ← occupyOperationResources ids spaceId occupiedKeys destinationKeys
        { db with operations }
      let db ← addOutboxEvent ids.outbox ids.operation none db
      return (operation, db)

/-- The row of the file to be, before the provider has copied anything. -/
def renamedFile (data : RenameData) (source : FileObject) : FileObject :=
  { source with
    objectKey := data.destinationPhysicalKey
    publicFileRef := data.resultFileRef
    etag := none
    status := .renaming
    activeOperationId := none
    operationPhase := none
    processingStartedAt := none
    deletionAttemptCount := 0
    deletionNextRetryAt := none
    deletedAt := none
    deletionPrincipalId := none
    deletionAuthorizationVersion := none
    deletionAuthorizationEvidence := none
    deletionIdempotencyKey := none
    softDeleted := false
    purgeDueAt := none
    purgeState := none
    purgeAttemptCount := 0
    purgeNextRetryAt := none
    purgedAt := none }

def newRenameOperation (spaceId resultFileId : Uuid) (data : RenameData) : FileOperation where
  principalId := data.principalId
  membershipId := data.membershipId
  operationType := .rename
  sourceKey := some data.sourceKey
  destinationKey := some data.destinationKey
  sourceFileId := some data.sourceFileId
  resultFileId := some resultFileId
  requestFingerprint := some data.requestFingerprint
  keys := []
  status := .queued
  failureReason := none
  idempotencyKey := data.idempotencyKey
  storageSpaceId := some spaceId
  applicationId := some data.applicationId
  actorApplicationId := data.actorApplicationId
  storageNamespace := data.storageNamespace
  profileVersion := data.profileVersion
  authorizationVersion := data.authorizationVersion
  providerTargetVersion := data.providerTargetVersion
  authorizationEvidence := data.authorizationEvidence
  attemptCount := 0
  recoveryAttemptCount := 0
  replayOfEventId := none
  leaseExpiresAt := none
  nextRetryAt := none
  completedAt := none

/-- The statuses in which a rename still counts as active for its source. -/
def FileOperation.activeRenameOf (op : FileOperation) (sourceId : Uuid) : Bool :=
  op.sourceFileId = some sourceId && op.operationType = .rename &&
    op.status ∈ [.pending, .running, .retryWait, .partialFailure]

def createRenameOperation (ids : OperationIds) (spaceId : Uuid) (data : RenameData) (db : Db) :
    Tx (FileOperation × Db) :=
  match db.files.lookup data.sourceFileId with
  | none => raise "resource_not_found" "File not found" 404
  | some source =>
    if source.storageSpaceId ≠ spaceId ∨ source.status ≠ .available ∨ source.softDeleted then
      raise "resource_not_found" "File not found" 404
    else if data.ifMatch.any fun etag ↦ source.etag ≠ some etag then
      raise "precondition_failed" "File ETag does not match" 412
    else
      match db.operations.selectFirst fun _ op ↦ op.applicationId = some data.applicationId &&
          op.operationType = .rename && op.idempotencyKey = data.idempotencyKey with
      | some (_, existing) =>
        if existing.requestFingerprint = some data.requestFingerprint then .ok (existing, db)
        else raise "idempotency_conflict" "Idempotency key was used for a different rename" 409
      | none =>
        if source.activeOperationId.isSome then
          raise "file_operation_in_progress" "File is occupied by an asynchronous operation" 409
        else if db.operations.anyRow fun _ op ↦ op.activeRenameOf data.sourceFileId then
          raise "rename_conflict" "File already has an active rename" 409
        else if db.files.anyRow fun _ f ↦ f.storageSpaceId = spaceId &&
            f.objectKey = data.destinationPhysicalKey && f.holdsKey then
          raise "duplicate_resource" "Destination file already exists" 409
        else do
          let files ← insertFile ids.resultFile (renamedFile data source) db.files
          let operation := newRenameOperation spaceId ids.resultFile data
          let operations ← insertRow "file_operation_pkey" ids.operation operation db.operations
          let db ← addOutboxEvent ids.outbox ids.operation none { db with
            operations
            files := occupy ids.operation [data.sourceFileId, ids.resultFile] files }
          return (operation, db)

/-! ## Deliveries -/

def OperationStatus.terminal (status : OperationStatus) : Bool :=
  status ∈ [.succeeded, .failed, .cancelled, .partialFailure, .deadLettered]

/-- A change of every file row the operation occupies. -/
def updateHeld (operationId : Uuid) (g : FileObject → FileObject) (files : Table Uuid FileObject) :
    Table Uuid FileObject :=
  files.updateWhere (fun _ f ↦ f.activeOperationId = some operationId) g

def FileObject.inPhase (phase : OperationPhase) (startedAt : Option Timestamp) (f : FileObject) :
    FileObject :=
  { f with operationPhase := some phase, processingStartedAt := startedAt }

def startBrokerOperation (now : Timestamp) (id : Uuid) (db : Db) : Option FileOperation × Db :=
  match db.operations.lookup id with
  | none => (none, db)
  | some op =>
    if op.status ∉ [.queued, .retryScheduled] then (none, db)
    else
      let op := { op with status := .processing, attemptCount := op.attemptCount + 1 }
      (some op, { db with
        operations := db.operations.update id fun _ ↦ op
        files := updateHeld id (FileObject.inPhase .processing (some now)) db.files })

/-- The row is among those the operation occupies. -/
def heldBy (operationId : Uuid) (files : Table Uuid FileObject) (j : Uuid) : Bool :=
  (files.lookup j).any fun f ↦ f.activeOperationId = some operationId

/-- Only a rename moves file rows, and only those it still occupies. -/
def settleRename (now : Timestamp) (id : Uuid) (op : FileOperation) (status : OperationStatus)
    (files : Table Uuid FileObject) : Table Uuid FileObject :=
  match op.sourceFileId.filter (heldBy id files), op.resultFileId.filter (heldBy id files) with
  | some source, some destination =>
    if status = .succeeded then
      (files.update source fun f ↦ { f with status := .deleted, deletedAt := some now }).update
        destination fun f ↦ { f with status := .available }
    else if status ∈ [.failed, .cancelled, .deadLettered] then
      files.update destination fun f ↦ { f with status := .renameFailed }
    else files
  | none, some destination =>
    if status ∈ [.failed, .cancelled, .deadLettered] then
      files.update destination fun f ↦ { f with status := .renameFailed }
    else files
  | _, none => files

def FileObject.unoccupied (f : FileObject) : FileObject :=
  { f with activeOperationId := none, operationPhase := none, processingStartedAt := none }

def FileOperation.settled (now : Timestamp) (status : OperationStatus) (reason : Option String)
    (op : FileOperation) : FileOperation :=
  { op with
    status, failureReason := reason, nextRetryAt := none, leaseExpiresAt := none
    completedAt := if status.terminal then some now else op.completedAt }

/-- The file rows after a settlement: a terminal status sets the occupied rows free. -/
def settledFiles (now : Timestamp) (id : Uuid) (op : FileOperation) (status : OperationStatus)
    (files : Table Uuid FileObject) : Table Uuid FileObject :=
  let files := if op.operationType = .rename then settleRename now id op status files else files
  if status.terminal then updateHeld id FileObject.unoccupied files else files

def freeKeys (id : Uuid) (status : OperationStatus)
    (reservations : Table Uuid ResourceReservation) : Table Uuid ResourceReservation :=
  if status.terminal then reservations.deleteWhere fun _ r ↦ r.operationId = id else reservations

/-- The status the operation had before is not looked at. -/
def settleBrokerOperation (now : Timestamp) (id : Uuid) (status : OperationStatus)
    (reason : Option String) (db : Db) : Tx Db :=
  match db.operations.lookup id with
  | none => .ok db
  | some op =>
    if op.sourceFileId.any fun source ↦ (op.settled now status reason).activeRenameOf source &&
        db.operations.anyRow fun j other ↦ j ≠ id && other.activeRenameOf source then
      integrityError "uq_file_operation_rename_source_active"
    else
      .ok { db with
        operations := db.operations.update id fun _ ↦ op.settled now status reason
        files := settledFiles now id op status db.files
        resourceReservations := freeKeys id status db.resourceReservations }

/-- Neither the operation's status nor who occupies the row is looked at. -/
def recordRenameProviderResult (id : Uuid) (providerEtag : Option String) (db : Db) : Db :=
  match db.operations.lookup id with
  | none => db
  | some op =>
    if op.operationType ≠ .rename then db
    else
      match op.resultFileId with
      | none => db
      | some destination =>
        { db with files := db.files.update destination fun f ↦ { f with etag := providerEtag } }

def scheduleBrokerRetry (now : Timestamp) (id : Uuid) (reason : Option String) (db : Db) :
    Option FileOperation × Db :=
  match db.operations.lookup id with
  | none => (none, db)
  | some op =>
    if op.status ≠ .processing then (none, db)
    else
      let op := { op with
        status := .retryScheduled, failureReason := reason, nextRetryAt := some now }
      (some op, { db with
        operations := db.operations.update id fun _ ↦ op
        files := updateHeld id (FileObject.inPhase .retryScheduled none) db.files })

def operationFileIds (id : Uuid) (db : Db) : List Uuid :=
  (db.files.select fun _ f ↦ f.activeOperationId = some id).map Prod.fst

/-! ## Recovery and replay -/

/-- The join of the recovery query: a processing operation one of whose rows is overdue. -/
def timedOut (cutoff : Timestamp) (id : Uuid) (op : FileOperation) (db : Db) : Bool :=
  op.status = .processing && db.files.anyRow fun _ f ↦
    f.activeOperationId = some id && f.processingStartedAt.any (· < cutoff)

/-- One turn of the recovery loop.  An operation which has been recovered too often is
dead-lettered with its rows still occupied. -/
def recoverOperation (now : Timestamp) (timeoutSeconds : ℤ) (maxRecoveries : ℕ)
    (outboxId : Uuid → Uuid) (db : Db) (id : Uuid) : Tx Db :=
  match db.operations.lookup id with
  | none => .ok db
  | some op =>
    if !timedOut (now - seconds timeoutSeconds) id op db then .ok db
    else if op.recoveryAttemptCount ≥ maxRecoveries then
      .ok { db with operations := db.operations.update id fun _ ↦ { op with
        status := .deadLettered
        failureReason := some "processing_timeout"
        completedAt := some now } }
    else
      addOutboxEvent (outboxId id) id none { db with
        operations := db.operations.update id fun _ ↦ { op with
          recoveryAttemptCount := op.recoveryAttemptCount + 1
          status := .queued
          failureReason := some "processing_timeout_recovery" }
        files := updateHeld id (FileObject.inPhase .queued none) db.files }

/-- The recovery over the operations its locking query returned. -/
def recoverTimedOutOperations (now : Timestamp) (timeoutSeconds : ℤ) (maxRecoveries : ℕ)
    (outboxId : Uuid → Uuid) (picked : List Uuid) (db : Db) : Tx Db :=
  picked.foldlM (recoverOperation now timeoutSeconds maxRecoveries outboxId) db

def replayDeadLetterOperation (outboxId id replayOfEventId : Uuid) (db : Db) :
    Tx (Option FileOperation × Db) :=
  match db.operations.lookup id with
  | none => .ok (none, db)
  | some op =>
    if op.status ∉ [.deadLettered, .partialFailure] then .ok (none, db)
    else do
      let op := { op with
        status := .queued, failureReason := none, completedAt := none
        replayOfEventId := some replayOfEventId }
      let db ← addOutboxEvent outboxId id (some replayOfEventId)
        { db with operations := db.operations.update id fun _ ↦ op }
      return (some op, db)

def FileOperation.legacyPending (now : Timestamp) (op : FileOperation) : Bool :=
  op.status = .pending || op.status = .retryWait ||
    (op.status = .running && op.leaseExpiresAt.any (· < now))

def enqueueLegacyOperation (now : Timestamp) (outboxId : Uuid → Uuid) (db : Db) (id : Uuid) :
    Tx Db :=
  match db.operations.lookup id with
  | none => .ok db
  | some op =>
    if !op.legacyPending now then .ok db
    else
      let db := { db with operations := db.operations.update id fun _ ↦
        { op with status := .queued, nextRetryAt := none, leaseExpiresAt := none } }
      if db.outbox.anyRow fun _ e ↦ e.operationId = id then .ok db
      else addOutboxEvent (outboxId id) id none db

def enqueueLegacyOperations (now : Timestamp) (outboxId : Uuid → Uuid) (picked : List Uuid)
    (db : Db) : Tx Db :=
  picked.foldlM (enqueueLegacyOperation now outboxId) db

/-! ## The outbox -/

/-- The publisher may lease the event: nobody has published it, and nobody holds a lease on it. -/
def OperationOutboxEvent.claimable (now : Timestamp) (e : OperationOutboxEvent) : Bool :=
  e.publishedAt.isNone && e.publishLeaseExpiresAt.all (· < now)

/-- The events the locking query returned, under a lease of one minute. -/
def claimOutboxEvents (now : Timestamp) (picked : List Uuid) (db : Db) :
    List (Uuid × OperationOutboxEvent) × Db :=
  let leased (e : OperationOutboxEvent) := { e with publishLeaseExpiresAt := some (now + seconds 60) }
  (picked.filterMap fun id ↦ ((db.outbox.lookup id).filter (·.claimable now)).map (id, ·),
    { db with
      outbox := db.outbox.updateWhere (fun id e ↦ id ∈ picked && e.claimable now) leased })

def markOutboxPublished (now : Timestamp) (eventId : Uuid) (db : Db) : Db :=
  { db with outbox := db.outbox.update eventId fun e ↦
    { e with publishedAt := some now, publishLeaseExpiresAt := none } }

def releaseOutboxEvent (eventId : Uuid) (db : Db) : Db :=
  { db with outbox := db.outbox.update eventId fun e ↦
    if e.publishedAt.isNone then { e with publishLeaseExpiresAt := none } else e }

end S3mp.Files
