import S3mp.Common.Clock
import S3mp.Knowledge.ExclusionRules

/-!
# The task store

The transactions of `SqlAlchemyKnowledgeStore` on analysis tasks, cards and the outbox, and
the creation of a task in the transaction which commits a file, for one tenant.
-/

namespace S3mp.Knowledge

open Relational Storage

/-! ## The state machine -/

inductive TaskState where
  | queued | processing | completed | skipped | deadLettered
  deriving DecidableEq, Repr

def TaskState.value : TaskState → String
  | .queued => "queued"
  | .processing => "processing"
  | .completed => "completed"
  | .skipped => "skipped"
  | .deadLettered => "dead_lettered"

/-- `TERMINAL_STATES`. -/
def TaskState.terminal (state : TaskState) : Bool :=
  state ∈ [.completed, .deadLettered, .skipped]

/-- `_TRANSITIONS`. -/
def TaskState.transitions : TaskState → List TaskState
  | .queued => [.processing, .skipped, .deadLettered]
  | .processing => [.queued, .completed, .skipped, .deadLettered]
  | .completed | .skipped | .deadLettered => []

/-- An `InvalidTaskTransition` is a `ValueError`. -/
def assertTransition (current target : TaskState) : Tx Unit :=
  if target ∈ current.transitions then .ok ()
  else .error (.value ("cannot transition knowledge task from \x27" ++ current.value ++
    "\x27 to \x27" ++ target.value ++ "\x27"))

theorem assertTransition_eq_ok {current target : TaskState} {u : Unit} :
    assertTransition current target = .ok u ↔ target ∈ current.transitions := by
  unfold assertTransition
  split
  · exact iff_of_true rfl ‹_›
  · exact iff_of_false nofun ‹_›

/-! ## Rows -/

structure AnalysisTask where
  sourceFileId : Option Uuid
  sourceApplicationId : Option Uuid
  sourceStorageSpaceId : Option Uuid
  sourceStorageNamespace : Option String
  sourceObjectKey : String
  sourceContentType : String
  sourceContentHash : Option String
  sourceSha256 : Option String
  contractVersion : String
  contractManifestHash : String
  state : TaskState
  phase : String
  attemptCount : ℕ
  recoveryAttemptCount : ℕ
  processingStartedAt : Option Timestamp
  processingLeaseToken : Option Uuid
  processingLeaseExpiresAt : Option Timestamp
  batchId : Option String
  batchPrefix : Option String
  failureReason : Option String
  completedAt : Option Timestamp
  deriving DecidableEq, Repr

structure Batch where
  taskId : Uuid
  batchId : String
  s3Prefix : String
  completionManifestKey : String
  deriving DecidableEq, Repr

/-- The locations are JSON texts. -/
structure Card where
  batchId : Uuid
  cardId : String
  cardType : String
  status : String
  s3Key : String
  checksum : String
  sourceLocations : List String
  indexState : String
  deriving DecidableEq, Repr

inductive EventPayload where
  | analysisRequested (taskId : Uuid) (replay : Bool)
  | indexRequested (taskId cardId : Uuid) (batchId s3Key completionManifestKey : String)
  deriving DecidableEq, Repr

/-- The type of an event goes with its payload. -/
structure KnowledgeEvent where
  taskId : Uuid
  cardId : Option Uuid
  payload : EventPayload
  publishLeaseExpiresAt : Option Timestamp
  publishedAt : Option Timestamp
  deriving DecidableEq, Repr

structure DeadLetterEvent where
  taskId : Option Uuid
  reason : String
  deriving DecidableEq, Repr

structure KnowledgeDb where
  tasks : Table Uuid AnalysisTask
  batches : Table Uuid Batch
  cards : Table Uuid Card
  outbox : Table Uuid KnowledgeEvent
  deadLetters : Table Uuid DeadLetterEvent

namespace KnowledgeDb

def updateTask (taskId : Uuid) (f : AnalysisTask → AnalysisTask) (db : KnowledgeDb) :
    KnowledgeDb :=
  { db with tasks := db.tasks.update taskId f }

def addEvent (eventId : Uuid) (event : KnowledgeEvent) (db : KnowledgeDb) : Tx KnowledgeDb := do
  let outbox ← insertRow "knowledge_event_outbox_pkey" eventId event db.outbox
  return { db with outbox }

end KnowledgeDb

def analysisEvent (taskId : Uuid) (replay : Bool) : KnowledgeEvent :=
  ⟨taskId, none, .analysisRequested taskId replay, none, none⟩

/-! ## Creation -/

structure Contract where
  version : String
  manifestHash : String

/-- What the creation of a task reads of the ingestion record and of its file. -/
structure CommittedSource where
  fileId : Uuid
  applicationId : Option Uuid
  storageSpaceId : Uuid
  storageNamespace : Option String
  relativeKey : String
  actualContentType : Option String
  checksum : Option String

/-- `str.lower`, as far as it gives ASCII: outside ASCII only the Kelvin sign does. -/
def lower (s : List Char) : List Char :=
  s.map fun c ↦ if c.toNat = 0x212a then 'k' else c.toLower

/-- `_is_supported_knowledge_content`. -/
def isSupportedKnowledgeContent (relativeKey : String) (contentType : Option String) : Bool :=
  let key := relativeKey.toList
  let suffix := if '.' ∈ key then lower ((key.splitOn '.').getLastD []) else []
  let normalized := strip ((lower (contentType.getD "").toList).takeWhile (· ≠ ';'))
  String.ofList suffix ∈ ["pdf", "docx", "xlsx", "pptx", "md", "markdown", "html", "htm"] ||
    String.ofList normalized ∈ ["application/pdf",
      "application/vnd.openxmlformats-officedocument.wordprocessingml.document",
      "application/vnd.openxmlformats-officedocument.spreadsheetml.sheet",
      "application/vnd.openxmlformats-officedocument.presentationml.presentation",
      "text/markdown", "text/html"]

/-- A task which has been completed for the same source and contract. -/
def duplicateOf (sourceSha256 manifestHash : String) (other : Uuid → Bool) (db : KnowledgeDb) :
    Bool :=
  db.tasks.anyRow fun id t ↦ other id && t.sourceSha256 = some sourceSha256 &&
    t.contractManifestHash = manifestHash && t.state = .completed

def createdState (excluded supported duplicate : Bool) : TaskState :=
  if excluded || !supported || duplicate then .skipped else .queued

def createdTask (now : Timestamp) (contract : Contract) (source : CommittedSource)
    (excluded supported duplicate : Bool) : AnalysisTask where
  sourceFileId := some source.fileId
  sourceApplicationId := source.applicationId
  sourceStorageSpaceId := some source.storageSpaceId
  sourceStorageNamespace := source.storageNamespace
  sourceObjectKey := source.relativeKey
  sourceContentType := (truthy source.actualContentType).getD "application/octet-stream"
  sourceContentHash := source.checksum
  sourceSha256 := normalizedSha256 source.checksum
  contractVersion := contract.version
  contractManifestHash := contract.manifestHash
  state := createdState excluded supported duplicate
  phase := (createdState excluded supported duplicate).value
  attemptCount := 0
  recoveryAttemptCount := 0
  processingStartedAt := none
  processingLeaseToken := none
  processingLeaseExpiresAt := none
  batchId := none
  batchPrefix := none
  failureReason :=
    if excluded then some "excluded_by_directory_rule"
    else if supported = false then some "unsupported_format"
    else if duplicate then some "duplicate_content"
    else none
  completedAt := if createdState excluded supported duplicate = .skipped then some now else none

/-- `_enqueue_knowledge_task`; `rules` are the paths of the enabled rules of the application. -/
def enqueueKnowledgeTask (taskId eventId : Uuid) (now : Timestamp) (extractionEnabled : Bool)
    (contract : Contract) (source : CommittedSource) (rules : List String) (db : KnowledgeDb) :
    Tx KnowledgeDb := do
  if extractionEnabled = false ∨ source.applicationId = none then return db
  if db.tasks.anyRow fun _ t ↦ t.sourceFileId = some source.fileId &&
      t.contractManifestHash = contract.manifestHash then return db
  let duplicate := (normalizedSha256 source.checksum).any fun sha ↦
    duplicateOf sha contract.manifestHash (fun _ ↦ true) db
  let excluded := (← firstExcluding source.relativeKey rules).isSome
  let supported := isSupportedKnowledgeContent source.relativeKey source.actualContentType
  let task := createdTask now contract source excluded supported duplicate
  let tasks ← insertRow "knowledge_analysis_task_pkey" taskId task db.tasks
  if task.state = .queued then
    KnowledgeDb.addEvent eventId (analysisEvent taskId false) { db with tasks }
  else return { db with tasks }

/-! ## Work on a task -/

/-- The lease is for half an hour. -/
def AnalysisTask.claimed (token : Uuid) (now : Timestamp) (task : AnalysisTask) : AnalysisTask :=
  { task with
    state := .processing
    phase := "fetching"
    attemptCount := task.attemptCount + 1
    processingStartedAt := some now
    processingLeaseToken := some token
    processingLeaseExpiresAt := some (now + seconds 1800) }

def claimTask (token : Uuid) (now : Timestamp) (taskId : Uuid) (db : KnowledgeDb) :
    Option AnalysisTask × KnowledgeDb :=
  match db.tasks.lookup taskId with
  | none => (none, db)
  | some task =>
    if task.state ≠ .queued then (none, db)
    else (some (task.claimed token now), db.updateTask taskId fun _ ↦ task.claimed token now)

def setTaskPhase (taskId : Uuid) (phase : String) (db : KnowledgeDb) : KnowledgeDb :=
  db.updateTask taskId fun task ↦ if task.state = .processing then { task with phase } else task

/-- Whether the source is not known yet; a `SourceChecksumMismatch` is a `ValueError`. -/
def resolveSourceSha256 (taskId : Uuid) (sourceSha256 : String) (db : KnowledgeDb) :
    Tx (Bool × KnowledgeDb) :=
  match db.tasks.lookup taskId with
  | none => .ok (false, db)
  | some task =>
    if task.state ≠ .processing then .ok (false, db)
    else if task.sourceSha256.any (· ≠ sourceSha256) then
      .error (.value "declared checksum does not match fetched source")
    else
      .ok (!duplicateOf sourceSha256 task.contractManifestHash (· ≠ taskId) db,
        db.updateTask taskId fun _ ↦ { task with sourceSha256 := some sourceSha256 })

structure CardRecord where
  id : String
  type : String
  s3Key : String
  checksum : String
  sourceLocations : List String
  deriving DecidableEq, Repr

/-- What the batch writer reports. -/
structure BatchResult where
  batchId : String
  keyPrefix : String
  completionManifestKey : String
  cards : List CardRecord
  deriving DecidableEq, Repr

/-- The identifiers a completion draws: those of a card and of its event, by the card. -/
structure CompletionIds where
  batch : Uuid
  card : String → Uuid
  event : String → Uuid

def findBatch (batchId : String) (db : KnowledgeDb) : Option (Uuid × Batch) :=
  db.batches.selectFirst fun _ b ↦ b.batchId = batchId

def findCard (batchRow : Uuid) (cardId : String) (db : KnowledgeDb) : Option (Uuid × Card) :=
  db.cards.selectFirst fun _ c ↦ c.batchId = batchRow && c.cardId = cardId

def EventPayload.requestsIndex : EventPayload → Bool
  | .indexRequested .. => true
  | .analysisRequested .. => false

def hasIndexEvent (taskId cardRow : Uuid) (db : KnowledgeDb) : Bool :=
  db.outbox.anyRow fun _ e ↦
    e.taskId = taskId && e.cardId = some cardRow && e.payload.requestsIndex

def obtainBatch (fresh taskId : Uuid) (result : BatchResult) (db : KnowledgeDb) :
    Tx (Uuid × KnowledgeDb) :=
  match findBatch result.batchId db with
  | some (id, _) => .ok (id, db)
  | none => do
    let batches ← insertRow "knowledge_batch_pkey" fresh
      ⟨taskId, result.batchId, result.keyPrefix, result.completionManifestKey⟩ db.batches
    return (fresh, { db with batches })

def draftCard (batchRow : Uuid) (record : CardRecord) : Card :=
  ⟨batchRow, record.id, record.type, "draft", record.s3Key, record.checksum,
    record.sourceLocations, "pending"⟩

def obtainCard (fresh batchRow : Uuid) (record : CardRecord) (db : KnowledgeDb) :
    Tx (Uuid × KnowledgeDb) :=
  match findCard batchRow record.id db with
  | some (id, _) => .ok (id, db)
  | none => do
    let cards ← insertRow "knowledge_card_pkey" fresh (draftCard batchRow record) db.cards
    return (fresh, { db with cards })

def indexEvent (taskId cardRow : Uuid) (result : BatchResult) (record : CardRecord) :
    KnowledgeEvent :=
  ⟨taskId, some cardRow,
    .indexRequested taskId cardRow result.batchId record.s3Key result.completionManifestKey,
    none, none⟩

/-- One turn of the loop over the cards of the batch. -/
def recordCard (ids : CompletionIds) (taskId batchRow : Uuid) (result : BatchResult)
    (db : KnowledgeDb) (record : CardRecord) : Tx KnowledgeDb := do
  let (cardRow, db) ← obtainCard (ids.card record.id) batchRow record db
  if hasIndexEvent taskId cardRow db then return db
  db.addEvent (ids.event record.id) (indexEvent taskId cardRow result record)

def AnalysisTask.completedWith (now : Timestamp) (result : BatchResult) (task : AnalysisTask) :
    AnalysisTask :=
  if task.state = .processing then
    { task with
      state := .completed
      phase := "completed"
      failureReason := none
      batchId := some result.batchId
      batchPrefix := some result.keyPrefix
      processingStartedAt := none
      completedAt := some now }
  else task

def completeS3Batch (ids : CompletionIds) (now : Timestamp) (taskId : Uuid) (result : BatchResult)
    (db : KnowledgeDb) : Tx KnowledgeDb :=
  match db.tasks.lookup taskId with
  | none => .ok db
  | some _ => do
    let (batchRow, db) ← obtainBatch ids.batch taskId result db
    let db ← result.cards.foldlM (recordCard ids taskId batchRow result) db
    return db.updateTask taskId (·.completedWith now result)

def setCardIndexState (cardRow : Uuid) (state : String) (db : KnowledgeDb) : KnowledgeDb :=
  { db with cards := db.cards.update cardRow fun c ↦ { c with indexState := state } }

/-! ## The end of a task -/

def AnalysisTask.settled (now : Timestamp) (state : TaskState) (reason : Option String)
    (task : AnalysisTask) : AnalysisTask :=
  { task with
    state
    phase := state.value
    failureReason := reason
    processingStartedAt := none
    processingLeaseToken := none
    processingLeaseExpiresAt := none
    completedAt := if state.terminal then some now else task.completedAt }

def settleTask (now : Timestamp) (taskId : Uuid) (state : TaskState) (reason : Option String)
    (db : KnowledgeDb) : Tx KnowledgeDb :=
  match db.tasks.lookup taskId with
  | none => .ok db
  | some task =>
    if task.state.terminal then .ok db
    else do
      assertTransition task.state state
      return db.updateTask taskId fun _ ↦ task.settled now state reason

def AnalysisTask.exhausted (now : Timestamp) (reason : String) (task : AnalysisTask) :
    AnalysisTask :=
  { task with
    state := .deadLettered
    phase := "dead_lettered"
    failureReason := some reason
    completedAt := some now
    processingStartedAt := none }

def AnalysisTask.requeued (reason : String) (task : AnalysisTask) : AnalysisTask :=
  { task with
    state := .queued
    phase := "queued"
    failureReason := some reason
    processingStartedAt := none
    processingLeaseToken := none
    processingLeaseExpiresAt := none }

def scheduleRetry (now : Timestamp) (taskId : Uuid) (reason : String) (maxRetries : ℕ)
    (db : KnowledgeDb) : Option AnalysisTask × KnowledgeDb :=
  match db.tasks.lookup taskId with
  | none => (none, db)
  | some task =>
    if task.state ≠ .processing then (none, db)
    else
      let retried := if task.attemptCount ≥ maxRetries then task.exhausted now reason
        else task.requeued reason
      (some retried, db.updateTask taskId fun _ ↦ retried)

/-- The lease of the task has run out. -/
def AnalysisTask.stale (now : Timestamp) (task : AnalysisTask) : Bool :=
  task.state = .processing && task.processingLeaseExpiresAt.any (· < now)

/-- The recovery takes the lease from the task. -/
def AnalysisTask.released (task : AnalysisTask) : AnalysisTask :=
  { task with
    recoveryAttemptCount := task.recoveryAttemptCount + 1
    processingLeaseToken := none
    processingLeaseExpiresAt := none }

/-- One turn of the recovery; a row which the query did not return is left alone. -/
def recoverTask (now : Timestamp) (maxRetries : ℕ) (eventId : Uuid → Uuid) (db : KnowledgeDb)
    (taskId : Uuid) : Tx KnowledgeDb :=
  match db.tasks.lookup taskId with
  | none => .ok db
  | some task =>
    if task.stale now = false then .ok db
    else if task.attemptCount ≥ maxRetries then
      .ok (db.updateTask taskId fun _ ↦ task.released.exhausted now "processing_timeout")
    else
      (db.updateTask taskId fun _ ↦ task.released.requeued "processing_timeout").addEvent
        (eventId taskId) (analysisEvent taskId false)

/-- `picked` are the rows the locking query returned. -/
def recoverStaleProcessing (now : Timestamp) (maxRetries : ℕ) (eventId : Uuid → Uuid)
    (picked : List Uuid) (db : KnowledgeDb) : Tx KnowledgeDb :=
  picked.foldlM (recoverTask now maxRetries eventId) db

def recordDeadLetter (fresh : Uuid) (taskId : Option Uuid) (reason : String) (db : KnowledgeDb) :
    Tx KnowledgeDb := do
  let deadLetters ← insertRow "knowledge_dead_letter_event_pkey" fresh ⟨taskId, reason⟩
    db.deadLetters
  return { db with deadLetters }

def AnalysisTask.replayed (task : AnalysisTask) : AnalysisTask :=
  { task with
    state := .queued
    phase := "queued"
    failureReason := some "operator_replay"
    processingStartedAt := none
    attemptCount := 0 }

def replayDeadLetter (eventId taskId : Uuid) (db : KnowledgeDb) : Tx (Bool × KnowledgeDb) :=
  match db.tasks.lookup taskId with
  | none => .ok (false, db)
  | some task =>
    if task.state ≠ .deadLettered then .ok (false, db)
    else do
      let db ← (db.updateTask taskId fun _ ↦ task.replayed).addEvent eventId
        (analysisEvent taskId true)
      return (true, db)

/-! ## The outbox -/

/-- The publisher may lease the event: nobody has published it, and nobody holds a lease on it. -/
def KnowledgeEvent.claimable (now : Timestamp) (e : KnowledgeEvent) : Bool :=
  e.publishedAt.isNone && e.publishLeaseExpiresAt.all (· < now)

/-- The events the locking query returned, under a lease of one minute. -/
def claimOutboxEvents (now : Timestamp) (picked : List Uuid) (db : KnowledgeDb) :
    List (Uuid × KnowledgeEvent) × KnowledgeDb :=
  let leased (e : KnowledgeEvent) := { e with publishLeaseExpiresAt := some (now + seconds 60) }
  (picked.filterMap fun id ↦ ((db.outbox.lookup id).filter (·.claimable now)).map (id, ·),
    { db with
      outbox := db.outbox.updateWhere (fun id e ↦ id ∈ picked && e.claimable now) leased })

def markOutboxPublished (now : Timestamp) (eventId : Uuid) (db : KnowledgeDb) : KnowledgeDb :=
  { db with outbox := db.outbox.update eventId fun e ↦
    { e with publishedAt := some now, publishLeaseExpiresAt := none } }

def releaseOutboxEvent (eventId : Uuid) (db : KnowledgeDb) : KnowledgeDb :=
  { db with outbox := db.outbox.update eventId fun e ↦
    if e.publishedAt.isNone then { e with publishLeaseExpiresAt := none } else e }

end S3mp.Knowledge
