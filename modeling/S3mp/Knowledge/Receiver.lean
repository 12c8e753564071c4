import S3mp.Knowledge.Leases
import S3mp.Messaging.Broker

/-!
# Publishers and receivers of analysis tasks

`KnowledgeOutboxPublisher.publish_once` and `KnowledgeAnalysisReceiver._handle`, next to the
transactions of the store.  A publisher or a handler stands between two of its awaited calls;
it may crash there, and any of its calls may raise.  What the receiver does not catch ends the
handler and leaves its message handed out.
-/

namespace S3mp.Knowledge

open Relational Messaging Transition

/-! ## Topology -/

/-- `KNOWLEDGE_RETRY_DELAYS` in milliseconds. -/
def retryDelays : List (String × ℕ) :=
  [("knowledge.retry.5s", 5000), ("knowledge.retry.1m", 60000), ("knowledge.retry.5m", 300000)]

/-- The index of a task without attempts is negative, and counts from the end. -/
def retryRoutingKey (attemptCount : ℕ) : String :=
  let index := if attemptCount = 0 then 2 else min (attemptCount - 1) 2
  let delayName := (retryDelays.map Prod.fst).getD index ""
  "knowledge.analysis.execute." ++ String.ofList ((delayName.toList.splitOn '.').getLastD [])

/-- The task of an event of the analysis queue; the other events go to the index queue. -/
def EventPayload.analysisTask : EventPayload → Option Uuid
  | .analysisRequested taskId _ => some taskId
  | .indexRequested .. => none

/-! ## Processes -/

inductive ExecutionStatus where
  | completed | skipped | other
  deriving DecidableEq, Repr

/-- Where the handler of a delivery stands. -/
inductive ReceiverStage where
  | received
  | executing
  | executed (status : ExecutionStatus) (reason : Option String)
  | retrying (reason : String)
  | deadLettering (reason : String)
  | opening (attemptCount : ℕ)
  | publishing (attemptCount : ℕ)
  | leaving (disposal : Disposal)
  deriving DecidableEq, Repr

/-- Where a publisher stands in the events it has claimed. -/
inductive OutboxPublisher where
  | publishing (events : List (Uuid × EventPayload))
  | marking (eventId : Uuid) (rest : List (Uuid × EventPayload))
  | releasing (eventId : Uuid)
  deriving DecidableEq, Repr

/-- A message names a task, if it can be parsed. -/
abbrev AnalysisBroker : Type := Broker Uuid Uuid (Option Uuid) ReceiverStage

abbrev AnalysisHandler : Type := Handler Uuid (Option Uuid) ReceiverStage

structure AnalysisSystem where
  db : KnowledgeDb
  broker : AnalysisBroker
  publishers : Table Uuid OutboxPublisher

/-- What is decided outside about one step of a handler; an execution without outcome has
raised. -/
structure ReceiverChoice where
  now : Timestamp
  token : Uuid
  raises : Bool
  outcome : Option (ExecutionStatus × Option String)
  publication : Publication
  fresh : Uuid

inductive AnalysisCmd where
  | store (c : TaskCmd)
  | claim (publisher : Uuid) (now : Timestamp) (picked : List Uuid)
  | publish (publisher : Uuid) (now : Timestamp) (publication : Publication) (messageId : Uuid)
  | publisherCrash (publisher : Uuid)
  | arrive (messageId : Uuid) (body : Option Uuid)
  | expire (messageId : Uuid)
  | deliver (messageId tag : Uuid)
  | redeliver (messageId : Uuid)
  | work (tag : Uuid) (c : WorkerCall)
  | handle (tag : Uuid) (choice : ReceiverChoice)
  | handlerCrash (tag : Uuid)

/-- What the API, the recovery job and the operator do; the outbox belongs to the publishers. -/
def TaskCmd.external : TaskCmd → Bool
  | .claimOutboxEvents .. | .markOutboxPublished .. | .releaseOutboxEvent .. => false
  | _ => true

/-- The calls of the executor; the receiver itself settles and retries. -/
def WorkerCall.executes : WorkerCall → Bool
  | .settleTask .. | .scheduleRetry .. => false
  | _ => true

namespace AnalysisSystem

def notNext : Tx AnalysisSystem :=
  .error (.value "not the next step")

def onBroker (f : AnalysisBroker → AnalysisBroker) (s : AnalysisSystem) : AnalysisSystem :=
  { s with broker := f s.broker }

/-- A publication, as far as the broker is concerned. -/
def send (publication : Publication) (messageId : Uuid) (body : Option Uuid) (place : Place Uuid)
    (s : AnalysisSystem) : Tx AnalysisSystem :=
  if publication = .refused then .ok s
  else if messageId ∈ s.broker.messages then notNext
  else .ok (s.onBroker (·.put messageId body place))

/-- The handler goes on, in another state of the database. -/
def enter (tag : Uuid) (h : AnalysisHandler) (db : KnowledgeDb) (stage : ReceiverStage)
    (s : AnalysisSystem) : AnalysisSystem :=
  { s with db, broker := s.broker.enter tag h stage }

/-- One step of `_handle` and of `_retry_or_dead_letter` for a task. -/
def handleTask (maxRetries : ℕ) (tag : Uuid) (h : AnalysisHandler) (taskId : Uuid)
    (c : ReceiverChoice) (s : AnalysisSystem) : Tx AnalysisSystem :=
  -- An exception which is not caught ends the handler and leaves its message alone.
  let escapes := s.onBroker (·.drop tag)
  match h.stage with
  | .received =>
    if c.raises then .ok escapes
    else
      match claimTask c.token c.now taskId s.db with
      | (none, db) => .ok (s.enter tag h db (.leaving .ack))
      | (some _, db) => .ok (s.enter tag h db .executing)
  | .executing =>
    match c.outcome with
    | some (status, reason) => .ok (s.enter tag h s.db (.executed status reason))
    | none => .ok (s.enter tag h s.db (.retrying "unhandled_worker_error"))
  | .executed .completed reason =>
    if c.raises then .ok escapes
    else
      match settleTask c.now taskId .completed reason s.db with
      | .ok db => .ok (s.enter tag h db (.leaving .ack))
      | .error _ => .ok escapes
  | .executed .skipped reason =>
    if c.raises then .ok escapes
    else
      match settleTask c.now taskId .skipped reason s.db with
      | .ok db => .ok (s.enter tag h db (.leaving .ack))
      | .error _ => .ok escapes
  | .executed .other reason =>
    .ok (s.enter tag h s.db (.retrying ((truthy reason).getD "processing_failed")))
  | .retrying reason =>
    if c.raises then .ok escapes
    else
      match scheduleRetry c.now taskId reason maxRetries s.db with
      | (none, db) => .ok (s.enter tag h db (.leaving .ack))
      | (some task, db) =>
        if task.state = .deadLettered then .ok (s.enter tag h db (.deadLettering reason))
        else .ok (s.enter tag h db (.opening task.attemptCount))
  | .deadLettering reason =>
    if c.raises then .ok escapes
    else
      (recordDeadLetter c.fresh (some taskId) reason s.db).map fun db ↦
        s.enter tag h db (.leaving .reject)
  | .opening attemptCount =>
    if c.raises then .ok escapes else .ok (s.enter tag h s.db (.publishing attemptCount))
  | .publishing attemptCount =>
    (s.send c.publication c.fresh h.body (.delayed (retryRoutingKey attemptCount))).map fun s ↦
      -- The channel is closed before the message is acknowledged.
      if c.publication ≠ .confirmed then s.enter tag h s.db (.leaving .requeue)
      else if c.raises then s.onBroker (·.drop tag)
      else s.enter tag h s.db (.leaving .ack)
  | .leaving disposal => .ok (s.onBroker (·.leave tag h disposal))

def handle (maxRetries : ℕ) (tag : Uuid) (c : ReceiverChoice) (s : AnalysisSystem) :
    Tx AnalysisSystem :=
  match s.broker.handlers.lookup tag with
  | none => notNext
  | some h =>
    match h.body with
    | some taskId => s.handleTask maxRetries tag h taskId c
    | none =>
      match h.stage with
      | .leaving disposal => .ok (s.onBroker (·.leave tag h disposal))
      | _ => .ok (s.enter tag h s.db (.leaving .reject))

/-- One step of `publish_once`. -/
def publish (publisher : Uuid) (now : Timestamp) (publication : Publication) (messageId : Uuid)
    (s : AnalysisSystem) : Tx AnalysisSystem :=
  match s.publishers.lookup publisher with
  | none => notNext
  | some (.publishing []) => .ok { s with publishers := s.publishers.erase publisher }
  | some (.publishing ((eventId, payload) :: rest)) => do
    let s ← match payload.analysisTask with
      | some taskId => s.send publication messageId (some taskId) .ready
      | none => .ok s
    let next : OutboxPublisher :=
      if publication = .confirmed then .marking eventId rest else .releasing eventId
    return { s with publishers := s.publishers.insert publisher next }
  | some (.marking eventId rest) =>
    .ok { s with
      db := markOutboxPublished now eventId s.db
      publishers := s.publishers.insert publisher (.publishing rest) }
  | some (.releasing eventId) =>
    .ok { s with
      db := releaseOutboxEvent eventId s.db
      publishers := s.publishers.erase publisher }

def exec (maxRetries : ℕ) : AnalysisCmd → AnalysisSystem → Tx AnalysisSystem
  | .store c, s =>
    if c.external then (c.exec s.db).map fun db ↦ { s with db } else notNext
  | .claim publisher now picked, s =>
    if publisher ∈ s.publishers then notNext
    else
      let (claimed, db) := claimOutboxEvents now picked s.db
      let events := claimed.map fun e ↦ (e.1, e.2.payload)
      .ok { s with db, publishers := s.publishers.insert publisher (.publishing events) }
  | .publish publisher now publication messageId, s => s.publish publisher now publication messageId
  | .publisherCrash publisher, s => .ok { s with publishers := s.publishers.erase publisher }
  | .arrive messageId body, s => s.send .confirmed messageId body .ready
  | .expire messageId, s =>
    match s.broker.messages.lookup messageId with
    | some ⟨body, .delayed _⟩ => .ok (s.onBroker (·.put messageId body .ready))
    | _ => notNext
  | .deliver messageId tag, s =>
    match s.broker.messages.lookup messageId with
    | some ⟨body, .ready⟩ =>
      if tag ∈ s.broker.handlers ∨ s.broker.messages.anyRow fun _ m ↦ m.place = .unacked tag then
        notNext
      else .ok (s.onBroker (·.handOut messageId body tag .received))
    | _ => notNext
  | .redeliver messageId, s =>
    match s.broker.messages.lookup messageId with
    | some ⟨body, .unacked _⟩ => .ok (s.onBroker (·.put messageId body .ready))
    | _ => notNext
  | .work tag c, s =>
    match s.broker.handlers.lookup tag with
    | some ⟨_, some taskId, .executing⟩ =>
      if c.executes then (c.exec taskId s.db).map fun db ↦ { s with db } else notNext
    | _ => notNext
  | .handle tag c, s => s.handle maxRetries tag c
  -- The connection goes down with the process, and the broker takes the message back.
  | .handlerCrash tag, s =>
    match s.broker.handlers.lookup tag with
    | some h => .ok (s.onBroker (·.leave tag h .requeue))
    | none => notNext

end AnalysisSystem

end S3mp.Knowledge
