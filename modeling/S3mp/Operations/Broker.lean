import S3mp.Operations.World

/-!
# Publishers, broker and receivers

The outbox publisher, the RabbitMQ receiver and its retries, next to the
transactions of the store.  Publishers and handlers of deliveries stand between
two of their awaited calls; each may crash there, which is also what an exception
does that nobody catches.  The broker keeps a message until the delivery it was
handed out with has acknowledged or rejected it, and hands it out again when the
connection of that delivery is lost.
-/

namespace S3mp

open Relational Files Storage Transition

/-! ## Messages -/

inductive Place where
  | ready
  | delayed (queue : String)
  | unacked (tag : Uuid)
  deriving DecidableEq, Repr

/-- A message of the operation queue or of a retry queue; `body` is the operation it names, if
it can be parsed. -/
structure Message where
  body : Option Uuid
  place : Place
  deriving DecidableEq, Repr

/-- The retry queues with their delays in milliseconds. -/
def retryDelays : List (String × ℕ) :=
  [("file.operation.retry.5s", 5000),
    ("file.operation.retry.1m", 60000),
    ("file.operation.retry.5m", 300000),
    ("file.operation.retry.15m", 900000)]

def retryRoutingKey (attemptCount : ℕ) : String :=
  (retryDelays.map Prod.fst).getD (min (attemptCount - 1) (retryDelays.length - 1)) ""

/-! ## Processes -/

/-- The rest of a delivery by the operation worker. -/
abbrev Execution : Type :=
  Program (fun r : WorkerRequest ↦ Except Unit r.Value) (Except Unit Outcome)

inductive Disposal where
  | ack | reject | requeue
  deriving DecidableEq, Repr

/-- Where the handler of a delivery stands. -/
inductive Stage where
  | received
  | started (op : FileOperation)
  | executing (op : FileOperation) (p : Execution)
  | executed (op : FileOperation) (outcome : Outcome)
  | retrying (op : FileOperation) (reason : String)
  | publishing (attemptCount : ℕ)
  | leaving (disposal : Disposal)

structure Handler where
  message : Uuid
  body : Option Uuid
  stage : Stage

/-- Where a publisher stands in the events it has claimed, each with its operation. -/
inductive Publisher where
  | publishing (events : List (Uuid × Uuid))
  | marking (eventId : Uuid) (rest : List (Uuid × Uuid))
  | releasing (eventId : Uuid)
  deriving DecidableEq, Repr

structure BrokerSystem (γ : Type) where
  world : World γ
  messages : Table Uuid Message
  handlers : Table Uuid Handler
  publishers : Table Uuid Publisher

/-- How a publication ends: it is confirmed, or raises, in which case the broker may have
accepted the message. -/
inductive Publication where
  | confirmed | refused | unconfirmed
  deriving DecidableEq, Repr

/-- What is decided outside about one step of a handler. -/
structure HandlerChoice where
  now : Timestamp
  locked : Bool
  answer : Choice
  publication : Publication
  messageId : Uuid

/-- What the API, the recovery job, the operator and the cutover do to the store. -/
inductive StoreCmd where
  | createOperation (ids : OperationIds) (spaceId : Uuid) (data : OperationData)
  | createRenameOperation (ids : OperationIds) (spaceId : Uuid) (data : RenameData)
  | recoverTimedOutOperations (now : Timestamp) (timeoutSeconds : ℤ) (maxRecoveries : ℕ)
      (outboxId : Uuid → Uuid) (picked : List Uuid)
  | replayDeadLetterOperation (outboxId id replayOfEventId : Uuid)
  | enqueueLegacyOperations (now : Timestamp) (outboxId : Uuid → Uuid) (picked : List Uuid)
  | other (c : Cmd)

def StoreCmd.command : StoreCmd → OpCmd
  | .createOperation ids spaceId data => .createOperation ids spaceId data
  | .createRenameOperation ids spaceId data => .createRenameOperation ids spaceId data
  | .recoverTimedOutOperations now timeout maxRecoveries outboxId picked =>
      .recoverTimedOutOperations now timeout maxRecoveries outboxId picked
  | .replayDeadLetterOperation outboxId id replayOf => .replayDeadLetterOperation outboxId id replayOf
  | .enqueueLegacyOperations now outboxId picked => .enqueueLegacyOperations now outboxId picked
  | .other c => .other c

inductive BrokerCmd (γ : Type) where
  | store (c : StoreCmd)
  | provider (objects : ProviderTarget → Option (StoredObject γ))
  | claim (publisher : Uuid) (now : Timestamp) (picked : List Uuid)
  | publish (publisher : Uuid) (now : Timestamp) (publication : Publication) (messageId : Uuid)
  | publisherCrash (publisher : Uuid)
  | arrive (messageId : Uuid) (body : Option Uuid)
  | expire (messageId : Uuid)
  | deliver (messageId tag : Uuid)
  | redeliver (messageId : Uuid)
  | handle (tag : Uuid) (choice : HandlerChoice)
  | handlerCrash (tag : Uuid)

namespace BrokerSystem

variable {γ : Type}

def withDb (db : Db) (s : BrokerSystem γ) : BrokerSystem γ :=
  { s with world := { s.world with db } }

/-- The handler goes on at another stage. -/
def enter (tag : Uuid) (h : Handler) (stage : Stage) (s : BrokerSystem γ) : BrokerSystem γ :=
  { s with handlers := s.handlers.insert tag { h with stage } }

def drop (tag : Uuid) (s : BrokerSystem γ) : BrokerSystem γ :=
  { s with handlers := s.handlers.erase tag }

def accept (messageId : Uuid) (message : Message) (s : BrokerSystem γ) : Except Unit (BrokerSystem γ) :=
  if messageId ∈ s.messages then .error ()
  else .ok { s with messages := s.messages.insert messageId message }

/-- A publication to the exchange, as far as the broker is concerned. -/
def send (publication : Publication) (messageId : Uuid) (message : Message) (s : BrokerSystem γ) :
    Except Unit (BrokerSystem γ) :=
  if publication = .refused then .ok s else s.accept messageId message

def move (messageId : Uuid) (body : Option Uuid) (place : Place) (s : BrokerSystem γ) :
    BrokerSystem γ :=
  { s with messages := s.messages.insert messageId ⟨body, place⟩ }

def settle (now : Timestamp) (tag : Uuid) (h : Handler) (id : Uuid) (status : OperationStatus)
    (reason : Option String) (disposal : Disposal) (s : BrokerSystem γ) : BrokerSystem γ :=
  match settleBrokerOperation now id status reason s.world.db with
  | .error _ => s.drop tag
  | .ok db => (s.withDb db).enter tag h (.leaving disposal)

/-- A delivery may only dispose of its message while the message is handed out with it. -/
def dispose (tag : Uuid) (h : Handler) (disposal : Disposal) (s : BrokerSystem γ) : BrokerSystem γ :=
  let s := s.drop tag
  if s.messages.lookup h.message ≠ some ⟨h.body, .unacked tag⟩ then s
  else if disposal = .requeue then s.move h.message h.body .ready
  else { s with messages := s.messages.erase h.message }

def retryOrDeadLetter (maxRetries : ℕ) (now : Timestamp) (tag : Uuid) (h : Handler) (id : Uuid)
    (op : FileOperation) (reason : String) (s : BrokerSystem γ) : BrokerSystem γ :=
  if op.attemptCount ≥ maxRetries then
    s.settle now tag h id .deadLettered (some "retry_exhausted") .reject
  else
    match scheduleBrokerRetry now id (some reason) s.world.db with
    | (none, db) => (s.withDb db).enter tag h (.leaving .ack)
    | (some retry, db) => (s.withDb db).enter tag h (.publishing retry.attemptCount)

/-- One step of `_handle` and of `_retry_or_dead_letter`. -/
def handle (D : Digest γ) (tenantId : Uuid) (maxRetries : ℕ) (tag : Uuid) (c : HandlerChoice)
    (s : BrokerSystem γ) : Except Unit (BrokerSystem γ) :=
  match s.handlers.lookup tag with
  | none => .error ()
  | some h =>
    match h.body with
    | none =>
      match h.stage with
      | .leaving disposal => .ok (s.dispose tag h disposal)
      | _ => .ok (s.enter tag h (.leaving .reject))
    | some id =>
      match h.stage with
      | .received =>
        match startBrokerOperation c.now id s.world.db with
        | (none, db) => .ok ((s.withDb db).enter tag h (.leaving .ack))
        | (some op, db) => .ok ((s.withDb db).enter tag h (.started op))
      | .started op =>
        if c.locked then .ok (s.enter tag h (.executing op (executeOperation tenantId id op).run))
        else .ok (s.enter tag h (.retrying op "redis_lock_unavailable"))
      | .executing op (.request r next) =>
        let (x, world) := World.answer D r c.answer s.world
        .ok ({ s with world }.enter tag h (.executing op (next x)))
      | .executing _ (.done (.error ())) => .ok (s.drop tag)
      | .executing op (.done (.ok outcome)) => .ok (s.enter tag h (.executed op outcome))
      | .executed op (status, reason) =>
        if status = .retryWait then
          .ok (s.enter tag h (.retrying op ((truthy reason).getD "object_storage_unavailable")))
        else if status = .partialFailure then
          .ok (s.settle c.now tag h id .partialFailure reason .reject)
        else if status = .failed then .ok (s.settle c.now tag h id .deadLettered reason .reject)
        else .ok (s.settle c.now tag h id status reason .ack)
      | .retrying op reason => .ok (s.retryOrDeadLetter maxRetries c.now tag h id op reason)
      | .publishing attemptCount =>
        (s.send c.publication c.messageId
          ⟨h.body, .delayed (retryRoutingKey attemptCount)⟩).map fun s ↦
            s.enter tag h (.leaving (if c.publication = .confirmed then .ack else .requeue))
      | .leaving disposal => .ok (s.dispose tag h disposal)

/-- One step of `publish_once`. -/
def publish (publisher : Uuid) (now : Timestamp) (publication : Publication) (messageId : Uuid)
    (s : BrokerSystem γ) : Except Unit (BrokerSystem γ) :=
  match s.publishers.lookup publisher with
  | none => .error ()
  | some (.publishing []) => .ok { s with publishers := s.publishers.erase publisher }
  | some (.publishing ((eventId, operationId) :: rest)) =>
    (s.send publication messageId ⟨some operationId, .ready⟩).map fun s ↦
      let next := if publication = .confirmed then .marking eventId rest else .releasing eventId
      { s with publishers := s.publishers.insert publisher next }
  | some (.marking eventId rest) =>
    .ok { s.withDb (markOutboxPublished now eventId s.world.db) with
      publishers := s.publishers.insert publisher (.publishing rest) }
  | some (.releasing eventId) =>
    .ok { s.withDb (releaseOutboxEvent eventId s.world.db) with
      publishers := s.publishers.erase publisher }

end BrokerSystem

open BrokerSystem

def brokerExec {γ : Type} (D : Digest γ) (tenantId : Uuid) (maxRetries : ℕ) :
    BrokerCmd γ → BrokerSystem γ → Except Unit (BrokerSystem γ)
  | .store c, s =>
    match opExec c.command s.world.db with
    | .error _ => .error ()
    | .ok db => .ok (s.withDb db)
  | .provider objects, s => .ok { s with world := { s.world with objects } }
  | .claim publisher now picked, s =>
    if publisher ∈ s.publishers then .error ()
    else
      let (claimed, db) := claimOutboxEvents now picked s.world.db
      let events := claimed.map fun e ↦ (e.1, e.2.operationId)
      .ok { s.withDb db with publishers := s.publishers.insert publisher (.publishing events) }
  | .publish publisher now publication messageId, s => s.publish publisher now publication messageId
  | .publisherCrash publisher, s => .ok { s with publishers := s.publishers.erase publisher }
  | .arrive messageId body, s => s.accept messageId ⟨body, .ready⟩
  | .expire messageId, s =>
    match s.messages.lookup messageId with
    | some ⟨body, .delayed _⟩ => .ok (s.move messageId body .ready)
    | _ => .error ()
  | .deliver messageId tag, s =>
    match s.messages.lookup messageId with
    | some ⟨body, .ready⟩ =>
      if tag ∈ s.handlers ∨ s.messages.anyRow fun _ m ↦ m.place = .unacked tag then .error ()
      else .ok { s.move messageId body (.unacked tag) with
        handlers := s.handlers.insert tag ⟨messageId, body, .received⟩ }
    | _ => .error ()
  | .redeliver messageId, s =>
    match s.messages.lookup messageId with
    | some ⟨body, .unacked _⟩ => .ok (s.move messageId body .ready)
    | _ => .error ()
  | .handle tag c, s => s.handle D tenantId maxRetries tag c
  | .handlerCrash tag, s => .ok (s.drop tag)

end S3mp
