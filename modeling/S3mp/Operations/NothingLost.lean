import S3mp.Operations.Handover

/-!
# No operation is lost

An operation which waits for a delivery must be announced by an outbox event a
publisher will claim or by a message that will be delivered, and an operation in
processing must be one the recovery will select.  A message whose handler is about
to discard it, and an event which is about to be marked as published, do not
count.
-/

namespace S3mp

open Relational Files Storage Transition

/-- A delivery of an operation in this status starts it. -/
def Files.OperationStatus.startable (status : OperationStatus) : Bool :=
  status ∈ [.queued, .retryScheduled]

/-- The handler may still give the message back or send its copy to a retry queue. -/
def Stage.keepsMessage : Stage → Bool
  | .received | .publishing _ | .leaving .requeue => true
  | _ => false

/-- The recovery query selects the operation, once its timeout is over. -/
def Selectable (db : Db) (o : Uuid) (op : FileOperation) : Prop :=
  ∃ t, ∀ cutoff, t < cutoff → timedOut cutoff o op db

namespace BrokerSystem

variable {γ : Type} (s : BrokerSystem γ)

/-- Nobody is about to discard the message. -/
def Kept (message : Message) : Prop :=
  ∀ tag h, message.place = .unacked tag → s.handlers.lookup tag = some h → h.stage.keepsMessage

def InFlight (o : Uuid) : Prop :=
  ∃ m message, s.messages.lookup m = some message ∧ message.body = some o ∧ s.Kept message

def Announced (o : Uuid) : Prop :=
  ∃ e event, s.world.db.outbox.lookup e = some event ∧ event.operationId = o ∧
    (∃ t, ∀ now, t < now → event.claimable now) ∧
    ∀ publisher rest, s.publishers.lookup publisher ≠ some (.marking e rest)

/-- A delivery of the operation is to come. -/
def Expected (o : Uuid) : Prop :=
  s.Announced o ∨ s.InFlight o

structure NothingLost : Prop where
  waiting : ∀ o op, s.world.db.operations.lookup o = some op → op.status.startable → s.Expected o
  processing : ∀ o op, s.world.db.operations.lookup o = some op → op.status = .processing →
    Selectable s.world.db o op

/-- The message of the delivery has not been taken from it. -/
def HasMessage (tag : Uuid) (h : Handler) : Prop :=
  s.messages.lookup h.message = some ⟨h.body, .unacked tag⟩

/-- A delivery starts only an operation which occupies a file row.  A retry is recorded only
while the delivery still has its message, or another delivery is to come. -/
def KeepsOperations (maxRetries : ℕ) : BrokerCmd γ → Prop
  | .handle tag _ => ∀ h o row, s.handlers.lookup tag = some h → h.body = some o →
      s.world.db.operations.lookup o = some row →
      (h.stage = .received → row.status.startable → operationFileIds o s.world.db ≠ []) ∧
      ∀ op reason, h.stage = .retrying op reason → op.attemptCount < maxRetries →
        row.status = .processing → s.HasMessage tag h ∨ s.Expected o
  | _ => True

end BrokerSystem

/-! ## What holds of every run -/

/-- What the worker has reported can be settled, and what it will report. -/
def Stage.Decided : Stage → Prop
  | .executing _ p => p.Returns fun out ↦ ∀ outcome, out = .ok outcome → Settleable outcome
  | .executed _ outcome => Settleable outcome
  | _ => True

/-- The events a publisher has claimed and not yet published. -/
def Publisher.events : Publisher → List (Uuid × Uuid)
  | .publishing events => events
  | .marking _ rest => rest
  | .releasing _ => []

variable {γ : Type} {s : BrokerSystem γ} {db db' : Db} {o : Uuid}

/-- The publisher knows the operations of its events. -/
def Publisher.Knows (db : Db) (p : Publisher) : Prop :=
  (∀ e ∈ p.events, ∃ event, db.outbox.lookup e.1 = some event ∧ event.operationId = e.2) ∧
    ∀ e rest, p = .marking e rest → e ∈ db.outbox

structure WellDelivered (s : BrokerSystem γ) : Prop where
  consistent : Consistent s.world.db
  legacy : LegacyFresh s.world.db
  claimed : ∀ publisher p, s.publishers.lookup publisher = some p → p.Knows s.world.db
  held : ∀ m message tag h, s.messages.lookup m = some message → message.place = .unacked tag →
    s.handlers.lookup tag = some h → h.message = m ∧ h.body = message.body
  decided : ∀ tag h, s.handlers.lookup tag = some h → h.stage.Decided

theorem claimable_iff {event : OperationOutboxEvent} :
    (∃ t, ∀ now, t < now → event.claimable now) ↔ event.publishedAt = none := by
  constructor
  · rintro ⟨t, h⟩
    have hnow := h (t + 1) (lt_add_one t)
    simp only [OperationOutboxEvent.claimable, Bool.and_eq_true, Option.isNone_iff_eq_none] at hnow
    exact hnow.1
  · intro h
    refine ⟨event.publishLeaseExpiresAt.getD 0, fun now hnow ↦ ?_⟩
    cases hlease : event.publishLeaseExpiresAt with
    | none => simp [OperationOutboxEvent.claimable, h, hlease]
    | some lease =>
        rw [hlease, Option.getD_some] at hnow
        simp [OperationOutboxEvent.claimable, h, hlease, hnow]

theorem selectable_iff {op : FileOperation} (hop : op.status = .processing) :
    Selectable db o op ↔ Stamped o db := by
  constructor
  · rintro ⟨t, h⟩
    obtain ⟨-, hrow⟩ := timedOut_eq_true.mp (h (t + 1) (lt_add_one t))
    obtain ⟨j, f, hf, hheld, hstart⟩ := hrow
    obtain ⟨hstart, -⟩ := (Option.any_eq_true_iff_get _ _).mp hstart
    exact ⟨j, f, hf, hheld, hstart⟩
  · rintro ⟨j, f, hf, hheld, hstart⟩
    obtain ⟨start, hstart⟩ := Option.isSome_iff_exists.mp hstart
    refine ⟨start, fun cutoff hcutoff ↦ timedOut_eq_true.mpr ⟨hop, j, f, hf, hheld, ?_⟩⟩
    simpa [hstart] using hcutoff

/-! ## What a delivery writes -/

/-- The transaction writes the operation `o`, its rows and nothing else. -/
structure Serves (o : Uuid) (db db' : Db) : Prop where
  others : ∀ i, i ≠ o → db'.operations.lookup i = db.operations.lookup i
  rows : ∀ i, i ≠ o → RowsKept i db db'
  outbox : db'.outbox = db.outbox

theorem Serves.refl (o : Uuid) (db : Db) : Serves o db db :=
  ⟨fun _ _ ↦ rfl, fun i _ ↦ .refl i db, rfl⟩

/-- The operation goes on in a status which the cutover does not look for. -/
theorem Serves.legacyFresh (h : Serves o db db') (hdb : LegacyFresh db)
    (hop : ∀ op', db'.operations.lookup o = some op' → op'.status.legacy = false) :
    LegacyFresh db' := by
  intro i op e event hi hlegacy hevent
  by_cases ho : i = o
  · subst ho
    rw [hop op hi] at hlegacy
    cases hlegacy
  · exact hdb i op e event (h.others i ho ▸ hi) hlegacy (h.outbox ▸ hevent)

theorem startBrokerOperation_cases {now : Timestamp} {out : Option FileOperation}
    (h : startBrokerOperation now o db = (out, db')) :
    (out = none ∧ db' = db ∧
      ∀ op, db.operations.lookup o = some op → op.status.startable = false) ∨
    ∃ op op', out = some op' ∧ db.operations.lookup o = some op ∧ op.status.startable ∧
      op'.status = .processing ∧ db' = { db with
        operations := db.operations.update o fun _ ↦ op'
        files := updateHeld o (FileObject.inPhase .processing (some now)) db.files } := by
  unfold startBrokerOperation at h
  split at h
  · rename_i hnone
    obtain ⟨rfl, rfl⟩ := Prod.mk.inj h
    exact Or.inl ⟨rfl, rfl, fun op hop ↦ by rw [hnone] at hop; cases hop⟩
  rename_i op hop
  split at h
  · rename_i hstatus
    obtain ⟨rfl, rfl⟩ := Prod.mk.inj h
    refine Or.inl ⟨rfl, rfl, fun op₀ hop₀ ↦ ?_⟩
    obtain rfl := Option.some.inj (hop.symm.trans hop₀)
    simpa [OperationStatus.startable] using hstatus
  · rename_i hstatus
    obtain ⟨rfl, rfl⟩ := Prod.mk.inj h
    refine Or.inr ⟨op, _, rfl, hop, ?_, rfl, rfl⟩
    have hstatus := Decidable.not_not.mp hstatus
    simpa [OperationStatus.startable] using hstatus

theorem scheduleBrokerRetry_cases {now : Timestamp} {reason : Option String}
    {out : Option FileOperation} (h : scheduleBrokerRetry now o reason db = (out, db')) :
    (out = none ∧ db' = db ∧
      ∀ op, db.operations.lookup o = some op → op.status ≠ .processing) ∨
    ∃ op op', out = some op' ∧ db.operations.lookup o = some op ∧ op.status = .processing ∧
      op'.status = .retryScheduled ∧ db' = { db with
        operations := db.operations.update o fun _ ↦ op'
        files := updateHeld o (FileObject.inPhase .retryScheduled none) db.files } := by
  unfold scheduleBrokerRetry at h
  split at h
  · rename_i hnone
    obtain ⟨rfl, rfl⟩ := Prod.mk.inj h
    exact Or.inl ⟨rfl, rfl, fun op hop ↦ by rw [hnone] at hop; cases hop⟩
  rename_i op hop
  split at h
  · rename_i hstatus
    obtain ⟨rfl, rfl⟩ := Prod.mk.inj h
    refine Or.inl ⟨rfl, rfl, fun op₀ hop₀ ↦ ?_⟩
    obtain rfl := Option.some.inj (hop.symm.trans hop₀)
    exact hstatus
  · rename_i hstatus
    obtain ⟨rfl, rfl⟩ := Prod.mk.inj h
    exact Or.inr ⟨op, _, rfl, hop, Decidable.not_not.mp hstatus, rfl, rfl⟩

theorem serves_phase {op' : FileOperation} {phase : OperationPhase} {startedAt : Option Timestamp} :
    Serves o db { db with
      operations := db.operations.update o fun _ ↦ op'
      files := updateHeld o (FileObject.inPhase phase startedAt) db.files } :=
  ⟨fun _ hi ↦ AList.lookup_update_of_ne hi _ _, fun _ hi ↦ rowsKept_updateHeld hi rfl, rfl⟩

/-- A settlement with a terminal status ends the operation. -/
theorem settleBrokerOperation_serves {now : Timestamp} {status : OperationStatus}
    {reason : Option String} (hterminal : status.terminal)
    (h : settleBrokerOperation now o status reason db = .ok db') :
    Serves o db db' ∧ ∀ op', db'.operations.lookup o = some op' → op'.status.terminal := by
  rcases settleBrokerOperation_eq_ok h with ⟨hnone, rfl⟩ | ⟨op, hop, rfl⟩
  · exact ⟨.refl o db', fun op' hop' ↦ by rw [hnone] at hop'; cases hop'⟩
  · refine ⟨⟨fun _ hi ↦ AList.lookup_update_of_ne hi _ _, fun _ hi ↦ rowsKept_settled hi rfl, rfl⟩,
      fun op' hop' ↦ ?_⟩
    rw [lookup_update_status hop] at hop'
    obtain rfl := Option.some.inj hop'
    exact hterminal

theorem recordRenameProviderResult_frame {etag : Option String} :
    (recordRenameProviderResult o etag db).operations = db.operations ∧
      (recordRenameProviderResult o etag db).outbox = db.outbox := by
  unfold recordRenameProviderResult
  split
  · exact ⟨rfl, rfl⟩
  split
  · exact ⟨rfl, rfl⟩
  split
  · exact ⟨rfl, rfl⟩
  · exact ⟨rfl, rfl⟩

/-- What a request of the worker leaves of the database. -/
theorem answer_quiet {D : Digest γ} (r : WorkerRequest) (c : Choice) {w : World γ}
    (hdb : Consistent w.db) :
    (World.answer D r c w).2.db.operations = w.db.operations ∧
      (World.answer D r c w).2.db.outbox = w.db.outbox ∧
      (∀ i, RowsKept i w.db (World.answer D r c w).2.db) ∧
      Consistent (World.answer D r c w).2.db := by
  have hsame : ∀ w' : World γ, w'.db = w.db → w'.db.operations = w.db.operations ∧
      w'.db.outbox = w.db.outbox ∧ (∀ i, RowsKept i w.db w'.db) ∧ Consistent w'.db :=
    fun w' h ↦ ⟨by rw [h], by rw [h], fun i ↦ rowsKept_of_files (by rw [h]), h ▸ hdb⟩
  cases r with
  | read r => exact hsame _ (by rw [World.answer_read])
  | head t => exact hsame _ rfl
  | copy source destination =>
      rcases World.answer_copy (D := D) (c := c) (w := w) source destination with h | ⟨o, -, h⟩
      · exact hsame _ (by rw [h])
      · exact hsame _ (by rw [h]; rfl)
  | delete t =>
      rcases World.answer_delete (D := D) (c := c) (w := w) t with h | h
      · exact hsame _ (by rw [h])
      · exact hsame _ (by rw [h]; rfl)
  | recordRenameProviderResult id etag =>
      rcases World.effect_cases c w { w with db := recordRenameProviderResult id etag w.db } with
        h | h
      · exact hsame _ (congrArg World.db h)
      · have hdb' : (World.answer D (.recordRenameProviderResult id etag) c w).2.db =
            recordRenameProviderResult id etag w.db := congrArg World.db h
        rw [hdb']
        exact ⟨recordRenameProviderResult_frame.1, recordRenameProviderResult_frame.2,
          fun i ↦ recordRenameProviderResult_rowsKept,
          (recordRenameProviderResult_actsFor etag).consistent hdb⟩

/-! ## What the outbox transactions write -/

/-- The transaction writes the leases and the publication times of events alone. -/
structure Republishes (db db' : Db) : Prop where
  operations : db'.operations = db.operations
  files : db'.files = db.files
  events : ∀ e, (db'.outbox.lookup e).map (·.operationId) =
    (db.outbox.lookup e).map (·.operationId)

theorem Republishes.knows (h : Republishes db db') {p : Publisher} (hp : p.Knows db) :
    p.Knows db' := by
  refine ⟨fun e he ↦ ?_, fun e rest hmarks ↦ ?_⟩
  · obtain ⟨event, hevent, hoperation⟩ := hp.1 e he
    have hsame := h.events e.1
    rw [hevent, Option.map_some, hoperation] at hsame
    exact Option.map_eq_some_iff.mp hsame
  · obtain ⟨event, hevent⟩ := AList.exists_lookup_of_mem (hp.2 e rest hmarks)
    have hsame := h.events e
    rw [hevent, Option.map_some] at hsame
    obtain ⟨event', hevent', -⟩ := Option.map_eq_some_iff.mp hsame
    exact AList.mem_of_lookup hevent'

theorem Republishes.legacyFresh (h : Republishes db db') (hdb : LegacyFresh db) :
    LegacyFresh db' := by
  intro o op e event hop hlegacy hevent
  have hsame := h.events e
  rw [hevent, Option.map_some] at hsame
  obtain ⟨event₀, hevent₀, hoperation⟩ := Option.map_eq_some_iff.mp hsame.symm
  rw [← hoperation]
  exact hdb o op e event₀ (h.operations ▸ hop) hlegacy hevent₀

theorem Republishes.consistent (h : Republishes db db') (hdb : Consistent db) : Consistent db' := by
  refine ⟨?_, ?_, ?_⟩
  · rw [h.files]
    exact hdb.unique
  · rw [h.files]
    exact hdb.operable
  · rw [h.files, h.operations]
    exact hdb.known

theorem claimOutboxEvents_republishes (now : Timestamp) (picked : List Uuid) :
    Republishes db (claimOutboxEvents now picked db).2 := by
  refine ⟨rfl, rfl, fun e ↦ ?_⟩
  simp only [claimOutboxEvents, AList.lookup_updateWhere, Option.map_map]
  cases db.outbox.lookup e with
  | none => rfl
  | some event =>
      simp only [Option.map_some, Function.comp_apply]
      split <;> rfl

theorem republishes_update {e : Uuid} {g : OperationOutboxEvent → OperationOutboxEvent}
    (hg : ∀ event, (g event).operationId = event.operationId) :
    Republishes db { db with outbox := db.outbox.update e g } := by
  refine ⟨rfl, rfl, fun e' ↦ ?_⟩
  dsimp only
  rw [AList.lookup_update]
  split
  · rename_i he
    rw [he, Option.map_map]
    cases db.outbox.lookup e with
    | none => rfl
    | some event => simp [hg]
  · rfl

theorem releaseOutboxEvent_republishes (e : Uuid) : Republishes db (releaseOutboxEvent e db) := by
  refine republishes_update fun event ↦ ?_
  split <;> rfl

/-! ## What a handler can do -/

/-- The handler does not stand before a start, and not before a retry of an operation which is
still in processing. -/
def Untested (maxRetries : ℕ) (s : BrokerSystem γ) (h : Handler) : Prop :=
  ∀ o row, h.body = some o → s.world.db.operations.lookup o = some row →
    (h.stage = .received → row.status.startable = false) ∧
    ∀ op reason, h.stage = .retrying op reason → op.attemptCount < maxRetries →
      row.status ≠ .processing

theorem untested_of_stage {maxRetries : ℕ} {h : Handler} (hreceived : h.stage ≠ .received)
    (hretrying : ∀ op reason, h.stage ≠ .retrying op reason) : Untested maxRetries s h :=
  fun _ _ _ _ ↦ ⟨fun h ↦ absurd h hreceived, fun op reason h ↦ absurd h (hretrying op reason)⟩

/-- A step of the handler `h` of the delivery `tag` after which no operation waits which did not
wait before, and none is in processing which was not before. -/
inductive QuietStep (s : BrokerSystem γ) (tag : Uuid) (h : Handler) : BrokerSystem γ → Prop
  | goes (stage : Stage) (hstage : stage.Decided)
      (hbody : h.body = none ∨ h.stage.keepsMessage = false) : QuietStep s tag h (s.enter tag h stage)
  | falls : QuietStep s tag h (s.drop tag)
  | disposes (disposal : Disposal) (hstage : h.stage = .leaving disposal) :
      QuietStep s tag h (s.dispose tag h disposal)
  | declines (o : Uuid) (hbody : h.body = some o)
      (hnot : ∀ op, s.world.db.operations.lookup o = some op → op.status.startable = false) :
      QuietStep s tag h (s.enter tag h (.leaving .ack))
  | works (D : Digest γ) (r : WorkerRequest) (c : Choice) (stage : Stage) (hstage : stage.Decided)
      (hkeeps : h.stage.keepsMessage = false) :
      QuietStep s tag h ({ s with world := (World.answer D r c s.world).2 }.enter tag h stage)
  | settles (o : Uuid) (db' : Db) (disposal : Disposal) (hkeeps : h.stage.keepsMessage = false)
      (hconsistent : Consistent db') (hserves : Serves o s.world.db db')
      (hterminal : ∀ op', db'.operations.lookup o = some op' → op'.status.terminal) :
      QuietStep s tag h ((s.withDb db').enter tag h (.leaving disposal))
  | sends (m : Uuid) (queue : String) (disposal : Disposal) (hfresh : m ∉ s.messages) :
      QuietStep s tag h ({ s with
        messages := s.messages.insert m ⟨h.body, .delayed queue⟩ }.enter tag h (.leaving disposal))
  | gives : QuietStep s tag h (s.enter tag h (.leaving .requeue))

/-- The system after the start of the operation. -/
def started (s : BrokerSystem γ) (tag : Uuid) (h : Handler) (o : Uuid) (op' : FileOperation)
    (now : Timestamp) : BrokerSystem γ :=
  (s.withDb { s.world.db with
    operations := s.world.db.operations.update o fun _ ↦ op'
    files := updateHeld o (FileObject.inPhase .processing (some now)) s.world.db.files
    }).enter tag h (.started op')

/-- The system after the retry of the operation has been recorded. -/
def retried (s : BrokerSystem γ) (tag : Uuid) (h : Handler) (o : Uuid) (op' : FileOperation)
    (attemptCount : ℕ) : BrokerSystem γ :=
  (s.withDb { s.world.db with
    operations := s.world.db.operations.update o fun _ ↦ op'
    files := updateHeld o (FileObject.inPhase .retryScheduled none) s.world.db.files
    }).enter tag h (.publishing attemptCount)

/-- One step of a handler. -/
inductive HandlerStep (maxRetries : ℕ) (s : BrokerSystem γ) (tag : Uuid) (h : Handler) :
    BrokerSystem γ → Prop
  | quiet {s' : BrokerSystem γ} (huntested : Untested maxRetries s h) (hstep : QuietStep s tag h s') :
      HandlerStep maxRetries s tag h s'
  | starts (o : Uuid) (op op' : FileOperation) (now : Timestamp) (hbody : h.body = some o)
      (hstage : h.stage = .received) (hop : s.world.db.operations.lookup o = some op)
      (hstartable : op.status.startable) (hstatus : op'.status = .processing)
      (hconsistent : Consistent (started s tag h o op' now).world.db) :
      HandlerStep maxRetries s tag h (started s tag h o op' now)
  | retries (o : Uuid) (op op' row : FileOperation) (reason : String) (attemptCount : ℕ)
      (hbody : h.body = some o) (hstage : h.stage = .retrying op reason)
      (hattempts : op.attemptCount < maxRetries) (hrow : s.world.db.operations.lookup o = some row)
      (hprocessing : row.status = .processing) (hstatus : op'.status = .retryScheduled)
      (hconsistent : Consistent (retried s tag h o op' attemptCount).world.db) :
      HandlerStep maxRetries s tag h (retried s tag h o op' attemptCount)

theorem accept_eq_ok {m : Uuid} {message : Message} {s s' : BrokerSystem γ}
    (h : s.accept m message = .ok s') :
    m ∉ s.messages ∧ s' = { s with messages := s.messages.insert m message } := by
  unfold BrokerSystem.accept at h
  split at h
  · cases h
  · rename_i hfresh
    cases h
    exact ⟨hfresh, rfl⟩

/-- A publication leaves nothing behind only if it raises. -/
theorem send_eq_ok {publication : Publication} {m : Uuid} {message : Message}
    {s s' : BrokerSystem γ} (h : s.send publication m message = .ok s') :
    (publication = .refused ∧ s' = s) ∨
      m ∉ s.messages ∧ s' = { s with messages := s.messages.insert m message } := by
  unfold BrokerSystem.send at h
  split at h
  · rename_i hrefused
    cases h
    exact Or.inl ⟨hrefused, rfl⟩
  · exact Or.inr (accept_eq_ok h)

theorem settle_step {now : Timestamp} {tag : Uuid} {h : Handler} {status : OperationStatus}
    {reason : Option String} {disposal : Disposal} (hs : WellDelivered s)
    (hkeeps : h.stage.keepsMessage = false) (hterminal : status.terminal) :
    QuietStep s tag h (s.settle now tag h o status reason disposal) := by
  unfold BrokerSystem.settle
  split
  · exact .falls
  · rename_i db' hsettle
    obtain ⟨hserves, hended⟩ := settleBrokerOperation_serves hterminal hsettle
    exact .settles o db' disposal hkeeps
      ((settleBrokerOperation_actsFor hsettle).consistent hs.consistent) hserves hended

theorem retryOrDeadLetter_step {maxRetries : ℕ} {now : Timestamp} {tag : Uuid} {h : Handler}
    {op : FileOperation} {reason : String} (hs : WellDelivered s) (hbody : h.body = some o)
    (hstage : h.stage = .retrying op reason) :
    HandlerStep maxRetries s tag h (s.retryOrDeadLetter maxRetries now tag h o op reason) := by
  have hkeeps : h.stage.keepsMessage = false := by rw [hstage]; rfl
  have huntested : (∀ row, s.world.db.operations.lookup o = some row →
      op.attemptCount < maxRetries → row.status ≠ .processing) → Untested maxRetries s h := by
    intro hnot o' row hbody' hrow
    obtain rfl := Option.some.inj (hbody.symm.trans hbody')
    refine ⟨fun hreceived ↦ ?_, fun op' reason' hretrying hattempts ↦ ?_⟩
    · rw [hstage] at hreceived
      cases hreceived
    obtain ⟨rfl, -⟩ := Stage.retrying.inj (hstage.symm.trans hretrying)
    exact hnot row hrow hattempts
  unfold BrokerSystem.retryOrDeadLetter
  split
  · rename_i hexhausted
    exact .quiet (huntested fun _ _ hattempts ↦ absurd hattempts (Nat.not_lt.mpr hexhausted))
      (settle_step hs hkeeps rfl)
  · rename_i hattempts
    split
    · rename_i db' hschedule
      rcases scheduleBrokerRetry_cases hschedule with ⟨-, rfl, hnot⟩ | ⟨_, _, hsome, -⟩
      · exact .quiet (huntested fun row hrow _ ↦ hnot row hrow) (.goes _ trivial (Or.inr hkeeps))
      · cases hsome
    · rename_i retry db' hschedule
      have hconsistent : Consistent (scheduleBrokerRetry now o (some reason) s.world.db).2 :=
        (scheduleBrokerRetry_actsFor now (some reason)).consistent hs.consistent
      rw [hschedule] at hconsistent
      rcases scheduleBrokerRetry_cases hschedule with ⟨hnone, -⟩ | ⟨row, op', -, hrow, hprocessing,
        hstatus, rfl⟩
      · cases hnone
      · exact .retries o op op' row reason _ hbody hstage (Nat.not_le.mp hattempts) hrow hprocessing
          hstatus hconsistent

theorem handle_step {D : Digest γ} {tenantId : Uuid} {maxRetries : ℕ} {tag : Uuid}
    {c : HandlerChoice} {s s' : BrokerSystem γ} (hs : WellDelivered s)
    (hexec : s.handle D tenantId maxRetries tag c = .ok s') :
    ∃ h, s.handlers.lookup tag = some h ∧ HandlerStep maxRetries s tag h s' := by
  unfold BrokerSystem.handle at hexec
  split at hexec
  · cases hexec
  rename_i h hlookup
  refine ⟨h, hlookup, ?_⟩
  have hdecided := hs.decided tag h hlookup
  split at hexec
  · rename_i hnone
    have huntested : Untested maxRetries s h := by
      intro o row hbody
      rw [hnone] at hbody
      cases hbody
    split at hexec
    · rename_i disposal hstage
      cases hexec
      exact .quiet huntested (.disposes disposal hstage)
    · cases hexec
      exact .quiet huntested (.goes _ trivial (Or.inl hnone))
  rename_i o hbody
  split at hexec
  · rename_i hstage
    split at hexec
    · rename_i db' hstart
      cases hexec
      rcases startBrokerOperation_cases hstart with ⟨-, rfl, hnot⟩ | ⟨_, _, hsome, -⟩
      · refine .quiet (fun o' row hbody' hrow ↦ ⟨fun _ ↦ ?_, fun op reason hretrying ↦ ?_⟩)
          (.declines o hbody hnot)
        · obtain rfl := Option.some.inj (hbody.symm.trans hbody')
          exact hnot row hrow
        · rw [hstage] at hretrying
          cases hretrying
      · cases hsome
    · rename_i op' db' hstart
      cases hexec
      have hconsistent : Consistent (startBrokerOperation c.now o s.world.db).2 :=
        (startBrokerOperation_actsFor c.now).consistent hs.consistent
      rw [hstart] at hconsistent
      rcases startBrokerOperation_cases hstart with ⟨hnone, -⟩ | ⟨op, _, hsome, hop, hstartable,
        hstatus, rfl⟩
      · cases hnone
      · obtain rfl := Option.some.inj hsome
        exact .starts o op _ c.now hbody hstage hop hstartable hstatus hconsistent
  · rename_i op hstage
    have huntested : Untested maxRetries s h := untested_of_stage (by simp [hstage]) (by simp [hstage])
    split at hexec
    · cases hexec
      exact .quiet huntested (.goes _ executeOperation_settleable (Or.inr (by rw [hstage]; rfl)))
    · cases hexec
      exact .quiet huntested (.goes _ trivial (Or.inr (by rw [hstage]; rfl)))
  · rename_i op r next hstage
    cases hexec
    rw [hstage] at hdecided
    exact .quiet (untested_of_stage (by simp [hstage]) (by simp [hstage]))
      (.works D r c.answer _ (hdecided _) (by rw [hstage]; rfl))
  · rename_i hstage
    cases hexec
    exact .quiet (untested_of_stage (by simp [hstage]) (by simp [hstage])) .falls
  · rename_i op outcome hstage
    cases hexec
    rw [hstage] at hdecided
    exact .quiet (untested_of_stage (by simp [hstage]) (by simp [hstage]))
      (.goes _ (hdecided outcome rfl) (Or.inr (by rw [hstage]; rfl)))
  · rename_i op status reason hstage
    have huntested : Untested maxRetries s h := untested_of_stage (by simp [hstage]) (by simp [hstage])
    have hkeeps : h.stage.keepsMessage = false := by rw [hstage]; rfl
    rw [hstage] at hdecided
    split at hexec
    · cases hexec
      exact .quiet huntested (.goes _ trivial (Or.inr hkeeps))
    rename_i hretry
    have hterminal : status.terminal := hdecided.resolve_left hretry
    split at hexec
    · cases hexec
      exact .quiet huntested (settle_step hs hkeeps rfl)
    split at hexec
    · cases hexec
      exact .quiet huntested (settle_step hs hkeeps rfl)
    · cases hexec
      exact .quiet huntested (settle_step hs hkeeps hterminal)
  · rename_i op reason hstage
    cases hexec
    exact retryOrDeadLetter_step hs hbody hstage
  · rename_i attemptCount hstage
    have huntested : Untested maxRetries s h := untested_of_stage (by simp [hstage]) (by simp [hstage])
    obtain ⟨s₁, hsend, rfl⟩ := Except.map_eq_ok.mp hexec
    rcases send_eq_ok hsend with ⟨hrefused, rfl⟩ | ⟨hfresh, rfl⟩
    · rw [hrefused]
      exact .quiet huntested .gives
    · exact .quiet huntested (.sends c.messageId _ _ hfresh)
  · rename_i disposal hstage
    cases hexec
    exact .quiet (untested_of_stage (by simp [hstage]) (by simp [hstage])) (.disposes disposal hstage)

/-! ## What a delivery is expected by -/

theorem announced_mono {s' : BrokerSystem γ}
    (houtbox : ∀ e event, s.world.db.outbox.lookup e = some event →
      (∀ publisher rest, s.publishers.lookup publisher ≠ some (.marking e rest)) →
      event.publishedAt = none → ∃ event', s'.world.db.outbox.lookup e = some event' ∧
        event'.operationId = event.operationId ∧ event'.publishedAt = none)
    (hmarking : ∀ e, e ∈ s.world.db.outbox → ∀ publisher rest,
      s'.publishers.lookup publisher = some (.marking e rest) →
      ∃ publisher rest, s.publishers.lookup publisher = some (.marking e rest))
    (h : s.Announced o) : s'.Announced o := by
  obtain ⟨e, event, hevent, hoperation, hclaimable, hnot⟩ := h
  obtain ⟨event', hevent', hoperation', hunpublished⟩ :=
    houtbox e event hevent hnot (claimable_iff.mp hclaimable)
  refine ⟨e, event', hevent', hoperation'.trans hoperation, claimable_iff.mpr hunpublished,
    fun publisher rest hmarks ↦ ?_⟩
  obtain ⟨publisher', rest', hmarks'⟩ := hmarking e (AList.mem_of_lookup hevent) publisher rest hmarks
  exact hnot publisher' rest' hmarks'

theorem announced_congr {s' : BrokerSystem γ} (houtbox : s'.world.db.outbox = s.world.db.outbox)
    (hpublishers : s'.publishers = s.publishers) (h : s.Announced o) : s'.Announced o := by
  unfold BrokerSystem.Announced
  rw [houtbox, hpublishers]
  exact h

/-- No handler is about to discard what none was about to discard before. -/
theorem Kept.mono {s' : BrokerSystem γ} {message : Message}
    (hhandlers : ∀ tag h', message.place = .unacked tag → s'.handlers.lookup tag = some h' →
      (∃ h, s.handlers.lookup tag = some h ∧ (h.stage.keepsMessage → h'.stage.keepsMessage)) ∨
        h'.stage.keepsMessage)
    (h : s.Kept message) : s'.Kept message := by
  intro tag h' hplace hlookup
  rcases hhandlers tag h' hplace hlookup with ⟨h₀, hlookup₀, hkeeps⟩ | hkeeps
  · exact hkeeps (h tag h₀ hplace hlookup₀)
  · exact hkeeps

theorem kept_drop {tag : Uuid} {message : Message} (h : s.Kept message) :
    (s.drop tag).Kept message :=
  Kept.mono (fun _ h' _ hlookup ↦ Or.inl ⟨h', (AList.lookup_of_lookup_erase hlookup).2, id⟩) h

/-- A message is kept when a handler goes on, unless it is its own and now to be discarded. -/
theorem kept_enter {tag m : Uuid} {h : Handler} {stage : Stage} {message : Message}
    (hs : WellDelivered s) (hlookup : s.handlers.lookup tag = some h)
    (hm : s.messages.lookup m = some message)
    (hstage : message.body = h.body → h.stage.keepsMessage → stage.keepsMessage)
    (hkept : s.Kept message) : (s.enter tag h stage).Kept message := by
  refine Kept.mono (fun tag' h' hplace hlookup' ↦ ?_) hkept
  simp only [BrokerSystem.enter, AList.lookup_insert'] at hlookup'
  split at hlookup'
  · rename_i htag
    subst htag
    obtain rfl := Option.some.inj hlookup'
    exact Or.inl ⟨h, hlookup, hstage (hs.held m message _ h hm hplace hlookup).2.symm⟩
  · exact Or.inl ⟨h', hlookup', id⟩

theorem inFlight_enter {tag : Uuid} {h : Handler} {stage : Stage} (hs : WellDelivered s)
    (hlookup : s.handlers.lookup tag = some h)
    (hstage : h.body = some o → h.stage.keepsMessage → stage.keepsMessage)
    (hflight : s.InFlight o) : (s.enter tag h stage).InFlight o := by
  obtain ⟨m, message, hm, hbody, hkept⟩ := hflight
  exact ⟨m, message, hm, hbody,
    kept_enter hs hlookup hm (fun heq ↦ hstage (heq.symm.trans hbody)) hkept⟩

theorem expected_enter {tag : Uuid} {h : Handler} {stage : Stage} (hs : WellDelivered s)
    (hlookup : s.handlers.lookup tag = some h)
    (hstage : h.body = some o → h.stage.keepsMessage → stage.keepsMessage)
    (hexpected : s.Expected o) : (s.enter tag h stage).Expected o := by
  rcases hexpected with hannounced | hflight
  · exact Or.inl hannounced
  · exact Or.inr (inFlight_enter hs hlookup hstage hflight)

theorem expected_drop {tag : Uuid} (h : s.Expected o) : (s.drop tag).Expected o := by
  rcases h with hannounced | ⟨m, message, hm, hbody, hkept⟩
  · exact Or.inl hannounced
  · exact Or.inr ⟨m, message, hm, hbody, kept_drop hkept⟩

/-- A further message does no harm. -/
theorem expected_insert {m : Uuid} {message : Message} (hfresh : m ∉ s.messages)
    (h : s.Expected o) :
    BrokerSystem.Expected { s with messages := s.messages.insert m message } o := by
  rcases h with hannounced | ⟨m', message', hm', hbody, hkept⟩
  · exact Or.inl hannounced
  · exact Or.inr ⟨m', message', AList.lookup_insert_of_lookup hm' hfresh, hbody, hkept⟩

/-- A message which becomes ready again is in flight. -/
theorem expected_ready {m : Uuid} {message : Message} (hm : s.messages.lookup m = some message)
    (h : s.Expected o) : (s.move m message.body .ready).Expected o := by
  rcases h with hannounced | ⟨m', message', hm', hbody, hkept⟩
  · exact Or.inl hannounced
  · by_cases hne : m' = m
    · subst hne
      obtain rfl := Option.some.inj (hm.symm.trans hm')
      exact Or.inr ⟨m', ⟨message.body, .ready⟩, AList.lookup_insert _, hbody, fun _ _ h ↦ nomatch h⟩
    · exact Or.inr ⟨m', message', (AList.lookup_insert_ne hne).trans hm', hbody, hkept⟩

theorem expected_dispose {tag : Uuid} {h : Handler} {disposal : Disposal}
    (hlookup : s.handlers.lookup tag = some h) (hstage : h.stage = .leaving disposal)
    (hexpected : s.Expected o) : (s.dispose tag h disposal).Expected o := by
  unfold BrokerSystem.dispose
  dsimp only
  split
  · exact expected_drop hexpected
  rename_i hmine
  have hmine : s.messages.lookup h.message = some ⟨h.body, .unacked tag⟩ := Decidable.not_not.mp hmine
  split
  · exact expected_ready (s := s.drop tag) hmine (expected_drop hexpected)
  · rename_i hdisposal
    rcases hexpected with hannounced | ⟨m, message, hm, hbody, hkept⟩
    · exact Or.inl hannounced
    · have hne : m ≠ h.message := by
        rintro rfl
        obtain rfl := Option.some.inj (hmine.symm.trans hm)
        have hkeeps := hkept tag h rfl hlookup
        rw [hstage] at hkeeps
        cases disposal with
        | ack | reject => cases hkeeps
        | requeue => exact hdisposal rfl
      exact Or.inr ⟨m, message, (AList.lookup_erase_ne hne).trans hm, hbody, kept_drop hkept⟩

/-! ## Steps which keep every operation -/

theorem nothingLost_of_expected {s' : BrokerSystem γ} (h : s.NothingLost)
    (hoperations : s'.world.db.operations = s.world.db.operations)
    (hrows : ∀ i, RowsKept i s.world.db s'.world.db)
    (hexpected : ∀ i, s.Expected i → s'.Expected i) : s'.NothingLost := by
  refine ⟨fun i op hop hstartable ↦ ?_, fun i op hop hprocessing ↦ ?_⟩
  · rw [hoperations] at hop
    exact hexpected i (h.waiting i op hop hstartable)
  · rw [hoperations] at hop
    rw [selectable_iff hprocessing]
    exact (hrows i).stamped ((selectable_iff hprocessing).mp (h.processing i op hop hprocessing))

/-- A transaction for the operation `o` decides about `o` alone. -/
theorem nothingLost_of_serves {s' : BrokerSystem γ} (h : s.NothingLost)
    (hserves : Serves o s.world.db s'.world.db)
    (hexpected : ∀ i, i ≠ o → s.Expected i → s'.Expected i)
    (hwaiting : ∀ op, s'.world.db.operations.lookup o = some op → op.status.startable →
      s'.Expected o)
    (hprocessing : ∀ op, s'.world.db.operations.lookup o = some op → op.status = .processing →
      Stamped o s'.world.db) : s'.NothingLost := by
  refine ⟨fun i op hop hstartable ↦ ?_, fun i op hop hstatus ↦ ?_⟩
  · by_cases ho : i = o
    · subst ho
      exact hwaiting op hop hstartable
    · exact hexpected i ho (h.waiting i op (hserves.others i ho ▸ hop) hstartable)
  · rw [selectable_iff hstatus]
    by_cases ho : i = o
    · subst ho
      exact hprocessing op hop hstatus
    · have hold := h.processing i op (hserves.others i ho ▸ hop) hstatus
      exact (hserves.rows i ho).stamped ((selectable_iff hstatus).mp hold)

theorem not_startable_of_terminal {status : OperationStatus} (h : status.terminal) :
    status.startable = false ∧ status ≠ .processing := by
  revert h
  cases status <;> decide

/-- A transaction of the API, the jobs or the operator loses no operation. -/
theorem nothingLost_store (hs : WellDelivered s) (h : s.NothingLost)
    (hhands : HandsOver s.world.db db') : (s.withDb db').NothingLost := by
  have hexpected : ∀ i, s.Expected i → (s.withDb db').Expected i := by
    rintro i (hannounced | hflight)
    · refine Or.inl (announced_mono (s := s) (fun e event he _ hunpublished ↦ ?_) (fun _ _ p rest hp ↦
        ⟨p, rest, hp⟩) hannounced)
      exact ⟨event, hhands.outbox e event he, rfl, hunpublished⟩
    · exact Or.inr hflight
  refine ⟨fun i op' hop' hstartable ↦ ?_, fun i op' hop' hstatus ↦ ?_⟩
  · cases hhands.handed i op' hop' with
    | kept op hop hsame => exact hexpected i (h.waiting i op hop (hsame ▸ hstartable))
    | posted _ hposted =>
        obtain ⟨e, replayOf, hfresh, he⟩ := hposted
        refine Or.inl ⟨e, _, he, rfl, claimable_iff.mpr rfl, fun publisher rest hmarks ↦ ?_⟩
        exact hfresh ((hs.claimed publisher _ hmarks).2 e rest rfl)
    | ended hterminal =>
        rw [(not_startable_of_terminal hterminal).1] at hstartable
        cases hstartable
  · cases hhands.handed i op' hop' with
    | kept op hop hsame hrows =>
        have hold := h.processing i op hop (hsame ▸ hstatus)
        exact (selectable_iff hstatus).mpr
          (hrows.stamped ((selectable_iff (hsame ▸ hstatus)).mp hold))
    | posted hqueued =>
        rw [hqueued] at hstatus
        cases hstatus
    | ended hterminal => exact absurd hstatus (not_startable_of_terminal hterminal).2

theorem lookup_move {m m' : Uuid} {body : Option Uuid} {place : Place} :
    (s.move m body place).messages.lookup m' =
      if m' = m then some ⟨body, place⟩ else s.messages.lookup m' :=
  AList.lookup_insert' _ _ _ _

/-- A delivery which has just begun discards nothing. -/
theorem expected_deliver {m tag : Uuid} {body : Option Uuid}
    (hm : s.messages.lookup m = some ⟨body, .ready⟩) (htag : tag ∉ s.handlers)
    (hplaces : ∀ m' message, s.messages.lookup m' = some message → message.place ≠ .unacked tag)
    (h : s.Expected o) :
    BrokerSystem.Expected { s.move m body (.unacked tag) with
      handlers := s.handlers.insert tag ⟨m, body, .received⟩ } o := by
  rcases h with hannounced | ⟨m', message, hm', hbody, hkept⟩
  · exact Or.inl hannounced
  by_cases hne : m' = m
  · subst hne
    obtain rfl := Option.some.inj (hm.symm.trans hm')
    refine Or.inr ⟨m', ⟨body, .unacked tag⟩, AList.lookup_insert _, hbody, ?_⟩
    rintro _ h' ⟨⟩ hlookup
    obtain rfl := Option.some.inj ((AList.lookup_insert _).symm.trans hlookup)
    rfl
  · refine Or.inr ⟨m', message, (AList.lookup_insert_ne hne).trans hm', hbody, ?_⟩
    refine Kept.mono (fun tag' h' hplace hlookup ↦ Or.inl ⟨h', ?_, id⟩) hkept
    have htag' : tag' ≠ tag := by
      rintro rfl
      exact hplaces m' message hm' hplace
    exact (AList.lookup_insert_ne htag').symm.trans hlookup

/-! ## The steps of the publisher -/

theorem expected_publishers {publisher : Uuid} {p : Publisher} (h : s.Expected o)
    (hp : ∀ e rest, p ≠ .marking e rest) :
    BrokerSystem.Expected { s with publishers := s.publishers.insert publisher p } o := by
  rcases h with hannounced | hflight
  · refine Or.inl (announced_mono (s := s) (fun e event he _ hunpublished ↦ ⟨event, he, rfl, hunpublished⟩)
      (fun e _ publisher' rest hmarks ↦ ?_) hannounced)
    simp only [AList.lookup_insert'] at hmarks
    split at hmarks
    · exact absurd (Option.some.inj hmarks) (hp e rest)
    · exact ⟨publisher', rest, hmarks⟩
  · exact Or.inr hflight

theorem expected_erasePublisher {publisher : Uuid} (h : s.Expected o) :
    BrokerSystem.Expected { s with publishers := s.publishers.erase publisher } o := by
  rcases h with hannounced | hflight
  · refine Or.inl (announced_mono (s := s) (fun e event he _ hunpublished ↦ ⟨event, he, rfl, hunpublished⟩)
      (fun e _ publisher' rest hmarks ↦ ?_) hannounced)
    exact ⟨publisher', rest, (AList.lookup_of_lookup_erase hmarks).2⟩
  · exact Or.inr hflight

/-- The message of a publication takes over from its event. -/
theorem expected_published {publisher m e o₀ : Uuid} {rest : List (Uuid × Uuid)}
    (hs : WellDelivered s) (hfresh : m ∉ s.messages)
    (hlookup : s.publishers.lookup publisher = some (.publishing ((e, o₀) :: rest)))
    (h : s.Expected o) :
    BrokerSystem.Expected { s with
      messages := s.messages.insert m ⟨some o₀, .ready⟩
      publishers := s.publishers.insert publisher (.marking e rest) } o := by
  have hknown := (hs.claimed publisher _ hlookup).1 (e, o₀) List.mem_cons_self
  obtain ⟨event₀, hevent₀, hoperation₀⟩ := hknown
  by_cases ho : o = o₀
  · subst ho
    exact Or.inr ⟨m, ⟨some o, .ready⟩, AList.lookup_insert _, rfl, fun _ _ h ↦ nomatch h⟩
  rcases expected_insert hfresh h with hannounced | hflight
  · obtain ⟨e', event, hevent, hoperation, hclaimable, hnot⟩ := hannounced
    refine Or.inl ⟨e', event, hevent, hoperation, hclaimable, fun publisher' rest' hmarks ↦ ?_⟩
    simp only [AList.lookup_insert'] at hmarks
    split at hmarks
    · obtain ⟨rfl, -⟩ := Publisher.marking.inj (Option.some.inj hmarks)
      obtain rfl := Option.some.inj (hevent₀.symm.trans hevent)
      exact ho (hoperation.symm.trans hoperation₀)
    · exact hnot publisher' rest' hmarks
  · exact Or.inr hflight

/-! ## The side invariant -/

theorem knows_congr {p : Publisher} (houtbox : db'.outbox = db.outbox) (h : p.Knows db) :
    p.Knows db' := by
  unfold Publisher.Knows
  rw [houtbox]
  exact h

theorem HandsOver.knows (h : HandsOver db db') {p : Publisher} (hp : p.Knows db) : p.Knows db' := by
  refine ⟨fun e he ↦ ?_, fun e rest hmarks ↦ mem_outbox_mono h (hp.2 e rest hmarks)⟩
  obtain ⟨event, hevent, hoperation⟩ := hp.1 e he
  exact ⟨event, h.outbox e.1 event hevent, hoperation⟩

theorem WellDelivered.world {w : World γ} (hs : WellDelivered s) (hconsistent : Consistent w.db)
    (hlegacy : LegacyFresh w.db)
    (hknows : ∀ p : Publisher, p.Knows s.world.db → p.Knows w.db) :
    WellDelivered { s with world := w } :=
  ⟨hconsistent, hlegacy, fun publisher p hp ↦ hknows p (hs.claimed publisher p hp), hs.held,
    hs.decided⟩

theorem WellDelivered.enter {tag : Uuid} {h : Handler} {stage : Stage} (hs : WellDelivered s)
    (hlookup : s.handlers.lookup tag = some h) (hstage : stage.Decided) :
    WellDelivered (s.enter tag h stage) := by
  refine ⟨hs.consistent, hs.legacy, hs.claimed, fun m message tag' h' hm hplace hlookup' ↦ ?_,
    fun tag' h' hlookup' ↦ ?_⟩
  · simp only [BrokerSystem.enter, AList.lookup_insert'] at hlookup'
    split at hlookup'
    · rename_i htag
      subst htag
      obtain rfl := Option.some.inj hlookup'
      exact hs.held m message _ h hm hplace hlookup
    · exact hs.held m message tag' h' hm hplace hlookup'
  · simp only [BrokerSystem.enter, AList.lookup_insert'] at hlookup'
    split at hlookup'
    · obtain rfl := Option.some.inj hlookup'
      exact hstage
    · exact hs.decided tag' h' hlookup'

theorem WellDelivered.drop {tag : Uuid} (hs : WellDelivered s) : WellDelivered (s.drop tag) :=
  ⟨hs.consistent, hs.legacy, hs.claimed,
    fun m message tag' h' hm hplace hlookup ↦
      hs.held m message tag' h' hm hplace (AList.lookup_of_lookup_erase hlookup).2,
    fun tag' h' hlookup ↦ hs.decided tag' h' (AList.lookup_of_lookup_erase hlookup).2⟩

/-- A message which is with nobody may be put anywhere. -/
theorem WellDelivered.insert {m : Uuid} {message : Message} (hs : WellDelivered s)
    (hplace : ∀ tag, message.place ≠ .unacked tag) :
    WellDelivered { s with messages := s.messages.insert m message } := by
  refine ⟨hs.consistent, hs.legacy, hs.claimed, fun m' message' tag h hm hplace' hlookup ↦ ?_,
    hs.decided⟩
  simp only [AList.lookup_insert'] at hm
  split at hm
  · obtain rfl := Option.some.inj hm
    exact absurd hplace' (hplace tag)
  · exact hs.held m' message' tag h hm hplace' hlookup

theorem WellDelivered.discard {m : Uuid} (hs : WellDelivered s) :
    WellDelivered { s with messages := s.messages.erase m } :=
  ⟨hs.consistent, hs.legacy, hs.claimed,
    fun m' message tag h hm ↦ hs.held m' message tag h (AList.lookup_of_lookup_erase hm).2, hs.decided⟩

theorem WellDelivered.dispose {tag : Uuid} {h : Handler} {disposal : Disposal}
    (hs : WellDelivered s) : WellDelivered (s.dispose tag h disposal) := by
  unfold BrokerSystem.dispose
  dsimp only
  split
  · exact hs.drop
  split
  · exact WellDelivered.insert (s := s.drop tag) hs.drop fun _ h ↦ nomatch h
  · exact WellDelivered.discard (s := s.drop tag) hs.drop

theorem WellDelivered.deliver {m tag : Uuid} {body : Option Uuid} (hs : WellDelivered s)
    (hplaces : ∀ m' message, s.messages.lookup m' = some message → message.place ≠ .unacked tag) :
    WellDelivered { s.move m body (.unacked tag) with
      handlers := s.handlers.insert tag ⟨m, body, .received⟩ } := by
  refine ⟨hs.consistent, hs.legacy, hs.claimed, fun m' message tag' h hm hplace hlookup ↦ ?_,
    fun tag' h hlookup ↦ ?_⟩
  · rw [lookup_move] at hm
    simp only [AList.lookup_insert'] at hlookup
    split at hm
    · rename_i hm'
      obtain rfl := Option.some.inj hm
      obtain rfl := Place.unacked.inj hplace
      rw [if_pos rfl] at hlookup
      obtain rfl := Option.some.inj hlookup
      exact ⟨hm'.symm, rfl⟩
    · split at hlookup
      · rename_i htag'
        exact absurd (htag' ▸ hplace) (hplaces m' message hm)
      · exact hs.held m' message tag' h hm hplace hlookup
  · simp only [AList.lookup_insert'] at hlookup
    split at hlookup
    · obtain rfl := Option.some.inj hlookup
      exact trivial
    · exact hs.decided tag' h hlookup

theorem WellDelivered.publisher {publisher : Uuid} {p : Publisher} (hs : WellDelivered s)
    (hp : p.Knows s.world.db) :
    WellDelivered { s with publishers := s.publishers.insert publisher p } := by
  refine ⟨hs.consistent, hs.legacy, fun publisher' p' hlookup ↦ ?_, hs.held, hs.decided⟩
  simp only [AList.lookup_insert'] at hlookup
  split at hlookup
  · obtain rfl := Option.some.inj hlookup
    exact hp
  · exact hs.claimed publisher' p' hlookup

theorem WellDelivered.erasePublisher {publisher : Uuid} (hs : WellDelivered s) :
    WellDelivered { s with publishers := s.publishers.erase publisher } :=
  ⟨hs.consistent, hs.legacy,
    fun publisher' p hlookup ↦ hs.claimed publisher' p (AList.lookup_of_lookup_erase hlookup).2, hs.held,
    hs.decided⟩

theorem WellDelivered.republished (hs : WellDelivered s) (h : Republishes s.world.db db') :
    WellDelivered (s.withDb db') :=
  hs.world (h.consistent hs.consistent) (h.legacyFresh hs.legacy) fun _ ↦ h.knows

/-- A transaction of a delivery, after which its operation is no legacy one. -/
theorem WellDelivered.served (hs : WellDelivered s) (hconsistent : Consistent db')
    (hserves : Serves o s.world.db db')
    (hop : ∀ op', db'.operations.lookup o = some op' → op'.status.legacy = false) :
    WellDelivered (s.withDb db') :=
  hs.world hconsistent (hserves.legacyFresh hs.legacy hop) fun _ ↦ knows_congr hserves.outbox

theorem QuietStep.wellDelivered {tag : Uuid} {h : Handler} {s' : BrokerSystem γ}
    (hs : WellDelivered s) (hlookup : s.handlers.lookup tag = some h) (hstep : QuietStep s tag h s') :
    WellDelivered s' := by
  cases hstep with
  | goes stage hstage => exact hs.enter hlookup hstage
  | falls => exact hs.drop
  | disposes => exact hs.dispose
  | declines | gives => exact hs.enter hlookup trivial
  | works D r c stage hstage =>
      obtain ⟨hoperations, houtbox, -, hconsistent⟩ := answer_quiet (D := D) r c hs.consistent
      refine WellDelivered.enter (hs.world hconsistent ?_ fun _ ↦ knows_congr houtbox) hlookup hstage
      unfold LegacyFresh
      rw [hoperations, houtbox]
      exact hs.legacy
  | settles o db' disposal _ hconsistent hserves hterminal =>
      refine WellDelivered.enter (hs.served hconsistent hserves fun op' hop' ↦ ?_) hlookup trivial
      exact legacy_of_terminal (hterminal op' hop')
  | sends m queue disposal =>
      exact WellDelivered.enter (hs.insert fun _ h ↦ nomatch h) hlookup trivial

theorem HandlerStep.wellDelivered {maxRetries : ℕ} {tag : Uuid} {h : Handler} {s' : BrokerSystem γ}
    (hs : WellDelivered s) (hlookup : s.handlers.lookup tag = some h)
    (hstep : HandlerStep maxRetries s tag h s') : WellDelivered s' := by
  cases hstep with
  | quiet _ hquiet => exact hquiet.wellDelivered hs hlookup
  | starts o op op' now _ _ hop _ hstatus hconsistent =>
      refine WellDelivered.enter (hs.served hconsistent serves_phase fun op'' hop'' ↦ ?_) hlookup
        trivial
      obtain rfl := Option.some.inj ((lookup_update_status hop).symm.trans hop'')
      rw [hstatus]
      rfl
  | retries o op op' row reason attemptCount _ _ _ hrow _ hstatus hconsistent =>
      refine WellDelivered.enter (hs.served hconsistent serves_phase fun op'' hop'' ↦ ?_) hlookup
        trivial
      obtain rfl := Option.some.inj ((lookup_update_status hrow).symm.trans hop'')
      rw [hstatus]
      rfl

theorem claimed_known {now : Timestamp} {picked : List Uuid} :
    Publisher.Knows (claimOutboxEvents now picked db).2
      (.publishing ((claimOutboxEvents now picked db).1.map fun e ↦ (e.1, e.2.operationId))) := by
  refine ⟨fun e he ↦ ?_, fun _ _ h ↦ nomatch h⟩
  obtain ⟨⟨id, event⟩, hmem, rfl⟩ := List.mem_map.mp he
  obtain ⟨id', -, hevent⟩ := List.mem_filterMap.mp hmem
  obtain ⟨event', hevent', heq⟩ := Option.map_eq_some_iff.mp hevent
  obtain ⟨rfl, rfl⟩ := Prod.mk.inj heq
  have hrepublishes : Republishes db _ := claimOutboxEvents_republishes now picked
  have hsame := hrepublishes.events id'
  rw [(Option.filter_eq_some_iff.mp hevent').1, Option.map_some] at hsame
  exact Option.map_eq_some_iff.mp hsame

section

variable {D : Digest γ} {tenantId : Uuid} {maxRetries : ℕ}

theorem publish_wellDelivered {publisher m : Uuid} {now : Timestamp} {publication : Publication}
    {s' : BrokerSystem γ} (hs : WellDelivered s)
    (hexec : s.publish publisher now publication m = .ok s') : WellDelivered s' := by
  unfold BrokerSystem.publish at hexec
  split at hexec
  · cases hexec
  · cases hexec
    exact hs.erasePublisher
  · rename_i e o rest hlookup
    have hknown := hs.claimed publisher _ hlookup
    obtain ⟨s₁, hsend, rfl⟩ := Except.map_eq_ok.mp hexec
    have hs₁ : WellDelivered s₁ ∧ s₁.world.db = s.world.db := by
      rcases send_eq_ok hsend with ⟨-, rfl⟩ | ⟨-, rfl⟩
      · exact ⟨hs, rfl⟩
      · exact ⟨hs.insert (fun _ h ↦ nomatch h), rfl⟩
    refine hs₁.1.publisher ?_
    rw [hs₁.2]
    split
    · obtain ⟨event, hevent, -⟩ := hknown.1 (e, o) List.mem_cons_self
      refine ⟨fun e' he' ↦ hknown.1 e' (List.mem_cons_of_mem _ he'), ?_⟩
      rintro e' rest' ⟨⟩
      exact AList.mem_of_lookup hevent
    · exact ⟨(fun _ he ↦ nomatch he), (fun _ _ h ↦ nomatch h)⟩
  · rename_i e rest hlookup
    have hknown := hs.claimed publisher _ hlookup
    cases hexec
    have hrepublishes : Republishes s.world.db (markOutboxPublished now e s.world.db) :=
      republishes_update fun _ ↦ rfl
    refine WellDelivered.publisher (hs.republished hrepublishes) (hrepublishes.knows ?_)
    exact ⟨hknown.1, (fun _ _ h ↦ nomatch h)⟩
  · rename_i e hlookup
    cases hexec
    exact WellDelivered.erasePublisher (hs.republished (releaseOutboxEvent_republishes e))

/-- The side invariant holds whatever is done. -/
theorem wellDelivered_advance (hs : WellDelivered s) (c : BrokerCmd γ) :
    WellDelivered (advance (brokerExec D tenantId maxRetries) s c) := by
  refine advance_preserves hs fun s' hexec ↦ ?_
  cases c with
  | store c =>
      simp only [brokerExec] at hexec
      split at hexec
      · cases hexec
      rename_i db' hstore
      cases hexec
      have hhands := storeCmd_handsOver hs.consistent hs.legacy hstore
      exact hs.world (opExec_framed hs.consistent hstore).consistent (hhands.legacyFresh hs.legacy)
        fun _ ↦ hhands.knows
  | provider objects =>
      cases hexec
      exact hs.world hs.consistent hs.legacy fun _ hp ↦ hp
  | claim publisher now picked =>
      simp only [brokerExec] at hexec
      split at hexec
      · cases hexec
      · cases hexec
        exact WellDelivered.publisher (hs.republished (claimOutboxEvents_republishes now picked))
          claimed_known
  | publish publisher now publication m => exact publish_wellDelivered hs hexec
  | publisherCrash publisher =>
      cases hexec
      exact hs.erasePublisher
  | arrive m body =>
      obtain ⟨-, rfl⟩ := accept_eq_ok hexec
      exact hs.insert fun _ h ↦ nomatch h
  | expire m | redeliver m =>
      simp only [brokerExec] at hexec
      split at hexec
      · cases hexec
        exact hs.insert fun _ h ↦ nomatch h
      · cases hexec
  | deliver m tag =>
      simp only [brokerExec] at hexec
      split at hexec
      · split at hexec
        · cases hexec
        rename_i hfree
        cases hexec
        push Not at hfree
        refine hs.deliver fun m' message hm' hplace ↦ ?_
        exact Bool.false_ne_true ((AList.anyRow_eq_false.mp (by simpa using hfree.2)) m' message hm'
          |>.symm.trans (by simpa using hplace))
      · cases hexec
  | handle tag c =>
      obtain ⟨h, hlookup, hstep⟩ := handle_step hs hexec
      exact hstep.wellDelivered hs hlookup
  | handlerCrash tag =>
      cases hexec
      exact hs.drop

end

end S3mp
