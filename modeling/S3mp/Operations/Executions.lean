import S3mp.Operations.Survival
import S3mp.Transition.Potential

/-!
# How often an operation is executed

An operation is handed to a worker when it waits to be started, and it comes to
wait again through a retry or a recovery.  A retry is scheduled by a worker which
was handed the operation on one of its first attempts, and by each such worker
once; a recovery is counted on the operation.  Workers, attempts and recoveries
which are left together bound the executions, whoever settles what and when.
-/

namespace S3mp

open Relational Files Transition

/-! ## What is left of an operation -/

/-- The operation can be started, or can come to be without a retry or a recovery. -/
def Files.OperationStatus.waiting (status : OperationStatus) : Bool :=
  status ∈ [.queued, .retryScheduled, .pending, .retryWait, .running]

/-- An operation which has not been created counts as one which waits. -/
def startsLeft (o : Uuid) (db : Db) : ℕ :=
  (db.operations.lookup o).elim 1 fun op ↦ if op.status.waiting then 1 else 0

def recoveriesLeft (maxRecoveries : ℕ) (o : Uuid) (db : Db) : ℕ :=
  (db.operations.lookup o).elim maxRecoveries fun op ↦ maxRecoveries - op.recoveryAttemptCount

/-- The attempts whose worker could schedule a retry. -/
def attemptsLeft (maxRetries : ℕ) (o : Uuid) (db : Db) : ℕ :=
  (db.operations.lookup o).elim (maxRetries - 1) fun op ↦ maxRetries - 1 - op.attemptCount

/-- The operation as it was handed to the worker. -/
def Stage.operation : Stage → Option FileOperation
  | .started op | .executing op _ | .executed op _ | .retrying op _ => some op
  | .received | .publishing _ | .leaving _ => none

/-- One for a delivery whose worker could schedule a retry of the operation. -/
def Handler.retriesLeft (maxRetries : ℕ) (o : Uuid) (h : Handler) : ℤ :=
  if h.body = some o ∧ h.stage.operation.any fun op ↦ op.attemptCount < maxRetries then 1 else 0

namespace BrokerSystem

variable {γ : Type}

/-- The retries of the operation which the present workers could schedule. -/
def workersLeft (maxRetries : ℕ) (o : Uuid) (s : BrokerSystem γ) : ℤ :=
  s.handlers.total fun _ h ↦ h.retriesLeft maxRetries o

def executionsLeft (maxRetries maxRecoveries : ℕ) (o : Uuid) (s : BrokerSystem γ) : ℤ :=
  startsLeft o s.world.db + recoveriesLeft maxRecoveries o s.world.db +
    (s.workersLeft maxRetries o + attemptsLeft maxRetries o s.world.db)

/-- The operation which the step hands to a worker. -/
def handed (s : BrokerSystem γ) : BrokerCmd γ → Option Uuid
  | .handle tag c =>
    match s.handlers.lookup tag with
    | some ⟨_, some id, .received⟩ => (startBrokerOperation c.now id s.world.db).1.map fun _ ↦ id
    | _ => none
  | _ => none

/-- The operator replays the operation. -/
def replays (o : Uuid) (s : BrokerSystem γ) : BrokerCmd γ → Bool
  | .store (.replayDeadLetterOperation outboxId id replayOf) =>
    id = o && match replayDeadLetterOperation outboxId id replayOf s.world.db with
      | .ok (some _, _) => true
      | _ => false
  | _ => false

end BrokerSystem

/-- The recovery job runs with this bound. -/
def BrokerCmd.RecoversAtMost {γ : Type} (maxRecoveries : ℕ) : BrokerCmd γ → Prop
  | .store (.recoverTimedOutOperations _ _ bound _ _) => bound = maxRecoveries
  | _ => True

/-! ## Transactions -/

section

variable {maxRetries maxRecoveries : ℕ} {db db' : Db} {o : Uuid}

/-- The transaction gives the operation no attempt back, and no start unless it takes a
recovery for it. -/
structure Spends (maxRetries maxRecoveries : ℕ) (o : Uuid) (db db' : Db) : Prop where
  attempts : attemptsLeft maxRetries o db' ≤ attemptsLeft maxRetries o db
  starts : startsLeft o db' + recoveriesLeft maxRecoveries o db' ≤
    startsLeft o db + recoveriesLeft maxRecoveries o db

theorem Spends.refl (db : Db) : Spends maxRetries maxRecoveries o db db :=
  ⟨le_rfl, le_rfl⟩

theorem Spends.trans {db'' : Db} (h : Spends maxRetries maxRecoveries o db db')
    (h' : Spends maxRetries maxRecoveries o db' db'') :
    Spends maxRetries maxRecoveries o db db'' :=
  ⟨h'.attempts.trans h.attempts, h'.starts.trans h.starts⟩

theorem spends_of_lookup (h : db'.operations.lookup o = db.operations.lookup o) :
    Spends maxRetries maxRecoveries o db db' := by
  constructor
  · rw [attemptsLeft, attemptsLeft, h]
  · rw [startsLeft, startsLeft, recoveriesLeft, recoveriesLeft, h]

/-- The row of an operation is created with nothing used up. -/
theorem spends_of_created (h : o ∉ db.operations) : Spends maxRetries maxRecoveries o db db' := by
  have hnone := AList.lookup_eq_none.mpr h
  constructor
  · rw [attemptsLeft, attemptsLeft, hnone, Option.elim_none]
    cases db'.operations.lookup o with
    | none => exact le_rfl
    | some op => exact Nat.sub_le _ _
  · rw [startsLeft, startsLeft, recoveriesLeft, recoveriesLeft, hnone, Option.elim_none,
      Option.elim_none]
    cases db'.operations.lookup o with
    | none => exact le_rfl
    | some op =>
        apply Nat.add_le_add
        · simp only [Option.elim_some]
          split
          · exact le_rfl
          · exact Nat.zero_le 1
        · exact Nat.sub_le _ _

theorem spends_of_row {op op' : FileOperation} (hop : db.operations.lookup o = some op)
    (hop' : db'.operations.lookup o = some op') (hattempts : op'.attemptCount = op.attemptCount)
    (hstarts : (if op'.status.waiting then 1 else 0) + (maxRecoveries - op'.recoveryAttemptCount) ≤
      (if op.status.waiting then 1 else 0) + (maxRecoveries - op.recoveryAttemptCount)) :
    Spends maxRetries maxRecoveries o db db' := by
  constructor
  · rw [attemptsLeft, attemptsLeft, hop, hop', Option.elim_some, Option.elim_some, hattempts]
  · rw [startsLeft, startsLeft, recoveriesLeft, recoveriesLeft, hop, hop']
    exact hstarts

/-- A transaction which writes one operation, and sets it to a status in which it does not wait
if it did not wait before. -/
theorem spends_update {i : Uuid} {op op' : FileOperation} (hop : db.operations.lookup i = some op)
    (hoperations : db'.operations = db.operations.update i fun _ ↦ op')
    (hattempts : op'.attemptCount = op.attemptCount)
    (hstarts : (if op'.status.waiting then 1 else 0) + (maxRecoveries - op'.recoveryAttemptCount) ≤
      (if op.status.waiting then 1 else 0) + (maxRecoveries - op.recoveryAttemptCount)) :
    Spends maxRetries maxRecoveries o db db' := by
  by_cases ho : o = i
  · subst ho
    exact spends_of_row hop (by rw [hoperations, lookup_update_status hop]) hattempts hstarts
  · exact spends_of_lookup (by rw [hoperations, AList.lookup_update_of_ne ho])

theorem settleBrokerOperation_spends {i : Uuid} {now : Timestamp} {status : OperationStatus}
    {reason : Option String} (hterminal : status.terminal)
    (h : settleBrokerOperation now i status reason db = .ok db') :
    Spends maxRetries maxRecoveries o db db' := by
  rcases settleBrokerOperation_eq_ok h with ⟨-, rfl⟩ | ⟨op, hop, rfl⟩
  · exact .refl db'
  · have hnot : status.waiting = false := by
      revert hterminal
      cases status <;> decide
    refine spends_update hop rfl rfl ?_
    simp [FileOperation.settled, hnot]

theorem recoverOperation_spends {i : Uuid} {now : Timestamp} {timeout : ℤ}
    {outboxId : Uuid → Uuid} (h : recoverOperation now timeout maxRecoveries outboxId db i = .ok db') :
    Spends maxRetries maxRecoveries o db db' := by
  unfold recoverOperation at h
  split at h
  · cases h
    exact .refl db
  rename_i op hop
  split at h
  · cases h
    exact .refl db
  split at h
  · cases h
    refine spends_update hop rfl rfl ?_
    simp [OperationStatus.waiting]
  · rename_i hbound
    obtain ⟨-, rfl⟩ := addOutboxEvent_eq_ok h
    refine spends_update hop rfl rfl ?_
    simp only [OperationStatus.waiting]
    -- The recovery pays for the start.
    have hpaid : maxRecoveries - (op.recoveryAttemptCount + 1) + 1 =
        maxRecoveries - op.recoveryAttemptCount := by omega
    simp
    omega

theorem enqueueLegacyOperation_spends {i : Uuid} {now : Timestamp} {outboxId : Uuid → Uuid}
    (h : enqueueLegacyOperation now outboxId db i = .ok db') :
    Spends maxRetries maxRecoveries o db db' := by
  unfold enqueueLegacyOperation at h
  split at h
  · cases h
    exact .refl db
  rename_i op hop
  split at h
  · cases h
    exact .refl db
  rename_i hpending
  have hwaiting : op.status.waiting := by
    simp only [FileOperation.legacyPending, Bool.not_eq_true', Bool.not_eq_false,
      Bool.or_eq_true, Bool.and_eq_true, decide_eq_true_eq] at hpending
    rcases hpending with (hs | hs) | ⟨hs, -⟩ <;> simp [hs, OperationStatus.waiting]
  have hrow : Spends maxRetries maxRecoveries o db { db with
      operations := db.operations.update i fun _ ↦
        { op with status := .queued, nextRetryAt := none, leaseExpiresAt := none } } := by
    refine spends_update hop rfl rfl ?_
    rw [hwaiting]
    exact le_rfl
  dsimp only at h
  split at h
  · cases h
    exact hrow
  · obtain ⟨-, rfl⟩ := addOutboxEvent_eq_ok h
    exact hrow.trans (spends_of_lookup rfl)

/-- A replay gives the operation no attempt back. -/
theorem replayDeadLetterOperation_attempts {i outboxId replayOf : Uuid} {out : Option FileOperation}
    (h : replayDeadLetterOperation outboxId i replayOf db = .ok (out, db')) :
    attemptsLeft maxRetries o db' ≤ attemptsLeft maxRetries o db ∧
      (out = none ∨ i ≠ o → Spends maxRetries maxRecoveries o db db') := by
  unfold replayDeadLetterOperation at h
  split at h
  · cases h
    exact ⟨le_rfl, fun _ ↦ .refl db⟩
  rename_i op hop
  split at h
  · cases h
    exact ⟨le_rfl, fun _ ↦ .refl db⟩
  obtain ⟨db₁, hadd, h⟩ := Except.bind_eq_ok.mp h
  obtain ⟨-, rfl⟩ := addOutboxEvent_eq_ok hadd
  obtain ⟨rfl, rfl⟩ := Prod.mk.inj (Except.pure_eq_ok.mp h)
  by_cases ho : i = o
  · subst ho
    refine ⟨?_, fun hnot ↦ ?_⟩
    · rw [attemptsLeft, attemptsLeft, lookup_update_status hop, hop, Option.elim_some,
        Option.elim_some]
    · rcases hnot with hnone | hne
      · cases hnone
      · exact absurd rfl hne
  · have hspends : Spends maxRetries maxRecoveries o db { db with
        operations := db.operations.update i fun _ ↦ { op with
          status := .queued, failureReason := none, completedAt := none
          replayOfEventId := some replayOf }
        outbox := db.outbox.insert outboxId (outboxEvent i (some replayOf)) } :=
      spends_of_lookup (AList.lookup_update_of_ne (Ne.symm ho) _ _)
    exact ⟨hspends.attempts, fun _ ↦ hspends⟩

/-- Of the other commands only the deletion of an application writes operations, and it ends
them. -/
theorem step_spends {c : Cmd} (h : Step db c db') : Spends maxRetries maxRecoveries o db db' := by
  rcases (step_operationTables h).2 with hsame | ⟨applicationId, app, -, -, hcancelled⟩
  · exact spends_of_lookup (by rw [hsame])
  cases hop : db.operations.lookup o with
  | none => exact spends_of_created (AList.lookup_eq_none.mp hop)
  | some op =>
      have hop' : db'.operations.lookup o = some
          (if (op.principalId = app.principalId && op.status = .pending) = true then
            cancelledOperation op else op) := by
        rw [hcancelled, AList.lookup_updateWhere, hop, Option.map_some]
      refine spends_of_row hop hop' ?_ ?_
      · split <;> rfl
      · split
        · simp [cancelledOperation, OperationStatus.waiting]
        · exact le_rfl

end

section

variable {γ : Type} {maxRetries maxRecoveries : ℕ} {s : BrokerSystem γ} {db' : Db} {o : Uuid}

/-- Every transaction of the API, the jobs and the operator but a replay of the operation. -/
theorem storeCmd_spends {c : StoreCmd} (hrecovers : (BrokerCmd.store c : BrokerCmd γ).RecoversAtMost
      maxRecoveries) (hreplays : s.replays o (.store c) = false)
    (h : opExec c.command s.world.db = .ok db') :
    Spends maxRetries maxRecoveries o s.world.db db' := by
  cases c with
  | createOperation ids spaceId data =>
      obtain ⟨op, h⟩ := Except.map_snd_eq_ok.mp h
      obtain ⟨hfresh, hoperations⟩ := createOperation_operations h
      by_cases ho : o = ids.operation
      · exact spends_of_created (ho ▸ hfresh)
      · exact spends_of_lookup (by rw [hoperations, AList.lookup_insert_ne ho])
  | createRenameOperation ids spaceId data =>
      obtain ⟨op, h⟩ := Except.map_snd_eq_ok.mp h
      rcases createRenameOperation_operations h with rfl | ⟨hfresh, hoperations⟩
      · exact .refl s.world.db
      by_cases ho : o = ids.operation
      · exact spends_of_created (ho ▸ hfresh)
      · exact spends_of_lookup (by rw [hoperations, AList.lookup_insert_ne ho])
  | recoverTimedOutOperations now timeout bound outboxId picked =>
      obtain rfl : bound = maxRecoveries := hrecovers
      exact Tx.foldlM_relates Spends.refl Spends.trans recoverOperation_spends h
  | replayDeadLetterOperation outboxId id replayOf =>
      obtain ⟨out, h⟩ := Except.map_snd_eq_ok.mp h
      refine (replayDeadLetterOperation_attempts h).2 ?_
      cases out with
      | none => exact Or.inl rfl
      | some op =>
          right
          rintro rfl
          simp [BrokerSystem.replays, h] at hreplays
  | enqueueLegacyOperations now outboxId picked =>
      exact Tx.foldlM_relates Spends.refl Spends.trans enqueueLegacyOperation_spends h
  | other c => exact step_spends (exec_step h)

/-- No transaction gives the operation an attempt back, not even a replay. -/
theorem storeCmd_attempts {c : StoreCmd} (h : opExec c.command s.world.db = .ok db') :
    attemptsLeft maxRetries o db' ≤ attemptsLeft maxRetries o s.world.db := by
  have hspends {M : ℕ} (hrecovers : (BrokerCmd.store c : BrokerCmd γ).RecoversAtMost M)
      (hreplays : s.replays o (.store c) = false) : Spends maxRetries M o s.world.db db' :=
    storeCmd_spends hrecovers hreplays h
  cases c with
  | replayDeadLetterOperation outboxId id replayOf =>
      obtain ⟨out, h⟩ := Except.map_snd_eq_ok.mp h
      have hboth : _ ∧ (_ → Spends maxRetries 0 o s.world.db db') :=
        replayDeadLetterOperation_attempts h
      exact hboth.1
  | recoverTimedOutOperations now timeout bound outboxId picked =>
      exact (hspends (M := bound) rfl rfl).attempts
  | createOperation | createRenameOperation | enqueueLegacyOperations | other =>
      exact (hspends (M := 0) trivial rfl).attempts

end

/-! ## Steps of a handler -/

section

variable {γ : Type} {maxRetries maxRecoveries : ℕ} {s s' : BrokerSystem γ} {db db' : Db}
  {tag m : Uuid} {h : Handler} {body : Option Uuid} {stage : Stage}

/-- What the step of a handler does to the operations, which of them it hands to a worker, and
the stage at which the handler goes on, if it does. -/
inductive Turn (maxRetries : ℕ) (h : Handler) (db db' : Db) : Option Uuid → Option Stage → Prop
  | gone (hoperations : db'.operations = db.operations) : Turn maxRetries h db db' none none
  | goes (stage : Stage) (hdecided : stage.Decided) (hoperations : db'.operations = db.operations)
      (hsame : ∀ op, stage.operation = some op → h.stage.operation = some op) :
      Turn maxRetries h db db' none (some stage)
  | starts (id : Uuid) (row op : FileOperation) (hbody : h.body = some id)
      (hrow : db.operations.lookup id = some row) (hwaiting : row.status.waiting)
      (hop : op = { row with status := .processing, attemptCount := row.attemptCount + 1 })
      (hoperations : db'.operations = db.operations.update id fun _ ↦ op) :
      Turn maxRetries h db db' (some id) (some (.started op))
  | schedules (id : Uuid) (op row retry : FileOperation) (hbody : h.body = some id)
      (hstage : h.stage.operation = some op) (hattempts : op.attemptCount < maxRetries)
      (hrow : db.operations.lookup id = some row)
      (hsame : retry.attemptCount = row.attemptCount ∧
        retry.recoveryAttemptCount = row.recoveryAttemptCount)
      (hoperations : db'.operations = db.operations.update id fun _ ↦ retry) :
      Turn maxRetries h db db' none (some (.publishing retry.attemptCount))
  | settles (id : Uuid) (now : Timestamp) (status : OperationStatus) (reason : Option String)
      (disposal : Disposal) (hterminal : status.terminal)
      (hsettle : settleBrokerOperation now id status reason db = .ok db') :
      Turn maxRetries h db db' none (some (.leaving disposal))

def handlersAfter (tag : Uuid) (h : Handler) (handlers : Table Uuid Handler) :
    Option Stage → Table Uuid Handler
  | none => handlers.erase tag
  | some stage => handlers.insert tag { h with stage }

theorem startBrokerOperation_eq_some {now : Timestamp} {id : Uuid} {op : FileOperation}
    (h : startBrokerOperation now id db = (some op, db')) :
    ∃ row, db.operations.lookup id = some row ∧ row.status.waiting ∧
      op = { row with status := .processing, attemptCount := row.attemptCount + 1 } ∧
      db'.operations = db.operations.update id fun _ ↦ op := by
  unfold startBrokerOperation at h
  split at h
  · cases h
  rename_i row hrow
  split at h
  · cases h
  rename_i hstatus
  obtain ⟨hop, rfl⟩ := Prod.mk.inj h
  obtain rfl := Option.some.inj hop
  have hstatus : row.status ∈ [OperationStatus.queued, .retryScheduled] :=
    Decidable.not_not.mp hstatus
  refine ⟨row, hrow, ?_, rfl, rfl⟩
  revert hstatus
  cases row.status <;> decide

theorem startBrokerOperation_eq_none {now : Timestamp} {id : Uuid}
    (h : startBrokerOperation now id db = (none, db')) : db' = db := by
  rcases startBrokerOperation_cases h with ⟨-, rfl, -⟩ | ⟨_, _, hsome, -⟩
  · rfl
  · cases hsome

theorem scheduleBrokerRetry_eq_some {now : Timestamp} {id : Uuid} {reason : Option String}
    {retry : FileOperation} (h : scheduleBrokerRetry now id reason db = (some retry, db')) :
    ∃ row, db.operations.lookup id = some row ∧
      (retry.attemptCount = row.attemptCount ∧
        retry.recoveryAttemptCount = row.recoveryAttemptCount) ∧
      db'.operations = db.operations.update id fun _ ↦ retry := by
  unfold scheduleBrokerRetry at h
  split at h
  · cases h
  rename_i row hrow
  split at h
  · cases h
  obtain ⟨hretry, rfl⟩ := Prod.mk.inj h
  obtain rfl := Option.some.inj hretry
  exact ⟨row, hrow, ⟨rfl, rfl⟩, rfl⟩

theorem scheduleBrokerRetry_eq_none {now : Timestamp} {id : Uuid} {reason : Option String}
    (h : scheduleBrokerRetry now id reason db = (none, db')) : db' = db := by
  rcases scheduleBrokerRetry_cases h with ⟨-, rfl, -⟩ | ⟨_, _, hsome, -⟩
  · rfl
  · cases hsome

theorem answer_operations {D : Digest γ} (r : WorkerRequest) (c : Choice) (w : World γ) :
    (World.answer D r c w).2.db.operations = w.db.operations := by
  cases r with
  | read r => rw [World.answer_read]
  | head t => rfl
  | copy source destination =>
      rcases World.answer_copy (D := D) (c := c) (w := w) source destination with h | ⟨o, -, h⟩
      · rw [h]
      · rw [h]
        rfl
  | delete t =>
      rcases World.answer_delete (D := D) (c := c) (w := w) t with h | h
      · rw [h]
      · rw [h]
        rfl
  | recordRenameProviderResult id etag =>
      rcases World.effect_cases c w { w with db := recordRenameProviderResult id etag w.db } with
        h | h
      · exact congrArg (fun w : World γ ↦ w.db.operations) h
      · exact (congrArg (fun w : World γ ↦ w.db.operations) h).trans
          recordRenameProviderResult_frame.1

theorem dispose_handlers {disposal : Disposal} :
    (s.dispose tag h disposal).handlers = s.handlers.erase tag := by
  unfold BrokerSystem.dispose
  dsimp only
  split
  · rfl
  split
  · rfl
  · rfl

theorem settle_turn {now : Timestamp} {id : Uuid} {status : OperationStatus}
    {reason : Option String} {disposal : Disposal} (hterminal : status.terminal) :
    ∃ next, Turn maxRetries h s.world.db (s.settle now tag h id status reason disposal).world.db
        none next ∧
      (s.settle now tag h id status reason disposal).handlers =
        handlersAfter tag h s.handlers next := by
  unfold BrokerSystem.settle
  split
  · exact ⟨none, .gone rfl, rfl⟩
  · rename_i db' hsettle
    exact ⟨_, .settles id now status reason disposal hterminal hsettle, rfl⟩

theorem retryOrDeadLetter_turn {now : Timestamp} {id : Uuid} {op : FileOperation}
    {reason : String} (hbody : h.body = some id) (hstage : h.stage.operation = some op) :
    ∃ next, Turn maxRetries h s.world.db
        (s.retryOrDeadLetter maxRetries now tag h id op reason).world.db none next ∧
      (s.retryOrDeadLetter maxRetries now tag h id op reason).handlers =
        handlersAfter tag h s.handlers next := by
  unfold BrokerSystem.retryOrDeadLetter
  split
  · exact settle_turn rfl
  rename_i hattempts
  split
  · rename_i db' hschedule
    obtain rfl := scheduleBrokerRetry_eq_none hschedule
    exact ⟨_, .goes (.leaving .ack) trivial rfl (fun _ hop ↦ nomatch hop), rfl⟩
  · rename_i retry db' hschedule
    obtain ⟨row, hrow, hsame, hoperations⟩ := scheduleBrokerRetry_eq_some hschedule
    exact ⟨_, .schedules id op row retry hbody hstage (Nat.not_le.mp hattempts) hrow hsame
      hoperations, rfl⟩

/-- Only a delivery which has just been received is handed to a worker. -/
theorem handed_eq_none {c : HandlerChoice} (hlookup : s.handlers.lookup tag = some h)
    (hstage : h.stage ≠ .received) : s.handed (.handle tag c) = none := by
  unfold BrokerSystem.handed
  dsimp only
  split
  · rename_i hreceived
    obtain rfl := Option.some.inj (hlookup.symm.trans hreceived)
    exact absurd rfl hstage
  · rfl

theorem handle_turn {D : Digest γ} {tenantId : Uuid} {c : HandlerChoice}
    (hlookup : s.handlers.lookup tag = some h) (hdecided : h.stage.Decided)
    (hexec : s.handle D tenantId maxRetries tag c = .ok s') :
    ∃ next, Turn maxRetries h s.world.db s'.world.db (s.handed (.handle tag c)) next ∧
      s'.handlers = handlersAfter tag h s.handlers next := by
  have hleaves {disposal : Disposal} : ∃ next, Turn maxRetries h s.world.db
      (s.dispose tag h disposal).world.db none next ∧
      (s.dispose tag h disposal).handlers = handlersAfter tag h s.handlers next :=
    ⟨none, .gone (by rw [dispose_world]), dispose_handlers⟩
  obtain ⟨m, body, stage⟩ := h
  cases body with
  | none =>
      have hnone : s.handed (.handle tag c) = none := by simp [BrokerSystem.handed, hlookup]
      rw [hnone]
      simp only [BrokerSystem.handle, hlookup] at hexec
      split at hexec
      · cases hexec
        exact hleaves
      · cases hexec
        exact ⟨_, .goes (.leaving .reject) trivial rfl (fun _ hop ↦ nomatch hop), rfl⟩
  | some id =>
      cases stage with
      | received =>
          simp only [BrokerSystem.handle, hlookup] at hexec
          split at hexec
          · rename_i db' hstart
            have hnone : s.handed (.handle tag c) = none := by
              simp [BrokerSystem.handed, hlookup, hstart]
            rw [hnone]
            cases hexec
            obtain rfl := startBrokerOperation_eq_none hstart
            exact ⟨_, .goes (.leaving .ack) trivial rfl (fun _ hop ↦ nomatch hop), rfl⟩
          · rename_i op db' hstart
            have hsome : s.handed (.handle tag c) = some id := by
              simp [BrokerSystem.handed, hlookup, hstart]
            rw [hsome]
            cases hexec
            obtain ⟨row, hrow, hwaiting, hop, hoperations⟩ := startBrokerOperation_eq_some hstart
            exact ⟨_, .starts id row op rfl hrow hwaiting hop hoperations, rfl⟩
      | started op =>
          rw [handed_eq_none hlookup nofun]
          simp only [BrokerSystem.handle, hlookup] at hexec
          split at hexec
          · cases hexec
            exact ⟨_, .goes (.executing op _) executeOperation_settleable rfl (fun _ hop ↦ hop), rfl⟩
          · cases hexec
            exact ⟨_, .goes (.retrying op _) trivial rfl (fun _ hop ↦ hop), rfl⟩
      | executing op p =>
          rw [handed_eq_none hlookup nofun]
          match p, hdecided with
          | .request r next, hdecided =>
              simp only [BrokerSystem.handle, hlookup] at hexec
              cases hexec
              exact ⟨_, .goes (.executing op _) (hdecided _) (answer_operations r c.answer s.world)
                (fun _ hop ↦ hop), rfl⟩
          | .done (.error ()), _ =>
              simp only [BrokerSystem.handle, hlookup] at hexec
              cases hexec
              exact ⟨none, .gone rfl, rfl⟩
          | .done (.ok outcome), hdecided =>
              simp only [BrokerSystem.handle, hlookup] at hexec
              cases hexec
              exact ⟨_, .goes (.executed op outcome) (hdecided outcome rfl) rfl (fun _ hop ↦ hop),
                rfl⟩
      | executed op outcome =>
          rw [handed_eq_none hlookup nofun]
          obtain ⟨status, reason⟩ := outcome
          simp only [BrokerSystem.handle, hlookup] at hexec
          split at hexec
          · cases hexec
            exact ⟨_, .goes (.retrying op _) trivial rfl (fun _ hop ↦ hop), rfl⟩
          rename_i hretry
          split at hexec
          · cases hexec
            exact settle_turn rfl
          split at hexec
          · cases hexec
            exact settle_turn rfl
          · cases hexec
            exact settle_turn (hdecided.resolve_left hretry)
      | retrying op reason =>
          rw [handed_eq_none hlookup nofun]
          simp only [BrokerSystem.handle, hlookup] at hexec
          cases hexec
          exact retryOrDeadLetter_turn rfl rfl
      | publishing attemptCount =>
          rw [handed_eq_none hlookup nofun]
          simp only [BrokerSystem.handle, hlookup] at hexec
          obtain ⟨s₁, hsend, rfl⟩ := Except.map_eq_ok.mp hexec
          rcases send_eq_ok hsend with ⟨-, rfl⟩ | ⟨-, rfl⟩
          · exact ⟨_, .goes (.leaving _) trivial rfl (fun _ hop ↦ nomatch hop), rfl⟩
          · exact ⟨_, .goes (.leaving _) trivial rfl (fun _ hop ↦ nomatch hop), rfl⟩
      | leaving disposal =>
          rw [handed_eq_none hlookup nofun]
          simp only [BrokerSystem.handle, hlookup] at hexec
          cases hexec
          exact hleaves

/-! ## What a step is paid with -/

variable {o : Uuid} {handed : Option Uuid} {w w' : ℤ}

/-- A step which takes the workers from `w` to `w'` retries: it wins no retry, and pays for the
operation it hands out. -/
structure Pays (maxRetries maxRecoveries : ℕ) (o : Uuid) (handed : Option Uuid) (w w' : ℤ)
    (db db' : Db) : Prop where
  retries : w' + attemptsLeft maxRetries o db' ≤ w + attemptsLeft maxRetries o db
  executions : (if handed = some o then 1 else 0) +
      (startsLeft o db' + recoveriesLeft maxRecoveries o db' +
        (w' + attemptsLeft maxRetries o db') : ℤ) ≤
    startsLeft o db + recoveriesLeft maxRecoveries o db + (w + attemptsLeft maxRetries o db)

theorem Spends.pays (h : Spends maxRetries maxRecoveries o db db') (hw : w' ≤ w) :
    Pays maxRetries maxRecoveries o none w w' db db' := by
  have hattempts := h.attempts
  have hstarts := h.starts
  constructor
  · omega
  · simp only [reduceCtorEq, if_false]
    omega

theorem retriesLeft_nonneg : 0 ≤ h.retriesLeft maxRetries o := by
  unfold Handler.retriesLeft
  split <;> decide

theorem retriesLeft_of_body (hbody : h.body ≠ some o) : h.retriesLeft maxRetries o = 0 :=
  if_neg fun hleft ↦ hbody hleft.1

theorem retriesLeft_of_operation (hbody : h.body = some o) {op : FileOperation}
    (hop : h.stage.operation = some op) :
    h.retriesLeft maxRetries o = if op.attemptCount < maxRetries then 1 else 0 := by
  simp [Handler.retriesLeft, hbody, hop]

theorem retriesLeft_of_none (hop : h.stage.operation = none) : h.retriesLeft maxRetries o = 0 := by
  simp [Handler.retriesLeft, hop]

/-- A handler which goes on with the operation it had can schedule no retry it could not schedule
before. -/
theorem retriesLeft_le (hsame : ∀ op, stage.operation = some op → h.stage.operation = some op) :
    Handler.retriesLeft maxRetries o { h with stage } ≤ h.retriesLeft maxRetries o := by
  cases hop : stage.operation with
  | none => exact (retriesLeft_of_none hop).trans_le retriesLeft_nonneg
  | some op => simp [Handler.retriesLeft, hop, hsame op hop]

/-- What the handler is worth at its next stage. -/
def worth (maxRetries : ℕ) (o : Uuid) (h : Handler) (next : Option Stage) : ℤ :=
  next.elim 0 fun stage ↦ Handler.retriesLeft maxRetries o { h with stage }

theorem Turn.pays {next : Option Stage} (hturn : Turn maxRetries h db db' handed next) :
    Pays maxRetries maxRecoveries o handed (h.retriesLeft maxRetries o) (worth maxRetries o h next)
      db db' := by
  cases hturn with
  | gone hoperations =>
      exact (spends_of_lookup (by rw [hoperations])).pays retriesLeft_nonneg
  | goes stage _ hoperations hsame =>
      exact (spends_of_lookup (by rw [hoperations])).pays (retriesLeft_le hsame)
  | starts id row op hbody hrow hwaiting hop hoperations =>
      by_cases ho : id = o
      · subst ho
        have hrow' : db'.operations.lookup id = some op := by
          rw [hoperations, lookup_update_status hrow]
        have hworth : worth maxRetries id h (some (.started op)) =
            if op.attemptCount < maxRetries then 1 else 0 :=
          retriesLeft_of_operation (h := { h with stage := .started op }) hbody rfl
        have hnonneg : 0 ≤ h.retriesLeft maxRetries id := retriesLeft_nonneg
        have hcount : op.attemptCount = row.attemptCount + 1 := by rw [hop]
        have hrecovery : op.recoveryAttemptCount = row.recoveryAttemptCount := by rw [hop]
        have hstarts : startsLeft id db = 1 := by simp [startsLeft, hrow, hwaiting]
        have hstarts' : startsLeft id db' = 0 := by
          simp [startsLeft, hrow', hop, OperationStatus.waiting]
        have hleft : attemptsLeft maxRetries id db = maxRetries - 1 - row.attemptCount := by
          simp [attemptsLeft, hrow]
        have hleft' : attemptsLeft maxRetries id db' = maxRetries - 1 - op.attemptCount := by
          simp [attemptsLeft, hrow']
        have hsame : recoveriesLeft maxRecoveries id db' = recoveriesLeft maxRecoveries id db := by
          simp [recoveriesLeft, hrow, hrow', hrecovery]
        -- A worker which is handed an early attempt takes over the retry of this attempt.
        have htaken : worth maxRetries id h (some (.started op)) + attemptsLeft maxRetries id db' ≤
            attemptsLeft maxRetries id db := by
          rw [hworth, hleft, hleft', hcount]
          split <;> omega
        constructor
        · omega
        · rw [hstarts, hstarts', hsame, if_pos rfl]
          omega
      · have hworth : worth maxRetries o h (some (.started op)) = 0 := by
          refine retriesLeft_of_body fun hbody' ↦ ho ?_
          exact Option.some.inj (hbody.symm.trans hbody')
        have hspends : Spends maxRetries maxRecoveries o db db' :=
          spends_of_lookup (by rw [hoperations, AList.lookup_update_of_ne (Ne.symm ho)])
        obtain ⟨hretries, hexecutions⟩ :=
          hspends.pays (hworth.trans_le (retriesLeft_nonneg (h := h)))
        refine ⟨hretries, ?_⟩
        rw [if_neg fun hid ↦ ho (Option.some.inj hid)]
        simpa using hexecutions
  | schedules id op row retry hbody hstage hattempts hrow hsame hoperations =>
      have hworth : worth maxRetries o h (some (.publishing retry.attemptCount)) = 0 :=
        retriesLeft_of_none rfl
      by_cases ho : id = o
      · subst ho
        have hrow' : db'.operations.lookup id = some retry := by
          rw [hoperations, lookup_update_status hrow]
        have hone : h.retriesLeft maxRetries id = 1 := by
          rw [retriesLeft_of_operation hbody hstage, if_pos hattempts]
        have hleft : attemptsLeft maxRetries id db' = attemptsLeft maxRetries id db := by
          simp [attemptsLeft, hrow, hrow', hsame.1]
        have hrecoveries : recoveriesLeft maxRecoveries id db' =
            recoveriesLeft maxRecoveries id db := by
          simp [recoveriesLeft, hrow, hrow', hsame.2]
        have hstarts' : startsLeft id db' ≤ 1 := by
          simp only [startsLeft, hrow', Option.elim_some]
          split <;> decide
        constructor
        · rw [hworth, hone, hleft]
          omega
        · rw [hworth, hone, hleft, hrecoveries]
          simp only [reduceCtorEq, if_false]
          omega
      · have hspends : Spends maxRetries maxRecoveries o db db' :=
          spends_of_lookup (by rw [hoperations, AList.lookup_update_of_ne (Ne.symm ho)])
        exact hspends.pays (hworth.trans_le retriesLeft_nonneg)
  | settles id now status reason disposal hterminal hsettle =>
      refine (settleBrokerOperation_spends hterminal hsettle).pays ?_
      exact (retriesLeft_of_none rfl).trans_le retriesLeft_nonneg

/-! ## Steps of the system -/

variable {D : Digest γ} {tenantId : Uuid} {c : BrokerCmd γ}

/-- The step leaves the operations alone, and begins or ends a delivery at most. -/
inductive Aside (s s' : BrokerSystem γ) : Prop
  | stays (hoperations : s'.world.db.operations = s.world.db.operations)
      (hhandlers : s'.handlers = s.handlers)
  | begins (tag m : Uuid) (body : Option Uuid) (hfresh : tag ∉ s.handlers)
      (hoperations : s'.world.db.operations = s.world.db.operations)
      (hhandlers : s'.handlers = s.handlers.insert tag ⟨m, body, .received⟩)
  | ends (tag : Uuid) (hoperations : s'.world.db.operations = s.world.db.operations)
      (hhandlers : s'.handlers = s.handlers.erase tag)

theorem accept_aside {message : Message} (h : s.accept m message = .ok s') : Aside s s' := by
  obtain ⟨-, rfl⟩ := accept_eq_ok h
  exact .stays rfl rfl

theorem publish_aside {publisher : Uuid} {now : Timestamp} {publication : Publication}
    (h : s.publish publisher now publication m = .ok s') : Aside s s' := by
  unfold BrokerSystem.publish at h
  split at h
  · cases h
  · cases h
    exact .stays rfl rfl
  · obtain ⟨s₁, hsend, rfl⟩ := Except.map_eq_ok.mp h
    rcases send_eq_ok hsend with ⟨-, rfl⟩ | ⟨-, rfl⟩
    · exact .stays rfl rfl
    · exact .stays rfl rfl
  · cases h
    exact .stays rfl rfl
  · cases h
    exact .stays rfl rfl

theorem exec_cases (h : brokerExec D tenantId maxRetries c s = .ok s') :
    (∃ d, c = .store d ∧ opExec d.command s.world.db = .ok s'.world.db ∧
      s'.handlers = s.handlers) ∨
    (∃ tag choice, c = .handle tag choice) ∨ s.handed c = none ∧ (∀ o, s.replays o c = false) ∧
      Aside s s' := by
  cases c with
  | store d =>
      simp only [brokerExec] at h
      split at h
      · cases h
      · rename_i db' hexec
        cases h
        exact Or.inl ⟨d, rfl, hexec, rfl⟩
  | handle tag choice => exact Or.inr (Or.inl ⟨tag, choice, rfl⟩)
  | provider objects =>
      cases h
      exact Or.inr (Or.inr ⟨rfl, fun _ ↦ rfl, .stays rfl rfl⟩)
  | claim publisher now picked =>
      simp only [brokerExec] at h
      split at h
      · cases h
      · cases h
        exact Or.inr (Or.inr ⟨rfl, fun _ ↦ rfl, .stays rfl rfl⟩)
  | publish publisher now publication messageId =>
      exact Or.inr (Or.inr ⟨rfl, fun _ ↦ rfl, publish_aside h⟩)
  | publisherCrash publisher =>
      cases h
      exact Or.inr (Or.inr ⟨rfl, fun _ ↦ rfl, .stays rfl rfl⟩)
  | arrive messageId body => exact Or.inr (Or.inr ⟨rfl, fun _ ↦ rfl, accept_aside h⟩)
  | expire messageId | redeliver messageId =>
      simp only [brokerExec] at h
      split at h
      · cases h
        exact Or.inr (Or.inr ⟨rfl, fun _ ↦ rfl, .stays rfl rfl⟩)
      · cases h
  | deliver messageId tag =>
      simp only [brokerExec] at h
      split at h
      · rename_i body _
        split at h
        · cases h
        · rename_i hfresh
          cases h
          exact Or.inr (Or.inr ⟨rfl, fun _ ↦ rfl,
            .begins tag messageId body (fun hmem ↦ hfresh (Or.inl hmem)) rfl rfl⟩)
      · cases h
  | handlerCrash tag =>
      cases h
      exact Or.inr (Or.inr ⟨rfl, fun _ ↦ rfl, .ends tag rfl rfl⟩)

/-- Every delivery is at a stage which ends in a settlement or a retry. -/
def AllDecided (handlers : Table Uuid Handler) : Prop :=
  ∀ tag h, handlers.lookup tag = some h → h.stage.Decided

theorem AllDecided.erase {handlers : Table Uuid Handler} (hdecided : AllDecided handlers) :
    AllDecided (handlers.erase tag) :=
  fun i h hi ↦ hdecided i h (AList.lookup_of_lookup_erase hi).2

theorem AllDecided.insert {handlers : Table Uuid Handler} (hdecided : AllDecided handlers)
    (hstage : h.stage.Decided) : AllDecided (handlers.insert tag h) := by
  intro i h' hi
  by_cases htag : i = tag
  · subst htag
    rw [AList.lookup_insert] at hi
    obtain rfl := Option.some.inj hi
    exact hstage
  · rw [AList.lookup_insert_ne htag] at hi
    exact hdecided i h' hi

theorem Turn.decided {next : Option Stage} (hturn : Turn maxRetries h db db' handed next)
    {handlers : Table Uuid Handler} (hdecided : AllDecided handlers) :
    AllDecided (handlersAfter tag h handlers next) := by
  cases hturn with
  | gone => exact hdecided.erase
  | goes stage hstage => exact hdecided.insert hstage
  | starts | schedules | settles => exact hdecided.insert trivial

theorem exec_turn {choice : HandlerChoice} (hdecided : AllDecided s.handlers)
    (hexec : s.handle D tenantId maxRetries tag choice = .ok s') :
    ∃ h next, s.handlers.lookup tag = some h ∧
      Turn maxRetries h s.world.db s'.world.db (s.handed (.handle tag choice)) next ∧
      s'.handlers = handlersAfter tag h s.handlers next := by
  cases hlookup : s.handlers.lookup tag with
  | none => simp [BrokerSystem.handle, hlookup] at hexec
  | some h =>
      obtain ⟨next, hturn, hhandlers⟩ := handle_turn hlookup (hdecided tag h hlookup) hexec
      exact ⟨h, next, rfl, hturn, hhandlers⟩

theorem AllDecided.exec (hdecided : AllDecided s.handlers)
    (hexec : brokerExec D tenantId maxRetries c s = .ok s') : AllDecided s'.handlers := by
  rcases exec_cases hexec with ⟨_, -, -, hhandlers⟩ | ⟨tag, choice, rfl⟩ | ⟨-, -, haside⟩
  · rwa [hhandlers]
  · obtain ⟨h, next, -, hturn, hhandlers⟩ := exec_turn hdecided hexec
    rw [hhandlers]
    exact hturn.decided hdecided
  · cases haside with
    | stays _ hhandlers => rwa [hhandlers]
    | begins tag m body _ _ hhandlers =>
        rw [hhandlers]
        exact hdecided.insert trivial
    | ends tag _ hhandlers =>
        rw [hhandlers]
        exact hdecided.erase

/-! ## What a run is paid with -/

theorem total_handlersAfter {weight : Uuid → Handler → ℤ} {handlers : Table Uuid Handler}
    (hlookup : handlers.lookup tag = some h) (next : Option Stage) :
    (handlersAfter tag h handlers next).total weight =
      handlers.total weight - weight tag h +
        next.elim 0 fun stage ↦ weight tag { h with stage } := by
  rw [AList.total_of_agree_off tag (t := handlers) (w := weight), AList.weightAt_of_lookup hlookup]
  · cases next with
    | none =>
        rw [handlersAfter, AList.weightAt_of_notMem (by simp)]
        rfl
    | some stage =>
        rw [handlersAfter, AList.weightAt_of_lookup (AList.lookup_insert _)]
        rfl
  · intro j hj
    cases next with
    | none => simp [handlersAfter, AList.weightAt, AList.lookup_erase_ne hj]
    | some stage => simp [handlersAfter, AList.weightAt, AList.lookup_insert_ne hj]

theorem Aside.workersLeft_le (h : Aside s s') :
    s'.workersLeft maxRetries o ≤ s.workersLeft maxRetries o := by
  unfold BrokerSystem.workersLeft
  cases h with
  | stays _ hhandlers => rw [hhandlers]
  | begins tag m body hfresh _ hhandlers =>
      rw [hhandlers, AList.total_insert hfresh, retriesLeft_of_none rfl, add_zero]
  | ends tag _ hhandlers =>
      rw [hhandlers]
      refine AList.total_le_total fun k ↦ ?_
      by_cases hk : k = tag
      · subst hk
        rw [AList.weightAt_of_notMem (by simp)]
        unfold AList.weightAt
        split
        · exact retriesLeft_nonneg
        · exact le_rfl
      · rw [AList.weightAt, AList.lookup_erase_ne hk, AList.weightAt]

theorem Aside.operations (h : Aside s s') : s'.world.db.operations = s.world.db.operations := by
  cases h with
  | stays hoperations | begins _ _ _ _ hoperations | ends _ hoperations => exact hoperations

theorem handle_pays {choice : HandlerChoice} (hdecided : AllDecided s.handlers)
    (hexec : s.handle D tenantId maxRetries tag choice = .ok s') :
    Pays maxRetries maxRecoveries o (s.handed (.handle tag choice)) (s.workersLeft maxRetries o)
      (s'.workersLeft maxRetries o) s.world.db s'.world.db := by
  obtain ⟨h, next, hlookup, hturn, hhandlers⟩ := exec_turn hdecided hexec
  have htotal : s'.workersLeft maxRetries o = s.workersLeft maxRetries o -
      h.retriesLeft maxRetries o + worth maxRetries o h next := by
    unfold BrokerSystem.workersLeft
    rw [hhandlers, total_handlersAfter hlookup]
    rfl
  obtain ⟨hretries, hexecutions⟩ :
    Pays maxRetries maxRecoveries o _ _ _ s.world.db s'.world.db := hturn.pays
  constructor
  · rw [htotal]
    linarith
  · rw [htotal]
    linarith

/-- Every step but a replay of the operation pays. -/
theorem exec_pays (hdecided : AllDecided s.handlers) (hrecovers : c.RecoversAtMost maxRecoveries)
    (hreplays : s.replays o c = false) (hexec : brokerExec D tenantId maxRetries c s = .ok s') :
    Pays maxRetries maxRecoveries o (s.handed c) (s.workersLeft maxRetries o)
      (s'.workersLeft maxRetries o) s.world.db s'.world.db := by
  rcases exec_cases hexec with ⟨d, rfl, hstore, hhandlers⟩ | ⟨tag, choice, rfl⟩ |
    ⟨hhanded, -, haside⟩
  · refine (storeCmd_spends hrecovers hreplays hstore).pays ?_
    rw [BrokerSystem.workersLeft, BrokerSystem.workersLeft, hhandlers]
  · exact handle_pays hdecided hexec
  · rw [hhanded]
    exact (spends_of_lookup (by rw [haside.operations])).pays haside.workersLeft_le

/-- No step wins a retry, not even a replay. -/
theorem exec_retries (hdecided : AllDecided s.handlers)
    (hexec : brokerExec D tenantId maxRetries c s = .ok s') :
    s'.workersLeft maxRetries o + attemptsLeft maxRetries o s'.world.db ≤
      s.workersLeft maxRetries o + attemptsLeft maxRetries o s.world.db := by
  rcases exec_cases hexec with ⟨d, rfl, hstore, hhandlers⟩ | ⟨tag, choice, rfl⟩ |
    ⟨-, -, haside⟩
  · have hattempts : attemptsLeft maxRetries o s'.world.db ≤ attemptsLeft maxRetries o s.world.db :=
      storeCmd_attempts hstore
    rw [BrokerSystem.workersLeft, BrokerSystem.workersLeft, hhandlers]
    omega
  · have hpays : Pays maxRetries 0 o _ _ _ s.world.db s'.world.db := handle_pays hdecided hexec
    exact hpays.retries
  · have hworkers : s'.workersLeft maxRetries o ≤ s.workersLeft maxRetries o :=
      haside.workersLeft_le
    rw [attemptsLeft, attemptsLeft, haside.operations]
    omega

theorem handed_of_error {e : Unit} (hexec : brokerExec D tenantId maxRetries c s = .error e) :
    s.handed c = none := by
  cases c with
  | handle tag choice =>
      cases hlookup : s.handlers.lookup tag with
      | none => simp [BrokerSystem.handed, hlookup]
      | some h =>
          by_cases hstage : h.stage = .received
          · obtain ⟨m, body, stage⟩ := h
            subst hstage
            cases body with
            | none => simp [BrokerSystem.handed, hlookup]
            | some id =>
                simp only [brokerExec, BrokerSystem.handle, hlookup] at hexec
                split at hexec <;> cases hexec
          · exact handed_eq_none hlookup hstage
  | store | provider | claim | publish | publisherCrash | arrive | expire | deliver | redeliver
  | handlerCrash => rfl

/-- What holds of every state: the retries left do not exceed those of a new operation. -/
structure Bounded (maxRetries : ℕ) (o : Uuid) (s : BrokerSystem γ) : Prop where
  decided : AllDecided s.handlers
  retries : s.workersLeft maxRetries o + attemptsLeft maxRetries o s.world.db ≤ (maxRetries - 1 : ℕ)

theorem Bounded.exec (hs : Bounded maxRetries o s)
    (hexec : brokerExec D tenantId maxRetries c s = .ok s') : Bounded maxRetries o s' :=
  ⟨hs.decided.exec hexec, (exec_retries hs.decided hexec).trans hs.retries⟩

theorem bounded_of_idle (hidle : s.handlers = ∅) : Bounded maxRetries o s := by
  constructor
  · intro tag h hlookup
    rw [hidle] at hlookup
    cases hlookup
  · have hnone : s.workersLeft maxRetries o = 0 := by
      rw [BrokerSystem.workersLeft, hidle]
      rfl
    rw [hnone, zero_add, Nat.cast_le]
    unfold attemptsLeft
    cases s.world.db.operations.lookup o with
    | none => exact le_rfl
    | some op => exact Nat.sub_le _ _

theorem advance_pays (hs : Bounded maxRetries o s) (hrecovers : c.RecoversAtMost maxRecoveries)
    (hreplays : s.replays o c = false) :
    (if s.handed c = some o then 1 else 0) +
        (advance (brokerExec D tenantId maxRetries) s c).executionsLeft maxRetries maxRecoveries o ≤
      s.executionsLeft maxRetries maxRecoveries o := by
  cases hexec : brokerExec D tenantId maxRetries c s with
  | error e =>
      rw [advance_of_error hexec, handed_of_error hexec]
      simp
  | ok s' =>
      rw [advance_of_ok hexec]
      exact (exec_pays hs.decided hrecovers hreplays hexec).executions

theorem executionsLeft_nonneg : 0 ≤ s.executionsLeft maxRetries maxRecoveries o := by
  have hworkers : 0 ≤ s.workersLeft maxRetries o :=
    AList.total_nonneg fun _ _ _ ↦ retriesLeft_nonneg
  unfold BrokerSystem.executionsLeft
  omega

theorem executionsLeft_le (hs : Bounded maxRetries o s) :
    s.executionsLeft maxRetries maxRecoveries o ≤ (max 1 maxRetries + maxRecoveries : ℕ) := by
  have hretries := hs.retries
  have hstarts : startsLeft o s.world.db ≤ 1 := by
    unfold startsLeft
    cases s.world.db.operations.lookup o with
    | none => exact le_rfl
    | some op =>
        simp only [Option.elim_some]
        split <;> decide
  have hrecoveries : recoveriesLeft maxRecoveries o s.world.db ≤ maxRecoveries := by
    unfold recoveriesLeft
    cases s.world.db.operations.lookup o with
    | none => exact le_rfl
    | some op => exact Nat.sub_le _ _
  unfold BrokerSystem.executionsLeft
  omega

end

/-- Whatever is delivered, redelivered, refused, timed out or settled late, an operation is handed
to workers only so often between two replays: `pre` leads from a state in which nothing is being
delivered to the start of the period, and `period` does not replay the operation. -/
theorem executions_bounded {γ : Type} (D : Digest γ) (tenantId : Uuid)
    (maxRetries maxRecoveries : ℕ) (o : Uuid) {s : BrokerSystem γ} (hidle : s.handlers = ∅)
    (pre period : List (BrokerCmd γ)) (hrecovers : ∀ c ∈ period, c.RecoversAtMost maxRecoveries)
    (hreplays : Meets (brokerExec D tenantId maxRetries) (fun s c ↦ s.replays o c = false)
      (run (brokerExec D tenantId maxRetries) s pre) period) :
    countSteps (brokerExec D tenantId maxRetries) (fun s c ↦ s.handed c = some o)
      (run (brokerExec D tenantId maxRetries) s pre) period ≤ max 1 maxRetries + maxRecoveries := by
  have hpre : Bounded maxRetries o (run (brokerExec D tenantId maxRetries) s pre) :=
    run_preserves (fun _ _ _ hs hexec ↦ hs.exec hexec) (bounded_of_idle hidle) pre
  have hcount := countSteps_add_potential_le (fun s c ↦ s.handed c = some o)
    (fun s : BrokerSystem γ ↦ s.executionsLeft maxRetries maxRecoveries o)
    (fun _ _ hs ↦ advance_preserves hs fun _ hexec ↦ hs.exec hexec)
    (fun _ _ hs hc ↦ by simpa using advance_pays hs hc.1 hc.2) hpre (hreplays.and_valid hrecovers)
  have hnonneg : 0 ≤ (run (brokerExec D tenantId maxRetries)
      (run (brokerExec D tenantId maxRetries) s pre) period).executionsLeft maxRetries
        maxRecoveries o := executionsLeft_nonneg
  have hstart : (run (brokerExec D tenantId maxRetries) s pre).executionsLeft maxRetries
      maxRecoveries o ≤ (max 1 maxRetries + maxRecoveries : ℕ) := executionsLeft_le hpre
  omega

/-- The delivery of the sample is the only execution a bound of one attempt allows. -/
theorem executions_bounded_sample : countSteps (brokerExec Sample.digest 1 1)
    (fun s c ↦ s.handed c = some 50) Sample.delivering Sample.firstDelivery ≤ 1 :=
  executions_bounded Sample.digest 1 1 0 50 rfl [] Sample.firstDelivery
    (by simp [Sample.firstDelivery, BrokerCmd.RecoversAtMost]) (by decide +kernel)

end S3mp
