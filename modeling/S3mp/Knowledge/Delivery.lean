import S3mp.Knowledge.Receiver
import S3mp.Knowledge.TaskEffects

/-!
# No analysis task is lost

A task which waits for a worker must be announced by an outbox event a publisher will claim or
by a message that will be delivered, a task in processing must be one the recovery will select,
and a message which is handed out must have a handler.  A message whose handler is about to
discard it, and an event which is about to be marked as published, do not count.
-/

namespace S3mp.Knowledge

open Relational Messaging Transition

/-- The handler may still give the message back or send its copy to a retry queue. -/
def ReceiverStage.keepsMessage : ReceiverStage → Bool
  | .received | .opening _ | .publishing _ | .leaving .requeue => true
  | _ => false

/-- The step lets an exception escape. -/
def ReceiverStage.escapes (c : ReceiverChoice) : ReceiverStage → Bool
  | .received | .executed .completed _ | .executed .skipped _ | .retrying _ | .deadLettering _
  | .opening _ => c.raises
  | .publishing _ => c.raises && c.publication = .confirmed
  | .executing | .executed .other _ | .leaving _ => false

/-- The state in which a task is settled. -/
def ExecutionStatus.settles : ExecutionStatus → Option TaskState
  | .completed => some .completed
  | .skipped => some .skipped
  | .other => none

namespace AnalysisSystem

def InFlight (s : AnalysisSystem) (taskId : Uuid) : Prop :=
  s.broker.InFlight ReceiverStage.keepsMessage (some taskId)

def Announced (s : AnalysisSystem) (taskId : Uuid) : Prop :=
  ∃ e event, s.db.outbox.lookup e = some event ∧ event.payload.analysisTask = some taskId ∧
    event.publishedAt = none ∧
    ∀ publisher rest, s.publishers.lookup publisher ≠ some (.marking e rest)

/-- A delivery of the task is to come. -/
def Expected (s : AnalysisSystem) (taskId : Uuid) : Prop :=
  s.Announced taskId ∨ s.InFlight taskId

structure NothingLost (s : AnalysisSystem) : Prop where
  waiting : ∀ taskId task, s.db.tasks.lookup taskId = some task → task.state = .queued →
    s.Expected taskId
  processing : ∀ taskId task, s.db.tasks.lookup taskId = some task → task.state = .processing →
    ∃ t, ∀ now, t < now → task.stale now
  attended : ∀ m message tag, s.broker.messages.lookup m = some message →
    message.place = .unacked tag → tag ∈ s.broker.handlers

/-- While the delivery has its message, no exception escapes and the task can be settled as
reported.  A retry is recorded only while the delivery has its message, or another delivery is
to come. -/
structure HandlesWell (maxRetries : ℕ) (s : AnalysisSystem) (tag : Uuid) (h : AnalysisHandler)
    (taskId : Uuid) (c : ReceiverChoice) : Prop where
  caught : s.broker.HasMessage tag h → h.stage.escapes c = false
  settles : s.broker.HasMessage tag h → ∀ status reason state task,
    h.stage = .executed status reason → status.settles = some state →
    s.db.tasks.lookup taskId = some task → task.state.terminal ∨ state ∈ task.state.transitions
  retries : ∀ reason task, h.stage = .retrying reason → c.raises = false →
    s.db.tasks.lookup taskId = some task → task.state = .processing →
    task.attemptCount < maxRetries → s.broker.HasMessage tag h ∨ s.Expected taskId

def KeepsTasks (maxRetries : ℕ) (s : AnalysisSystem) : AnalysisCmd → Prop
  | .handle tag c => ∀ h taskId, s.broker.handlers.lookup tag = some h → h.body = some taskId →
      HandlesWell maxRetries s tag h taskId c
  | _ => True

end AnalysisSystem

/-! ## What the store hands over -/

/-- Every task in processing has a lease. -/
def Leased (db : KnowledgeDb) : Prop :=
  ∀ taskId task, db.tasks.lookup taskId = some task → task.state = .processing →
    ∃ expires, task.processingLeaseExpiresAt = some expires

/-- A task which begins to wait is announced by a new event, and no event is lost. -/
structure HandsOver (db db' : KnowledgeDb) : Prop where
  waiting : ∀ taskId task', db'.tasks.lookup taskId = some task' → task'.state = .queued →
    (∃ task, db.tasks.lookup taskId = some task ∧ task.state = .queued) ∨
      ∃ e event, e ∉ db.outbox ∧ db'.outbox.lookup e = some event ∧
        event.payload.analysisTask = some taskId ∧ event.publishedAt = none
  leased : Leased db → Leased db'
  events : ∀ e event, db.outbox.lookup e = some event → ∃ event',
    db'.outbox.lookup e = some event' ∧ event'.payload = event.payload ∧
      (event.publishedAt = none → event'.publishedAt = none)

variable {db db' db'' : KnowledgeDb} {taskId : Uuid}

theorem HandsOver.mem_outbox (h : HandsOver db db') {e : Uuid} (he : e ∈ db.outbox) :
    e ∈ db'.outbox := by
  obtain ⟨event, hevent⟩ := AList.exists_lookup_of_mem he
  obtain ⟨event', hevent', -⟩ := h.events e event hevent
  exact AList.mem_of_lookup hevent'

theorem HandsOver.trans (h : HandsOver db db') (h' : HandsOver db' db'') : HandsOver db db'' := by
  refine ⟨fun taskId task'' htask'' hqueued ↦ ?_, fun hdb ↦ h'.leased (h.leased hdb),
    fun e event he ↦ ?_⟩
  · rcases h'.waiting taskId task'' htask'' hqueued with ⟨task', htask', hqueued'⟩ |
      ⟨e, event, hnew, he, hnames⟩
    · rcases h.waiting taskId task' htask' hqueued' with hbefore | ⟨e, event, hnew, he, hname, hopen⟩
      · exact Or.inl hbefore
      · obtain ⟨event', he', hpayload, hopen'⟩ := h'.events e event he
        exact Or.inr ⟨e, event', hnew, he', by rw [hpayload, hname], hopen' hopen⟩
    · exact Or.inr ⟨e, event, fun hold ↦ hnew (h.mem_outbox hold), he, hnames⟩
  · obtain ⟨event', he', hpayload, hopen⟩ := h.events e event he
    obtain ⟨event'', he'', hpayload', hopen'⟩ := h'.events e event' he'
    exact ⟨event'', he'', hpayload'.trans hpayload, fun hnone ↦ hopen' (hopen hnone)⟩

/-- The transaction leaves the tasks alone. -/
theorem handsOver_of_tasks (htasks : db'.tasks = db.tasks)
    (hevents : ∀ e event, db.outbox.lookup e = some event → ∃ event',
      db'.outbox.lookup e = some event' ∧ event'.payload = event.payload ∧
        (event.publishedAt = none → event'.publishedAt = none)) : HandsOver db db' := by
  refine ⟨fun taskId task htask hqueued ↦ Or.inl ⟨task, htasks ▸ htask, hqueued⟩, fun hdb ↦ ?_,
    hevents⟩
  unfold Leased
  rw [htasks]
  exact hdb

theorem HandsOver.refl (db : KnowledgeDb) : HandsOver db db :=
  handsOver_of_tasks rfl fun _ event he ↦ ⟨event, he, rfl, id⟩

/-- The task goes on in a state in which it does not wait, or waits as before. -/
theorem handsOver_updateTask {f : AnalysisTask → AnalysisTask}
    (hqueued : ∀ task, db.tasks.lookup taskId = some task → (f task).state = .queued →
      task.state = .queued)
    (hlease : ∀ task, db.tasks.lookup taskId = some task → (f task).state = .processing →
      (task.state = .processing ∧
        (f task).processingLeaseExpiresAt = task.processingLeaseExpiresAt) ∨
      ∃ expires, (f task).processingLeaseExpiresAt = some expires) :
    HandsOver db (db.updateTask taskId f) := by
  refine ⟨fun i task' htask' hstate ↦ Or.inl ?_, fun hdb i task' htask' hstate ↦ ?_,
    fun _ event he ↦ ⟨event, he, rfl, id⟩⟩
  · rw [KnowledgeDb.lookup_updateTask] at htask'
    split at htask'
    · rename_i hi
      subst hi
      obtain ⟨task, htask, rfl⟩ := Option.map_eq_some_iff.mp htask'
      exact ⟨task, htask, hqueued task htask hstate⟩
    · exact ⟨task', htask', hstate⟩
  · rw [KnowledgeDb.lookup_updateTask] at htask'
    split at htask'
    · rename_i hi
      subst hi
      obtain ⟨task, htask, rfl⟩ := Option.map_eq_some_iff.mp htask'
      rcases hlease task htask hstate with ⟨hprocessing, hsame⟩ | hleased
      · rw [hsame]
        exact hdb i task htask hprocessing
      · exact hleased
    · exact hdb i task' htask' hstate

/-- The task begins to wait, and is announced. -/
theorem handsOver_announced {task' : AnalysisTask} {eventId : Uuid} {replay : Bool}
    {tasks : Table Uuid AnalysisTask}
    (hothers : ∀ i, i ≠ taskId → tasks.lookup i = db.tasks.lookup i)
    (htask' : tasks.lookup taskId = some task') (hqueued : task'.state = .queued)
    (hnew : eventId ∉ db.outbox) :
    HandsOver db { db with
      tasks, outbox := db.outbox.insert eventId (analysisEvent taskId replay) } := by
  refine ⟨fun i task htask hstate ↦ ?_, fun hdb i task htask hstate ↦ ?_, fun e event he ↦ ?_⟩
  · by_cases hi : i = taskId
    · subst hi
      exact Or.inr ⟨eventId, _, hnew, AList.lookup_insert _, rfl, rfl⟩
    · exact Or.inl ⟨task, (hothers i hi).symm.trans htask, hstate⟩
  · by_cases hi : i = taskId
    · subst hi
      obtain rfl := Option.some.inj (htask'.symm.trans htask)
      rw [hqueued] at hstate
      cases hstate
    · exact hdb i task ((hothers i hi).symm.trans htask) hstate
  · exact ⟨event, AList.lookup_insert_of_lookup he hnew, rfl, id⟩

theorem recoverTask_handsOver {now : Timestamp} {maxRetries : ℕ} {eventId : Uuid → Uuid}
    (h : recoverTask now maxRetries eventId db taskId = .ok db') : HandsOver db db' := by
  rcases recoverTask_cases h with rfl | ⟨task, htask, -, rfl | ⟨-, hnew, rfl⟩⟩
  · exact .refl _
  · exact handsOver_updateTask (fun _ _ hstate ↦ nomatch hstate) fun _ _ hstate ↦ nomatch hstate
  · exact handsOver_announced (fun i hi ↦ AList.lookup_update_of_ne hi _ _)
      ((AList.lookup_update_self _ _ _).trans (congrArg _ htask)) rfl hnew

theorem TaskCmd.exec_handsOver {c : TaskCmd} (hc : c.external) (h : c.exec db = .ok db') :
    HandsOver db db' := by
  cases c with
  | enqueueKnowledgeTask taskId eventId now enabled contract source rules =>
      rcases enqueueKnowledgeTask_cases h with rfl |
        ⟨task, hfresh, -, ⟨hskipped, rfl⟩ | ⟨hqueued, hnew, rfl⟩⟩
      · exact .refl _
      · refine ⟨fun i task' htask' hstate ↦ Or.inl ?_, fun hdb i task' htask' hstate ↦ ?_,
          fun _ event he ↦ ⟨event, he, rfl, id⟩⟩
        all_goals
          rw [AList.lookup_insert'] at htask'
          split at htask'
        · obtain rfl := Option.some.inj htask'
          rw [hskipped] at hstate
          cases hstate
        · exact ⟨task', htask', hstate⟩
        · obtain rfl := Option.some.inj htask'
          rw [hskipped] at hstate
          cases hstate
        · exact hdb i task' htask' hstate
      · exact handsOver_announced (fun i hi ↦ AList.lookup_insert_ne hi)
          (AList.lookup_insert _) hqueued hnew
  | recoverStaleProcessing now maxRetries eventId picked =>
      exact Tx.foldlM_relates HandsOver.refl HandsOver.trans recoverTask_handsOver h
  | recordDeadLetter fresh taskId reason =>
      obtain ⟨deadLetters, -, h⟩ := Except.bind_eq_ok.mp h
      rw [← Except.pure_eq_ok.mp h]
      exact handsOver_of_tasks rfl fun _ event he ↦ ⟨event, he, rfl, id⟩
  | replayDeadLetter eventId taskId =>
      obtain ⟨out, hout, rfl⟩ := Except.map_eq_ok.mp h
      rcases replayDeadLetter_cases hout with hsame | ⟨task, htask, -, hnew, hout⟩
      · rw [hsame]
        exact .refl db
      · rw [hout]
        exact handsOver_announced (fun i hi ↦ AList.lookup_update_of_ne hi _ _)
          ((AList.lookup_update_self _ _ _).trans (congrArg _ htask)) rfl hnew
  | setCardIndexState cardRow state =>
      rw [← Except.ok.inj h]
      exact handsOver_of_tasks rfl fun _ event he ↦ ⟨event, he, rfl, id⟩
  | claimOutboxEvents now picked => cases hc
  | markOutboxPublished now eventId => cases hc
  | releaseOutboxEvent eventId => cases hc

/-! ## What a handler hands over -/

theorem claimTask_handsOver {token : Uuid} {now : Timestamp} {out : Option AnalysisTask}
    (h : claimTask token now taskId db = (out, db')) : HandsOver db db' := by
  rcases claimTask_cases h with ⟨-, rfl, -⟩ | ⟨task, -, -, -, rfl⟩
  · exact .refl _
  · exact handsOver_updateTask (fun _ _ hstate ↦ nomatch hstate) fun _ _ _ ↦ Or.inr ⟨_, rfl⟩

/-- A task which is settled does not wait. -/
theorem settleTask_handsOver {now : Timestamp} {state : TaskState} {reason : Option String}
    (hterminal : state.terminal) (h : settleTask now taskId state reason db = .ok db') :
    HandsOver db db' := by
  rcases settleTask_cases h with ⟨rfl, -⟩ | ⟨task, -, -, -, rfl⟩
  · exact .refl _
  · refine handsOver_updateTask (fun _ _ hstate ↦ ?_) fun _ _ hstate ↦ ?_
    all_goals
      change state = _ at hstate
      rw [hstate] at hterminal
      cases hterminal

theorem recordDeadLetter_handsOver {fresh : Uuid} {of : Option Uuid} {reason : String}
    (h : recordDeadLetter fresh of reason db = .ok db') : HandsOver db db' :=
  TaskCmd.exec_handsOver (c := .recordDeadLetter fresh of reason) rfl h

theorem recordCard_handsOver {ids : CompletionIds} {batchRow : Uuid} {result : BatchResult}
    {record : CardRecord} (h : recordCard ids taskId batchRow result db record = .ok db') :
    HandsOver db db' := by
  obtain ⟨cardRow, cards, -, ⟨-, rfl⟩ | ⟨eventId, hnew, rfl⟩⟩ := recordCard_cases h
  · exact handsOver_of_tasks rfl fun _ event he ↦ ⟨event, he, rfl, id⟩
  · refine handsOver_of_tasks rfl fun e event he ↦ ⟨event, ?_, rfl, id⟩
    exact AList.lookup_insert_of_lookup he hnew

theorem completeS3Batch_handsOver {ids : CompletionIds} {now : Timestamp} {result : BatchResult}
    (h : completeS3Batch ids now taskId result db = .ok db') : HandsOver db db' := by
  rcases completeS3Batch_cases h with ⟨-, rfl⟩ | ⟨task, batchRow, batches, db₁, -, -, hloop, rfl⟩
  · exact .refl _
  have hrecorded : HandsOver { db with batches } db₁ :=
    Tx.foldlM_relates HandsOver.refl HandsOver.trans recordCard_handsOver hloop
  have hbatch : HandsOver db { db with batches } :=
    handsOver_of_tasks rfl fun _ event he ↦ ⟨event, he, rfl, id⟩
  refine (hbatch.trans hrecorded).trans (handsOver_updateTask (fun t _ hstate ↦ ?_)
    fun t _ hstate ↦ ?_)
  all_goals
    unfold AnalysisTask.completedWith at hstate
    split at hstate
  · cases hstate
  · exact hstate
  · cases hstate
  · rename_i hnot
    exact absurd hstate hnot

/-- What the executor calls keeps a task in the state it has, or completes it. -/
theorem WorkerCall.exec_handsOver {c : WorkerCall} (hc : c.executes)
    (h : c.exec taskId db = .ok db') : HandsOver db db' := by
  cases c with
  | setTaskPhase phase =>
      rw [← Except.ok.inj h]
      refine handsOver_updateTask (fun t _ hstate ↦ ?_) fun t _ hstate ↦ Or.inl ?_
      all_goals
        split at hstate
      · exact hstate
      · exact hstate
      · rename_i hprocessing
        exact ⟨hprocessing, by rw [if_pos hprocessing]⟩
      · rename_i hnot
        exact absurd hstate hnot
  | resolveSourceSha256 sha =>
      obtain ⟨out, hout, rfl⟩ := Except.map_eq_ok.mp h
      rcases resolveSourceSha256_cases hout with hsame | ⟨task, htask, hprocessing, hout⟩
      · rw [hsame]
        exact .refl db
      · rw [hout]
        refine handsOver_updateTask (fun t ht hstate ↦ ?_) fun t ht _ ↦ Or.inl ?_
        all_goals obtain rfl := Option.some.inj (htask.symm.trans ht)
        · exact hstate
        · exact ⟨hprocessing, rfl⟩
  | completeS3Batch ids now result => exact completeS3Batch_handsOver h
  | settleTask now state reason => cases hc
  | scheduleRetry now reason maxRetries => cases hc

/-! ## What a publisher hands over -/

theorem handsOver_updateOutbox {eventId : Uuid} {f : KnowledgeEvent → KnowledgeEvent}
    (hpayload : ∀ e, (f e).payload = e.payload)
    (hopen : ∀ e, e.publishedAt = none → (f e).publishedAt = none) :
    HandsOver db { db with outbox := db.outbox.update eventId f } := by
  refine handsOver_of_tasks rfl fun e event he ↦ ?_
  by_cases hsame : e = eventId
  · subst hsame
    exact ⟨f event, (AList.lookup_update_self _ _ _).trans (congrArg _ he), hpayload event,
      hopen event⟩
  · exact ⟨event, (AList.lookup_update_of_ne hsame _ _).trans he, rfl, id⟩

theorem claimOutboxEvents_handsOver {now : Timestamp} {picked : List Uuid} :
    HandsOver db (claimOutboxEvents now picked db).2 := by
  refine handsOver_of_tasks rfl fun e event he ↦ ?_
  refine ⟨_, (AList.lookup_updateWhere _ _ _ _).trans (congrArg _ he), ?_, fun hopen ↦ ?_⟩
  · dsimp only
    split <;> rfl
  · dsimp only
    split <;> exact hopen

/-- What a publisher has claimed is in the outbox. -/
theorem lookup_of_mem_claimed {now : Timestamp} {picked : List Uuid} {e : Uuid}
    {event : KnowledgeEvent} (h : (e, event) ∈ (claimOutboxEvents now picked db).1) :
    db.outbox.lookup e = some event := by
  obtain ⟨id, -, hid⟩ := List.mem_filterMap.mp h
  obtain ⟨found, hfound, heq⟩ := Option.map_eq_some_iff.mp hid
  obtain ⟨rfl, rfl⟩ := Prod.mk.inj heq
  exact (Option.filter_eq_some_iff.mp hfound).1

theorem releaseOutboxEvent_handsOver {eventId : Uuid} :
    HandsOver db (releaseOutboxEvent eventId db) := by
  refine handsOver_updateOutbox (fun e ↦ ?_) fun e hopen ↦ ?_
  · split <;> rfl
  · rw [if_pos (by rw [hopen]; rfl)]
    exact hopen

end S3mp.Knowledge
