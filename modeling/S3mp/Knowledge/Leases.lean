import S3mp.Knowledge.TaskStore
import S3mp.Transition.Run

/-!
# Leases of analysis tasks

A worker claims a task and calls the store on its behalf.  When its lease runs out the task is
recovered and may be claimed again, and then the first worker may still call.  The store does
not look at the lease token, so a late call is without effect only when it finds nothing to do.
-/

namespace S3mp.Knowledge

open Relational Transition

/-! ## Calls -/

/-- What a worker does to the task it has claimed. -/
inductive WorkerCall where
  | setTaskPhase (phase : String)
  | resolveSourceSha256 (sourceSha256 : String)
  | completeS3Batch (ids : CompletionIds) (now : Timestamp) (result : BatchResult)
  | settleTask (now : Timestamp) (state : TaskState) (reason : Option String)
  | scheduleRetry (now : Timestamp) (reason : String) (maxRetries : ℕ)

def WorkerCall.exec (taskId : Uuid) (db : KnowledgeDb) : WorkerCall → Tx KnowledgeDb
  | .setTaskPhase phase => .ok (Knowledge.setTaskPhase taskId phase db)
  | .resolveSourceSha256 sha => Prod.snd <$> Knowledge.resolveSourceSha256 taskId sha db
  | .completeS3Batch ids now result => Knowledge.completeS3Batch ids now taskId result db
  | .settleTask now state reason => Knowledge.settleTask now taskId state reason db
  | .scheduleRetry now reason maxRetries =>
      .ok (Knowledge.scheduleRetry now taskId reason maxRetries db).2

/-- What others than the worker of a task do to the rows. -/
inductive TaskCmd where
  | enqueueKnowledgeTask (taskId eventId : Uuid) (now : Timestamp) (extractionEnabled : Bool)
      (contract : Contract) (source : CommittedSource) (rules : List String)
  | recoverStaleProcessing (now : Timestamp) (maxRetries : ℕ) (eventId : Uuid → Uuid)
      (picked : List Uuid)
  | recordDeadLetter (fresh : Uuid) (taskId : Option Uuid) (reason : String)
  | replayDeadLetter (eventId taskId : Uuid)
  | claimOutboxEvents (now : Timestamp) (picked : List Uuid)
  | markOutboxPublished (now : Timestamp) (eventId : Uuid)
  | releaseOutboxEvent (eventId : Uuid)
  | setCardIndexState (cardRow : Uuid) (state : String)

def TaskCmd.exec (db : KnowledgeDb) : TaskCmd → Tx KnowledgeDb
  | .enqueueKnowledgeTask taskId eventId now enabled contract source rules =>
      Knowledge.enqueueKnowledgeTask taskId eventId now enabled contract source rules db
  | .recoverStaleProcessing now maxRetries eventId picked =>
      Knowledge.recoverStaleProcessing now maxRetries eventId picked db
  | .recordDeadLetter fresh taskId reason => Knowledge.recordDeadLetter fresh taskId reason db
  | .replayDeadLetter eventId taskId => Prod.snd <$> Knowledge.replayDeadLetter eventId taskId db
  | .claimOutboxEvents now picked => .ok (Knowledge.claimOutboxEvents now picked db).2
  | .markOutboxPublished now eventId => .ok (Knowledge.markOutboxPublished now eventId db)
  | .releaseOutboxEvent eventId => .ok (Knowledge.releaseOutboxEvent eventId db)
  | .setCardIndexState cardRow state => .ok (Knowledge.setCardIndexState cardRow state db)

/-! ## Workers -/

/-- The tasks of the claims, in their order; a worker is the number of its claim. -/
structure LeaseWorld where
  db : KnowledgeDb
  claims : List Uuid

inductive LeaseCmd where
  | claimTask (token : Uuid) (now : Timestamp) (taskId : Uuid)
  | call (worker : ℕ) (c : WorkerCall)
  | other (c : TaskCmd)

namespace LeaseWorld

def exec : LeaseCmd → LeaseWorld → Tx LeaseWorld
  | .claimTask token now taskId, w =>
    match Knowledge.claimTask token now taskId w.db with
    | (none, db) => .ok { w with db }
    | (some _, db) => .ok ⟨db, w.claims ++ [taskId]⟩
  | .call worker c, w =>
    match w.claims[worker]? with
    | none => .error (.value "no such worker")
    | some taskId => (c.exec taskId w.db).map fun db ↦ { w with db }
  | .other c, w => (c.exec w.db).map fun db ↦ { w with db }

/-- The worker's task has been claimed again. -/
def Superseded (w : LeaseWorld) (worker : ℕ) : Prop :=
  ∃ taskId ∈ w.claims.drop (worker + 1), w.claims[worker]? = some taskId

end LeaseWorld

/-- The rows of the batch and of its cards are there, and the events of the cards. -/
def Recorded (taskId : Uuid) (result : BatchResult) (db : KnowledgeDb) : Prop :=
  ∃ batch, findBatch result.batchId db = some batch ∧ ∀ record ∈ result.cards,
    ∃ card, findCard batch.1 record.id db = some card ∧ hasIndexEvent taskId card.1 db

/-- There is nothing for the call to do, in the state in which the task is. -/
def FindsNothing (taskId : Uuid) (db : KnowledgeDb) : WorkerCall → Prop
  | .setTaskPhase phase => ∀ task, db.tasks.lookup taskId = some task →
      task.state = .processing → task.phase = phase
  | .resolveSourceSha256 _ => ∀ task, db.tasks.lookup taskId = some task →
      task.state = .processing → task.sourceSha256 ≠ none
  | .completeS3Batch _ _ result => ∀ task, db.tasks.lookup taskId = some task →
      task.state ≠ .processing ∧ Recorded taskId result db
  | .settleTask _ state _ => ∀ task, db.tasks.lookup taskId = some task →
      state ∉ task.state.transitions
  | .scheduleRetry .. => ∀ task, db.tasks.lookup taskId = some task → task.state ≠ .processing

/-- The call of a worker which has lost its task finds nothing to do. -/
def LeaseWorld.Fenced (w : LeaseWorld) : LeaseCmd → Prop
  | .call worker c => w.Superseded worker → ∀ taskId, w.claims[worker]? = some taskId →
      FindsNothing taskId w.db c
  | _ => True

/-! ## Calls without effect -/

variable {db db' : KnowledgeDb} {taskId : Uuid}

theorem KnowledgeDb.updateTask_eq_self {f : AnalysisTask → AnalysisTask}
    (h : ∀ task, db.tasks.lookup taskId = some task → f task = task) :
    db.updateTask taskId f = db := by
  have htasks : db.tasks.update taskId f = db.tasks := by
    refine AList.updateWhere_eq_self fun id task hid hp ↦ ?_
    obtain rfl := of_decide_eq_true hp
    exact h task hid
  unfold KnowledgeDb.updateTask
  rw [htasks]

theorem setTaskPhase_eq_self {phase : String} (h : ∀ task, db.tasks.lookup taskId = some task →
    task.state = .processing → task.phase = phase) : setTaskPhase taskId phase db = db := by
  refine KnowledgeDb.updateTask_eq_self fun task htask ↦ ?_
  split
  · rename_i hprocessing
    rw [← h task htask hprocessing]
  · rfl

theorem resolveSourceSha256_eq_self {sha : String} {out : Bool × KnowledgeDb}
    (h : ∀ task, db.tasks.lookup taskId = some task → task.state = .processing →
      task.sourceSha256 ≠ none)
    (hok : resolveSourceSha256 taskId sha db = .ok out) : out.2 = db := by
  unfold resolveSourceSha256 at hok
  split at hok
  · rw [← Except.ok.inj hok]
  · rename_i task htask
    split at hok
    · rw [← Except.ok.inj hok]
    · rename_i hprocessing
      split at hok
      · cases hok
      · rename_i hsame
        rw [← Except.ok.inj hok]
        refine KnowledgeDb.updateTask_eq_self fun task' htask' ↦ ?_
        obtain rfl := Option.some.inj (htask.symm.trans htask')
        obtain ⟨sha', hsha'⟩ := Option.ne_none_iff_exists'.mp
          (h task htask (Decidable.not_not.mp hprocessing))
        have hsha : sha' = sha := by simpa [hsha'] using hsame
        rw [← hsha, ← hsha']

theorem recordCard_eq_self {ids : CompletionIds} {batchRow : Uuid} {result : BatchResult}
    {record : CardRecord} {card : Uuid × Card} (hcard : findCard batchRow record.id db = some card)
    (hevent : hasIndexEvent taskId card.1 db) :
    recordCard ids taskId batchRow result db record = .ok db := by
  have hobtain : obtainCard (ids.card record.id) batchRow record db = .ok (card.1, db) := by
    simp only [obtainCard, hcard]
  rw [recordCard, hobtain]
  exact if_pos hevent

theorem completeS3Batch_eq_self {ids : CompletionIds} {now : Timestamp} {result : BatchResult}
    (h : ∀ task, db.tasks.lookup taskId = some task →
      task.state ≠ .processing ∧ Recorded taskId result db)
    (hok : completeS3Batch ids now taskId result db = .ok db') : db' = db := by
  unfold completeS3Batch at hok
  split at hok
  · exact (Except.ok.inj hok).symm
  · rename_i task htask
    obtain ⟨hstate, batch, hbatch, hcards⟩ := h task htask
    have hobtain : obtainBatch ids.batch taskId result db = .ok (batch.1, db) := by
      simp only [obtainBatch, hbatch]
    rw [hobtain] at hok
    obtain ⟨_, hfound, hok⟩ := Except.bind_eq_ok.mp hok
    obtain rfl := Except.ok.inj hfound
    obtain ⟨db₁, hloop, hwritten⟩ := Except.bind_eq_ok.mp hok
    have hsame : db₁ = db := by
      refine Tx.foldlM_unchanged (fun record hrecord db₂ hturn ↦ ?_) hloop
      obtain ⟨card, hcard, hevent⟩ := hcards record hrecord
      exact (Except.ok.inj ((recordCard_eq_self hcard hevent).symm.trans hturn)).symm
    rw [← Except.pure_eq_ok.mp hwritten, hsame]
    refine KnowledgeDb.updateTask_eq_self fun task' htask' ↦ ?_
    obtain rfl := Option.some.inj (htask.symm.trans htask')
    exact if_neg hstate

theorem settleTask_eq_self {now : Timestamp} {state : TaskState} {reason : Option String}
    (h : ∀ task, db.tasks.lookup taskId = some task → state ∉ task.state.transitions)
    (hok : settleTask now taskId state reason db = .ok db') : db' = db := by
  unfold settleTask at hok
  split at hok
  · exact (Except.ok.inj hok).symm
  · rename_i task htask
    split at hok
    · exact (Except.ok.inj hok).symm
    · obtain ⟨u, hallowed, -⟩ := Except.bind_eq_ok.mp hok
      exact absurd (assertTransition_eq_ok.mp hallowed) (h task htask)

theorem scheduleRetry_eq_self {now : Timestamp} {reason : String} {maxRetries : ℕ}
    (h : ∀ task, db.tasks.lookup taskId = some task → task.state ≠ .processing) :
    scheduleRetry now taskId reason maxRetries db = (none, db) := by
  unfold scheduleRetry
  split
  · rfl
  · rename_i task htask
    exact if_pos (h task htask)

theorem WorkerCall.exec_eq_self {c : WorkerCall} (h : FindsNothing taskId db c)
    (hok : c.exec taskId db = .ok db') : db' = db := by
  cases c with
  | setTaskPhase phase => exact (Except.ok.inj hok).symm.trans (setTaskPhase_eq_self h)
  | resolveSourceSha256 sha =>
      obtain ⟨out, hout, rfl⟩ := Except.map_eq_ok.mp hok
      exact resolveSourceSha256_eq_self h hout
  | completeS3Batch ids now result => exact completeS3Batch_eq_self h hok
  | settleTask now state reason => exact settleTask_eq_self h hok
  | scheduleRetry now reason maxRetries =>
      rw [← Except.ok.inj hok, scheduleRetry_eq_self h]

namespace LeaseWorld

variable {w : LeaseWorld}

theorem advance_superseded {worker : ℕ} {c : WorkerCall} (hc : Fenced w (.call worker c))
    (hstale : w.Superseded worker) : (advance exec w (.call worker c)).db = w.db := by
  cases hok : exec (.call worker c) w with
  | error e => rw [advance_of_error hok]
  | ok w' =>
      rw [advance_of_ok hok]
      simp only [exec] at hok
      split at hok
      · cases hok
      · rename_i taskId htask
        obtain ⟨db, hdb, rfl⟩ := Except.map_eq_ok.mp hok
        exact WorkerCall.exec_eq_self (hc hstale taskId htask) hdb

/-- In an interleaving in which the late calls find nothing to do, a worker whose task has
been claimed again changes nothing. -/
theorem superseded_calls_change_nothing {cs : List LeaseCmd} (hmeets : Meets exec Fenced w cs)
    (pre post : List LeaseCmd) {worker : ℕ} {c : WorkerCall}
    (heq : cs = pre ++ .call worker c :: post) (hstale : (run exec w pre).Superseded worker) :
    (run exec w (pre ++ [.call worker c])).db = (run exec w pre).db := by
  subst heq
  obtain ⟨-, hc, -⟩ := (meets_append exec).mp hmeets
  rw [run_append]
  exact advance_superseded hc hstale

end LeaseWorld

namespace Sample

open LeaseWorld

def emptyDb : KnowledgeDb := ⟨∅, ∅, ∅, ∅, ∅⟩

def contract : Contract := ⟨"1", "c0"⟩

def source : CommittedSource :=
  ⟨7, some 5, 2, none, "reports/a.pdf", some "application/pdf", none⟩

/-- The task 1 of the file 7. -/
def enqueued : TaskCmd := .enqueueKnowledgeTask 1 1 0 true contract source []

def noWork : LeaseWorld := ⟨emptyDb, []⟩

/-- The lease of the first worker runs out, and the task is claimed again. -/
def reclaimed : List LeaseCmd :=
  [.other enqueued, .claimTask 11 0 1, .other (.recoverStaleProcessing (seconds 1801) 3 (· + 1) [1]),
    .claimTask 12 (seconds 1802) 1]

/-- The second worker is done before the first wants to retry. -/
def lateRetry : List LeaseCmd :=
  reclaimed ++ [.call 1 (.settleTask (seconds 1803) .skipped (some "duplicate_content")),
    .call 0 (.scheduleRetry (seconds 1804) "processing_failed" 3)]

def noCards : BatchResult :=
  ⟨"batch-1", "tenants/1/knowledge-card-output/batch-1",
    "tenants/1/knowledge-card-output/batch-1/_batch/completion-manifest.json", []⟩

def drawn : CompletionIds := ⟨30, fun _ ↦ 40, fun _ ↦ 50⟩

theorem superseded_reclaimed : (run LeaseWorld.exec noWork reclaimed).Superseded 0 :=
  ⟨1, by decide, by decide⟩

theorem superseded_lateRetry :
    (run LeaseWorld.exec noWork (lateRetry.take 5)).Superseded 0 :=
  ⟨1, by decide, by decide⟩

theorem fenced_lateRetry : Meets LeaseWorld.exec Fenced noWork lateRetry := by
  refine ⟨trivial, trivial, trivial, trivial, fun hstale ↦ ?_, fun _ taskId htask task hlookup ↦ ?_,
    trivial⟩
  · obtain ⟨taskId, hlater, -⟩ := hstale
    have hlast : (run LeaseWorld.exec noWork reclaimed).claims.drop 2 = [] := by decide
    change taskId ∈ (run LeaseWorld.exec noWork reclaimed).claims.drop 2 at hlater
    rw [hlast] at hlater
    cases hlater
  · have hclaim : (run LeaseWorld.exec noWork (lateRetry.take 5)).claims[0]? = some 1 := by decide
    obtain rfl := Option.some.inj (hclaim.symm.trans htask)
    have hstate : ((run LeaseWorld.exec noWork (lateRetry.take 5)).db.tasks.lookup 1).map
        (·.state) = some .skipped := by decide
    change (run LeaseWorld.exec noWork (lateRetry.take 5)).db.tasks.lookup 1 = some task at hlookup
    rw [hlookup] at hstate
    have hskipped : task.state = .skipped := Option.some.inj hstate
    rw [hskipped]
    decide

end Sample

theorem superseded_calls_change_nothing_sample :
    (run LeaseWorld.exec Sample.noWork Sample.lateRetry).db =
      (run LeaseWorld.exec Sample.noWork (Sample.lateRetry.take 5)).db :=
  LeaseWorld.superseded_calls_change_nothing Sample.fenced_lateRetry (Sample.lateRetry.take 5) []
    rfl Sample.superseded_lateRetry

/-- A worker which has lost its lease completes the task. -/
theorem late_completion_counts :
    ¬ ∀ (w : LeaseWorld) (pre : List LeaseCmd) (worker : ℕ) (c : WorkerCall),
      (run LeaseWorld.exec w pre).Superseded worker →
        (run LeaseWorld.exec w (pre ++ [.call worker c])).db = (run LeaseWorld.exec w pre).db := by
  intro h
  have hsame := h Sample.noWork Sample.reclaimed 0
    (.completeS3Batch Sample.drawn (seconds 1803) Sample.noCards) Sample.superseded_reclaimed
  have hstates := congrArg (fun db ↦ (db.tasks.lookup 1).map AnalysisTask.state) hsame
  exact absurd hstates (by decide)

end S3mp.Knowledge
