import S3mp.Knowledge.NoTaskLost
import S3mp.Transition.Potential

/-!
# Runs of an analysis task

A task is claimed from the queue, and the claim counts an attempt.  It waits again only as long
as its attempts are below the limit, in the receiver as in the recovery, and only the operator
takes the attempts back.
-/

namespace S3mp.Knowledge

open Relational Messaging Transition

/-! ## Rows -/

/-- What one transaction does to the row of a task. -/
inductive RowMoves (maxRetries : ℕ) (replay : Prop) :
    Option AnalysisTask → Option AnalysisTask → Prop where
  | absent : RowMoves maxRetries replay none none
  | created {task' : AnalysisTask} (hattempts : task'.attemptCount = 0) :
      RowMoves maxRetries replay none (some task')
  | stays {task task' : AnalysisTask} (hstate : task'.state = task.state)
      (hattempts : task'.attemptCount = task.attemptCount) :
      RowMoves maxRetries replay (some task) (some task')
  | claimed {task task' : AnalysisTask} (hqueued : task.state = .queued)
      (hstate : task'.state = .processing)
      (hattempts : task'.attemptCount = task.attemptCount + 1) :
      RowMoves maxRetries replay (some task) (some task')
  | ended {task task' : AnalysisTask} (hallowed : task'.state ∈ task.state.transitions)
      (hterminal : task'.state.terminal) (hattempts : task'.attemptCount = task.attemptCount) :
      RowMoves maxRetries replay (some task) (some task')
  | requeued {task task' : AnalysisTask} (hprocessing : task.state = .processing)
      (hstate : task'.state = .queued) (hattempts : task'.attemptCount = task.attemptCount)
      (hleft : task.attemptCount < maxRetries) :
      RowMoves maxRetries replay (some task) (some task')
  | replayed {task task' : AnalysisTask} (hreplays : replay)
      (hstate : task'.state = .queued) (hattempts : task'.attemptCount = 0) :
      RowMoves maxRetries replay (some task) (some task')

variable {maxRetries : ℕ} {replay : Prop} {row row' : Option AnalysisTask} {taskId id : Uuid}
  {db db' : KnowledgeDb}

theorem RowMoves.same (row : Option AnalysisTask) : RowMoves maxRetries replay row row := by
  cases row with
  | none => exact .absent
  | some task => exact .stays rfl rfl

/-- The row keeps within the limit; a task which waits may be claimed once more. -/
def WithinLimit (maxRetries : ℕ) (row : Option AnalysisTask) : Prop :=
  ∀ task, row = some task → task.attemptCount ≤ max 1 maxRetries ∧
    (task.state = .queued → task.attemptCount < max 1 maxRetries)

theorem withinLimit_new (h : ∀ task, row = some task → task.attemptCount = 0) :
    WithinLimit maxRetries row := by
  intro task htask
  rw [h task htask]
  exact ⟨Nat.zero_le _, fun _ ↦ by omega⟩

/-- The claims that may follow. -/
def claimsLeft (maxRetries : ℕ) (row : Option AnalysisTask) : ℤ :=
  (max 1 maxRetries : ℕ) - (row.elim 0 AnalysisTask.attemptCount : ℕ)

theorem claimsLeft_le (maxRetries : ℕ) (row : Option AnalysisTask) :
    claimsLeft maxRetries row ≤ (max 1 maxRetries : ℕ) :=
  sub_le_self _ (Nat.cast_nonneg _)

theorem claimsLeft_nonneg (h : WithinLimit maxRetries row) : 0 ≤ claimsLeft maxRetries row := by
  unfold claimsLeft
  cases row with
  | none => simp
  | some task =>
      have hattempts := (h task rfl).1
      simp only [Option.elim_some]
      omega

theorem RowMoves.withinLimit (h : RowMoves maxRetries replay row row')
    (hrow : WithinLimit maxRetries row) : WithinLimit maxRetries row' := by
  intro task' htask'
  cases h with
  | absent => cases htask'
  | created hattempts =>
      obtain rfl := Option.some.inj htask'
      rw [hattempts]
      exact ⟨Nat.zero_le _, fun _ ↦ by omega⟩
  | stays hstate hattempts =>
      obtain rfl := Option.some.inj htask'
      rw [hstate, hattempts]
      exact hrow _ rfl
  | claimed hqueued hstate hattempts =>
      obtain rfl := Option.some.inj htask'
      have hleft := (hrow _ rfl).2 hqueued
      refine ⟨by omega, fun hwaits ↦ ?_⟩
      rw [hstate] at hwaits
      cases hwaits
  | ended hallowed hterminal hattempts =>
      obtain rfl := Option.some.inj htask'
      refine ⟨hattempts ▸ (hrow _ rfl).1, fun hwaits ↦ ?_⟩
      rw [hwaits] at hterminal
      cases hterminal
  | requeued hprocessing hstate hattempts hleft =>
      obtain rfl := Option.some.inj htask'
      exact ⟨by omega, fun _ ↦ by omega⟩
  | replayed hreplays hstate hattempts =>
      obtain rfl := Option.some.inj htask'
      exact ⟨by omega, fun _ ↦ by omega⟩

/-- Only the operator gives a task new attempts. -/
theorem RowMoves.claimsLeft_le (h : RowMoves maxRetries replay row row') (hreplays : ¬ replay) :
    claimsLeft maxRetries row' ≤ claimsLeft maxRetries row := by
  unfold claimsLeft
  cases h with
  | absent => exact le_rfl
  | created hattempts => simp [hattempts]
  | stays hstate hattempts => simp [hattempts]
  | claimed hqueued hstate hattempts =>
      simp only [Option.elim_some]
      omega
  | ended hallowed hterminal hattempts => simp [hattempts]
  | requeued hprocessing hstate hattempts hleft => simp [hattempts]
  | replayed hreplayed hstate hattempts => exact absurd hreplayed hreplays

/-- Every change of the state is an edge of the table, or a replay. -/
theorem RowMoves.follows {task : AnalysisTask} (h : RowMoves maxRetries replay (some task) row') :
    ∃ task', row' = some task' ∧ (task'.state = task.state ∨
      task'.state ∈ task.state.transitions ∨ (replay ∧ task'.state = .queued)) := by
  cases h with
  | stays hstate hattempts => exact ⟨_, rfl, Or.inl hstate⟩
  | claimed hqueued hstate hattempts =>
      refine ⟨_, rfl, Or.inr (Or.inl ?_)⟩
      rw [hqueued, hstate]
      decide
  | ended hallowed hterminal hattempts => exact ⟨_, rfl, Or.inr (Or.inl hallowed)⟩
  | requeued hprocessing hstate hattempts hleft =>
      refine ⟨_, rfl, Or.inr (Or.inl ?_)⟩
      rw [hprocessing, hstate]
      decide
  | replayed hreplays hstate hattempts => exact ⟨_, rfl, Or.inr (Or.inr ⟨hreplays, hstate⟩)⟩

/-! ## Transactions -/

theorem rowMoves_of_tasks (h : db'.tasks = db.tasks) :
    RowMoves maxRetries replay (db.tasks.lookup taskId) (db'.tasks.lookup taskId) := by
  rw [h]
  exact .same _

/-- A transaction on one task leaves the others alone. -/
theorem rowMoves_updateTask {f : AnalysisTask → AnalysisTask}
    (h : ∀ task, id = taskId → db.tasks.lookup id = some task →
      RowMoves maxRetries replay (some task) (some (f task))) :
    RowMoves maxRetries replay (db.tasks.lookup taskId)
      ((db.updateTask id f).tasks.lookup taskId) := by
  rw [KnowledgeDb.lookup_updateTask]
  split
  · rename_i hid
    subst hid
    cases htask : db.tasks.lookup taskId with
    | none => exact .absent
    | some task => exact h task rfl htask
  · exact .same _

theorem claimTask_moves {token : Uuid} {now : Timestamp} {out : Option AnalysisTask}
    (h : claimTask token now id db = (out, db')) :
    RowMoves maxRetries replay (db.tasks.lookup taskId) (db'.tasks.lookup taskId) := by
  rcases claimTask_cases h with ⟨-, rfl, -⟩ | ⟨task, htask, hqueued, -, rfl⟩
  · exact .same _
  · refine rowMoves_updateTask fun task' _ htask' ↦ ?_
    obtain rfl := Option.some.inj (htask.symm.trans htask')
    exact .claimed hqueued rfl rfl

theorem settleTask_moves {now : Timestamp} {state : TaskState} {reason : Option String}
    (hterminal : state.terminal) (h : settleTask now id state reason db = .ok db') :
    RowMoves maxRetries replay (db.tasks.lookup taskId) (db'.tasks.lookup taskId) := by
  rcases settleTask_cases h with ⟨rfl, -⟩ | ⟨task, htask, -, hallowed, rfl⟩
  · exact .same _
  · refine rowMoves_updateTask fun task' _ htask' ↦ ?_
    obtain rfl := Option.some.inj (htask.symm.trans htask')
    exact .ended hallowed hterminal rfl

theorem scheduleRetry_moves {now : Timestamp} {reason : String} {out : Option AnalysisTask}
    (h : scheduleRetry now id reason maxRetries db = (out, db')) :
    RowMoves maxRetries replay (db.tasks.lookup taskId) (db'.tasks.lookup taskId) := by
  rcases scheduleRetry_cases h with ⟨-, rfl, -⟩ |
    ⟨task, htask, hprocessing, ⟨-, -, rfl⟩ | ⟨hleft, -, rfl⟩⟩
  · exact .same _
  all_goals
    refine rowMoves_updateTask fun task' _ htask' ↦ ?_
    obtain rfl := Option.some.inj (htask.symm.trans htask')
  · refine .ended ?_ rfl rfl
    rw [hprocessing]
    exact (by decide : TaskState.deadLettered ∈ TaskState.processing.transitions)
  · exact .requeued hprocessing rfl rfl hleft

/-- What the recovery does to a row: nothing, or once what it does to a stale task. -/
def Recovered (maxRetries : ℕ) (row row' : Option AnalysisTask) : Prop :=
  row' = row ∨ ∃ task task', row = some task ∧ row' = some task' ∧ task.state = .processing ∧
    task'.attemptCount = task.attemptCount ∧
    (task'.state = .deadLettered ∨ task'.state = .queued ∧ task.attemptCount < maxRetries)

theorem Recovered.trans {row'' : Option AnalysisTask} (h : Recovered maxRetries row row')
    (h' : Recovered maxRetries row' row'') : Recovered maxRetries row row'' := by
  rcases h with rfl | ⟨task, task', hrow, hrow', hprocessing, hattempts, hends⟩
  · exact h'
  rcases h' with rfl | ⟨again, -, hagain, -, hrunning, -⟩
  · exact Or.inr ⟨task, task', hrow, hrow', hprocessing, hattempts, hends⟩
  · obtain rfl := Option.some.inj (hrow'.symm.trans hagain)
    rcases hends with hdead | ⟨hwaits, -⟩
    · cases hdead.symm.trans hrunning
    · cases hwaits.symm.trans hrunning

theorem Recovered.moves (h : Recovered maxRetries row row') :
    RowMoves maxRetries replay row row' := by
  rcases h with rfl | ⟨task, task', rfl, rfl, hprocessing, hattempts, hdead | ⟨hwaits, hleft⟩⟩
  · exact .same _
  · refine .ended ?_ (by rw [hdead]; rfl) hattempts
    rw [hdead, hprocessing]
    decide
  · exact .requeued hprocessing hwaits hattempts hleft

theorem recoverTask_recovered {now : Timestamp} {eventId : Uuid → Uuid}
    (h : recoverTask now maxRetries eventId db id = .ok db') :
    Recovered maxRetries (db.tasks.lookup taskId) (db'.tasks.lookup taskId) := by
  rcases recoverTask_cases h with rfl | ⟨task, htask, hstale, hdb⟩
  · exact Or.inl rfl
  by_cases hid : taskId = id
  · subst hid
    have hprocessing := AnalysisTask.stale_processing hstale
    rcases hdb with rfl | ⟨hleft, -, rfl⟩
    · refine Or.inr ⟨task, task.released.exhausted now "processing_timeout", htask, ?_,
        hprocessing, rfl, Or.inl rfl⟩
      rw [KnowledgeDb.lookup_updateTask, if_pos rfl, htask]
      rfl
    · refine Or.inr ⟨task, task.released.requeued "processing_timeout", htask, ?_,
        hprocessing, rfl, Or.inr ⟨rfl, hleft⟩⟩
      change (db.updateTask taskId _).tasks.lookup taskId = _
      rw [KnowledgeDb.lookup_updateTask, if_pos rfl, htask]
      rfl
  · refine Or.inl ?_
    rcases hdb with rfl | ⟨-, -, rfl⟩
    · exact AList.lookup_update_of_ne hid _ _
    · exact AList.lookup_update_of_ne hid _ _

theorem completeS3Batch_moves {ids : CompletionIds} {now : Timestamp} {result : BatchResult}
    (h : completeS3Batch ids now id result db = .ok db') :
    RowMoves maxRetries replay (db.tasks.lookup taskId) (db'.tasks.lookup taskId) := by
  rcases completeS3Batch_cases h with ⟨-, rfl⟩ | ⟨task, batchRow, batches, db₁, -, -, hloop, rfl⟩
  · exact .same _
  have hsame := recordCards_tasks hloop
  change db₁.tasks = db.tasks at hsame
  rw [← hsame]
  refine rowMoves_updateTask fun task _ _ ↦ ?_
  unfold AnalysisTask.completedWith
  split
  · rename_i hprocessing
    refine .ended ?_ rfl rfl
    rw [hprocessing]
    exact (by decide : TaskState.completed ∈ TaskState.processing.transitions)
  · exact .same _

/-! ## The store -/

/-- The operator replays the task. -/
def TaskCmd.replays (taskId : Uuid) (db : KnowledgeDb) : TaskCmd → Bool
  | .replayDeadLetter _ id =>
      id = taskId && (db.tasks.lookup taskId).any (·.state = .deadLettered)
  | _ => false

/-- The recovery has the limit of the receivers, or a lower one. -/
def TaskCmd.RecoversAtMost (maxRetries : ℕ) : TaskCmd → Prop
  | .recoverStaleProcessing _ limit _ _ => limit ≤ maxRetries
  | _ => True

theorem replayDeadLetter_moves {eventId : Uuid} {out : Bool × KnowledgeDb}
    (h : replayDeadLetter eventId id db = .ok out) :
    RowMoves maxRetries ((TaskCmd.replayDeadLetter eventId id).replays taskId db)
      (db.tasks.lookup taskId) (out.2.tasks.lookup taskId) := by
  rcases replayDeadLetter_cases h with hsame | ⟨task, htask, hdead, -, hout⟩
  · rw [hsame]
    exact .same _
  · rw [hout]
    refine rowMoves_updateTask fun task' hid _ ↦ ?_
    subst hid
    exact .replayed (by simp [TaskCmd.replays, htask, hdead]) rfl rfl

theorem TaskCmd.exec_moves {c : TaskCmd} (hrecovers : c.RecoversAtMost maxRetries)
    (h : c.exec db = .ok db') :
    RowMoves maxRetries (c.replays taskId db) (db.tasks.lookup taskId)
      (db'.tasks.lookup taskId) := by
  cases c with
  | enqueueKnowledgeTask id eventId now enabled contract source rules =>
      have hinserted : ∀ {task : AnalysisTask} {replay : Prop}, id ∉ db.tasks →
          task.attemptCount = 0 → RowMoves maxRetries replay (db.tasks.lookup taskId)
            ((db.tasks.insert id task).lookup taskId) := by
        intro task replay hfresh hattempts
        rw [AList.lookup_insert']
        split
        · rename_i hid
          subst hid
          rw [AList.lookup_eq_none.mpr hfresh]
          exact .created hattempts
        · exact .same _
      rcases enqueueKnowledgeTask_cases h with rfl |
        ⟨task, hfresh, hattempts, ⟨-, rfl⟩ | ⟨-, -, rfl⟩⟩
      · exact .same _
      · exact hinserted hfresh hattempts
      · exact hinserted hfresh hattempts
  | recoverStaleProcessing now limit eventId picked =>
      have hrecovered : Recovered limit (db.tasks.lookup taskId) (db'.tasks.lookup taskId) :=
        Tx.foldlM_relates
          (R := fun db db' ↦ Recovered limit (db.tasks.lookup taskId) (db'.tasks.lookup taskId))
          (fun _ ↦ Or.inl rfl) Recovered.trans recoverTask_recovered h
      refine Recovered.moves (hrecovered.imp id ?_)
      rintro ⟨task, task', hrow, hrow', hprocessing, hattempts, hends⟩
      have hlimit : limit ≤ maxRetries := hrecovers
      exact ⟨task, task', hrow, hrow', hprocessing, hattempts,
        hends.imp id fun hwaits ↦ ⟨hwaits.1, hwaits.2.trans_le hlimit⟩⟩
  | recordDeadLetter fresh of reason =>
      obtain ⟨deadLetters, -, h⟩ := Except.bind_eq_ok.mp h
      rw [← Except.pure_eq_ok.mp h]
      exact .same _
  | replayDeadLetter eventId id =>
      obtain ⟨out, hout, rfl⟩ := Except.map_eq_ok.mp h
      exact replayDeadLetter_moves hout
  | claimOutboxEvents | markOutboxPublished | releaseOutboxEvent | setCardIndexState =>
      rw [← Except.ok.inj h]
      exact .same _

theorem WorkerCall.exec_moves {c : WorkerCall} (hc : c.executes) (h : c.exec id db = .ok db') :
    RowMoves maxRetries replay (db.tasks.lookup taskId) (db'.tasks.lookup taskId) := by
  cases c with
  | setTaskPhase phase =>
      rw [← Except.ok.inj h]
      refine rowMoves_updateTask fun task _ _ ↦ ?_
      split
      · exact .stays rfl rfl
      · exact .same _
  | resolveSourceSha256 sha =>
      obtain ⟨out, hout, rfl⟩ := Except.map_eq_ok.mp h
      rcases resolveSourceSha256_cases hout with hsame | ⟨task, htask, -, hout⟩
      · rw [hsame]
        exact .same _
      · rw [hout]
        refine rowMoves_updateTask fun task' _ htask' ↦ ?_
        obtain rfl := Option.some.inj (htask.symm.trans htask')
        exact .stays rfl rfl
  | completeS3Batch ids now result => exact completeS3Batch_moves h
  | settleTask now state reason => cases hc
  | scheduleRetry now reason limit => cases hc

/-! ## The system -/

namespace AnalysisSystem

/-- The operator replays the task. -/
def replays (taskId : Uuid) (s : AnalysisSystem) : AnalysisCmd → Bool
  | .store c => c.replays taskId s.db
  | _ => false

/-- A handler claims the task for execution. -/
def claims (taskId : Uuid) (s : AnalysisSystem) : AnalysisCmd → Bool
  | .handle tag c => (s.broker.handlers.lookup tag).any fun h ↦
      h.stage = .received && h.body = some taskId && !c.raises &&
        (claimTask c.token c.now taskId s.db).1.isSome
  | _ => false

end AnalysisSystem

def AnalysisCmd.RecoversAtMost (maxRetries : ℕ) : AnalysisCmd → Prop
  | .store c => c.RecoversAtMost maxRetries
  | _ => True

namespace AnalysisSystem

variable {s s' : AnalysisSystem} {tag : Uuid} {h : AnalysisHandler} {choice : ReceiverChoice}
  {c : AnalysisCmd}

theorem send_db {publication : Publication} {messageId : Uuid} {body : Option Uuid}
    {place : Place Uuid} (hok : s.send publication messageId body place = .ok s') :
    s'.db = s.db := by
  rcases send_cases hok with ⟨-, rfl⟩ | ⟨-, rfl⟩ <;> rfl

theorem publish_tasks {publisher : Uuid} {now : Timestamp} {publication : Publication}
    {messageId : Uuid} (hok : s.publish publisher now publication messageId = .ok s') :
    s'.db.tasks = s.db.tasks := by
  unfold publish at hok
  split at hok
  · cases hok
  · rw [← Except.ok.inj hok]
  · dsimp only at hok
    split at hok
    · obtain ⟨s₁, hsend, hok⟩ := Except.bind_eq_ok.mp hok
      have hsame := send_db hsend
      rw [← Except.pure_eq_ok.mp hok]
      exact congrArg KnowledgeDb.tasks hsame
    · rw [← Except.pure_eq_ok.mp hok]
  · rw [← Except.ok.inj hok]
    rfl
  · rw [← Except.ok.inj hok]
    rfl

theorem settle_moves {state : TaskState} {reason : Option String} (hterminal : state.terminal)
    (hok : (match settleTask choice.now id state reason s.db with
      | .ok db => Except.ok (s.enter tag h db (.leaving .ack))
      | .error _ => Except.ok (s.onBroker (·.drop tag))) = (.ok s' : Tx AnalysisSystem)) :
    RowMoves maxRetries replay (s.db.tasks.lookup taskId) (s'.db.tasks.lookup taskId) := by
  split at hok
  · rename_i db hdb
    rw [← Except.ok.inj hok]
    exact settleTask_moves hterminal hdb
  · rw [← Except.ok.inj hok]
    exact .same _

/-- What a handler does to the tasks is what one of three transactions does. -/
theorem handleTask_moves (hok : s.handleTask maxRetries tag h id choice = .ok s') :
    RowMoves maxRetries replay (s.db.tasks.lookup taskId) (s'.db.tasks.lookup taskId) := by
  have hescapes : (Except.ok (s.onBroker (·.drop tag)) : Tx AnalysisSystem) = .ok s' →
      RowMoves maxRetries replay (s.db.tasks.lookup taskId) (s'.db.tasks.lookup taskId) := by
    intro hok
    rw [← Except.ok.inj hok]
    exact .same _
  unfold handleTask at hok
  cases hstage : h.stage with
  | received =>
      simp only [hstage] at hok
      split at hok
      · exact hescapes hok
      split at hok
      all_goals
        rename_i hclaim
        rw [← Except.ok.inj hok]
        exact claimTask_moves hclaim
  | executing =>
      simp only [hstage] at hok
      split at hok
      all_goals
        rw [← Except.ok.inj hok]
        exact .same _
  | executed status reason =>
      cases status with
      | completed =>
          simp only [hstage] at hok
          split at hok
          · exact hescapes hok
          · exact settle_moves rfl hok
      | skipped =>
          simp only [hstage] at hok
          split at hok
          · exact hescapes hok
          · exact settle_moves rfl hok
      | other =>
          simp only [hstage] at hok
          rw [← Except.ok.inj hok]
          exact .same _
  | retrying reason =>
      simp only [hstage] at hok
      split at hok
      · exact hescapes hok
      split at hok
      · rename_i hretry
        rw [← Except.ok.inj hok]
        exact scheduleRetry_moves hretry
      · rename_i hretry
        split at hok
        all_goals
          rw [← Except.ok.inj hok]
          exact scheduleRetry_moves hretry
  | deadLettering reason =>
      simp only [hstage] at hok
      split at hok
      · exact hescapes hok
      · obtain ⟨db, hdb, rfl⟩ := Except.map_eq_ok.mp hok
        obtain ⟨deadLetters, -, hdb⟩ := Except.bind_eq_ok.mp hdb
        rw [← Except.pure_eq_ok.mp hdb]
        exact .same _
  | opening attemptCount =>
      simp only [hstage] at hok
      split at hok
      all_goals
        rw [← Except.ok.inj hok]
        exact .same _
  | publishing attemptCount =>
      simp only [hstage] at hok
      obtain ⟨s₁, hsend, rfl⟩ := Except.map_eq_ok.mp hok
      have hsame := congrArg KnowledgeDb.tasks (send_db hsend)
      refine rowMoves_of_tasks ?_
      split
      · exact hsame
      · split
        all_goals exact hsame
  | leaving disposal =>
      simp only [hstage] at hok
      rw [← Except.ok.inj hok]
      exact .same _

theorem handle_moves (hok : s.handle maxRetries tag choice = .ok s') :
    RowMoves maxRetries replay (s.db.tasks.lookup taskId) (s'.db.tasks.lookup taskId) := by
  unfold handle at hok
  split at hok
  · cases hok
  split at hok
  · exact handleTask_moves hok
  · split at hok
    all_goals
      rw [← Except.ok.inj hok]
      exact .same _

theorem exec_moves (hrecovers : c.RecoversAtMost maxRetries)
    (hok : exec maxRetries c s = .ok s') :
    RowMoves maxRetries (s.replays taskId c) (s.db.tasks.lookup taskId)
      (s'.db.tasks.lookup taskId) := by
  cases c with
  | store c =>
      simp only [exec] at hok
      split at hok
      · obtain ⟨db, hdb, rfl⟩ := Except.map_eq_ok.mp hok
        exact TaskCmd.exec_moves hrecovers hdb
      · cases hok
  | claim publisher now picked =>
      simp only [exec] at hok
      split at hok
      · cases hok
      · rw [← Except.ok.inj hok]
        exact .same _
  | publish publisher now publication messageId => exact rowMoves_of_tasks (publish_tasks hok)
  | publisherCrash publisher =>
      rw [← Except.ok.inj hok]
      exact .same _
  | arrive messageId body =>
      exact rowMoves_of_tasks (congrArg KnowledgeDb.tasks (send_db hok))
  | expire messageId =>
      simp only [exec] at hok
      split at hok
      · rw [← Except.ok.inj hok]
        exact .same _
      · cases hok
  | deliver messageId tag =>
      simp only [exec] at hok
      split at hok
      · split at hok
        · cases hok
        · rw [← Except.ok.inj hok]
          exact .same _
      · cases hok
  | redeliver messageId =>
      simp only [exec] at hok
      split at hok
      · rw [← Except.ok.inj hok]
        exact .same _
      · cases hok
  | work tag c =>
      simp only [exec] at hok
      split at hok
      · split at hok
        · obtain ⟨db, hdb, rfl⟩ := Except.map_eq_ok.mp hok
          exact WorkerCall.exec_moves ‹_› hdb
        · cases hok
      · cases hok
  | handle tag choice => exact handle_moves hok
  | handlerCrash tag =>
      simp only [exec] at hok
      split at hok
      · rw [← Except.ok.inj hok]
        exact .same _
      · cases hok

/-! ## Counting -/

/-- A claim is never rejected, and spends one attempt. -/
theorem exec_claims (hclaims : s.claims taskId c) :
    ∃ s', exec maxRetries c s = .ok s' ∧
      claimsLeft maxRetries (s'.db.tasks.lookup taskId) + 1 =
        claimsLeft maxRetries (s.db.tasks.lookup taskId) := by
  cases c with
  | handle tag choice =>
      obtain ⟨h, hh, hclaims⟩ := (Option.any_eq_true _ _).mp hclaims
      simp only [Bool.and_eq_true, decide_eq_true_eq, Bool.not_eq_true'] at hclaims
      obtain ⟨⟨⟨hstage, hbody⟩, hraises⟩, hclaimed⟩ := hclaims
      rcases hout : claimTask choice.token choice.now taskId s.db with ⟨out, db⟩
      rcases claimTask_cases hout with ⟨rfl, -⟩ | ⟨task, htask, -, rfl, rfl⟩
      · rw [hout] at hclaimed
        cases hclaimed
      · refine ⟨s.enter tag h (s.db.updateTask taskId fun _ ↦ task.claimed choice.token choice.now)
          .executing, ?_, ?_⟩
        · simp [exec, handle, handleTask, hh, hbody, hstage, hraises, hout]
        · have hafter : (s.db.updateTask taskId fun _ ↦ task.claimed choice.token
              choice.now).tasks.lookup taskId = some (task.claimed choice.token choice.now) := by
            rw [KnowledgeDb.lookup_updateTask, if_pos rfl, htask]
            rfl
          change claimsLeft maxRetries ((s.db.updateTask taskId _).tasks.lookup taskId) + 1 = _
          rw [hafter, htask]
          simp only [claimsLeft, Option.elim_some, AnalysisTask.claimed]
          omega
  | _ => cases hclaims

theorem advance_pays (hrecovers : c.RecoversAtMost maxRetries)
    (hreplays : s.replays taskId c = false) :
    (if s.claims taskId c then 1 else 0) +
        claimsLeft maxRetries ((advance (exec maxRetries) s c).db.tasks.lookup taskId) ≤
      claimsLeft maxRetries (s.db.tasks.lookup taskId) := by
  split
  · rename_i hclaims
    obtain ⟨s', hok, hspent⟩ : ∃ s', exec maxRetries c s = .ok s' ∧ _ := exec_claims hclaims
    rw [advance_of_ok hok]
    omega
  · cases hok : exec maxRetries c s with
    | error e =>
        rw [advance_of_error hok]
        omega
    | ok s' =>
        rw [advance_of_ok hok]
        have hleft : claimsLeft maxRetries (s'.db.tasks.lookup taskId) ≤
            claimsLeft maxRetries (s.db.tasks.lookup taskId) :=
          (exec_moves hrecovers hok).claimsLeft_le (by rw [hreplays]; nofun)
        omega

/-- The step changes the state of the task along an edge of the table, or replays it. -/
def FollowsTable (taskId : Uuid) (s : AnalysisSystem) (c : AnalysisCmd) (s' : AnalysisSystem) :
    Prop :=
  ∀ task, s.db.tasks.lookup taskId = some task →
    ∃ task', s'.db.tasks.lookup taskId = some task' ∧ (task'.state = task.state ∨
      task'.state ∈ task.state.transitions ∨ (s.replays taskId c ∧ task'.state = .queued))

theorem advance_follows (hrecovers : c.RecoversAtMost maxRetries) :
    FollowsTable taskId s c (advance (exec maxRetries) s c) := by
  intro task htask
  cases hok : exec maxRetries c s with
  | error e =>
      rw [advance_of_error hok]
      exact ⟨task, htask, Or.inl rfl⟩
  | ok s' =>
      rw [advance_of_ok hok]
      have hmoves : RowMoves maxRetries (s.replays taskId c) (s.db.tasks.lookup taskId)
          (s'.db.tasks.lookup taskId) := exec_moves hrecovers hok
      rw [htask] at hmoves
      exact hmoves.follows

theorem run_withinLimit {cmds : List AnalysisCmd}
    (hs : WithinLimit maxRetries (s.db.tasks.lookup taskId))
    (hrecovers : ∀ c ∈ cmds, c.RecoversAtMost maxRetries) :
    WithinLimit maxRetries ((run (exec maxRetries) s cmds).db.tasks.lookup taskId) :=
  run_invariant (I := fun s : AnalysisSystem ↦ WithinLimit maxRetries (s.db.tasks.lookup taskId))
    (fun _ _ _ hs hc hok ↦ (exec_moves hc hok).withinLimit hs) hs
    (meets_of_forall (V := AnalysisCmd.RecoversAtMost maxRetries) hrecovers)

theorem countClaims_le {period : List AnalysisCmd}
    (hs : WithinLimit maxRetries (s.db.tasks.lookup taskId))
    (hrecovers : ∀ c ∈ period, c.RecoversAtMost maxRetries)
    (hreplays : Meets (exec maxRetries) (fun s c ↦ s.replays taskId c = false) s period) :
    countSteps (exec maxRetries) (fun s c ↦ s.claims taskId c) s period ≤ max 1 maxRetries := by
  have hcount := countSteps_add_potential_le (fun s c ↦ s.claims taskId c)
    (fun s : AnalysisSystem ↦ claimsLeft maxRetries (s.db.tasks.lookup taskId))
    (I := fun _ ↦ True) (fun _ _ _ ↦ trivial)
    (fun _ _ _ hc ↦ by simpa using advance_pays hc.1 hc.2) trivial (hreplays.and_valid hrecovers)
  have hleft := claimsLeft_nonneg (run_withinLimit hs hrecovers)
  have hstart := claimsLeft_le maxRetries (s.db.tasks.lookup taskId)
  omega

/-- From the creation of a task on, every change of its state is an edge of the table, except
for the replays, and between two replays it is claimed at most as often as it may be tried. -/
theorem task_runs_bounded (maxRetries : ℕ) (taskId : Uuid)
    (hnew : ∀ task, s.db.tasks.lookup taskId = some task → task.attemptCount = 0)
    {cmds : List AnalysisCmd} (hrecovers : ∀ c ∈ cmds, c.RecoversAtMost maxRetries) :
    (∀ pre c post, cmds = pre ++ c :: post →
      FollowsTable taskId (run (exec maxRetries) s pre) c
        (run (exec maxRetries) s (pre ++ [c]))) ∧
    ∀ pre period post, cmds = pre ++ period ++ post →
      Meets (exec maxRetries) (fun s c ↦ s.replays taskId c = false)
        (run (exec maxRetries) s pre) period →
      countSteps (exec maxRetries) (fun s c ↦ s.claims taskId c)
        (run (exec maxRetries) s pre) period ≤ max 1 maxRetries := by
  constructor
  · rintro pre c post rfl
    rw [run_append]
    exact advance_follows (hrecovers c (by simp))
  · rintro pre period post rfl hreplays
    have hpre : WithinLimit maxRetries ((run (exec maxRetries) s pre).db.tasks.lookup taskId) :=
      run_withinLimit (withinLimit_new hnew) fun c hc ↦ hrecovers c (by simp [hc])
    exact countClaims_le hpre (fun c hc ↦ hrecovers c (by simp [hc])) hreplays

end AnalysisSystem

namespace Sample

/-- The lease of the first handler runs out, and the message is delivered to a second one. -/
def claimedTwice : List AnalysisCmd :=
  unsettled ++ [.redeliver 100, .deliver 100 201, .handle 201 choice]

theorem recovers_claimedTwice : ∀ c ∈ claimedTwice, c.RecoversAtMost 3 := by
  simp [claimedTwice, unsettled, delivered, enqueued, AnalysisCmd.RecoversAtMost,
    TaskCmd.RecoversAtMost]

end Sample

theorem task_runs_bounded_sample :
    countSteps (AnalysisSystem.exec 3) (fun s c ↦ s.claims 1 c) Sample.idle
      Sample.claimedTwice ≤ 3 := by
  have hnew : ∀ task, Sample.idle.db.tasks.lookup 1 = some task → task.attemptCount = 0 :=
    fun _ htask ↦ nomatch htask
  exact (AnalysisSystem.task_runs_bounded 3 1 hnew Sample.recovers_claimedTwice).2 []
    Sample.claimedTwice [] (List.append_nil _).symm (by decide)

example : countSteps (AnalysisSystem.exec 3) (fun s c ↦ s.claims 1 c) Sample.idle
    Sample.claimedTwice = 2 := by decide

end S3mp.Knowledge
