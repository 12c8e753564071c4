import S3mp.Knowledge.Leases

/-!
# What the transactions of the task store can do

One lemma for each transaction, with everything it may write and what it has checked before.
-/

namespace S3mp.Knowledge

open Relational Transition

variable {db db' : KnowledgeDb} {taskId : Uuid}

/-! ## Rows -/

theorem KnowledgeDb.lookup_updateTask (id : Uuid) (f : AnalysisTask → AnalysisTask) :
    (db.updateTask taskId f).tasks.lookup id =
      if id = taskId then (db.tasks.lookup taskId).map f else db.tasks.lookup id :=
  AList.lookup_update id taskId f db.tasks

theorem KnowledgeDb.addEvent_eq_ok {eventId : Uuid} {event : KnowledgeEvent} :
    db.addEvent eventId event = .ok db' ↔
      eventId ∉ db.outbox ∧ db' = { db with outbox := db.outbox.insert eventId event } := by
  constructor
  · intro h
    obtain ⟨outbox, hinsert, hdb⟩ := Except.bind_eq_ok.mp h
    obtain ⟨hfresh, rfl⟩ := insertRow_eq_ok.mp hinsert
    exact ⟨hfresh, (Except.pure_eq_ok.mp hdb).symm⟩
  · rintro ⟨hfresh, rfl⟩
    exact Except.bind_eq_ok.mpr ⟨_, insertRow_eq_ok.mpr ⟨hfresh, rfl⟩, rfl⟩

/-! ## Creation -/

theorem createdState_cases (excluded supported duplicate : Bool) :
    createdState excluded supported duplicate = .skipped ∨
      createdState excluded supported duplicate = .queued := by
  unfold createdState
  split
  · exact Or.inl rfl
  · exact Or.inr rfl

theorem enqueueKnowledgeTask_cases {eventId : Uuid} {now : Timestamp} {enabled : Bool}
    {contract : Contract} {source : CommittedSource} {rules : List String}
    (h : enqueueKnowledgeTask taskId eventId now enabled contract source rules db = .ok db') :
    db' = db ∨ ∃ task : AnalysisTask, taskId ∉ db.tasks ∧ task.attemptCount = 0 ∧
      ((task.state = .skipped ∧ db' = { db with tasks := db.tasks.insert taskId task }) ∨
        (task.state = .queued ∧ eventId ∉ db.outbox ∧
          db' = { db with
            tasks := db.tasks.insert taskId task
            outbox := db.outbox.insert eventId (analysisEvent taskId false) })) := by
  unfold enqueueKnowledgeTask at h
  split at h
  · exact Or.inl (Except.pure_eq_ok.mp h).symm
  split at h
  · exact Or.inl (Except.pure_eq_ok.mp h).symm
  obtain ⟨path, -, h⟩ := Except.bind_eq_ok.mp h
  obtain ⟨tasks, hinsert, h⟩ := Except.bind_eq_ok.mp h
  obtain ⟨hfresh, rfl⟩ := insertRow_eq_ok.mp hinsert
  split at h
  · rename_i hqueued
    obtain ⟨hevent, rfl⟩ := KnowledgeDb.addEvent_eq_ok.mp h
    exact Or.inr ⟨_, hfresh, rfl, Or.inr ⟨hqueued, hevent, rfl⟩⟩
  · rename_i hnot
    have hskipped := (createdState_cases _ _ _).resolve_right hnot
    exact Or.inr ⟨_, hfresh, rfl, Or.inl ⟨hskipped, (Except.pure_eq_ok.mp h).symm⟩⟩

/-! ## Work on a task -/

theorem claimTask_cases {token : Uuid} {now : Timestamp} {out : Option AnalysisTask}
    (h : claimTask token now taskId db = (out, db')) :
    (out = none ∧ db' = db ∧ ∀ task, db.tasks.lookup taskId = some task → task.state ≠ .queued) ∨
      ∃ task, db.tasks.lookup taskId = some task ∧ task.state = .queued ∧
        out = some (task.claimed token now) ∧
        db' = db.updateTask taskId fun _ ↦ task.claimed token now := by
  unfold claimTask at h
  split at h
  · rename_i hnone
    obtain ⟨rfl, rfl⟩ := Prod.mk.inj h
    exact Or.inl ⟨rfl, rfl, fun task htask ↦ by rw [hnone] at htask; cases htask⟩
  rename_i task htask
  split at h
  · rename_i hstate
    obtain ⟨rfl, rfl⟩ := Prod.mk.inj h
    refine Or.inl ⟨rfl, rfl, fun task' htask' ↦ ?_⟩
    obtain rfl := Option.some.inj (htask.symm.trans htask')
    exact hstate
  · rename_i hstate
    obtain ⟨rfl, rfl⟩ := Prod.mk.inj h
    exact Or.inr ⟨task, htask, Decidable.not_not.mp hstate, rfl, rfl⟩

theorem resolveSourceSha256_cases {sha : String} {out : Bool × KnowledgeDb}
    (h : resolveSourceSha256 taskId sha db = .ok out) :
    out.2 = db ∨ ∃ task, db.tasks.lookup taskId = some task ∧ task.state = .processing ∧
      out.2 = db.updateTask taskId fun _ ↦ { task with sourceSha256 := some sha } := by
  unfold resolveSourceSha256 at h
  split at h
  · rw [← Except.ok.inj h]
    exact Or.inl rfl
  rename_i task htask
  split at h
  · rw [← Except.ok.inj h]
    exact Or.inl rfl
  rename_i hstate
  split at h
  · cases h
  · rw [← Except.ok.inj h]
    exact Or.inr ⟨task, htask, Decidable.not_not.mp hstate, rfl⟩

theorem settleTask_cases {now : Timestamp} {state : TaskState} {reason : Option String}
    (h : settleTask now taskId state reason db = .ok db') :
    (db' = db ∧ ∀ task, db.tasks.lookup taskId = some task → task.state.terminal) ∨
      ∃ task, db.tasks.lookup taskId = some task ∧ task.state.terminal = false ∧
        state ∈ task.state.transitions ∧
        db' = db.updateTask taskId fun _ ↦ task.settled now state reason := by
  unfold settleTask at h
  split at h
  · rename_i hnone
    refine Or.inl ⟨(Except.ok.inj h).symm, fun task htask ↦ ?_⟩
    rw [hnone] at htask
    cases htask
  rename_i task htask
  split at h
  · rename_i hterminal
    refine Or.inl ⟨(Except.ok.inj h).symm, fun task' htask' ↦ ?_⟩
    obtain rfl := Option.some.inj (htask.symm.trans htask')
    exact hterminal
  · rename_i hterminal
    obtain ⟨u, hallowed, h⟩ := Except.bind_eq_ok.mp h
    exact Or.inr ⟨task, htask, Bool.not_eq_true _ ▸ hterminal,
      assertTransition_eq_ok.mp hallowed, (Except.pure_eq_ok.mp h).symm⟩

theorem settleTask_eq_error {now : Timestamp} {state : TaskState} {reason : Option String}
    {e : TxError} (h : settleTask now taskId state reason db = .error e) :
    ∃ task, db.tasks.lookup taskId = some task ∧ task.state.terminal = false ∧
      state ∉ task.state.transitions := by
  unfold settleTask at h
  split at h
  · cases h
  rename_i task htask
  split at h
  · cases h
  rename_i hopen
  refine ⟨task, htask, Bool.not_eq_true _ ▸ hopen, fun hallowed ↦ ?_⟩
  rw [assertTransition_eq_ok (u := ()) |>.mpr hallowed] at h
  cases h

theorem scheduleRetry_cases {now : Timestamp} {reason : String} {maxRetries : ℕ}
    {out : Option AnalysisTask} (h : scheduleRetry now taskId reason maxRetries db = (out, db')) :
    (out = none ∧ db' = db ∧
      ∀ task, db.tasks.lookup taskId = some task → task.state ≠ .processing) ∨
    ∃ task, db.tasks.lookup taskId = some task ∧ task.state = .processing ∧
      ((maxRetries ≤ task.attemptCount ∧ out = some (task.exhausted now reason) ∧
          db' = db.updateTask taskId fun _ ↦ task.exhausted now reason) ∨
        (task.attemptCount < maxRetries ∧ out = some (task.requeued reason) ∧
          db' = db.updateTask taskId fun _ ↦ task.requeued reason)) := by
  unfold scheduleRetry at h
  split at h
  · rename_i hnone
    obtain ⟨rfl, rfl⟩ := Prod.mk.inj h
    exact Or.inl ⟨rfl, rfl, fun task htask ↦ by rw [hnone] at htask; cases htask⟩
  rename_i task htask
  split at h
  · rename_i hstate
    obtain ⟨rfl, rfl⟩ := Prod.mk.inj h
    refine Or.inl ⟨rfl, rfl, fun task' htask' ↦ ?_⟩
    obtain rfl := Option.some.inj (htask.symm.trans htask')
    exact hstate
  · rename_i hstate
    obtain ⟨rfl, rfl⟩ := Prod.mk.inj h
    refine Or.inr ⟨task, htask, Decidable.not_not.mp hstate, ?_⟩
    by_cases hattempts : task.attemptCount ≥ maxRetries
    · left
      refine ⟨hattempts, ?_, ?_⟩ <;> simp only [hattempts, if_true]
    · right
      refine ⟨Nat.lt_of_not_ge hattempts, ?_, ?_⟩ <;> simp only [hattempts, if_false]

theorem AnalysisTask.stale_processing {task : AnalysisTask} {now : Timestamp}
    (h : task.stale now) : task.state = .processing := by
  unfold AnalysisTask.stale at h
  rw [Bool.and_eq_true] at h
  exact of_decide_eq_true h.1

theorem recoverTask_cases {now : Timestamp} {maxRetries : ℕ} {eventId : Uuid → Uuid}
    (h : recoverTask now maxRetries eventId db taskId = .ok db') :
    db' = db ∨ ∃ task, db.tasks.lookup taskId = some task ∧ task.stale now ∧
      (db' = (db.updateTask taskId fun _ ↦ task.released.exhausted now "processing_timeout") ∨
        (task.attemptCount < maxRetries ∧ eventId taskId ∉ db.outbox ∧ db' =
          { db.updateTask taskId fun _ ↦ task.released.requeued "processing_timeout" with
            outbox := db.outbox.insert (eventId taskId) (analysisEvent taskId false) })) := by
  unfold recoverTask at h
  split at h
  · exact Or.inl (Except.ok.inj h).symm
  rename_i task htask
  split at h
  · exact Or.inl (Except.ok.inj h).symm
  rename_i hstale
  refine Or.inr ⟨task, htask, Bool.not_eq_false _ ▸ hstale, ?_⟩
  split at h
  · exact Or.inl (Except.ok.inj h).symm
  · exact Or.inr ⟨Nat.lt_of_not_ge ‹_›, KnowledgeDb.addEvent_eq_ok.mp h⟩

theorem replayDeadLetter_cases {eventId : Uuid} {out : Bool × KnowledgeDb}
    (h : replayDeadLetter eventId taskId db = .ok out) :
    out.2 = db ∨ ∃ task, db.tasks.lookup taskId = some task ∧ task.state = .deadLettered ∧
      eventId ∉ db.outbox ∧ out.2 =
        { db.updateTask taskId fun _ ↦ task.replayed with
          outbox := db.outbox.insert eventId (analysisEvent taskId true) } := by
  unfold replayDeadLetter at h
  split at h
  · rw [← Except.ok.inj h]
    exact Or.inl rfl
  rename_i task htask
  split at h
  · rw [← Except.ok.inj h]
    exact Or.inl rfl
  rename_i hstate
  obtain ⟨db₁, hadd, h⟩ := Except.bind_eq_ok.mp h
  obtain ⟨hfresh, rfl⟩ := KnowledgeDb.addEvent_eq_ok.mp hadd
  rw [← Except.pure_eq_ok.mp h]
  exact Or.inr ⟨task, htask, Decidable.not_not.mp hstate, hfresh, rfl⟩

/-! ## Completion -/

/-- One turn finds or creates the card, and finds or adds its event. -/
theorem recordCard_cases {ids : CompletionIds} {batchRow : Uuid} {result : BatchResult}
    {record : CardRecord} (h : recordCard ids taskId batchRow result db record = .ok db') :
    ∃ cardRow cards,
      ((∃ card, findCard batchRow record.id db = some (cardRow, card) ∧ cards = db.cards) ∨
        (cardRow ∉ db.cards ∧ cards = db.cards.insert cardRow (draftCard batchRow record))) ∧
      ((hasIndexEvent taskId cardRow db ∧ db' = { db with cards }) ∨
        ∃ eventId, eventId ∉ db.outbox ∧ db' =
          { db with
            cards
            outbox := db.outbox.insert eventId (indexEvent taskId cardRow result record) }) := by
  obtain ⟨⟨cardRow, db₁⟩, hobtain, h⟩ := Except.bind_eq_ok.mp h
  have hevent : (hasIndexEvent taskId cardRow db₁ ∧ db' = db₁) ∨
      ∃ eventId, eventId ∉ db₁.outbox ∧ db' = { db₁ with
        outbox := db₁.outbox.insert eventId (indexEvent taskId cardRow result record) } := by
    dsimp only at h
    split at h
    · rename_i hhas
      exact Or.inl ⟨hhas, (Except.pure_eq_ok.mp h).symm⟩
    · exact Or.inr ⟨_, KnowledgeDb.addEvent_eq_ok.mp h⟩
  unfold obtainCard at hobtain
  split at hobtain
  · rename_i id card hfound
    obtain ⟨rfl, rfl⟩ := Prod.mk.inj (Except.ok.inj hobtain)
    exact ⟨id, db.cards, Or.inl ⟨card, hfound, rfl⟩, hevent⟩
  · obtain ⟨cards, hinsert, hobtain⟩ := Except.bind_eq_ok.mp hobtain
    obtain ⟨hfresh, rfl⟩ := insertRow_eq_ok.mp hinsert
    obtain ⟨rfl, rfl⟩ := Prod.mk.inj (Except.pure_eq_ok.mp hobtain)
    exact ⟨_, _, Or.inr ⟨hfresh, rfl⟩, hevent⟩

theorem recordCards_tasks {ids : CompletionIds} {batchRow : Uuid} {result : BatchResult}
    {cards : List CardRecord} (h : cards.foldlM (recordCard ids taskId batchRow result) db = .ok db') :
    db'.tasks = db.tasks := by
  refine Tx.foldlM_relates (R := fun db db' : KnowledgeDb ↦ db'.tasks = db.tasks) (fun _ ↦ rfl)
    (fun h h' ↦ h'.trans h) (fun hturn ↦ ?_) h
  obtain ⟨cardRow, cards, -, ⟨-, rfl⟩ | ⟨eventId, -, rfl⟩⟩ := recordCard_cases hturn <;> rfl

/-- The batch is found or created, the cards are recorded, and the task is completed if it is
still being processed. -/
theorem completeS3Batch_cases {ids : CompletionIds} {now : Timestamp} {result : BatchResult}
    (h : completeS3Batch ids now taskId result db = .ok db') :
    (db.tasks.lookup taskId = none ∧ db' = db) ∨
      ∃ task batchRow batches db₁, db.tasks.lookup taskId = some task ∧
        ((∃ batch, findBatch result.batchId db = some (batchRow, batch) ∧ batches = db.batches) ∨
          (batchRow ∉ db.batches ∧ batches = db.batches.insert batchRow
            ⟨taskId, result.batchId, result.keyPrefix, result.completionManifestKey⟩)) ∧
        result.cards.foldlM (recordCard ids taskId batchRow result) { db with batches } = .ok db₁ ∧
        db' = db₁.updateTask taskId (·.completedWith now result) := by
  unfold completeS3Batch at h
  split at h
  · rename_i hnone
    exact Or.inl ⟨hnone, (Except.ok.inj h).symm⟩
  rename_i task htask
  obtain ⟨⟨batchRow, db₀⟩, hobtain, h⟩ := Except.bind_eq_ok.mp h
  obtain ⟨db₁, hloop, h⟩ := Except.bind_eq_ok.mp h
  have hwritten := (Except.pure_eq_ok.mp h).symm
  unfold obtainBatch at hobtain
  split at hobtain
  · rename_i id batch hfound
    obtain ⟨rfl, rfl⟩ := Prod.mk.inj (Except.ok.inj hobtain)
    exact Or.inr ⟨task, id, db.batches, db₁, htask, Or.inl ⟨batch, hfound, rfl⟩, hloop, hwritten⟩
  · obtain ⟨batches, hinsert, hobtain⟩ := Except.bind_eq_ok.mp hobtain
    obtain ⟨hfresh, rfl⟩ := insertRow_eq_ok.mp hinsert
    obtain ⟨rfl, rfl⟩ := Prod.mk.inj (Except.pure_eq_ok.mp hobtain)
    exact Or.inr ⟨task, _, _, db₁, htask, Or.inr ⟨hfresh, rfl⟩, hloop, hwritten⟩

end S3mp.Knowledge
