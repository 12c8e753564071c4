import S3mp.Knowledge.TaskEffects

/-!
# One analysis for each source

An execution asks once whether another task has been completed for its source, and then works
on.  The answer may be out of date when it completes its own task.
-/

namespace S3mp.Knowledge

open Relational Transition

/-! ## Executions -/

/-- How far `execute` has come with a claimed task. -/
inductive ExecutionStage where
  | fetching
  | analysing
  | returned (state : TaskState) (reason : Option String)
  | over
  deriving DecidableEq

/-- A claim and its execution.  `checkedIn` are the tasks as the check of the source saw them. -/
structure Execution where
  taskId : Uuid
  stage : ExecutionStage
  checkedIn : Table Uuid AnalysisTask

structure AnalysisWorld where
  db : KnowledgeDb
  executions : List Execution

/-- `execute` returns `skip` where it finds no source, an excluded path or nothing to extract;
`scheduleRetry` follows an exception.  An execution which takes no further step has crashed. -/
inductive ExecutionStep where
  | setTaskPhase (phase : String)
  | resolveSourceSha256 (sourceSha256 : String)
  | skip (reason : String)
  | completeS3Batch (ids : CompletionIds) (now : Timestamp) (result : BatchResult)
  | settleTask (now : Timestamp)
  | scheduleRetry (now : Timestamp) (reason : String) (maxRetries : ℕ)

inductive AnalysisStep where
  | claimTask (token : Uuid) (now : Timestamp) (taskId : Uuid)
  | execution (i : ℕ) (step : ExecutionStep)
  | other (c : TaskCmd)

/-- `execute` has not returned. -/
def ExecutionStage.running (stage : ExecutionStage) : Bool :=
  stage = .fetching || stage = .analysing

namespace AnalysisWorld

def notNext : Tx AnalysisWorld :=
  .error (.value "not the next step of the execution")

def enter (i : ℕ) (e : Execution) (stage : ExecutionStage) (db : KnowledgeDb)
    (w : AnalysisWorld) : AnalysisWorld :=
  ⟨db, w.executions.set i { e with stage }⟩

/-- `resolve_source_sha256`, with what `execute` makes of the answer. -/
def resolve (i : ℕ) (e : Execution) (sourceSha256 : String) (w : AnalysisWorld) : AnalysisWorld :=
  match Knowledge.resolveSourceSha256 e.taskId sourceSha256 w.db with
  | .error _ => w.enter i e (.returned .skipped (some "source_checksum_mismatch")) w.db
  | .ok (false, db) => w.enter i e (.returned .skipped (some "duplicate_content")) db
  | .ok (true, db) => w.enter i { e with checkedIn := db.tasks } .analysing db

/-- One step of one execution. -/
def stepOf (i : ℕ) (e : Execution) (w : AnalysisWorld) : ExecutionStep → Tx AnalysisWorld
  | .setTaskPhase phase =>
    if e.stage.running then .ok (w.enter i e e.stage (Knowledge.setTaskPhase e.taskId phase w.db))
    else notNext
  | .resolveSourceSha256 sha =>
    if e.stage = .fetching then .ok (w.resolve i e sha) else notNext
  | .skip reason =>
    if e.stage.running then .ok (w.enter i e (.returned .skipped (some reason)) w.db) else notNext
  | .completeS3Batch ids now result =>
    if e.stage = .analysing then
      (Knowledge.completeS3Batch ids now e.taskId result w.db).map fun db ↦
        w.enter i e (.returned .completed none) db
    else notNext
  | .settleTask now =>
    match e.stage with
    | .returned state reason =>
        (Knowledge.settleTask now e.taskId state reason w.db).map fun db ↦ w.enter i e .over db
    | _ => notNext
  | .scheduleRetry now reason maxRetries =>
    if e.stage.running then
      .ok (w.enter i e .over (Knowledge.scheduleRetry now e.taskId reason maxRetries w.db).2)
    else notNext

def exec : AnalysisStep → AnalysisWorld → Tx AnalysisWorld
  | .claimTask token now taskId, w =>
    match Knowledge.claimTask token now taskId w.db with
    | (none, db) => .ok { w with db }
    | (some _, db) => .ok ⟨db, w.executions ++ [⟨taskId, .fetching, ∅⟩]⟩
  | .execution i step, w =>
    match w.executions[i]? with
    | none => notNext
    | some e => w.stepOf i e step
  | .other c, w => (c.exec w.db).map fun db ↦ { w with db }

end AnalysisWorld

/-! ## What is asked for -/

/-- Two tasks analyse the same content under the same contract. -/
def AnalysisTask.SameSource (t t' : AnalysisTask) : Prop :=
  t.sourceSha256 = t'.sourceSha256 ∧ t.contractManifestHash = t'.contractManifestHash

/-- No two completed tasks have the same source. -/
def AnalysedOnce (db : KnowledgeDb) : Prop :=
  ∀ id id' t t', db.tasks.lookup id = some t → db.tasks.lookup id' = some t' →
    t.state = .completed → t'.state = .completed → t.SameSource t' → id = id'

/-- The execution has found its source to be new. -/
def ExecutionStage.checked : ExecutionStage → Bool
  | .analysing | .returned .completed _ => true
  | _ => false

/-- The execution is about to complete its task. -/
def ExecutionStep.completes : ExecutionStep → ExecutionStage → Bool
  | .completeS3Batch .., .analysing | .settleTask _, .returned .completed _ => true
  | _, _ => false

/-- Since the check of an execution which completes its task, no other task has been completed
for the same source. -/
def AnalysisWorld.NotOvertaken (w : AnalysisWorld) : AnalysisStep → Prop
  | .execution i step => ∀ e task, w.executions[i]? = some e → step.completes e.stage →
      w.db.tasks.lookup e.taskId = some task → task.state = .processing →
      ∀ id t, w.db.tasks.lookup id = some t → t.state = .completed → t.SameSource task →
        ∃ t₀, e.checkedIn.lookup id = some t₀ ∧ t₀.state = .completed
  | _ => True

/-! ## What the transactions do to completed tasks -/

/-- The task keeps its source once it has it, and stays completed. -/
structure AnalysisTask.Continues (t t' : AnalysisTask) : Prop where
  contract : t'.contractManifestHash = t.contractManifestHash
  source : t.sourceSha256 ≠ none → t'.sourceSha256 = t.sourceSha256
  completed : t.state = .completed → t'.state = .completed ∧ t'.sourceSha256 = t.sourceSha256

theorem AnalysisTask.Continues.refl (t : AnalysisTask) : t.Continues t :=
  ⟨rfl, fun _ ↦ rfl, fun h ↦ ⟨h, rfl⟩⟩

theorem AnalysisTask.Continues.trans {t t' t'' : AnalysisTask} (h : t.Continues t')
    (h' : t'.Continues t'') : t.Continues t'' := by
  refine ⟨h'.contract.trans h.contract, fun hsource ↦ ?_, fun hcompleted ↦ ?_⟩
  · have hsame := h.source hsource
    exact (h'.source (hsame ▸ hsource)).trans hsame
  · obtain ⟨hstate, hsame⟩ := h.completed hcompleted
    obtain ⟨hstate', hsame'⟩ := h'.completed hstate
    exact ⟨hstate', hsame'.trans hsame⟩

/-- Every task goes on, and none is completed but those of `completing`. -/
structure KeepsAnalyses (completing : Uuid → Prop) (db db' : KnowledgeDb) : Prop where
  continues : ∀ id t, db.tasks.lookup id = some t →
    ∃ t', db'.tasks.lookup id = some t' ∧ t.Continues t'
  completed : ∀ id t', db'.tasks.lookup id = some t' → t'.state = .completed → ¬ completing id →
    ∃ t, db.tasks.lookup id = some t ∧ t.state = .completed

/-- No task is completed. -/
abbrev CompletesNone : KnowledgeDb → KnowledgeDb → Prop := KeepsAnalyses fun _ ↦ False

variable {db db' db'' : KnowledgeDb} {taskId : Uuid} {completing : Uuid → Prop}

theorem keepsAnalyses_of_tasks (h : db'.tasks = db.tasks) : KeepsAnalyses completing db db' := by
  refine ⟨fun id t ht ↦ ⟨t, h ▸ ht, .refl t⟩, fun id t' ht' hstate _ ↦ ⟨t', h ▸ ht', hstate⟩⟩

theorem KeepsAnalyses.refl (db : KnowledgeDb) : KeepsAnalyses completing db db :=
  keepsAnalyses_of_tasks rfl

theorem KeepsAnalyses.trans (h : KeepsAnalyses completing db db')
    (h' : KeepsAnalyses completing db' db'') : KeepsAnalyses completing db db'' := by
  refine ⟨fun id t ht ↦ ?_, fun id t'' ht'' hstate hnot ↦ ?_⟩
  · obtain ⟨t', ht', hcontinues⟩ := h.continues id t ht
    obtain ⟨t'', ht'', hcontinues'⟩ := h'.continues id t' ht'
    exact ⟨t'', ht'', hcontinues.trans hcontinues'⟩
  · obtain ⟨t', ht', hstate'⟩ := h'.completed id t'' ht'' hstate hnot
    exact h.completed id t' ht' hstate' hnot

theorem keepsAnalyses_updateTask {f : AnalysisTask → AnalysisTask}
    (h : ∀ t, db.tasks.lookup taskId = some t → t.Continues (f t) ∧
      ((f t).state = .completed → ¬ completing taskId → t.state = .completed)) :
    KeepsAnalyses completing db (db.updateTask taskId f) := by
  refine ⟨fun id t ht ↦ ?_, fun id t' ht' hstate hnot ↦ ?_⟩
  · rw [KnowledgeDb.lookup_updateTask]
    split
    · rename_i hid
      subst hid
      exact ⟨f t, congrArg _ ht, (h t ht).1⟩
    · exact ⟨t, ht, .refl t⟩
  · rw [KnowledgeDb.lookup_updateTask] at ht'
    split at ht'
    · rename_i hid
      subst hid
      obtain ⟨t, ht, rfl⟩ := Option.map_eq_some_iff.mp ht'
      exact ⟨t, ht, (h t ht).2 hstate hnot⟩
    · exact ⟨t', ht', hstate⟩

/-- The task goes to a state in which it is not completed. -/
theorem keepsAnalyses_updateTask_open {task task' : AnalysisTask}
    (htask : db.tasks.lookup taskId = some task) (hopen : task.state ≠ .completed)
    (hopen' : task'.state ≠ .completed) (hcontract : task'.contractManifestHash =
      task.contractManifestHash) (hsource : task.sourceSha256 ≠ none →
      task'.sourceSha256 = task.sourceSha256) :
    KeepsAnalyses completing db (db.updateTask taskId fun _ ↦ task') := by
  refine keepsAnalyses_updateTask fun t ht ↦ ?_
  obtain rfl := Option.some.inj (htask.symm.trans ht)
  exact ⟨⟨hcontract, hsource, fun h ↦ absurd h hopen⟩, fun h ↦ absurd h hopen'⟩

theorem keepsAnalyses_insertTask {task : AnalysisTask} (hfresh : taskId ∉ db.tasks)
    (hopen : task.state ≠ .completed) {tasks : Table Uuid AnalysisTask}
    (htasks : db'.tasks = tasks) (hinsert : tasks = db.tasks.insert taskId task) :
    KeepsAnalyses completing db db' := by
  subst htasks
  refine ⟨fun id t ht ↦ ⟨t, ?_, .refl t⟩, fun id t' ht' hstate _ ↦ ?_⟩
  · rw [hinsert]
    exact AList.lookup_insert_of_lookup ht hfresh
  · rw [hinsert, AList.lookup_insert'] at ht'
    split at ht'
    · obtain rfl := Option.some.inj ht'
      exact absurd hstate hopen
    · exact ⟨t', ht', hstate⟩

/-! ## One lemma for each transaction -/

theorem claimTask_completesNone {token : Uuid} {now : Timestamp} {out : Option AnalysisTask}
    (h : claimTask token now taskId db = (out, db')) : CompletesNone db db' := by
  rcases claimTask_cases h with ⟨-, rfl, -⟩ | ⟨task, htask, hqueued, -, rfl⟩
  · exact .refl _
  · exact keepsAnalyses_updateTask_open htask (by rw [hqueued]; nofun) nofun rfl fun _ ↦ rfl

theorem setTaskPhase_completesNone (phase : String) :
    CompletesNone db (setTaskPhase taskId phase db) := by
  refine keepsAnalyses_updateTask fun t _ ↦ ?_
  split
  · exact ⟨⟨rfl, fun _ ↦ rfl, fun h ↦ ⟨h, rfl⟩⟩, fun h _ ↦ h⟩
  · exact ⟨.refl t, fun h _ ↦ h⟩

/-- What the check of a source has found when it has said something. -/
theorem resolveSourceSha256_checks {sha : String} {out : Bool × KnowledgeDb}
    (h : resolveSourceSha256 taskId sha db = .ok out) :
    out = (false, db) ∨ ∃ task, db.tasks.lookup taskId = some task ∧ task.state = .processing ∧
      (task.sourceSha256 ≠ none → task.sourceSha256 = some sha) ∧
      out = (!duplicateOf sha task.contractManifestHash (· ≠ taskId) db,
        db.updateTask taskId fun _ ↦ { task with sourceSha256 := some sha }) := by
  unfold resolveSourceSha256 at h
  split at h
  · exact Or.inl (Except.ok.inj h).symm
  rename_i task htask
  split at h
  · exact Or.inl (Except.ok.inj h).symm
  rename_i hstate
  split at h
  · cases h
  rename_i hagrees
  refine Or.inr ⟨task, htask, Decidable.not_not.mp hstate, fun hknown ↦ ?_, (Except.ok.inj h).symm⟩
  obtain ⟨sha', hsha'⟩ := Option.ne_none_iff_exists'.mp hknown
  have hsame : sha' = sha := by simpa [hsha'] using hagrees
  rw [hsha', hsame]

theorem resolveSourceSha256_completesNone {sha : String} {out : Bool × KnowledgeDb}
    (h : resolveSourceSha256 taskId sha db = .ok out) : CompletesNone db out.2 := by
  rcases resolveSourceSha256_checks h with rfl | ⟨task, htask, hprocessing, hagrees, rfl⟩
  · exact .refl _
  have hopen : task.state ≠ .completed := by
    rw [hprocessing]
    nofun
  exact keepsAnalyses_updateTask_open htask hopen hopen rfl fun hknown ↦ (hagrees hknown).symm

theorem scheduleRetry_completesNone (now : Timestamp) (reason : String) (maxRetries : ℕ) :
    CompletesNone db (scheduleRetry now taskId reason maxRetries db).2 := by
  obtain ⟨out, db', h⟩ : ∃ out db', scheduleRetry now taskId reason maxRetries db = (out, db') :=
    ⟨_, _, rfl⟩
  rw [h]
  rcases scheduleRetry_cases h with ⟨-, rfl, -⟩ |
    ⟨task, htask, hprocessing, ⟨-, -, rfl⟩ | ⟨-, -, rfl⟩⟩
  · exact .refl _
  all_goals
    exact keepsAnalyses_updateTask_open htask (by rw [hprocessing]; nofun) nofun rfl fun _ ↦ rfl

theorem recoverTask_completesNone {now : Timestamp} {maxRetries : ℕ} {eventId : Uuid → Uuid}
    (h : recoverTask now maxRetries eventId db taskId = .ok db') : CompletesNone db db' := by
  rcases recoverTask_cases h with rfl | ⟨task, htask, hstale, hdb⟩
  · exact .refl _
  have hopen : task.state ≠ .completed := by
    rw [AnalysisTask.stale_processing hstale]
    nofun
  rcases hdb with rfl | ⟨-, -, rfl⟩
  · exact keepsAnalyses_updateTask_open htask hopen nofun rfl fun _ ↦ rfl
  · have hupdate : CompletesNone db
        (db.updateTask taskId fun _ ↦ task.released.requeued "processing_timeout") :=
      keepsAnalyses_updateTask_open htask hopen nofun rfl fun _ ↦ rfl
    exact hupdate.trans (keepsAnalyses_of_tasks rfl)

theorem TaskCmd.exec_completesNone {c : TaskCmd} (h : c.exec db = .ok db') :
    CompletesNone db db' := by
  cases c with
  | enqueueKnowledgeTask taskId eventId now enabled contract source rules =>
      rcases enqueueKnowledgeTask_cases h with rfl |
        ⟨task, hfresh, -, ⟨hskipped, rfl⟩ | ⟨hqueued, -, rfl⟩⟩
      · exact .refl _
      · exact keepsAnalyses_insertTask hfresh (by rw [hskipped]; nofun) rfl rfl
      · exact keepsAnalyses_insertTask hfresh (by rw [hqueued]; nofun) rfl rfl
  | recoverStaleProcessing now maxRetries eventId picked =>
      exact Tx.foldlM_relates KeepsAnalyses.refl KeepsAnalyses.trans recoverTask_completesNone h
  | recordDeadLetter fresh taskId reason =>
      obtain ⟨deadLetters, -, h⟩ := Except.bind_eq_ok.mp h
      rw [← Except.pure_eq_ok.mp h]
      exact keepsAnalyses_of_tasks rfl
  | replayDeadLetter eventId taskId =>
      obtain ⟨out, hout, rfl⟩ := Except.map_eq_ok.mp h
      rcases replayDeadLetter_cases hout with hsame | ⟨task, htask, hdead, -, hout⟩
      · rw [hsame]
        exact .refl db
      · rw [hout]
        have hupdate : CompletesNone db (db.updateTask taskId fun _ ↦ task.replayed) :=
          keepsAnalyses_updateTask_open htask (by rw [hdead]; nofun) nofun rfl fun _ ↦ rfl
        exact hupdate.trans (keepsAnalyses_of_tasks rfl)
  | claimOutboxEvents now picked =>
      rw [← Except.ok.inj h]
      exact keepsAnalyses_of_tasks rfl
  | markOutboxPublished now eventId =>
      rw [← Except.ok.inj h]
      exact keepsAnalyses_of_tasks rfl
  | releaseOutboxEvent eventId =>
      rw [← Except.ok.inj h]
      exact keepsAnalyses_of_tasks rfl
  | setCardIndexState cardRow state =>
      rw [← Except.ok.inj h]
      exact keepsAnalyses_of_tasks rfl

/-- The task, which is being processed, is the only one that may be completed. -/
def CompletesTask (taskId : Uuid) (db db' : KnowledgeDb) : Prop :=
  (∃ t, db.tasks.lookup taskId = some t ∧ t.state = .processing) ∧
    KeepsAnalyses (· = taskId) db db'

theorem completeS3Batch_completes {ids : CompletionIds} {now : Timestamp} {result : BatchResult}
    (h : completeS3Batch ids now taskId result db = .ok db') :
    CompletesNone db db' ∨ CompletesTask taskId db db' := by
  rcases completeS3Batch_cases h with ⟨-, rfl⟩ | ⟨task, batchRow, batches, db₁, htask, -, hloop, rfl⟩
  · exact Or.inl (.refl _)
  have htasks : db₁.tasks = db.tasks := (recordCards_tasks hloop).trans rfl
  by_cases hprocessing : task.state = .processing
  · refine Or.inr ⟨⟨task, htask, hprocessing⟩,
      (keepsAnalyses_of_tasks htasks).trans (keepsAnalyses_updateTask fun t ht ↦ ?_)⟩
    obtain rfl := Option.some.inj (htask.symm.trans (htasks ▸ ht))
    rw [AnalysisTask.completedWith, if_pos hprocessing]
    refine ⟨⟨rfl, fun _ ↦ rfl, fun hcompleted ↦ ?_⟩, fun _ hnot ↦ absurd rfl hnot⟩
    rw [hprocessing] at hcompleted
    cases hcompleted
  · refine Or.inl ((keepsAnalyses_of_tasks htasks).trans (keepsAnalyses_updateTask fun t ht ↦ ?_))
    obtain rfl := Option.some.inj (htask.symm.trans (htasks ▸ ht))
    rw [AnalysisTask.completedWith, if_neg hprocessing]
    exact ⟨.refl task, fun hstate _ ↦ hstate⟩

theorem settleTask_completes {now : Timestamp} {state : TaskState} {reason : Option String}
    (h : settleTask now taskId state reason db = .ok db') :
    CompletesNone db db' ∨ state = .completed ∧ CompletesTask taskId db db' := by
  rcases settleTask_cases h with ⟨rfl, -⟩ | ⟨task, htask, hopen, hallowed, rfl⟩
  · exact Or.inl (.refl _)
  have hnot : task.state ≠ .completed := by
    intro hcompleted
    rw [hcompleted] at hopen
    cases hopen
  by_cases hstate : state = .completed
  · subst hstate
    have hprocessing : task.state = .processing := by
      cases hfrom : task.state with
      | processing => rfl
      | _ =>
          rw [hfrom] at hallowed
          exact absurd hallowed (by decide)
    refine Or.inr ⟨rfl, ⟨task, htask, hprocessing⟩, keepsAnalyses_updateTask fun t ht ↦ ?_⟩
    obtain rfl := Option.some.inj (htask.symm.trans ht)
    exact ⟨⟨rfl, fun _ ↦ rfl, fun h ↦ absurd h hnot⟩, fun _ hother ↦ absurd rfl hother⟩
  · exact Or.inl (keepsAnalyses_updateTask_open htask hnot hstate rfl fun _ ↦ rfl)

/-! ## Completed tasks stay apart -/

theorem AnalysisTask.Continues.sameSource {t₁ t₂ t₁' t₂' : AnalysisTask} (h₁ : t₁.Continues t₁')
    (h₂ : t₂.Continues t₂') (hcompleted : t₁.state = .completed)
    (hknown : t₂.state = .completed ∨ t₂.sourceSha256 ≠ none) :
    t₁'.SameSource t₂' ↔ t₁.SameSource t₂ := by
  have hsource₁ := (h₁.completed hcompleted).2
  have hsource₂ : t₂'.sourceSha256 = t₂.sourceSha256 :=
    hknown.elim (fun h ↦ (h₂.completed h).2) h₂.source
  unfold AnalysisTask.SameSource
  rw [hsource₁, hsource₂, h₁.contract, h₂.contract]

theorem KeepsAnalyses.completed_before (h : KeepsAnalyses completing db db') {id : Uuid}
    {t' : AnalysisTask} (ht' : db'.tasks.lookup id = some t') (hstate : t'.state = .completed)
    (hnot : ¬ completing id) :
    ∃ t, db.tasks.lookup id = some t ∧ t.state = .completed ∧ t.Continues t' := by
  obtain ⟨t, ht, hcompleted⟩ := h.completed id t' ht' hstate hnot
  obtain ⟨t'', ht'', hcontinues⟩ := h.continues id t ht
  obtain rfl := Option.some.inj (ht''.symm.trans ht')
  exact ⟨t, ht, hcompleted, hcontinues⟩

theorem CompletesNone.analysedOnce (h : CompletesNone db db') (honce : AnalysedOnce db) :
    AnalysedOnce db' := by
  intro i i' t t' ht ht' hstate hstate' hsame
  obtain ⟨t₁, ht₁, hcompleted, hcontinues⟩ := h.completed_before ht hstate not_false
  obtain ⟨t₂, ht₂, hcompleted', hcontinues'⟩ := h.completed_before ht' hstate' not_false
  exact honce i i' t₁ t₂ ht₁ ht₂ hcompleted hcompleted'
    ((hcontinues.sameSource hcontinues' hcompleted (Or.inl hcompleted')).mp hsame)

theorem AnalysisTask.SameSource.symm {t t' : AnalysisTask} (h : t.SameSource t') :
    t'.SameSource t :=
  ⟨h.1.symm, h.2.symm⟩

/-- A task may be completed which is the only one for its source. -/
theorem CompletesTask.analysedOnce {task : AnalysisTask} (h : CompletesTask taskId db db')
    (honce : AnalysedOnce db) (htask : db.tasks.lookup taskId = some task)
    (hsource : task.sourceSha256 ≠ none)
    (hfirst : ∀ id t, db.tasks.lookup id = some t → t.state = .completed → t.SameSource task →
      id = taskId) : AnalysedOnce db' := by
  obtain ⟨-, hkeeps⟩ := h
  obtain ⟨task', htask', hcontinues⟩ := hkeeps.continues taskId task htask
  -- Another completed task was completed before, and then not for this source.
  have hother : ∀ i t', db'.tasks.lookup i = some t' → t'.state = .completed →
      t'.SameSource task' → i = taskId := by
    intro i t' ht' hstate hsame
    by_contra hne
    obtain ⟨t, ht, hcompleted, hcontinues'⟩ := hkeeps.completed_before ht' hstate hne
    exact hne (hfirst i t ht hcompleted
      ((hcontinues'.sameSource hcontinues hcompleted (Or.inr hsource)).mp hsame))
  intro i i' t t' ht ht' hstate hstate' hsame
  by_cases hi : i = taskId
  · subst hi
    obtain rfl := Option.some.inj (htask'.symm.trans ht)
    exact (hother i' t' ht' hstate' hsame.symm).symm
  by_cases hi' : i' = taskId
  · subst hi'
    obtain rfl := Option.some.inj (htask'.symm.trans ht')
    exact hother i t ht hstate hsame
  obtain ⟨t₁, ht₁, hcompleted, hcontinues₁⟩ := hkeeps.completed_before ht hstate hi
  obtain ⟨t₂, ht₂, hcompleted', hcontinues₂⟩ := hkeeps.completed_before ht' hstate' hi'
  exact honce i i' t₁ t₂ ht₁ ht₂ hcompleted hcompleted'
    ((hcontinues₁.sameSource hcontinues₂ hcompleted (Or.inl hcompleted')).mp hsame)

/-! ## The invariant -/

/-- What an execution knows whose source was new when it was checked. -/
structure Execution.Knows (e : Execution) (db : KnowledgeDb) : Prop where
  known : ∃ task, db.tasks.lookup e.taskId = some task ∧ task.sourceSha256 ≠ none ∧
    ∀ id t₀, e.checkedIn.lookup id = some t₀ → t₀.state = .completed → t₀.SameSource task →
      id = e.taskId
  seen : ∀ id t₀, e.checkedIn.lookup id = some t₀ → t₀.state = .completed →
    ∃ t, db.tasks.lookup id = some t ∧ t.state = .completed ∧ t₀.SameSource t

theorem Execution.Knows.mono {e : Execution} (he : e.Knows db)
    (h : KeepsAnalyses completing db db') : e.Knows db' := by
  obtain ⟨⟨task, htask, hsource, hnew⟩, hseen⟩ := he
  obtain ⟨task', htask', hcontinues⟩ := h.continues _ task htask
  have hsame := hcontinues.source hsource
  refine ⟨⟨task', htask', hsame ▸ hsource, fun id t₀ ht₀ hstate hlike ↦ ?_⟩,
    fun id t₀ ht₀ hstate ↦ ?_⟩
  · exact hnew id t₀ ht₀ hstate ⟨hlike.1.trans hsame, hlike.2.trans hcontinues.contract⟩
  · obtain ⟨t, ht, hcompleted, hlike⟩ := hseen id t₀ ht₀ hstate
    obtain ⟨t', ht', hcontinues'⟩ := h.continues id t ht
    obtain ⟨hcompleted', hsame'⟩ := hcontinues'.completed hcompleted
    exact ⟨t', ht', hcompleted', hlike.1.trans hsame'.symm,
      hlike.2.trans hcontinues'.contract.symm⟩

/-- The only completed task an execution can meet unawares is one completed since its check. -/
theorem Execution.Knows.first {e : Execution} (he : e.Knows db) {task : AnalysisTask}
    (htask : db.tasks.lookup e.taskId = some task)
    (hsince : ∀ id t, db.tasks.lookup id = some t → t.state = .completed → t.SameSource task →
      ∃ t₀, e.checkedIn.lookup id = some t₀ ∧ t₀.state = .completed) :
    task.sourceSha256 ≠ none ∧ ∀ id t, db.tasks.lookup id = some t → t.state = .completed →
      t.SameSource task → id = e.taskId := by
  obtain ⟨⟨task', htask', hsource, hnew⟩, hseen⟩ := he
  obtain rfl := Option.some.inj (htask.symm.trans htask')
  refine ⟨hsource, fun id t ht hstate hlike ↦ ?_⟩
  obtain ⟨t₀, ht₀, hstate₀⟩ := hsince id t ht hstate hlike
  obtain ⟨t', ht', -, hlike₀⟩ := hseen id t₀ ht₀ hstate₀
  obtain rfl := Option.some.inj (ht.symm.trans ht')
  exact hnew id t₀ ht₀ hstate₀ ⟨hlike₀.1.trans hlike.1, hlike₀.2.trans hlike.2⟩

theorem duplicateOf_eq_false {sha hash : String} {other : Uuid → Bool}
    (h : duplicateOf sha hash other db = false) {id : Uuid} {t : AnalysisTask}
    (ht : db.tasks.lookup id = some t) (hother : other id) (hsha : t.sourceSha256 = some sha)
    (hhash : t.contractManifestHash = hash) : t.state ≠ .completed := by
  intro hcompleted
  have hfound : duplicateOf sha hash other db = true :=
    AList.anyRow_eq_true.mpr ⟨id, t, ht, by simp [hother, hsha, hhash, hcompleted]⟩
  rw [h] at hfound
  cases hfound

structure AnalysisWorld.Checked (w : AnalysisWorld) : Prop where
  once : AnalysedOnce w.db
  knows : ∀ e ∈ w.executions, e.stage.checked → e.Knows w.db

namespace AnalysisWorld

variable {w w' : AnalysisWorld} {i : ℕ} {e : Execution}

theorem Checked.enter {e' : Execution} {stage : ExecutionStage} (hw : w.Checked)
    (hkeeps : KeepsAnalyses completing w.db db) (honce : AnalysedOnce db)
    (hknows : stage.checked → { e' with stage }.Knows db) : (w.enter i e' stage db).Checked := by
  refine ⟨honce, fun e₁ he₁ hchecked ↦ ?_⟩
  rcases List.mem_or_eq_of_mem_set he₁ with hold | rfl
  · exact (hw.knows e₁ hold hchecked).mono hkeeps
  · exact hknows hchecked

/-- The step completes no task, and the execution goes on with what it knew. -/
theorem Checked.goOn {stage : ExecutionStage} (hw : w.Checked) (he : w.executions[i]? = some e)
    (hnone : CompletesNone w.db db) (hstage : stage.checked → e.stage.checked) :
    (w.enter i e stage db).Checked := by
  refine hw.enter hnone (hnone.analysedOnce hw.once) fun hchecked ↦ ?_
  obtain ⟨hknown, hseen⟩ :=
    (hw.knows e (List.mem_of_getElem? he) (hstage hchecked)).mono hnone
  exact ⟨hknown, hseen⟩

/-- The execution completes its task, which nobody has overtaken. -/
theorem Checked.complete {step : ExecutionStep} {stage : ExecutionStage} (hw : w.Checked)
    (he : w.executions[i]? = some e) (hc : w.NotOvertaken (.execution i step))
    (hcompletes : step.completes e.stage) (hchecked : e.stage.checked)
    (hcompleted : CompletesTask e.taskId w.db db) : (w.enter i e stage db).Checked := by
  obtain ⟨task, htask, hprocessing⟩ := hcompleted.1
  have hknows := hw.knows e (List.mem_of_getElem? he) hchecked
  obtain ⟨hsource, hfirst⟩ := hknows.first htask (hc e task he hcompletes htask hprocessing)
  refine hw.enter hcompleted.2 (hcompleted.analysedOnce hw.once htask hsource hfirst) fun _ ↦ ?_
  obtain ⟨hknown, hseen⟩ := hknows.mono hcompleted.2
  exact ⟨hknown, hseen⟩

/-- The check of a source which finds it new. -/
theorem knows_of_resolve {sha : String}
    (h : resolveSourceSha256 taskId sha db = .ok (true, db')) :
    Execution.Knows ⟨taskId, .analysing, db'.tasks⟩ db' := by
  rcases resolveSourceSha256_checks h with hout | ⟨task, htask, hprocessing, -, hout⟩
  · cases hout
  obtain ⟨hnew, rfl⟩ := Prod.mk.inj hout
  refine ⟨⟨{ task with sourceSha256 := some sha }, ?_, nofun, fun id t ht hstate hlike ↦ ?_⟩,
    fun id t ht hstate ↦ ⟨t, ht, hstate, rfl, rfl⟩⟩
  · rw [KnowledgeDb.lookup_updateTask, if_pos rfl, htask]
    rfl
  · by_contra hne
    rw [KnowledgeDb.lookup_updateTask, if_neg hne] at ht
    exact duplicateOf_eq_false (Bool.not_eq_true' _ ▸ hnew.symm) ht (decide_eq_true hne) hlike.1
      hlike.2 hstate

theorem Checked.resolve (hw : w.Checked) (he : w.executions[i]? = some e)
    (sha : String) : (w.resolve i e sha).Checked := by
  unfold AnalysisWorld.resolve
  split
  · exact hw.goOn he (.refl _) nofun
  · rename_i db hresolve
    exact hw.goOn he (resolveSourceSha256_completesNone hresolve) nofun
  · rename_i db hresolve
    have hnone := resolveSourceSha256_completesNone hresolve
    exact hw.enter hnone (hnone.analysedOnce hw.once) fun _ ↦ knows_of_resolve hresolve

theorem of_next {p : Prop} [Decidable p] {x : Tx AnalysisWorld}
    (h : (if p then x else notNext) = .ok w') : p ∧ x = .ok w' := by
  split at h
  · exact ⟨‹p›, h⟩
  · cases h

theorem Checked.stepOf {step : ExecutionStep} (hw : w.Checked) (he : w.executions[i]? = some e)
    (hc : w.NotOvertaken (.execution i step)) (hok : w.stepOf i e step = .ok w') : w'.Checked := by
  cases step with
  | setTaskPhase phase =>
      obtain ⟨-, hok⟩ := of_next hok
      rw [← Except.ok.inj hok]
      exact hw.goOn he (setTaskPhase_completesNone phase) id
  | resolveSourceSha256 sha =>
      obtain ⟨-, hok⟩ := of_next hok
      rw [← Except.ok.inj hok]
      exact hw.resolve he sha
  | skip reason =>
      obtain ⟨-, hok⟩ := of_next hok
      rw [← Except.ok.inj hok]
      exact hw.goOn he (.refl _) nofun
  | completeS3Batch ids now result =>
      obtain ⟨hstage, hok⟩ := of_next hok
      obtain ⟨db, hdb, rfl⟩ := Except.map_eq_ok.mp hok
      rcases completeS3Batch_completes hdb with hnone | hcompleted
      · exact hw.goOn he hnone fun _ ↦ by rw [hstage]; rfl
      · exact hw.complete he hc (by rw [hstage]; rfl) (by rw [hstage]; rfl) hcompleted
  | settleTask now =>
      simp only [AnalysisWorld.stepOf] at hok
      split at hok
      · rename_i state reason hstage
        obtain ⟨db, hdb, rfl⟩ := Except.map_eq_ok.mp hok
        rcases settleTask_completes hdb with hnone | ⟨rfl, hcompleted⟩
        · exact hw.goOn he hnone nofun
        · exact hw.complete he hc (by rw [hstage]; rfl) (by rw [hstage]; rfl) hcompleted
      · cases hok
  | scheduleRetry now reason maxRetries =>
      obtain ⟨-, hok⟩ := of_next hok
      rw [← Except.ok.inj hok]
      exact hw.goOn he (scheduleRetry_completesNone now reason maxRetries) nofun

theorem Checked.change (hw : w.Checked) (h : CompletesNone w.db db) :
    Checked { w with db } :=
  ⟨h.analysedOnce hw.once, fun e he hchecked ↦ (hw.knows e he hchecked).mono h⟩

theorem Checked.exec {step : AnalysisStep} (hw : w.Checked) (hc : w.NotOvertaken step)
    (hok : AnalysisWorld.exec step w = .ok w') : w'.Checked := by
  cases step with
  | claimTask token now taskId =>
      simp only [AnalysisWorld.exec] at hok
      split at hok
      · rename_i db hclaim
        rw [← Except.ok.inj hok]
        exact hw.change (claimTask_completesNone hclaim)
      · rename_i task db hclaim
        rw [← Except.ok.inj hok]
        have hchanged := hw.change (claimTask_completesNone hclaim)
        refine ⟨hchanged.once, fun e he hchecked ↦ ?_⟩
        rcases List.mem_append.mp he with hold | hnew
        · exact hchanged.knows e hold hchecked
        · rw [List.mem_singleton.mp hnew] at hchecked
          cases hchecked
  | execution i step =>
      simp only [AnalysisWorld.exec] at hok
      split at hok
      · cases hok
      · rename_i e he
        exact hw.stepOf he hc hok
  | other c =>
      obtain ⟨db, hdb, rfl⟩ := Except.map_eq_ok.mp hok
      exact hw.change (TaskCmd.exec_completesNone hdb)

end AnalysisWorld

/-! ## Completions which were overtaken -/

theorem stepOf_continues {w w' : AnalysisWorld} {i : ℕ} {e : Execution} {step : ExecutionStep}
    (hcompletes : step.completes e.stage) (hok : w.stepOf i e step = .ok w') {id : Uuid}
    {t : AnalysisTask} (ht : w.db.tasks.lookup id = some t) :
    ∃ t', w'.db.tasks.lookup id = some t' ∧ t.Continues t' := by
  cases step with
  | completeS3Batch ids now result =>
      obtain ⟨-, hok⟩ := AnalysisWorld.of_next hok
      obtain ⟨db, hdb, rfl⟩ := Except.map_eq_ok.mp hok
      rcases completeS3Batch_completes hdb with hnone | ⟨-, hkeeps⟩
      · exact hnone.continues id t ht
      · exact hkeeps.continues id t ht
  | settleTask now =>
      simp only [AnalysisWorld.stepOf] at hok
      split at hok
      · obtain ⟨db, hdb, rfl⟩ := Except.map_eq_ok.mp hok
        rcases settleTask_completes hdb with hnone | ⟨-, -, hkeeps⟩
        · exact hnone.continues id t ht
        · exact hkeeps.continues id t ht
      · cases hok
  | _ => cases hcompletes

/-- The completed task keeps its source. -/
theorem stepOf_completed {w w' : AnalysisWorld} {i : ℕ} {e : Execution} {step : ExecutionStep}
    {task : AnalysisTask} (hcompletes : step.completes e.stage)
    (htask : w.db.tasks.lookup e.taskId = some task) (hprocessing : task.state = .processing)
    (hok : w.stepOf i e step = .ok w') :
    ∃ task', w'.db.tasks.lookup e.taskId = some task' ∧ task'.state = .completed ∧
      task'.SameSource task := by
  cases step with
  | completeS3Batch ids now result =>
      obtain ⟨-, hok⟩ := AnalysisWorld.of_next hok
      obtain ⟨db, hdb, rfl⟩ := Except.map_eq_ok.mp hok
      rcases completeS3Batch_cases hdb with ⟨hnone, -⟩ | ⟨_, batchRow, batches, db₁, -, -, hloop, rfl⟩
      · rw [htask] at hnone
        cases hnone
      have htask₁ : db₁.tasks.lookup e.taskId = some task := by
        rw [recordCards_tasks hloop]
        exact htask
      refine ⟨task.completedWith now result, ?_, ?_⟩
      · exact (KnowledgeDb.lookup_updateTask _ _).trans (by rw [if_pos rfl, htask₁]; rfl)
      · rw [AnalysisTask.completedWith, if_pos hprocessing]
        exact ⟨rfl, rfl, rfl⟩
  | settleTask now =>
      simp only [AnalysisWorld.stepOf] at hok
      split at hok
      · rename_i state reason hstage
        obtain ⟨db, hdb, rfl⟩ := Except.map_eq_ok.mp hok
        have hstate : state = .completed := by
          rw [hstage] at hcompletes
          cases state <;> first | rfl | cases hcompletes
        rcases settleTask_cases hdb with ⟨-, hterminal⟩ | ⟨task', htask', -, -, rfl⟩
        · have hterminal := hterminal task htask
          rw [hprocessing] at hterminal
          cases hterminal
        · obtain rfl := Option.some.inj (htask.symm.trans htask')
          refine ⟨task.settled now state reason, ?_, hstate, rfl, rfl⟩
          exact (KnowledgeDb.lookup_updateTask _ _).trans (by rw [if_pos rfl, htask]; rfl)
      · cases hok
  | _ => cases hcompletes

/-- An overtaken execution completes a second task for its source. -/
theorem notOvertaken_of_analysedOnce {w w' : AnalysisWorld} {step : AnalysisStep}
    (hok : AnalysisWorld.exec step w = .ok w') (honce : AnalysedOnce w'.db) :
    w.NotOvertaken step := by
  cases step with
  | execution i step =>
      intro e task he hcompletes htask hprocessing id t ht hstate hlike
      simp only [AnalysisWorld.exec, he] at hok
      obtain ⟨task', htask', hcompleted, hlike'⟩ := stepOf_completed hcompletes htask hprocessing hok
      obtain ⟨t', ht', hcontinues⟩ := stepOf_continues hcompletes hok ht
      obtain ⟨hstate', hsource⟩ := hcontinues.completed hstate
      have hsame : t'.SameSource task' := by
        refine ⟨?_, ?_⟩
        · rw [hsource, hlike.1, hlike'.1]
        · rw [hcontinues.contract, hlike.2, hlike'.2]
      obtain rfl := honce id e.taskId t' task' ht' htask' hstate' hcompleted hsame
      obtain rfl := Option.some.inj (htask.symm.trans ht)
      rw [hprocessing] at hstate
      cases hstate
  | claimTask token now taskId => trivial
  | other c => trivial

/-- In an interleaving in which no task is completed between the check and the completion of
another one for the same source, no source is analysed twice.  A completion which has been
overtaken analyses its source a second time. -/
theorem sources_analysed_once {db : KnowledgeDb} (hdb : AnalysedOnce db) :
    (∀ steps, Meets AnalysisWorld.exec AnalysisWorld.NotOvertaken ⟨db, []⟩ steps →
      AnalysedOnce (run AnalysisWorld.exec ⟨db, []⟩ steps).db) ∧
    ∀ w step w', AnalysisWorld.exec step w = .ok w' → AnalysedOnce w'.db → w.NotOvertaken step := by
  refine ⟨fun steps hmeets ↦ ?_, fun w step w' hok honce ↦ ?_⟩
  · have hstart : AnalysisWorld.Checked ⟨db, []⟩ := ⟨hdb, fun _ he ↦ nomatch he⟩
    exact (run_invariant (fun _ _ _ hw hc hok ↦ hw.exec hc hok) hstart hmeets).once
  · exact notOvertaken_of_analysedOnce hok honce

/-- Nobody is overtaken as long as no task is completed. -/
theorem notOvertaken_of_none {w : AnalysisWorld} {step : AnalysisStep}
    (h : w.db.tasks.anyRow (fun _ t ↦ t.state = .completed) = false) : w.NotOvertaken step := by
  cases step with
  | execution i step =>
      intro e task _ _ _ _ id t ht hstate
      have hnot := AList.anyRow_eq_false.mp h id t ht
      rw [hstate] at hnot
      cases hnot
  | claimTask token now taskId => trivial
  | other c => trivial

namespace Sample

/-- Another file. -/
def secondSource : CommittedSource :=
  ⟨8, some 5, 2, none, "reports/b.pdf", some "application/pdf", none⟩

/-- The tasks of two files are claimed, and the contents are found to be new. -/
def bothChecked : List AnalysisStep :=
  [.other enqueued, .other (.enqueueKnowledgeTask 2 2 0 true contract secondSource []),
    .claimTask 11 0 1, .claimTask 12 0 2, .execution 0 (.resolveSourceSha256 "d"),
    .execution 1 (.resolveSourceSha256 "d")]

def completion (i : ℕ) : AnalysisStep :=
  .execution i (.completeS3Batch ⟨30 + i, fun _ ↦ 40 + i, fun _ ↦ 50 + i⟩ 0 noCards)

/-- The second file is looked at when the first has been analysed. -/
def oneByOne : List AnalysisStep :=
  bothChecked.take 5 ++ [completion 0, .execution 1 (.resolveSourceSha256 "d"),
    .execution 1 (.settleTask 0)]

theorem notOvertaken_oneByOne :
    Meets AnalysisWorld.exec AnalysisWorld.NotOvertaken ⟨emptyDb, []⟩ oneByOne := by
  have hnone : ∀ n < 6, (run AnalysisWorld.exec ⟨emptyDb, []⟩ (oneByOne.take n)).db.tasks.anyRow
      (fun _ t ↦ t.state = .completed) = false := by decide
  refine ⟨notOvertaken_of_none (hnone 0 (by decide)), notOvertaken_of_none (hnone 1 (by decide)),
    notOvertaken_of_none (hnone 2 (by decide)), notOvertaken_of_none (hnone 3 (by decide)),
    notOvertaken_of_none (hnone 4 (by decide)), notOvertaken_of_none (hnone 5 (by decide)),
    fun e task _ hcompletes ↦ (nomatch hcompletes), fun e task he hcompletes ↦ ?_, trivial⟩
  have hstage : (run AnalysisWorld.exec ⟨emptyDb, []⟩ (oneByOne.take 7)).executions[1]?.map
      (·.stage) = some (.returned .skipped (some "duplicate_content")) := by decide
  change (run AnalysisWorld.exec ⟨emptyDb, []⟩ (oneByOne.take 7)).executions[1]? = some e at he
  rw [he, Option.map_some] at hstage
  rw [Option.some.inj hstage] at hcompletes
  cases hcompletes

theorem analysedOnce_empty : AnalysedOnce emptyDb :=
  fun _ _ _ _ h ↦ nomatch h

end Sample

/-- The second task is skipped as a duplicate. -/
theorem sources_analysed_once_sample :
    AnalysedOnce (run AnalysisWorld.exec ⟨Sample.emptyDb, []⟩ Sample.oneByOne).db :=
  (sources_analysed_once Sample.analysedOnce_empty).1 _ Sample.notOvertaken_oneByOne

/-- Two tasks for one content are completed, when both have been checked before. -/
theorem source_analysed_twice :
    ¬ ∀ (db : KnowledgeDb) (steps : List AnalysisStep), AnalysedOnce db →
      AnalysedOnce (run AnalysisWorld.exec ⟨db, []⟩ steps).db := by
  intro h
  have honce := h Sample.emptyDb (Sample.bothChecked ++ [Sample.completion 0, Sample.completion 1])
    Sample.analysedOnce_empty
  generalize hdb : (run AnalysisWorld.exec ⟨Sample.emptyDb, []⟩
    (Sample.bothChecked ++ [Sample.completion 0, Sample.completion 1])).db = db at honce
  have hrows : ∀ id, id = 1 ∨ id = 2 → (db.tasks.lookup id).map (fun t ↦
      (t.state, t.sourceSha256, t.contractManifestHash)) = some (.completed, some "d", "c0") := by
    rw [← hdb]
    rintro id (rfl | rfl)
    · decide
    · decide
  obtain ⟨t, ht, hrow⟩ := Option.map_eq_some_iff.mp (hrows 1 (Or.inl rfl))
  obtain ⟨t', ht', hrow'⟩ := Option.map_eq_some_iff.mp (hrows 2 (Or.inr rfl))
  obtain ⟨hstate, hsource, hcontract⟩ : t.state = .completed ∧ t.sourceSha256 = some "d" ∧
      t.contractManifestHash = "c0" := by simpa using hrow
  obtain ⟨hstate', hsource', hcontract'⟩ : t'.state = .completed ∧ t'.sourceSha256 = some "d" ∧
      t'.contractManifestHash = "c0" := by simpa using hrow'
  have hsame : t.SameSource t' := ⟨hsource.trans hsource'.symm, hcontract.trans hcontract'.symm⟩
  exact absurd (honce 1 2 t t' ht ht' hstate hstate' hsame) (by decide)

end S3mp.Knowledge
