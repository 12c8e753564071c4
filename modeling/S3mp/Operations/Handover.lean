import S3mp.Operations.Broker
import S3mp.Operations.Locks

/-!
# What is handed over between store, broker and worker

A transaction of the API, the recovery job, the operator or the cutover leaves an
operation in the status it had, ends it, or queues it with a fresh outbox event.
A transaction of a delivery writes the status of its own operation alone.  The
worker reports nothing but a terminal status or `retry_wait`.
-/

namespace S3mp

open Relational Files Storage Transition

/-! ## The outcomes of the worker -/

/-- The outcomes which the receiver settles or retries. -/
def Settleable (outcome : Outcome) : Prop :=
  outcome.1 = .retryWait ∨ outcome.1.terminal

section

variable {op : FileOperation} {ctx : Identity.PrincipalContext} {id tenantId spaceId : Uuid}
  {space : StorageSpace} {source destination : ProviderTarget} {sourceKey : String}

theorem removeSource_settleable {sourceState : Option ObjectMetadata} :
    ReturnsR Settleable (removeSource ctx spaceId sourceKey source sourceState) := by
  unfold removeSource
  split
  · exact returnsR_pure (Or.inr rfl)
  · refine returnsR_rest fun granted ↦ ?_
    split
    · exact returnsR_pure (Or.inr rfl)
    · refine returnsR_tryCatch ?_ fun _ ↦ returnsR_pure (Or.inr rfl)
      exact returnsR_rest fun _ ↦ returnsR_pure (Or.inr rfl)

theorem acceptCopy_settleable {sourceState : Option ObjectMetadata} {copied : ObjectMetadata} :
    ReturnsR Settleable (acceptCopy id op ctx spaceId sourceKey source sourceState copied) := by
  unfold acceptCopy
  split
  · exact returnsR_pure (Or.inl rfl)
  · refine returnsR_rest fun _ ↦ ?_
    split
    · exact returnsR_pure (Or.inr rfl)
    · exact removeSource_settleable

theorem ensureCopied_settleable {sourceState destinationState : Option ObjectMetadata} :
    ReturnsR (fun out ↦ ∀ outcome, out = .error outcome → Settleable outcome)
      (ensureCopied source destination sourceState destinationState) := by
  unfold ensureCopied
  split
  · exact returnsR_pure fun _ h ↦ nomatch h
  split
  · refine returnsR_pure ?_
    rintro _ ⟨⟩
    exact Or.inr rfl
  · refine returnsR_rest fun _ ↦ returnsR_rest fun found ↦ ?_
    split
    · refine returnsR_pure ?_
      rintro _ ⟨⟩
      exact Or.inl rfl
    · exact returnsR_pure fun _ h ↦ nomatch h

theorem transferObject_settleable :
    ReturnsR Settleable (transferObject id op ctx spaceId sourceKey source destination) := by
  unfold transferObject
  refine returnsR_rest fun sourceState ↦ returnsR_rest fun destinationState ↦ ?_
  refine returnsR_bind ensureCopied_settleable fun out hout ↦ ?_
  split
  · exact returnsR_pure (hout _ rfl)
  · exact acceptCopy_settleable

theorem deleteKeys_settleable (keys : List String) :
    ReturnsR Settleable (deleteKeys tenantId ctx spaceId space keys) := by
  induction keys with
  | nil => exact returnsR_pure (Or.inr rfl)
  | cons key keys ih =>
      unfold deleteKeys
      refine returnsR_rest fun granted ↦ ?_
      split
      · exact returnsR_pure (Or.inr rfl)
      split
      · exact returnsR_pure (Or.inr rfl)
      · exact returnsR_rest fun _ ↦ ih

theorem performTransfer_settleable :
    ReturnsR Settleable (performTransfer tenantId id op ctx spaceId space) := by
  unfold performTransfer
  split
  · refine returnsR_rest fun granted ↦ ?_
    split
    · exact returnsR_pure (Or.inr rfl)
    split
    · exact transferObject_settleable
    · exact returnsR_pure (Or.inr rfl)
  · exact returnsR_pure (Or.inr rfl)

/-- Whatever the provider and the stores answer, the worker raises or reports an outcome the
receiver can settle. -/
theorem executeOperation_settleable : ReturnsR Settleable (executeOperation tenantId id op) := by
  unfold executeOperation
  split
  · exact returnsR_pure (Or.inr rfl)
  refine returnsR_rest fun subject ↦ ?_
  split
  · exact returnsR_pure (Or.inr rfl)
  split
  · exact returnsR_throw ()
  refine returnsR_rest fun found ↦ ?_
  split
  · exact returnsR_pure (Or.inr rfl)
  split
  · exact returnsR_pure (Or.inr rfl)
  · unfold performOperation
    refine returnsR_tryCatch ?_ fun _ ↦ returnsR_pure (Or.inl rfl)
    split
    · exact deleteKeys_settleable _
    · exact performTransfer_settleable

end

/-! ## The rows of an operation -/

/-- The operation occupies a row which bears the time of its start. -/
def Stamped (o : Uuid) (db : Db) : Prop :=
  ∃ j f, db.files.lookup j = some f ∧ f.activeOperationId = some o ∧ f.processingStartedAt.isSome

/-- The operation still occupies its rows, and they bear the same time. -/
def RowsKept (o : Uuid) (db db' : Db) : Prop :=
  ∀ j f, db.files.lookup j = some f → f.activeOperationId = some o →
    ∃ f', db'.files.lookup j = some f' ∧ f'.activeOperationId = some o ∧
      f'.processingStartedAt = f.processingStartedAt

variable {db db' : Db} {o o' : Uuid}

theorem RowsKept.refl (o : Uuid) (db : Db) : RowsKept o db db :=
  fun _ f hf hheld ↦ ⟨f, hf, hheld, rfl⟩

theorem RowsKept.trans {db'' : Db} (h : RowsKept o db db') (h' : RowsKept o db' db'') :
    RowsKept o db db'' := by
  intro j f hf hheld
  obtain ⟨f', hf', hheld', hstart⟩ := h j f hf hheld
  obtain ⟨f'', hf'', hheld'', hstart'⟩ := h' j f' hf' hheld'
  exact ⟨f'', hf'', hheld'', hstart'.trans hstart⟩

theorem RowsKept.stamped (h : RowsKept o db db') (hdb : Stamped o db) : Stamped o db' := by
  obtain ⟨j, f, hf, hheld, hstart⟩ := hdb
  obtain ⟨f', hf', hheld', hstart'⟩ := h j f hf hheld
  exact ⟨j, f', hf', hheld', hstart' ▸ hstart⟩

theorem rowsKept_of_files (h : db'.files = db.files) : RowsKept o db db' :=
  fun _ f hf hheld ↦ ⟨f, h ▸ hf, hheld, rfl⟩

theorem rowsKept_updateHeld {g : FileObject → FileObject} (ho : o ≠ o')
    (h : db'.files = updateHeld o' g db.files) : RowsKept o db db' := by
  intro j f hf hheld
  refine ⟨f, ?_, hheld, rfl⟩
  rw [h]
  exact lookup_updateHeld_of_ne hf (by simpa [hheld] using ho)

theorem rowsKept_settled {now : Timestamp} {op : FileOperation} {status : OperationStatus}
    (ho : o ≠ o') (h : db'.files = settledFiles now o' op status db.files) :
    RowsKept o db db' := by
  intro j f hf hheld
  refine ⟨f, ?_, hheld, rfl⟩
  rw [h]
  exact settledFiles_rows hf (by simpa [hheld] using ho)

theorem recordRenameProviderResult_rowsKept {etag : Option String} :
    RowsKept o db (recordRenameProviderResult o' etag db) := by
  unfold recordRenameProviderResult
  split
  · exact .refl o db
  split
  · exact .refl o db
  split
  · exact .refl o db
  · intro j f hf hheld
    dsimp only
    rw [AList.lookup_update]
    split
    · rename_i hj
      rw [← hj, hf]
      exact ⟨_, rfl, hheld, rfl⟩
    · exact ⟨f, hf, hheld, rfl⟩

/-- A new operation occupies free rows only. -/
theorem Occupies.rowsKept {op : FileOperation} {ids : List Uuid} {files : Table Uuid FileObject}
    (h : Occupies o' op ids files db db')
    (hfiles : ∀ j f, db.files.lookup j = some f → files.lookup j = some f) : RowsKept o db db' := by
  intro j f hf hheld
  have hfree : ids.contains j = false := by
    rw [← Bool.not_eq_true]
    intro hj
    have hnone := (h.free j (by simpa using hj) f (hfiles j f hf)).2
    rw [hnone] at hheld
    cases hheld
  refine ⟨f, ?_, hheld, rfl⟩
  rw [h.occupied, occupy, AList.lookup_updateWhere, hfiles j f hf, Option.map_some, hfree]
  rfl

/-- The other commands do not touch an occupied row. -/
theorem ChangesRow.rowsKept {k : Uuid} (hdb : Consistent db) (h : ChangesRow k db db') :
    RowsKept o db db' := by
  intro j f hf hheld
  by_cases hj : j = k
  · subst hj
    obtain ⟨f', hf'⟩ := AList.exists_lookup_of_mem (h.stays (AList.mem_of_lookup hf))
    cases h.change f' hf' with
    | same _ hsame =>
        obtain rfl := Option.some.inj (hf.symm.trans hsame)
        exact ⟨f, hf', hheld, rfl⟩
    | edited f₀ _ hold _ _ _ hfree =>
        obtain rfl := Option.some.inj (hf.symm.trans hold)
        rw [hfree (hdb.operable j f hf (by simp [hheld]))] at hheld
        cases hheld
    | created _ hnot => exact absurd (AList.mem_of_lookup hf) hnot
  · exact ⟨f, by rw [h.others j hj, hf], hheld, rfl⟩

/-! ## The transactions of the store -/

/-- The statuses of operations which the old worker polled for. -/
def Files.OperationStatus.legacy (status : OperationStatus) : Bool :=
  status ∈ [.pending, .running, .retryWait]

theorem legacy_of_terminal {status : OperationStatus} (h : status.terminal) :
    status.legacy = false := by
  revert h
  cases status <;> decide

/-- An operation the cutover has yet to queue has no outbox event. -/
def LegacyFresh (db : Db) : Prop :=
  ∀ o op e event, db.operations.lookup o = some op → op.status.legacy →
    db.outbox.lookup e = some event → event.operationId ≠ o

/-- The transaction has put an event of the operation into the outbox. -/
def Posted (o : Uuid) (db db' : Db) : Prop :=
  ∃ e replayOf, e ∉ db.outbox ∧ db'.outbox.lookup e = some (outboxEvent o replayOf)

/-- What a transaction of the store does to an operation. -/
inductive Handed (db db' : Db) (o : Uuid) (op' : FileOperation) : Prop
  | kept (op : FileOperation) (hop : db.operations.lookup o = some op)
      (hstatus : op'.status = op.status) (hrows : RowsKept o db db') : Handed db db' o op'
  | posted (hstatus : op'.status = .queued) (hposted : Posted o db db') : Handed db db' o op'
  | ended (hterminal : op'.status.terminal) : Handed db db' o op'

structure HandsOver (db db' : Db) : Prop where
  known : ∀ o, o ∈ db.operations → o ∈ db'.operations
  handed : ∀ o op', db'.operations.lookup o = some op' → Handed db db' o op'
  outbox : ∀ e event, db.outbox.lookup e = some event → db'.outbox.lookup e = some event
  events : ∀ e event, db'.outbox.lookup e = some event → db.outbox.lookup e = some event ∨
    ∃ op', db'.operations.lookup event.operationId = some op' ∧ op'.status.legacy = false

theorem HandsOver.refl (db : Db) : HandsOver db db :=
  ⟨fun _ ho ↦ ho, fun o op hop ↦ .kept op hop rfl (.refl o db), fun _ _ he ↦ he,
    fun _ _ he ↦ Or.inl he⟩

theorem mem_outbox_mono (h : HandsOver db db') {e : Uuid} (he : e ∈ db.outbox) :
    e ∈ db'.outbox := by
  obtain ⟨event, hevent⟩ := AList.exists_lookup_of_mem he
  exact AList.mem_of_lookup (h.outbox e event hevent)

theorem legacy_of_handed {op' : FileOperation} (h : Handed db db' o op')
    (hlegacy : op'.status.legacy) :
    ∃ op, db.operations.lookup o = some op ∧ op'.status = op.status := by
  cases h with
  | kept op hop hstatus => exact ⟨op, hop, hstatus⟩
  | posted hstatus => simp [hstatus, OperationStatus.legacy] at hlegacy
  | ended hterminal =>
      rw [legacy_of_terminal hterminal] at hlegacy
      cases hlegacy

theorem HandsOver.trans {db'' : Db} (h : HandsOver db db') (h' : HandsOver db' db'') :
    HandsOver db db'' := by
  refine ⟨fun o ho ↦ h'.known o (h.known o ho), fun o op'' hop'' ↦ ?_,
    fun e event he ↦ h'.outbox e event (h.outbox e event he), fun e event he ↦ ?_⟩
  · cases h'.handed o op'' hop'' with
    | kept op' hop' hstatus hrows =>
        cases h.handed o op' hop' with
        | kept op hop hstatus₀ hrows₀ =>
            exact .kept op hop (hstatus.trans hstatus₀) (hrows₀.trans hrows)
        | posted hstatus₀ hposted =>
            obtain ⟨e, replayOf, hfresh, he⟩ := hposted
            exact .posted (hstatus.trans hstatus₀) ⟨e, replayOf, hfresh, h'.outbox _ _ he⟩
        | ended hterminal => exact .ended (hstatus ▸ hterminal)
    | posted hstatus hposted =>
        obtain ⟨e, replayOf, hfresh, he⟩ := hposted
        exact .posted hstatus ⟨e, replayOf, fun hmem ↦ hfresh (mem_outbox_mono h hmem), he⟩
    | ended hterminal => exact .ended hterminal
  · rcases h'.events e event he with he' | hnew
    · rcases h.events e event he' with hold | ⟨op', hop', hlegacy⟩
      · exact Or.inl hold
      · obtain ⟨op'', hop''⟩ :=
          AList.exists_lookup_of_mem (h'.known _ (AList.mem_of_lookup hop'))
        refine Or.inr ⟨op'', hop'', Bool.eq_false_iff.mpr fun hstill ↦ ?_⟩
        obtain ⟨op₁, hop₁, hstatus⟩ := legacy_of_handed (h'.handed _ _ hop'') hstill
        obtain rfl := Option.some.inj (hop'.symm.trans hop₁)
        rw [hstatus, hlegacy] at hstill
        cases hstill
    · exact Or.inr hnew

theorem HandsOver.legacyFresh (h : HandsOver db db') (hdb : LegacyFresh db) : LegacyFresh db' := by
  rintro o op' e event hop' hlegacy hevent rfl
  obtain ⟨op, hop, hstatus⟩ := legacy_of_handed (h.handed _ _ hop') hlegacy
  rcases h.events e event hevent with hold | ⟨op₁, hop₁, hnot⟩
  · exact hdb _ op e event hop (hstatus ▸ hlegacy) hold rfl
  · obtain rfl := Option.some.inj (hop'.symm.trans hop₁)
    rw [hlegacy] at hnot
    cases hnot

/-- The transaction queues one operation with a fresh event. -/
theorem handsOver_of_posted {op' : FileOperation} {e : Uuid} {replayOf : Option Uuid}
    (hothers : ∀ i, i ≠ o → db'.operations.lookup i = db.operations.lookup i)
    (hop' : db'.operations.lookup o = some op') (hstatus : op'.status = .queued)
    (hrows : ∀ i, i ≠ o → RowsKept i db db') (hfresh : e ∉ db.outbox)
    (houtbox : db'.outbox = db.outbox.insert e (outboxEvent o replayOf)) : HandsOver db db' := by
  refine ⟨fun i hi ↦ ?_, fun i op'' hop'' ↦ ?_, fun e₀ event he ↦ ?_, fun e₀ event he ↦ ?_⟩
  · by_cases ho : i = o
    · rw [ho]
      exact AList.mem_of_lookup hop'
    · obtain ⟨op, hop⟩ := AList.exists_lookup_of_mem hi
      exact AList.mem_of_lookup ((hothers i ho).trans hop)
  · by_cases ho : i = o
    · subst ho
      obtain rfl := Option.some.inj (hop'.symm.trans hop'')
      exact .posted hstatus ⟨e, replayOf, hfresh, by rw [houtbox, AList.lookup_insert]⟩
    · exact .kept op'' (hothers i ho ▸ hop'') rfl (hrows i ho)
  · rw [houtbox]
    exact AList.lookup_insert_of_lookup he hfresh
  · rw [houtbox, AList.lookup_insert'] at he
    split at he
    · obtain rfl := Option.some.inj he
      exact Or.inr ⟨op', hop', by simp [hstatus, OperationStatus.legacy]⟩
    · exact Or.inl he

/-- The transaction writes no event. -/
theorem handsOver_of_outbox (houtbox : db'.outbox = db.outbox)
    (hknown : ∀ o, o ∈ db.operations → o ∈ db'.operations)
    (hhanded : ∀ o op', db'.operations.lookup o = some op' → Handed db db' o op') :
    HandsOver db db' :=
  ⟨hknown, hhanded, fun _ _ he ↦ houtbox ▸ he, fun _ _ he ↦ Or.inl (houtbox ▸ he)⟩

theorem lookup_update_status {op op' : FileOperation} {operations : Table Uuid FileOperation}
    (hop : operations.lookup o = some op) :
    (operations.update o fun _ ↦ op').lookup o = some op' := by
  rw [AList.lookup_update_self, hop, Option.map_some]

theorem recoverOperation_handsOver {now : Timestamp} {timeout : ℤ} {maxRecoveries : ℕ}
    {outboxId : Uuid → Uuid} (h : recoverOperation now timeout maxRecoveries outboxId db o = .ok db') :
    HandsOver db db' := by
  rcases recoverOperation_cases h with rfl | ⟨-, op, hstatus, rfl⟩ | ⟨op, hfresh, hop, -, rfl⟩
  · exact .refl db'
  · refine handsOver_of_outbox rfl (fun i hi ↦ AList.mem_update.mpr hi) fun i op' hop' ↦ ?_
    obtain ⟨op₀, hop₀, rfl⟩ := AList.of_lookup_update hop'
    split
    · exact .ended (by rw [hstatus]; rfl)
    · exact .kept op₀ hop₀ rfl (rowsKept_of_files rfl)
  · exact handsOver_of_posted (fun i hi ↦ AList.lookup_update_of_ne hi _ _)
      (lookup_update_status hop) rfl (fun i hi ↦ rowsKept_updateHeld hi rfl) hfresh rfl

theorem replayDeadLetterOperation_handsOver {outboxId replayOf : Uuid} {out : Option FileOperation}
    (h : replayDeadLetterOperation outboxId o replayOf db = .ok (out, db')) : HandsOver db db' := by
  unfold replayDeadLetterOperation at h
  split at h
  · cases h
    exact .refl db
  rename_i op hop
  split at h
  · cases h
    exact .refl db
  · obtain ⟨db₁, hadd, h⟩ := Except.bind_eq_ok.mp h
    obtain ⟨hfresh, rfl⟩ := addOutboxEvent_eq_ok hadd
    obtain ⟨-, rfl⟩ := Prod.mk.inj (Except.pure_eq_ok.mp h)
    exact handsOver_of_posted (fun i hi ↦ AList.lookup_update_of_ne hi _ _)
      (lookup_update_status hop) rfl (fun i _ ↦ rowsKept_of_files rfl) hfresh rfl

theorem enqueueLegacyOperation_handsOver {now : Timestamp} {outboxId : Uuid → Uuid}
    (hdb : LegacyFresh db) (h : enqueueLegacyOperation now outboxId db o = .ok db') :
    HandsOver db db' := by
  unfold enqueueLegacyOperation at h
  split at h
  · cases h
    exact .refl db
  rename_i op hop
  split at h
  · cases h
    exact .refl db
  rename_i hpending
  have hlegacy : op.status.legacy := by
    simp only [FileOperation.legacyPending, Bool.not_eq_true', Bool.not_eq_false,
      Bool.or_eq_true, Bool.and_eq_true, decide_eq_true_eq] at hpending
    rcases hpending with (hs | hs) | ⟨hs, -⟩ <;> simp [hs, OperationStatus.legacy]
  dsimp only at h
  split at h
  · rename_i hevent
    obtain ⟨e, event, he, hoperation⟩ := AList.anyRow_eq_true.mp hevent
    exact absurd (by simpa using hoperation) (hdb o op e event hop hlegacy he)
  · obtain ⟨hfresh, rfl⟩ := addOutboxEvent_eq_ok h
    exact handsOver_of_posted (fun i hi ↦ AList.lookup_update_of_ne hi _ _)
      (lookup_update_status hop) rfl (fun i _ ↦ rowsKept_of_files rfl) hfresh rfl

/-- The turns of the cutover find no operation with an event. -/
theorem enqueueLegacyOperations_handsOver {now : Timestamp} {outboxId : Uuid → Uuid}
    {picked : List Uuid} (hdb : LegacyFresh db)
    (h : enqueueLegacyOperations now outboxId picked db = .ok db') : HandsOver db db' := by
  have hturns : LegacyFresh db → HandsOver db db' :=
    Tx.foldlM_relates (R := fun s s' : Db ↦ LegacyFresh s → HandsOver s s')
      (fun s _ ↦ .refl s)
      (fun h h' hs ↦ (h hs).trans (h' ((h hs).legacyFresh hs)))
      (fun hturn hs ↦ enqueueLegacyOperation_handsOver hs hturn) h
  exact hturns hdb

theorem step_outbox {c : Cmd} (h : Step db c db') : db'.outbox = db.outbox := by
  cases h with
  | idle | sessions | edited | deleted | purged | quotaCreated | quotaOverwritten | quotaRevoked
  | platformLimitSet | limitSet | uploadCreated | multipartCreated | verified | failed | requeued
  | expired => rfl
  | reaped now picked =>
      rw [reapOrphanReservations, reapOrphanReservationsWith_frame]
  | commit now fileId id _ hcommit =>
      cases hcommit with
      | replayed | unreserved | charged | refused => rfl
  | appDeleted applicationId =>
      unfold Applications.deleteApp
      split
      · rfl
      split
      · rfl
      · rfl

theorem step_handsOver {c : Cmd} (hdb : Consistent db) (h : Step db c db') : HandsOver db db' := by
  obtain ⟨k, hchanges⟩ := step_rows h
  rcases (step_operationTables h).2 with hsame | ⟨applicationId, app, -, -, hcancelled⟩
  · refine handsOver_of_outbox (step_outbox h) (fun o ho ↦ hsame ▸ ho) fun o op' hop' ↦ ?_
    exact .kept op' (hsame ▸ hop') rfl (hchanges.rowsKept hdb)
  · refine handsOver_of_outbox (step_outbox h) (fun o ho ↦ by rwa [hcancelled,
      AList.mem_updateWhere]) fun o op' hop' ↦ ?_
    rw [hcancelled, AList.lookup_updateWhere] at hop'
    obtain ⟨op, hop, rfl⟩ := Option.map_eq_some_iff.mp hop'
    split
    · exact .ended rfl
    · exact .kept op hop rfl (hchanges.rowsKept hdb)

/-- Every transaction of the API, the jobs and the operator hands its operations over. -/
theorem storeCmd_handsOver {c : StoreCmd} (hdb : Consistent db) (hlegacy : LegacyFresh db)
    (h : opExec c.command db = .ok db') : HandsOver db db' := by
  cases c with
  | createOperation ids spaceId data =>
      obtain ⟨op, h⟩ := Except.map_snd_eq_ok.mp h
      obtain ⟨_, _, hop, hoccupies, -, -⟩ := createOperation_occupies hdb h
      obtain ⟨_, _, _, hfresh, -, -, -, -, rfl⟩ := createOperation_eq_ok h
      exact handsOver_of_posted (fun i hi ↦ AList.lookup_insert_ne hi) (AList.lookup_insert _)
        (by rw [hop]; rfl) (fun i _ ↦ hoccupies.rowsKept fun _ _ hf ↦ hf) hfresh rfl
  | createRenameOperation ids spaceId data =>
      obtain ⟨op, h⟩ := Except.map_snd_eq_ok.mp h
      rcases createRenameOperation_occupies hdb h with
        rfl | ⟨source, -, -, -, hresult, hop, hoccupies⟩
      · exact .refl db'
      rcases createRenameOperation_eq_ok h with rfl | ⟨_, _, hfresh, -, -, -, -, -, -, -, -, rfl⟩
      · exact .refl db'
      refine handsOver_of_posted (fun i hi ↦ AList.lookup_insert_ne hi) (AList.lookup_insert _)
        (by rw [hop]; rfl) (fun i _ ↦ hoccupies.rowsKept fun j f hf ↦ ?_) hfresh rfl
      have hj : j ≠ ids.resultFile := by
        rintro rfl
        exact hresult (AList.mem_of_lookup hf)
      rw [AList.lookup_insert_ne hj, hf]
  | recoverTimedOutOperations now timeout maxRecoveries outboxId picked =>
      exact Tx.foldlM_relates HandsOver.refl HandsOver.trans recoverOperation_handsOver h
  | replayDeadLetterOperation outboxId id replayOf =>
      obtain ⟨out, h⟩ := Except.map_snd_eq_ok.mp h
      exact replayDeadLetterOperation_handsOver h
  | enqueueLegacyOperations now outboxId picked =>
      exact enqueueLegacyOperations_handsOver hlegacy h
  | other c => exact step_handsOver hdb (exec_step h)

end S3mp
