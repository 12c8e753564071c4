import S3mp.Steps
import S3mp.Transition.Outcomes
import S3mp.Uploads.Isolation

/-!
# Progress of the reconciliation

A visit of the pass to one record, whatever the provider and the subject stores
answer, whichever of its calls fail and whatever others commit before each of them.
A visit which does not raise ends the record or counts an attempt; one which raises
leaves the count as it is, and the next pass finds the record again.
-/

namespace S3mp

open Relational Files Storage Transition

/-! ## Visits -/

def attemptCount (id : Uuid) (db : Db) : ℕ :=
  db.ingestionEvents.countP fun event ↦
    event.ingestionRecordId = id && event.eventType = .reconciliationStarted

/-- `list_pending` selects the record. -/
def Selected (id : Uuid) (db : Db) : Prop :=
  ∃ row, db.ingestions.lookup id = some row ∧
    row.status ∈ [.initiated, .verified, .reconciliationRequired]

/-- The record is at its end, or one more attempt has been counted than `n`. -/
def Progressed (n : ℕ) (id : Uuid) (db : Db) : Prop :=
  (∃ row, db.ingestions.lookup id = some row ∧ row.status ∈ [.committed, .failed]) ∨
    n < attemptCount id db

/-- What is decided outside about one call of a visit: what others commit before it, and the
failure it meets, or what the clock, the provider and the subject stores say. -/
structure CallChoice where
  others : List Cmd
  failure : Option String
  now : Timestamp
  nextFile : Uuid
  object : Option (ObjectMetadata × String)
  subjects : (r : SubjectRead) → r.Value

structure VisitWorld where
  db : Db
  choices : ℕ → CallChoice

namespace VisitWorld

/-- A call which fails leaves nothing behind. -/
def answer (r : ReconcileRequest) (w : VisitWorld) : Except Raised r.Value × VisitWorld :=
  let c := w.choices 0
  let db := run exec w.db c.others
  let choices := fun n ↦ w.choices (n + 1)
  match c.failure with
  | some text => (.error (.other text), ⟨db, choices⟩)
  | none =>
    let (x, w) := ReconcileWorld.perform r ⟨db, fun _ ↦ c.object, c.subjects, c.now, c.nextFile, []⟩
    (x, ⟨w.db, choices⟩)

/-- Nobody else commits anything. -/
def Undisturbed (w : VisitWorld) : Prop :=
  ∀ n, (w.choices n).others = []

end VisitWorld

/-- The database after a visit to the record as `list_pending` returned it. -/
def visit (maxAttempts : ℕ) (p : PendingRecord) (w : VisitWorld) : Db :=
  (afterTurn VisitWorld.answer (reconcileTurn maxAttempts) w p).db

/-! ## Counting attempts -/

section

variable {id : Uuid} {db db' : Db} {n : ℕ} {w w' : VisitWorld}

theorem attemptCount_congr (h : db'.ingestionEvents = db.ingestionEvents) :
    attemptCount id db' = attemptCount id db := by
  rw [attemptCount, attemptCount, h]

theorem attemptCount_append (db : Db) {i : Uuid} {eventType : IngestionEventType}
    {reason : Option EventReason} (h : db'.ingestionEvents = db.ingestionEvents) :
    attemptCount id (appendEvent i eventType reason db') =
      attemptCount id db + if i = id ∧ eventType = .reconciliationStarted then 1 else 0 := by
  rw [← attemptCount_congr h]
  simp [attemptCount, appendEvent, List.countP_cons]

theorem attemptCount_le_append {i : Uuid} {eventType : IngestionEventType}
    {reason : Option EventReason} (h : db'.ingestionEvents = db.ingestionEvents) :
    attemptCount id db ≤ attemptCount id (appendEvent i eventType reason db') := by
  rw [attemptCount_append db h]
  exact Nat.le_add_right _ _

theorem lt_attemptCount {reason : Option EventReason} (hn : n ≤ attemptCount id db)
    (h : db'.ingestionEvents = db.ingestionEvents) :
    n < attemptCount id (appendEvent id .reconciliationStarted reason db') := by
  rw [attemptCount_append db h, if_pos ⟨rfl, rfl⟩]
  exact Nat.lt_succ_of_le hn

/-- Events are appended and never removed. -/
theorem step_attemptCount {c : Cmd} (h : Step db c db') :
    attemptCount id db ≤ attemptCount id db' := by
  cases h with
  | idle | sessions | edited | deleted | purged | quotaCreated | quotaOverwritten | quotaRevoked
  | platformLimitSet | limitSet => exact le_rfl
  | appDeleted applicationId =>
      refine (attemptCount_congr ?_).ge
      unfold Applications.deleteApp
      split
      · rfl
      · split <;> rfl
  | reaped now picked =>
      rw [reapOrphanReservations, reapOrphanReservationsWith_frame]
      exact le_rfl
  | uploadCreated | multipartCreated | verified | failed | requeued | expired =>
      exact attemptCount_le_append rfl
  | commit now fileId i _ hcommit =>
      cases hcommit with
      | replayed => exact le_rfl
      | unreserved | charged | refused => exact attemptCount_le_append rfl

theorem run_attemptCount (cs : List Cmd) : attemptCount id db ≤ attemptCount id (run exec db cs) :=
  run_preserves (I := fun db' ↦ attemptCount id db ≤ attemptCount id db')
    (fun _ _ _ hle hexec ↦ hle.trans (step_attemptCount (exec_step hexec))) le_rfl cs

/-! ## What a call does to the record -/

/-- Before its last transaction a visit has counted no attempt of its own.  When it is not
disturbed, the record still waits for the reconciliation. -/
structure Underway (calm : Prop) (n : ℕ) (id : Uuid) (w : VisitWorld) : Prop where
  attempts : n ≤ attemptCount id w.db
  waits : calm → w.Undisturbed ∧ attemptCount id w.db = n ∧
    ∃ row, w.db.ingestions.lookup id = some row ∧ row.status ∈ [.verified, .reconciliationRequired]

variable {calm : Prop}

/-- What others commit before the next call. -/
def VisitWorld.disturbed (w : VisitWorld) : VisitWorld :=
  ⟨run exec w.db (w.choices 0).others, fun n ↦ w.choices (n + 1)⟩

theorem Underway.disturbed (h : Underway calm n id w) : Underway calm n id w.disturbed := by
  refine ⟨h.attempts.trans (run_attemptCount _), fun hcalm ↦ ?_⟩
  obtain ⟨hnone, hwaits⟩ := h.waits hcalm
  refine ⟨fun k ↦ hnone (k + 1), ?_⟩
  rw [VisitWorld.disturbed, hnone 0]
  exact hwaits

/-- A call fails, or it is performed after what others have committed. -/
theorem VisitWorld.answer_cases {r : ReconcileRequest} {x : Except Raised r.Value}
    (h : VisitWorld.answer r w = (x, w')) :
    (∃ text, x = .error (.other text) ∧ w' = w.disturbed) ∨
      ∃ u u' : ReconcileWorld, u.db = w.disturbed.db ∧ ReconcileWorld.perform r u = (x, u') ∧
        w' = { w.disturbed with db := u'.db } := by
  unfold VisitWorld.answer at h
  dsimp only at h
  split at h
  · obtain ⟨rfl, rfl⟩ := Prod.mk.inj h
    exact Or.inl ⟨_, rfl, rfl⟩
  · obtain ⟨rfl, rfl⟩ := Prod.mk.inj h
    exact Or.inr ⟨_, _, rfl, rfl, rfl⟩

theorem transact_error {α : Type} {out : Tx (α × Db)} {u u' : ReconcileWorld} {raised : Raised}
    (h : ReconcileWorld.transact out u = (.error raised, u')) : u' = u := by
  unfold ReconcileWorld.transact at h
  split at h
  · cases h
  · exact (Prod.mk.inj h).2.symm

theorem transact_ok {α : Type} {out : Tx (α × Db)} {u u' : ReconcileWorld} {a : α}
    (h : ReconcileWorld.transact out u = (.ok a, u')) : out = .ok (a, u'.db) := by
  unfold ReconcileWorld.transact at h
  split at h
  · obtain ⟨ha, rfl⟩ := Prod.mk.inj h
    rw [Except.ok.inj ha]
  · cases h

/-- A call which raises is rolled back. -/
theorem perform_error {r : ReconcileRequest} {u u' : ReconcileWorld} {raised : Raised}
    (h : ReconcileWorld.perform r u = (.error raised, u')) : u'.db = u.db := by
  cases r with
  | reconciliationAttemptCount | getSpace | head => cases h
  | read tenantId r => cases r <;> cases h
  | hashSha256 target =>
      simp only [ReconcileWorld.perform] at h
      split at h
      · rw [← (Prod.mk.inj h).2]
      · cases h
  | failOrQuarantine | recordProviderResult => rw [transact_error h]
  | commitVerifiedFile => rw [transact_error h]

theorem Underway.of_error {r : ReconcileRequest} {raised : Raised} (hw : Underway calm n id w)
    (h : VisitWorld.answer r w = (.error raised, w')) : Underway calm n id w' := by
  rcases VisitWorld.answer_cases h with ⟨_, -, rfl⟩ | ⟨u, u', hu, hperform, rfl⟩
  · exact hw.disturbed
  · rw [perform_error hperform, hu]
    exact hw.disturbed

/-- The calls other than the transactions of the store write nothing. -/
theorem perform_read {r : ReconcileRequest} {u u' : ReconcileWorld} {x : Except Raised r.Value}
    (hfail : ∀ t i status reason, r ≠ .failOrQuarantine t i status reason)
    (hcommit : ∀ t i, r ≠ .commitVerifiedFile t i)
    (hresult : ∀ t i result, r ≠ .recordProviderResult t i result)
    (h : ReconcileWorld.perform r u = (x, u')) : u'.db = u.db := by
  cases r with
  | reconciliationAttemptCount | getSpace | head => rw [← (Prod.mk.inj h).2]
  | read tenantId r => cases r <;> rw [← (Prod.mk.inj h).2]
  | hashSha256 target =>
      simp only [ReconcileWorld.perform] at h
      split at h <;> rw [← (Prod.mk.inj h).2]
  | failOrQuarantine t i status reason => exact absurd rfl (hfail t i status reason)
  | commitVerifiedFile t i => exact absurd rfl (hcommit t i)
  | recordProviderResult t i result => exact absurd rfl (hresult t i result)

theorem Underway.of_result (hw : Underway calm n id w) {result : ProviderResult}
    {row : IngestionRecord} {db' : Db} (h : recordProviderResult id result w.db = .ok (row, db')) :
    Underway calm n id { w with db := db' } := by
  obtain ⟨row₀, hrow, -, rfl, rfl⟩ := recordProviderResult_eq_ok.mp h
  have hsame : attemptCount id (appendEvent id .verificationPassed none
      (putIngestion id (row₀.verifiedAs result) w.db)) = attemptCount id w.db := by
    refine (attemptCount_append w.db ?_).trans ?_
    · rfl
    · simp
  refine ⟨by rw [hsame]; exact hw.attempts, fun hcalm ↦ ?_⟩
  obtain ⟨hnone, hcount, -⟩ := hw.waits hcalm
  refine ⟨hnone, hsame.trans hcount, row₀.verifiedAs result, ?_, by simp [IngestionRecord.verifiedAs]⟩
  simp [appendEvent, lookup_putIngestion, hrow]

theorem progressed_of_ended {now : Timestamp} {status : IngestionStatus} {reason : FailureReason}
    {row : IngestionRecord} (hn : n ≤ attemptCount id db)
    (h : failOrQuarantine now id status reason db = .ok (row, db')) : Progressed n id db' := by
  obtain ⟨row₀, hrow, ⟨-, -, rfl⟩ | ⟨-, -, rfl⟩⟩ := failOrQuarantine_eq_ok h
  · left
    refine ⟨{ row₀ with status := .failed }, ?_, by simp⟩
    simp [appendEvent, endedDb, lookup_putIngestion, hrow]
  · exact Or.inr (lt_attemptCount hn rfl)

/-- A commit which is refused for the quota counts as an attempt. -/
theorem progressed_of_commit {now : Timestamp} {fileId : Uuid} {row : IngestionRecord}
    (hn : n ≤ attemptCount id db) (h : commitVerifiedFile now fileId id db = .ok (row, db')) :
    Progressed n id db' := by
  cases commitVerifiedFile_eq_ok h with
  | replayed row₀ hrow hstatus => exact Or.inl ⟨row₀, hrow, by simp [hstatus]⟩
  | unreserved row₀ hready | charged row₀ hready =>
      left
      refine ⟨row₀.committedAs fileId now, ?_, by simp [IngestionRecord.committedAs]⟩
      simp [committedDb, appendEvent, completeSessions, lookup_putIngestion, withFile, hready.found]
  | refused row₀ hready => exact Or.inr (lt_attemptCount hn rfl)

/-! ## The turn of the record -/

variable {p : PendingRecord}

/-- The call leaves the record where it is. -/
abbrev Keeps (calm : Prop) (n : ℕ) (id : Uuid) {α : Type} (x : Reconciler α) : Prop :=
  Leads VisitWorld.answer (Underway calm n id) (Underway calm n id)
    (fun _ ↦ Underway calm n id) x

/-- The program ends with progress unless it raises. -/
abbrev Progresses (calm : Prop) (n : ℕ) (id : Uuid) {α : Type} (x : Reconciler α) : Prop :=
  Leads VisitWorld.answer (Underway calm n id) (Underway calm n id)
    (fun _ w ↦ Progressed n id w.db) x

theorem keeps_closed : Closed (m := Reconciler) (Keeps calm n id) :=
  ⟨fun _ ↦ leads_pure fun _ hw ↦ hw, fun hx hk ↦ leads_bind hx hk⟩

theorem keeps_call {r : ReconcileRequest}
    (hfail : ∀ t i status reason, r ≠ .failOrQuarantine t i status reason)
    (hcommit : ∀ t i, r ≠ .commitVerifiedFile t i)
    (hresult : ∀ t i result, r ≠ .recordProviderResult t i result) :
    Keeps calm n id (Reconciler.call r) := by
  refine leads_call (fun w a w' hw h ↦ ?_) fun w e w' hw h ↦ hw.of_error h
  rcases VisitWorld.answer_cases h with ⟨_, hx, -⟩ | ⟨u, u', hu, hperform, rfl⟩
  · cases hx
  · rw [perform_read hfail hcommit hresult hperform, hu]
    exact hw.disturbed

theorem keeps_read (tenantId : Uuid) (r : SubjectRead) :
    Keeps calm n id (Reconciler.read tenantId r) :=
  keeps_call nofun nofun nofun

theorem keeps_revalidateIngestion : Keeps calm n id (revalidateIngestion p) := by
  unfold revalidateIngestion
  refine leads_bind (keeps_read _ _) fun space ↦ ?_
  split
  · exact keeps_closed.pure _
  split
  · exact keeps_closed.pure _
  refine leads_bind (validateDelayedSubject_closed (Q := Keeps calm n id) keeps_closed
    (keeps_read p.tenantId) _ _ _ _ _) fun subject ↦ ?_
  split
  · exact keeps_closed.pure _
  split
  · exact keeps_closed.pure _
  refine leads_bind (keeps_read _ _) fun bindings ↦ leads_bind (keeps_read _ _) fun now ↦ ?_
  split
  · exact leads_throw fun _ hw ↦ hw
  · exact keeps_closed.pure _

theorem keeps_resolveSpace (tenantId spaceId : Uuid) :
    Keeps calm n id (resolveSpace tenantId spaceId) := by
  refine leads_bind (keeps_call nofun nofun nofun) fun found ↦ ?_
  cases found with
  | none => exact leads_throw fun _ hw ↦ hw
  | some space => exact keeps_closed.pure _

theorem keeps_checkTarget (space : StorageSpace) : Keeps calm n id (checkTarget p space) := by
  unfold checkTarget
  split
  · exact keeps_closed.pure _
  split
  · exact leads_throw fun _ hw ↦ hw
  · exact keeps_closed.pure _

theorem keeps_serverChecksum (target : ProviderTarget) :
    Keeps calm n id (serverChecksum target) := by
  refine leads_bind (keeps_call nofun nofun nofun) fun value ↦ ?_
  split
  · exact leads_throw fun _ hw ↦ hw
  · exact keeps_closed.pure _

theorem keeps_recordProviderResult {tenantId : Uuid} {result : ProviderResult} :
    Keeps calm n id (Reconciler.call (.recordProviderResult tenantId id result)) := by
  refine leads_call (fun w a w' hw h ↦ ?_) fun w e w' hw h ↦ hw.of_error h
  rcases VisitWorld.answer_cases h with ⟨_, hx, -⟩ | ⟨u, u', hu, hperform, rfl⟩
  · cases hx
  · have htransact := transact_ok hperform
    rw [hu] at htransact
    exact hw.disturbed.of_result htransact

theorem progresses_endIngestion {status : IngestionStatus} {reason : FailureReason} :
    Progresses calm n p.id (endIngestion p status reason) := by
  refine leads_bind (F := fun _ w ↦ Progressed n p.id w.db) ?_ fun _ ↦ leads_pure fun _ hw ↦ hw
  refine leads_call (fun w a w' hw h ↦ ?_) fun w e w' hw h ↦ hw.of_error h
  rcases VisitWorld.answer_cases h with ⟨_, hx, -⟩ | ⟨u, u', hu, hperform, rfl⟩
  · cases hx
  · have htransact := transact_ok hperform
    rw [hu] at htransact
    exact progressed_of_ended hw.disturbed.attempts htransact

theorem progresses_commitRecord : Progresses calm n p.id (commitRecord p) := by
  refine leads_bind (F := fun _ w ↦ Progressed n p.id w.db) ?_ fun _ ↦ leads_pure fun _ hw ↦ hw
  refine leads_call (fun w a w' hw h ↦ ?_) fun w e w' hw h ↦ hw.of_error h
  rcases VisitWorld.answer_cases h with ⟨_, hx, -⟩ | ⟨u, u', hu, hperform, rfl⟩
  · cases hx
  · have htransact := transact_ok hperform
    rw [hu] at htransact
    exact progressed_of_commit hw.disturbed.attempts htransact

theorem progresses_verifyAndCommit : Progresses calm n p.id (verifyAndCommit p) := by
  unfold verifyAndCommit
  refine leads_bind (keeps_call nofun nofun nofun) fun found ↦ ?_
  split
  · exact progresses_endIngestion
  · exact leads_bind (keeps_serverChecksum _) fun checksum ↦
      leads_bind keeps_recordProviderResult fun _ ↦ progresses_commitRecord

theorem progresses_reconcileRecord (maxAttempts : ℕ) :
    Progresses calm n p.id (reconcileRecord maxAttempts p) := by
  unfold reconcileRecord
  refine leads_bind (keeps_call nofun nofun nofun) fun attempts ↦ ?_
  split
  · exact progresses_endIngestion
  refine leads_bind keeps_revalidateIngestion fun current ↦ ?_
  split
  · exact progresses_endIngestion
  refine leads_bind (keeps_resolveSpace _ _) fun space ↦ ?_
  split
  · exact progresses_endIngestion
  refine leads_bind (keeps_checkTarget space) fun same ↦ ?_
  split
  · exact progresses_endIngestion
  split
  · exact progresses_commitRecord
  · exact progresses_verifyAndCommit

/-- The turn of a record which is not `INITIATED` ends with progress or raises. -/
theorem progresses_reconcileTurn (maxAttempts : ℕ) (hstatus : p.row.status ≠ .initiated) :
    Progresses calm n p.id (reconcileTurn maxAttempts p) := by
  unfold reconcileTurn
  rw [if_neg hstatus]
  refine leads_tryCatch (progresses_reconcileRecord maxAttempts) fun raised ↦ ?_
  cases raised with
  | api error => exact leads_throw fun _ hw ↦ hw
  | other text => exact progresses_endIngestion

/-! ## Visits which raise, and visits which do not -/

theorem visit_eq {maxAttempts : ℕ} {out : Except Raised (Option IngestionRecord)}
    (h : (reconcileTurn maxAttempts p).run.play VisitWorld.answer w = (out, w')) :
    visit maxAttempts p w = w'.db :=
  congrArg VisitWorld.db (afterTurn_eq h)

theorem underway_start (w : VisitWorld) (i : Uuid) : Underway False (attemptCount i w.db) i w :=
  ⟨le_rfl, False.elim⟩

/-- A visit which gets no answer that makes it raise makes progress, whatever others do. -/
theorem visit_progressed {maxAttempts : ℕ} (hstatus : p.row.status ≠ .initiated)
    (hharmless : (reconcileTurn maxAttempts p).run.Along VisitWorld.answer Harmless w) :
    Progressed (attemptCount p.id w.db) p.id (visit maxAttempts p w) := by
  have hends := (ends_iff maxAttempts p w).mpr hharmless
  cases hplay : (reconcileTurn maxAttempts p).run.play VisitWorld.answer w with
  | mk out w' =>
      cases out with
      | ok x =>
          rw [visit_eq hplay]
          exact (progresses_reconcileTurn maxAttempts hstatus).of_ok (underway_start w p.id) hplay
      | error e => exact absurd hplay (hends e w')

/-- Left alone, a visit which raises makes none. -/
theorem harmless_of_progressed {maxAttempts : ℕ} {row : IngestionRecord}
    (hrow : w.db.ingestions.lookup p.id = some row)
    (hwaits : row.status ∈ [.verified, .reconciliationRequired])
    (hstatus : p.row.status ≠ .initiated) (hcalm : w.Undisturbed)
    (hprogressed : Progressed (attemptCount p.id w.db) p.id (visit maxAttempts p w)) :
    (reconcileTurn maxAttempts p).run.Along VisitWorld.answer Harmless w := by
  rw [← ends_iff]
  intro e w' hplay
  have hstart : Underway True (attemptCount p.id w.db) p.id w :=
    ⟨le_rfl, fun _ ↦ ⟨hcalm, rfl, row, hrow, hwaits⟩⟩
  have hend := (progresses_reconcileTurn maxAttempts hstatus).of_error hstart hplay
  obtain ⟨-, hcount, row', hrow', hwaits'⟩ := hend.waits trivial
  rw [visit_eq hplay] at hprogressed
  rcases hprogressed with ⟨row₁, hrow₁, hended⟩ | hcounted
  · obtain rfl := Option.some.inj (hrow'.symm.trans hrow₁)
    revert hended hwaits'
    cases row'.status <;> decide
  · exact absurd hcount hcounted.ne'

/-- The calls which end a record whose attempts are used up do not fail. -/
def Decisive : (r : ReconcileRequest) → Except Raised r.Value → Prop
  | .reconciliationAttemptCount .., .error _ => False
  | .failOrQuarantine _ _ _ .reconciliationRetryExhausted, .error _ => False
  | _, _ => True

theorem answer_attemptCount {tenantId : Uuid} {m : ℕ}
    (h : VisitWorld.answer (.reconciliationAttemptCount tenantId id) w = (.ok m, w')) :
    m = attemptCount id w'.db ∧ w' = w.disturbed := by
  rcases VisitWorld.answer_cases h with ⟨_, hx, -⟩ | ⟨u, u', hu, hperform, rfl⟩
  · cases hx
  · obtain ⟨hm, rfl⟩ := Prod.mk.inj hperform
    rw [hu]
    refine ⟨?_, rfl⟩
    rw [← Except.ok.inj hm, hu]
    rfl

theorem answer_exhausted {tenantId : Uuid} {row : IngestionRecord} {reason : FailureReason}
    (h : VisitWorld.answer (.failOrQuarantine tenantId id .failed reason) w = (.ok row, w')) :
    ∃ row, w'.db.ingestions.lookup id = some row ∧ row.status = .failed := by
  rcases VisitWorld.answer_cases h with ⟨_, hx, -⟩ | ⟨u, u', hu, hperform, rfl⟩
  · cases hx
  · obtain ⟨row₀, hrow, ⟨-, -, hdb⟩ | ⟨hstatus, -⟩⟩ :=
      failOrQuarantine_eq_ok (transact_ok hperform)
    · rw [hdb]
      exact ⟨{ row₀ with status := .failed }, by
        simp [appendEvent, endedDb, lookup_putIngestion, hrow], rfl⟩
    · cases hstatus

theorem along_of_tryCatch {A : (r : ReconcileRequest) → Except Raised r.Value → Prop} {α : Type}
    {x : Reconciler α} {handler : Raised → Reconciler α}
    (h : (tryCatch x handler).run.Along VisitWorld.answer A w) :
    x.run.Along VisitWorld.answer A w := by
  cases hplay : x.run.play VisitWorld.answer w with
  | mk out w' =>
      cases out with
      | ok a => exact (along_tryCatch_ok hplay).mp h
      | error e => exact ((along_tryCatch_error hplay).mp h).1

/-- A visit to a record whose attempts are used up fails it. -/
theorem visit_exhausted {maxAttempts : ℕ} (hstatus : p.row.status ≠ .initiated)
    (hused : maxAttempts ≤ attemptCount p.id w.db)
    (hdecisive : (reconcileTurn maxAttempts p).run.Along VisitWorld.answer Decisive w) :
    ∃ row, (visit maxAttempts p w).ingestions.lookup p.id = some row ∧ row.status = .failed := by
  unfold reconcileTurn at hdecisive
  rw [if_neg hstatus] at hdecisive
  have hbody := along_of_tryCatch hdecisive
  obtain ⟨hcount, -⟩ := (Program.along_bind _ _ w).mp hbody
  cases hanswer : VisitWorld.answer (.reconciliationAttemptCount p.tenantId p.id) w with
  | mk out w₁ =>
      have hfirst : Decisive _ (VisitWorld.answer (.reconciliationAttemptCount p.tenantId p.id) w).1 :=
        hcount.1
      rw [hanswer] at hfirst
      cases out with
      | error e => exact hfirst.elim
      | ok m =>
          obtain ⟨rfl, rfl⟩ := answer_attemptCount hanswer
          have hcall : (Reconciler.call (.reconciliationAttemptCount p.tenantId p.id)).run.play
              VisitWorld.answer w = (.ok _, w.disturbed) := hanswer
          have hm : maxAttempts ≤ attemptCount p.id w.disturbed.db :=
            hused.trans (run_attemptCount _)
          unfold reconcileRecord at hbody
          rw [along_bind_ok hcall, if_pos hm] at hbody
          cases hend : VisitWorld.answer (.failOrQuarantine p.tenantId p.id .failed
              .reconciliationRetryExhausted) w.disturbed with
          | mk out w₂ =>
              have hsecond : Decisive _ (VisitWorld.answer (.failOrQuarantine p.tenantId p.id .failed
                  .reconciliationRetryExhausted) w.disturbed).1 := hbody.2.1
              rw [hend] at hsecond
              cases out with
              | error e => exact hsecond.elim
              | ok row =>
                  have hlast : (Reconciler.call (.failOrQuarantine p.tenantId p.id .failed
                      .reconciliationRetryExhausted)).run.play VisitWorld.answer w.disturbed =
                        (.ok row, w₂) := hend
                  have hplay : (reconcileTurn maxAttempts p).run.play VisitWorld.answer w =
                      (.ok none, w₂) := by
                    unfold reconcileTurn
                    rw [if_neg hstatus]
                    refine play_tryCatch_ok ?_
                    unfold reconcileRecord
                    rw [play_bind_ok hcall, if_pos hm, endIngestion, play_bind_ok hlast]
                    rfl
                  rw [visit_eq hplay]
                  exact answer_exhausted hend

end

/-! ## Visits one after the other -/

inductive RecordEvent where
  | visit (choices : ℕ → CallChoice)
  | command (c : Cmd)

/-- The visits a record has had. -/
structure Visits where
  db : Db
  visits : ℕ

/-- The pass visits a record `list_pending` returns, one in status `INITIATED` excepted. -/
def visitsExec (maxAttempts : ℕ) (tenantId id : Uuid) :
    RecordEvent → Visits → Except Unit Visits
  | .command c, s =>
    match exec c s.db with
    | .error _ => .error ()
    | .ok db => .ok { s with db }
  | .visit choices, s =>
    match s.db.ingestions.lookup id with
    | none => .error ()
    | some row =>
      if row.status ∈ [.verified, .reconciliationRequired] then
        .ok ⟨visit maxAttempts ⟨tenantId, id, row⟩ ⟨s.db, choices⟩, s.visits + 1⟩
      else .error ()

/-- Nobody else takes the record back from its end; a visit gets no answer that makes it raise,
and one to a record whose attempts are used up ends it. -/
def Visits.Sound (maxAttempts : ℕ) (tenantId id : Uuid) (s : Visits) : RecordEvent → Prop
  | .command c => ∀ db, exec c s.db = .ok db → Selected id db → Selected id s.db
  | .visit choices => ∀ row, s.db.ingestions.lookup id = some row →
      row.status ∈ [.verified, .reconciliationRequired] →
      (reconcileTurn maxAttempts ⟨tenantId, id, row⟩).run.Along VisitWorld.answer Harmless
        ⟨s.db, choices⟩ ∧
      (maxAttempts ≤ attemptCount id s.db →
        (reconcileTurn maxAttempts ⟨tenantId, id, row⟩).run.Along VisitWorld.answer Decisive
          ⟨s.db, choices⟩)

section

variable {maxAttempts : ℕ} {tenantId id : Uuid} {s s' : Visits}

/-- As long as the record is selected, every visit has been counted as an attempt. -/
def Visits.Counted (maxAttempts : ℕ) (id : Uuid) (s : Visits) : Prop :=
  Selected id s.db → s.visits ≤ attemptCount id s.db ∧ s.visits ≤ maxAttempts

theorem not_initiated {row : IngestionRecord}
    (h : row.status ∈ [.verified, .reconciliationRequired]) : row.status ≠ .initiated := by
  intro hinitiated
  rw [hinitiated] at h
  exact absurd h (by decide)

theorem not_selected {db : Db} {row : IngestionRecord} (hrow : db.ingestions.lookup id = some row)
    (hended : row.status ∈ [.committed, .failed]) : ¬ Selected id db := by
  rintro ⟨row', hrow', hpending⟩
  obtain rfl := Option.some.inj (hrow.symm.trans hrow')
  revert hended hpending
  cases row.status <;> decide

theorem Visits.Counted.step {e : RecordEvent} (hs : s.Counted maxAttempts id)
    (hsound : s.Sound maxAttempts tenantId id e)
    (h : visitsExec maxAttempts tenantId id e s = .ok s') : s'.Counted maxAttempts id := by
  intro hselected
  cases e with
  | command c =>
      simp only [visitsExec] at h
      split at h
      · cases h
      rename_i db hexec
      cases h
      obtain ⟨hcount, hmax⟩ := hs (hsound db hexec hselected)
      exact ⟨hcount.trans (step_attemptCount (exec_step hexec)), hmax⟩
  | visit choices =>
      simp only [visitsExec] at h
      split at h
      · cases h
      rename_i row hrow
      split at h
      · rename_i hwaits
        cases h
        obtain ⟨hharmless, hdecisive⟩ := hsound row hrow hwaits
        obtain ⟨hcount, hmax⟩ := hs ⟨row, hrow, List.mem_cons_of_mem _ hwaits⟩
        by_cases hused : maxAttempts ≤ attemptCount id s.db
        · obtain ⟨row', hrow', hfailed⟩ := visit_exhausted (w := ⟨s.db, choices⟩)
            (not_initiated hwaits) hused (hdecisive hused)
          exact absurd hselected (not_selected hrow' (by simp [hfailed]))
        · rcases visit_progressed (w := ⟨s.db, choices⟩) (not_initiated hwaits) hharmless with
            ⟨row', hrow', hended⟩ | hcounted
          · exact absurd hselected (not_selected hrow' hended)
          · exact ⟨Nat.succ_le_of_lt (hcount.trans_lt hcounted),
              Nat.succ_le_of_lt (hcount.trans_lt (Nat.not_le.mp hused))⟩
      · cases h

end

/-- A visit which gets no harmful answer ends the record or counts an attempt, and left alone it
does so only then.  After more visits than attempts are allowed the record is not selected any
more, in every run whose steps are sound. -/
theorem reconciliation_progresses (maxAttempts : ℕ) (tenantId id : Uuid) :
    (∀ (w : VisitWorld) (row : IngestionRecord), w.db.ingestions.lookup id = some row →
      row.status ∈ [.verified, .reconciliationRequired] →
      ((reconcileTurn maxAttempts ⟨tenantId, id, row⟩).run.Along VisitWorld.answer Harmless w →
        Progressed (attemptCount id w.db) id (visit maxAttempts ⟨tenantId, id, row⟩ w)) ∧
      (w.Undisturbed →
        Progressed (attemptCount id w.db) id (visit maxAttempts ⟨tenantId, id, row⟩ w) →
        (reconcileTurn maxAttempts ⟨tenantId, id, row⟩).run.Along VisitWorld.answer Harmless w)) ∧
    ∀ (db : Db) (events : List RecordEvent),
      Meets (visitsExec maxAttempts tenantId id)
        (fun s e ↦ s.Sound maxAttempts tenantId id e) ⟨db, 0⟩ events →
      ∀ pre post, events = pre ++ post →
        maxAttempts < (run (visitsExec maxAttempts tenantId id) ⟨db, 0⟩ pre).visits →
        ¬ Selected id (run (visitsExec maxAttempts tenantId id) ⟨db, 0⟩ pre).db := by
  constructor
  · intro w row hrow hwaits
    exact ⟨fun hharmless ↦ visit_progressed (not_initiated hwaits) hharmless,
      fun hcalm ↦ harmless_of_progressed (p := ⟨tenantId, id, row⟩) hrow hwaits
        (not_initiated hwaits) hcalm⟩
  · intro db events hmeets pre post hsplit hmany hselected
    have hcounted : (run (visitsExec maxAttempts tenantId id) ⟨db, 0⟩ pre).Counted
        maxAttempts id :=
      run_invariant_prefix (V := fun _ ↦ True) (fun _ _ _ hs _ hsound hexec ↦ hs.step hsound hexec)
        (fun _ ↦ ⟨Nat.zero_le _, Nat.zero_le _⟩) (fun _ _ ↦ trivial) hmeets pre post hsplit
    exact absurd (hcounted hselected).2 (Nat.not_le.mpr hmany)

namespace Sample

/-- The uploader is a member who may write; the provider holds the object under `digest`. -/
def holding (digest : String) : CallChoice where
  others := []
  failure := none
  now := 0
  nextFile := 30
  object := some (⟨40, some "etag", some "text/plain", none, none⟩, digest)
  subjects
    | .now => 0
    | .getPrincipal _ => some ⟨true⟩
    | .getMembershipState _ => some ⟨3, true, 1, none, true, true, true⟩
    | .getKeyState _ => none
    | .getMembershipBinding _ => none
    | .getSpace _ => none
    | .bindingsFor .. => [⟨60, "files.write", .allow, none, 0, 1000, "binding", none⟩]

def uploadedDigest : String := String.ofList (List.replicate 64 'a')

end Sample

/-- The provider holds what was uploaded, and the visit commits the record. -/
theorem reconciliation_progresses_sample : ∃ row,
    Sample.queued.ingestions.lookup 12 = some row ∧ Progressed 1 12
      (visit 5 ⟨1, 12, row⟩ ⟨Sample.queued, fun _ ↦ Sample.holding Sample.uploadedDigest⟩) := by
  have hstatus : (Sample.queued.ingestions.lookup 12).map (·.status) =
      some .reconciliationRequired := by
    decide
  obtain ⟨row, hrow, hwaits⟩ := Option.map_eq_some_iff.mp hstatus
  have hends : ∀ p ∈ (Sample.queued.ingestions.lookup 12).map (PendingRecord.mk 1 12),
      ((reconcileTurn 5 p).run.play VisitWorld.answer
        ⟨Sample.queued, fun _ ↦ Sample.holding Sample.uploadedDigest⟩).1.isOk = true := by
    decide +kernel
  refine ⟨row, hrow, ((reconciliation_progresses 5 1 12).1 _ row hrow (by simp [hwaits])).1 ?_⟩
  rw [← ends_iff]
  intro e w hplay
  have hok := hends ⟨1, 12, row⟩ (by simp [hrow])
  rw [hplay] at hok
  cases hok

/-- The provider's hash is no digest: every visit raises, none is counted, and the record is
visited again whatever the bound says. -/
theorem invalid_digest_visited_for_ever : ¬ ∀ (db : Db) (choices : List (ℕ → CallChoice)),
    5 < (run (visitsExec 5 1 12) ⟨db, 0⟩ (choices.map .visit)).visits →
      ¬ Selected 12 (run (visitsExec 5 1 12) ⟨db, 0⟩ (choices.map .visit)).db := by
  intro h
  let choices := List.replicate 6 fun _ : ℕ ↦ Sample.holding "none"
  have hvisits : (run (visitsExec 5 1 12) ⟨Sample.queued, 0⟩ (choices.map .visit)).visits = 6 := by
    decide +kernel
  have hstatus : ((run (visitsExec 5 1 12) ⟨Sample.queued, 0⟩
      (choices.map .visit)).db.ingestions.lookup 12).map (·.status) =
        some .reconciliationRequired := by
    decide +kernel
  obtain ⟨row, hrow, hwaits⟩ := Option.map_eq_some_iff.mp hstatus
  exact h Sample.queued choices (by rw [hvisits]; decide) ⟨row, hrow, by simp [hwaits]⟩

end S3mp
