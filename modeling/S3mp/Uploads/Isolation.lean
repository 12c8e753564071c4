import S3mp.Commands
import S3mp.Files.Reconciler
import S3mp.Operations.World

/-!
# Records which stop the reconciliation of others

The pass keeps what the turns before an error have committed.  It goes on after
every error but two: an `ApiError` in the body of a turn, and any error of the
transaction the handler makes to queue the record again.
-/

namespace S3mp

open Relational Files Storage Transition

/-- An answer the pass survives.  The reason `reconciliation_retry_required` is the handler's,
a missing space and a digest which is none make the body raise an `ApiError` of its own. -/
def Harmless : (r : ReconcileRequest) → Except Raised r.Value → Prop
  | .failOrQuarantine _ _ _ .reconciliationRetryRequired, .error _ => False
  | .getSpace .., .ok none => False
  | .hashSha256 _, .ok value => (providerChecksumToHex (some value)).isSome
  | _, .error raised => ¬ raised.isApi
  | _, .ok _ => True

section Exact

variable {σ : Type} {answer : (r : ReconcileRequest) → σ → Except Raised r.Value × σ}

/-- The program raises an `ApiError` exactly when it gets an answer which is not harmless. -/
abbrev Contains {α : Type} (answer : (r : ReconcileRequest) → σ → Except Raised r.Value × σ)
    (x : Reconciler α) : Prop :=
  Exact answer Harmless (fun raised ↦ raised.isApi = true) x

theorem contains_closed : Closed (m := Reconciler) (Contains answer) :=
  ⟨exact_pure, exact_bind⟩

theorem contains_read (tenantId : Uuid) (r : SubjectRead) :
    Contains answer (Reconciler.read tenantId r) :=
  exact_call (fun _ ↦ Iff.rfl) fun _ ↦ trivial

theorem contains_endIngestion (p : PendingRecord) (status : IngestionStatus)
    {reason : FailureReason} (hreason : reason ≠ .reconciliationRetryRequired) :
    Contains answer (endIngestion p status reason) := by
  refine exact_bind (exact_call (fun raised ↦ ?_) fun _ ↦ ?_) fun _ ↦ exact_pure _
  · cases reason <;> first | exact Iff.rfl | exact absurd rfl hreason
  · cases reason <;> trivial

theorem contains_commitRecord (p : PendingRecord) : Contains answer (commitRecord p) :=
  exact_bind (exact_call (fun _ ↦ Iff.rfl) fun _ ↦ trivial) fun _ ↦ exact_pure _

theorem contains_resolveSpace (tenantId spaceId : Uuid) :
    Contains answer (resolveSpace tenantId spaceId) := by
  refine exact_call_bind (fun _ ↦ Iff.rfl) (fun found hfound ↦ ?_) fun found hfound ↦ ?_
  · cases found with
    | none => exact hfound.elim
    | some space => exact exact_pure space
  · cases found with
    | none => exact ⟨_, rfl, rfl⟩
    | some space => exact absurd trivial hfound

theorem contains_serverChecksum (target : ProviderTarget) :
    Contains answer (serverChecksum target) := by
  refine exact_call_bind (fun _ ↦ Iff.rfl) (fun value hvalue ↦ ?_) fun value hvalue ↦ ?_
  · obtain ⟨normalized, hnormalized⟩ := Option.isSome_iff_exists.mp hvalue
    rw [hnormalized]
    exact exact_pure _
  · have hnone : providerChecksumToHex (some value) = none := by
      simpa [Harmless] using hvalue
    rw [hnone]
    exact ⟨_, rfl, rfl⟩

theorem contains_revalidateIngestion (p : PendingRecord) :
    Contains answer (revalidateIngestion p) := by
  unfold revalidateIngestion
  refine exact_bind (contains_read _ _) fun space ↦ ?_
  split
  · exact exact_pure _
  split
  · exact exact_pure _
  refine exact_bind (validateDelayedSubject_closed (Q := Contains answer) contains_closed
    (contains_read p.tenantId) _ _ _ _ _) fun subject ↦ ?_
  split
  · exact exact_pure _
  split
  · exact exact_pure _
  refine exact_bind (contains_read _ _) fun bindings ↦
    exact_bind (contains_read _ _) fun now ↦ ?_
  split
  · exact exact_throw (by simp [Raised.isApi])
  · exact exact_pure _

theorem contains_checkTarget (p : PendingRecord) (space : StorageSpace) :
    Contains answer (checkTarget p space) := by
  unfold checkTarget
  split
  · exact exact_pure _
  split
  · exact exact_throw (by simp [Raised.isApi])
  · exact exact_pure _

theorem contains_verifyAndCommit (p : PendingRecord) : Contains answer (verifyAndCommit p) := by
  unfold verifyAndCommit
  refine exact_bind (exact_call (fun _ ↦ Iff.rfl) fun _ ↦ trivial) fun found ↦ ?_
  split
  · exact contains_endIngestion p _ (by simp)
  · refine exact_bind (contains_serverChecksum _) fun checksum ↦ ?_
    exact exact_bind (exact_call (fun _ ↦ Iff.rfl) fun _ ↦ trivial) fun _ ↦
      contains_commitRecord p

theorem contains_reconcileRecord (maxAttempts : ℕ) (p : PendingRecord) :
    Contains answer (reconcileRecord maxAttempts p) := by
  unfold reconcileRecord
  refine exact_bind (exact_call (fun _ ↦ Iff.rfl) fun _ ↦ trivial) fun attempts ↦ ?_
  split
  · exact contains_endIngestion p _ (by simp)
  refine exact_bind (contains_revalidateIngestion p) fun current ↦ ?_
  split
  · exact contains_endIngestion p _ (by simp)
  refine exact_bind (contains_resolveSpace _ _) fun space ↦ ?_
  split
  · exact contains_endIngestion p _ (by simp)
  refine exact_bind (contains_checkTarget p space) fun same ↦ ?_
  split
  · exact contains_endIngestion p _ (by simp)
  split
  · exact contains_commitRecord p
  · exact contains_verifyAndCommit p

/-- The handler's transaction is harmless exactly when it does not raise. -/
theorem handler_exact (p : PendingRecord) : Exact answer Harmless (fun _ ↦ True)
    (endIngestion p .reconciliationRequired .reconciliationRetryRequired) := by
  refine exact_bind (exact_call (fun _ ↦ ?_) fun _ ↦ trivial) fun _ ↦ exact_pure _
  exact iff_of_false id fun h ↦ h trivial

theorem ends_iff (maxAttempts : ℕ) (p : PendingRecord) (s : σ) :
    Ends answer (reconcileTurn maxAttempts) s p ↔
      (reconcileTurn maxAttempts p).run.Along answer Harmless s := by
  unfold Ends reconcileTurn
  split
  · exact iff_of_true (fun _ _ h ↦ by cases h) trivial
  have hcontains : Contains answer (reconcileRecord maxAttempts p) :=
    contains_reconcileRecord maxAttempts p
  have hbody := hcontains s
  cases hplay : (reconcileRecord maxAttempts p).run.play answer s with
  | mk out t =>
      rw [hplay] at hbody
      cases out with
      | ok x =>
          rw [play_tryCatch_ok hplay, along_tryCatch_ok hplay, ← hbody]
          exact iff_of_true (fun _ _ h ↦ by cases h) fun _ _ h ↦ by cases h
      | error raised =>
          rw [play_tryCatch_error hplay, along_tryCatch_error hplay, ← hbody]
          cases raised with
          | api error =>
              refine iff_of_false (fun h ↦ h _ _ rfl) fun h ↦ ?_
              exact h.1 _ _ rfl rfl
          | other text =>
              rw [← handler_exact p t]
              constructor
              · intro h
                refine ⟨fun raised u heq ↦ ?_, fun raised u heq ↦ absurd heq (h raised u)⟩
                cases heq
                exact Bool.false_ne_true
              · intro h raised u heq
                exact h.2 raised u heq trivial

/-- The pass leaves the world its visited turns leave, an error undoing none of them, and makes
their requests.  It visits every record exactly when all answers in the turns before the last are
harmless. -/
theorem reconcile_isolated_iff
    (answer : (r : ReconcileRequest) → σ → Except Raised r.Value × σ) (maxAttempts : ℕ)
    (records : List PendingRecord) (s : σ) :
    ((reconcilePendingIngestions maxAttempts records).run.play answer s).2 =
        afterTurns answer (reconcileTurn maxAttempts) s
          (visited answer (reconcileTurn maxAttempts) records s) ∧
      (reconcilePendingIngestions maxAttempts records).run.trace answer s =
        turnRequests answer (reconcileTurn maxAttempts)
          (visited answer (reconcileTurn maxAttempts) records s) s ∧
      (visited answer (reconcileTurn maxAttempts) records s = records ↔
        ∀ pre p q post, records = pre ++ p :: q :: post →
          (reconcileTurn maxAttempts p).run.Along answer Harmless
            (afterTurns answer (reconcileTurn maxAttempts) s pre)) := by
  refine ⟨play_forEach records s, trace_forEach records s, ?_⟩
  rw [visited_eq_iff]
  constructor
  · intro h pre p q post hsplit
    exact (ends_iff maxAttempts p _).mp (h pre p q post hsplit)
  · intro h pre p q post hsplit
    exact (ends_iff maxAttempts p _).mpr (h pre p q post hsplit)

end Exact

/-! ## The pass over one tenant -/

/-- The tenant's database, what the provider and the subject stores say, and what the other
clients commit before each of the next requests. -/
structure ReconcileWorld where
  db : Db
  objects : ProviderTarget → Option (ObjectMetadata × String)
  subjects : (r : SubjectRead) → r.Value
  now : Timestamp
  nextFile : Uuid
  others : List (List Cmd)

namespace ReconcileWorld

def interleave (w : ReconcileWorld) : ReconcileWorld :=
  { w with db := run exec w.db (w.others.headD []), others := w.others.tail }

def raised : TxError → Raised
  | .api error => .api error
  | .integrity constraint => .other constraint
  | .value message => .other message

/-- A transaction commits, or is rolled back and raises. -/
def transact {α : Type} (out : Tx (α × Db)) (w : ReconcileWorld) : Except Raised α × ReconcileWorld :=
  match out with
  | .ok (a, db) => (.ok a, { w with db })
  | .error e => (.error (raised e), w)

def perform : (r : ReconcileRequest) → ReconcileWorld → Except Raised r.Value × ReconcileWorld
  | .reconciliationAttemptCount _ id, w =>
    (.ok (w.db.ingestionEvents.countP fun event ↦
      event.ingestionRecordId = id && event.eventType = .reconciliationStarted), w)
  | .failOrQuarantine _ id status reason, w =>
    transact (Files.failOrQuarantine w.now id status reason w.db) w
  | .read _ (.getSpace spaceId), w => (.ok (S3mp.getSpace spaceId w.db), w)
  | .read _ r, w => (.ok (w.subjects r), w)
  | .getSpace _ spaceId, w => (.ok (S3mp.getSpace spaceId w.db), w)
  | .commitVerifiedFile _ id, w =>
    transact (Files.commitVerifiedFile w.now w.nextFile id w.db)
      { w with nextFile := w.nextFile + 1 }
  | .head target, w => (.ok ((w.objects target).map Prod.fst), w)
  | .hashSha256 target, w =>
    match w.objects target with
    | none => (.error (.other "S3 object read failed: object not found"), w)
    | some (_, digest) => (.ok digest, w)
  | .recordProviderResult _ id result, w =>
    transact (Files.recordProviderResult id result w.db) w

def answer (r : ReconcileRequest) (w : ReconcileWorld) : Except Raised r.Value × ReconcileWorld :=
  w.interleave.perform r

end ReconcileWorld

namespace Sample

/-- Two uploads whose provider was unavailable when the client completed them. -/
def queued : Db :=
  run exec tenant
    [.createUploadIntent (ids 10) (session 40) (data "a"),
      .createUploadIntent (ids 20) (session 20) (data "b"),
      .failOrQuarantine 0 12 .reconciliationRequired .providerUnavailable,
      .failOrQuarantine 0 22 .reconciliationRequired .providerUnavailable]

def pending : List PendingRecord :=
  [12, 22].filterMap fun id ↦ (queued.ingestions.lookup id).map (⟨1, id, ·⟩)

/-- The principal has been removed, and the client completes the first upload while the pass
looks at it. -/
def completing : ReconcileWorld where
  db := queued
  objects _ := none
  subjects
    | .now => 0
    | .getPrincipal _ => none
    | .getMembershipState _ => none
    | .getKeyState _ => none
    | .getMembershipBinding _ => none
    | .getSpace _ => none
    | .bindingsFor .. => []
  now := 0
  nextFile := 30
  others := [[], [], [], [.recordProviderResult 12 (result 40 'a'), .commitVerifiedFile 0 30 12]]

end Sample

/-- The first record has been committed by somebody else, its conflict ends the pass, and the
second record is not visited. -/
theorem committed_record_stops_pass : ¬ ∀ (w : ReconcileWorld) maxAttempts records,
    visited ReconcileWorld.answer (reconcileTurn maxAttempts) records w = records := by
  intro h
  have hvisited := congrArg (List.map PendingRecord.id) (h Sample.completing 5 Sample.pending)
  have hfirst : (visited ReconcileWorld.answer (reconcileTurn 5) Sample.pending
      Sample.completing).map PendingRecord.id = [12] := by
    decide
  have hall : Sample.pending.map PendingRecord.id = [12, 22] := by
    decide
  rw [hfirst, hall] at hvisited
  exact absurd hvisited (by decide)

end S3mp
