import S3mp.Files.ReadCommitted
import S3mp.Operations.Occupation
import S3mp.Transition.Locking

/-!
# What an operation holds

An operation holds the file rows whose `active_operation_id` it is, the target
keys it has reserved, and the key of its result row, as long as it occupies that.
What a transaction leaves of all this is read off from the places of the rows an
operation occupies.
-/

namespace S3mp

open Relational Files Governance Transition

inductive Resource where
  | file (id : Uuid)
  | target (spaceId : Uuid) (key : String)
  deriving DecidableEq, Repr

/-- The operation exists and has not come to an end. -/
def InProgress (db : Db) (o : Uuid) : Prop :=
  ∃ op, db.operations.lookup o = some op ∧ ¬ op.status.terminal

/-- Where the row lies, if the operation occupies it. -/
def Files.FileObject.place (o : Uuid) (f : FileObject) : Option (Uuid × String) :=
  if f.activeOperationId = some o then some (f.storageSpaceId, f.objectKey) else none

def place (o : Uuid) (files : Table Uuid FileObject) (j : Uuid) : Option (Uuid × String) :=
  (files.lookup j).bind (·.place o)

/-- The key of the result row, as long as the operation occupies it. -/
def renameTarget (db : Db) (o : Uuid) : Option Resource :=
  ((db.operations.lookup o).bind (·.resultFileId)).bind fun j ↦
    (place o db.files j).map fun p ↦ .target p.1 p.2

def reservedKeys (db : Db) (o : Uuid) : List Resource :=
  (db.resourceReservations.select fun _ r ↦ r.operationId = o).map fun row ↦
    .target row.2.storageSpaceId row.2.objectKey

/-- The locks of the operation. -/
def held (db : Db) (o : Uuid) : List Resource :=
  (operationFileIds o db).map .file ++ reservedKeys db o ++ (renameTarget db o).toList

variable {db db' : Db} {o o' j : Uuid} {files : Table Uuid FileObject}

theorem place_eq_some {p : Uuid × String} :
    place o files j = some p ↔ ∃ f, files.lookup j = some f ∧ f.activeOperationId = some o ∧
      (f.storageSpaceId, f.objectKey) = p := by
  simp only [place, FileObject.place, Option.bind_eq_some_iff, Option.ite_none_right_eq_some,
    Option.some.injEq]

theorem mem_held_file : .file j ∈ held db o ↔ (place o db.files j).isSome := by
  have hids : j ∈ operationFileIds o db ↔ (place o db.files j).isSome := by
    rw [operationFileIds, AList.mem_keys_select, Option.isSome_iff_exists]
    constructor
    · rintro ⟨f, hf, hheld⟩
      exact ⟨_, place_eq_some.mpr ⟨f, hf, by simpa using hheld, rfl⟩⟩
    · rintro ⟨p, hp⟩
      obtain ⟨f, hf, hheld, -⟩ := place_eq_some.mp hp
      exact ⟨f, hf, by simpa using hheld⟩
  have hreserved : .file j ∉ reservedKeys db o := by
    simp [reservedKeys]
  have htarget : renameTarget db o ≠ some (.file j) := by
    simp [renameTarget, Option.bind_eq_some_iff]
  rw [← hids]
  simp [held, hreserved, htarget]

theorem mem_reservedKeys {spaceId : Uuid} {key : String} :
    .target spaceId key ∈ reservedKeys db o ↔
      ∃ id, db.resourceReservations.lookup id = some ⟨spaceId, key, o⟩ := by
  simp only [reservedKeys, List.mem_map, Prod.exists, AList.mem_select_iff, decide_eq_true_eq,
    Resource.target.injEq]
  constructor
  · rintro ⟨id, r, ⟨hr, rfl⟩, rfl, rfl⟩
    exact ⟨id, hr⟩
  · rintro ⟨id, hr⟩
    exact ⟨id, _, ⟨hr, rfl⟩, rfl, rfl⟩

theorem mem_held_target {spaceId : Uuid} {key : String} :
    .target spaceId key ∈ held db o ↔
      .target spaceId key ∈ reservedKeys db o ∨ renameTarget db o = some (.target spaceId key) := by
  simp [held]

theorem renameTarget_eq_some {r : Resource} :
    renameTarget db o = some r ↔ ∃ op k f, db.operations.lookup o = some op ∧
      op.resultFileId = some k ∧ db.files.lookup k = some f ∧ f.activeOperationId = some o ∧
      r = .target f.storageSpaceId f.objectKey := by
  simp only [renameTarget, Option.bind_eq_some_iff, Option.map_eq_some_iff, place_eq_some]
  constructor
  · rintro ⟨k, ⟨op, hop, hresult⟩, p, ⟨f, hf, hheld, rfl⟩, rfl⟩
    exact ⟨op, k, f, hop, hresult, hf, hheld, rfl⟩
  · rintro ⟨op, k, f, hop, hresult, hf, hheld, rfl⟩
    exact ⟨k, ⟨op, hop, hresult⟩, _, ⟨f, hf, hheld, rfl⟩, rfl⟩

/-! ## What leaves the locks of an operation alone -/

/-- The operation holds the same after the transaction as before. -/
structure SameLocks (o : Uuid) (db db' : Db) : Prop where
  result : (db'.operations.lookup o).bind (·.resultFileId) =
    (db.operations.lookup o).bind (·.resultFileId)
  place : ∀ j, place o db'.files j = place o db.files j
  reservations : ∀ r, r ∈ reservedKeys db' o ↔ r ∈ reservedKeys db o

theorem SameLocks.refl (o : Uuid) (db : Db) : SameLocks o db db :=
  ⟨rfl, fun _ ↦ rfl, fun _ ↦ Iff.rfl⟩

theorem SameLocks.trans {db'' : Db} (h : SameLocks o db db') (h' : SameLocks o db' db'') :
    SameLocks o db db'' :=
  ⟨h'.result.trans h.result, fun j ↦ (h'.place j).trans (h.place j),
    fun r ↦ (h'.reservations r).trans (h.reservations r)⟩

theorem SameLocks.renameTarget (h : SameLocks o db db') :
    renameTarget db' o = renameTarget db o := by
  unfold S3mp.renameTarget
  rw [h.result]
  simp only [h.place]

theorem SameLocks.held (h : SameLocks o db db') (r : Resource) :
    r ∈ held db' o ↔ r ∈ held db o := by
  cases r with
  | file j => rw [mem_held_file, mem_held_file, h.place]
  | target spaceId key => rw [mem_held_target, mem_held_target, h.reservations, h.renameTarget]

/-! ## The places of occupied rows -/

theorem place_updateWhere {p : Uuid → FileObject → Bool} {g : FileObject → FileObject}
    (hg : ∀ f, files.lookup j = some f → p j f → (g f).place o = f.place o) :
    place o (files.updateWhere p g) j = place o files j := by
  unfold place
  rw [AList.lookup_updateWhere]
  cases hf : files.lookup j with
  | none => rfl
  | some f =>
      simp only [Option.map_some, Option.bind_some]
      split
      · rename_i hp
        exact hg f hf hp
      · rfl

/-- A change which keeps the places of the rows it is made to. -/
theorem place_update {k : Uuid} {g : FileObject → FileObject}
    (hg : ∀ f, files.lookup k = some f → (g f).place o = f.place o) :
    place o (files.update k g) j = place o files j := by
  refine place_updateWhere fun f hf hj ↦ hg f ?_
  obtain rfl : j = k := by simpa using hj
  exact hf

theorem place_inPhase {phase : OperationPhase} {startedAt : Option Timestamp} :
    place o' (updateHeld o (FileObject.inPhase phase startedAt) files) j = place o' files j :=
  place_updateWhere fun _ _ _ ↦ rfl

theorem place_settleRename {now : Timestamp} {op : FileOperation} {status : OperationStatus} :
    place o' (settleRename now o op status files) j = place o' files j := by
  unfold settleRename
  split
  · split
    · refine (place_update ?_).trans (place_update ?_)
      · exact fun _ _ ↦ rfl
      · exact fun _ _ ↦ rfl
    · split
      · exact place_update fun _ _ ↦ rfl
      · rfl
  · split
    · exact place_update fun _ _ ↦ rfl
    · rfl
  · rfl

/-- A settlement leaves the rows of the other operations, and for a status which is not terminal
all rows. -/
theorem place_settledFiles_of_ne {now : Timestamp} {op : FileOperation} {status : OperationStatus}
    (h : o' ≠ o ∨ status.terminal = false) :
    place o' (settledFiles now o op status files) j = place o' files j := by
  have hrename : place o' (if op.operationType = .rename then settleRename now o op status files
      else files) j = place o' files j := by
    split
    · exact place_settleRename
    · rfl
  unfold settledFiles
  dsimp only
  split
  · rename_i hterminal
    have ho : o' ≠ o := h.resolve_right (by simp [hterminal])
    refine (place_updateWhere fun f _ hheld ↦ ?_).trans hrename
    have hother : f.activeOperationId ≠ some o' := by
      intro heq
      exact ho (Option.some.inj (heq.symm.trans (by simpa using hheld)))
    simp [FileObject.place, FileObject.unoccupied, hother]
  · exact hrename

theorem place_settledFiles {now : Timestamp} {op : FileOperation} {status : OperationStatus}
    (hterminal : status.terminal) : place o (settledFiles now o op status files) j = none := by
  unfold settledFiles updateHeld place
  dsimp only
  rw [if_pos hterminal, AList.lookup_updateWhere, Option.bind_map]
  refine Option.bind_eq_none_iff.mpr fun f _ ↦ ?_
  simp only [Function.comp_apply, decide_eq_true_eq]
  split
  · rfl
  · rename_i hother
    exact if_neg hother

/-- The rows a new operation occupies were nobody's. -/
theorem place_insert {k : Uuid} {f : FileObject} (hk : k ∉ files) (hfree : f.activeOperationId = none) :
    place o (files.insert k f) j = place o files j := by
  unfold place
  rw [AList.lookup_insert']
  split
  · rename_i hj
    rw [hj, AList.lookup_eq_none.mpr hk, Option.bind_some, FileObject.place, hfree]
    rfl
  · rfl

theorem place_occupy_of_ne {ids : List Uuid} (ho : o' ≠ o)
    (hfree : ∀ j ∈ ids, ∀ f, files.lookup j = some f → f.activeOperationId = none) :
    place o' (occupy o ids files) j = place o' files j := by
  refine place_updateWhere fun f hf hj ↦ ?_
  have hnone := hfree j (by simpa using hj) f hf
  simp [FileObject.place, hnone, ho.symm]

/-! ## Transactions which leave all locks alone -/

/-- What each operation was accepted for. -/
abbrev Claims : Type := Uuid → List Resource

def locks (db : Db) (accepted : Claims) : Locking.Locks Uuid Resource where
  holds o r := r ∈ held db o
  active := InProgress db
  claims o r := r ∈ accepted o

/-- All locks are kept, and no operation with claims comes to an end or is taken up again. -/
structure KeepsLocks (accepted : Claims) (db db' : Db) : Prop where
  known : ∀ o, o ∈ db'.operations ↔ o ∈ db.operations
  same : ∀ o, SameLocks o db db'
  progress : ∀ o, accepted o ≠ [] → (InProgress db' o ↔ InProgress db o)

variable {accepted : Claims}

theorem KeepsLocks.refl (accepted : Claims) (db : Db) : KeepsLocks accepted db db :=
  ⟨fun _ ↦ Iff.rfl, fun o ↦ .refl o db, fun _ _ ↦ Iff.rfl⟩

theorem KeepsLocks.trans {db'' : Db} (h : KeepsLocks accepted db db')
    (h' : KeepsLocks accepted db' db'') : KeepsLocks accepted db db'' :=
  ⟨fun o ↦ (h'.known o).trans (h.known o), fun o ↦ (h.same o).trans (h'.same o),
    fun o ho ↦ (h'.progress o ho).trans (h.progress o ho)⟩

theorem untouched_locks {accepted' : Claims} (hlocks : SameLocks o db db')
    (hclaims : accepted' o = accepted o)
    (hprogress : accepted o ≠ [] → (InProgress db' o ↔ InProgress db o)) :
    (locks db accepted).Untouched o (locks db' accepted') :=
  ⟨hlocks.held, fun r ↦ by simp only [locks, hclaims],
    fun _ hclaims ↦ hprogress (List.ne_nil_of_mem hclaims)⟩

theorem KeepsLocks.inOrder (h : KeepsLocks accepted db db')
    (horder : (locks db accepted).InOrder) : (locks db' accepted).InOrder :=
  horder.congr fun o ↦ untouched_locks (h.same o) rfl (h.progress o)

theorem ActsFor.inProgress (h : ActsFor o db db') (ho : o' ≠ o) :
    InProgress db' o' ↔ InProgress db o' := by
  unfold InProgress
  rw [h.others o' ho]

theorem ActsFor.sameLocks (h : ActsFor o db db')
    (hplace : ∀ j, place o' db'.files j = place o' db.files j)
    (hreserved : db'.resourceReservations = db.resourceReservations) : SameLocks o' db db' :=
  ⟨h.result o', hplace, fun r ↦ by rw [reservedKeys, reservedKeys, hreserved]⟩

/-- An operation in progress, or without claims, is written and stays in progress. -/
theorem ActsFor.keepsLocks (h : ActsFor o db db')
    (hplace : ∀ o' j, place o' db'.files j = place o' db.files j)
    (hreserved : db'.resourceReservations = db.resourceReservations)
    (hprogress : accepted o ≠ [] → (InProgress db' o ↔ InProgress db o)) :
    KeepsLocks accepted db db' := by
  refine ⟨fun _ ↦ h.mem_operations, fun o' ↦ h.sameLocks (hplace o') hreserved,
    fun o' hclaims ↦ ?_⟩
  by_cases ho : o' = o
  · subst ho
    exact hprogress hclaims
  · exact h.inProgress ho

/-- The status is read off from the operation row. -/
theorem inProgress_of_lookup {op : FileOperation} (hop : db.operations.lookup o = some op) :
    InProgress db o ↔ op.status.terminal = false := by
  simp [InProgress, hop]

theorem inProgress_update {op op' : FileOperation} (hop : db.operations.lookup o = some op)
    (hops : db'.operations = db.operations.update o fun _ ↦ op') :
    InProgress db' o ↔ op'.status.terminal = false := by
  refine inProgress_of_lookup ?_
  rw [hops, AList.lookup_update_self, hop, Option.map_some]

theorem startBrokerOperation_keepsLocks (now : Timestamp) :
    KeepsLocks accepted db (startBrokerOperation now o db).2 := by
  have hacts : ActsFor o db _ := startBrokerOperation_actsFor now
  unfold startBrokerOperation at hacts ⊢
  split at hacts
  · exact .refl accepted db
  rename_i op hop
  split at hacts
  · rw [if_pos ‹_›]
    exact .refl accepted db
  rename_i hstatus
  rw [if_neg hstatus]
  refine hacts.keepsLocks (fun _ _ ↦ place_inPhase) rfl fun _ ↦ ?_
  rw [inProgress_update hop rfl, inProgress_of_lookup hop]
  push Not at hstatus
  have hbefore : op.status.terminal = false := by
    simp only [List.mem_cons, List.not_mem_nil, or_false] at hstatus
    rcases hstatus with hs | hs <;> rw [hs] <;> rfl
  exact iff_of_true rfl hbefore

theorem scheduleBrokerRetry_keepsLocks (now : Timestamp) (reason : Option String) :
    KeepsLocks accepted db (scheduleBrokerRetry now o reason db).2 := by
  have hacts : ActsFor o db _ := scheduleBrokerRetry_actsFor now reason
  unfold scheduleBrokerRetry at hacts ⊢
  split at hacts
  · exact .refl accepted db
  rename_i op hop
  split at hacts
  · rw [if_pos ‹_›]
    exact .refl accepted db
  rename_i hstatus
  rw [if_neg hstatus]
  refine hacts.keepsLocks (fun _ _ ↦ place_inPhase) rfl fun _ ↦ ?_
  rw [inProgress_update hop rfl, inProgress_of_lookup hop, not_not.mp hstatus]
  exact iff_of_true rfl rfl

theorem recordRenameProviderResult_keepsLocks (etag : Option String) :
    KeepsLocks accepted db (recordRenameProviderResult o etag db) := by
  have hacts : ActsFor o db _ := recordRenameProviderResult_actsFor etag
  refine hacts.keepsLocks (fun o' j ↦ ?_) ?_ fun _ ↦ ?_
  all_goals
    unfold recordRenameProviderResult
    split
    · rfl
    split
    · rfl
    split
    · rfl
  · exact place_update fun _ _ ↦ rfl
  · rfl
  · rfl

/-! ## Recovery, replay and the legacy bridge -/

/-- The recovery of the operation would dead-letter it. -/
def Exhausted (now : Timestamp) (timeoutSeconds : ℤ) (maxRecoveries : ℕ) (db : Db) (o : Uuid) :
    Prop :=
  ∃ op, db.operations.lookup o = some op ∧ timedOut (now - seconds timeoutSeconds) o op db ∧
    maxRecoveries ≤ op.recoveryAttemptCount

theorem timedOut_eq_true {cutoff : Timestamp} {op : FileOperation} :
    timedOut cutoff o op db = true ↔ op.status = .processing ∧
      ∃ j f, db.files.lookup j = some f ∧ f.activeOperationId = some o ∧
        f.processingStartedAt.any (· < cutoff) := by
  simp [timedOut, AList.anyRow_eq_true]

theorem recoverOperation_cases {now : Timestamp} {timeout : ℤ} {maxRecoveries : ℕ}
    {outboxId : Uuid → Uuid} (h : recoverOperation now timeout maxRecoveries outboxId db o = .ok db') :
    db' = db ∨
      (Exhausted now timeout maxRecoveries db o ∧ ∃ op, op.status = .deadLettered ∧
        db' = { db with operations := db.operations.update o fun _ ↦ op }) ∨
      ∃ op, outboxId o ∉ db.outbox ∧ db.operations.lookup o = some op ∧ op.status = .processing ∧
        db' = { db with
          operations := db.operations.update o fun _ ↦ { op with
            recoveryAttemptCount := op.recoveryAttemptCount + 1
            status := .queued
            failureReason := some "processing_timeout_recovery" }
          files := updateHeld o (FileObject.inPhase .queued none) db.files
          outbox := db.outbox.insert (outboxId o) (outboxEvent o none) } := by
  unfold recoverOperation at h
  split at h
  · cases h
    exact Or.inl rfl
  rename_i op hop
  split at h
  · cases h
    exact Or.inl rfl
  rename_i htimedOut
  have htimedOut : timedOut (now - seconds timeout) o op db = true := by simpa using htimedOut
  split at h
  · rename_i hmax
    cases h
    exact Or.inr (Or.inl ⟨⟨op, hop, htimedOut, hmax⟩, _, rfl, rfl⟩)
  · obtain ⟨houtbox, rfl⟩ := addOutboxEvent_eq_ok h
    exact Or.inr (Or.inr ⟨op, houtbox, hop, (timedOut_eq_true.mp htimedOut).1, rfl⟩)

/-- A turn for one operation does not bring another closer to its end. -/
theorem exhausted_of_recovered {now : Timestamp} {timeout : ℤ} {maxRecoveries : ℕ}
    {outboxId : Uuid → Uuid} (h : recoverOperation now timeout maxRecoveries outboxId db o = .ok db')
    (hnot : ¬ Exhausted now timeout maxRecoveries db o)
    (hexhausted : Exhausted now timeout maxRecoveries db' o') :
    Exhausted now timeout maxRecoveries db o' := by
  rcases recoverOperation_cases h with rfl | ⟨hbad, -⟩ | ⟨op, -, hop, -, rfl⟩
  · exact hexhausted
  · exact absurd hbad hnot
  obtain ⟨op', hop', htimedOut, hmax⟩ := hexhausted
  obtain ⟨hstatus, j, f', hf', hheld, hstarted⟩ := timedOut_eq_true.mp htimedOut
  by_cases ho : o' = o
  · subst ho
    rw [AList.lookup_update_self, hop, Option.map_some, Option.some.injEq] at hop'
    subst hop'
    cases hstatus
  · rw [AList.lookup_update_of_ne ho] at hop'
    refine ⟨op', hop', timedOut_eq_true.mpr ⟨hstatus, j, f', ?_, hheld, hstarted⟩, hmax⟩
    dsimp only at hf'
    rw [updateHeld, AList.lookup_updateWhere] at hf'
    obtain ⟨f, hf, rfl⟩ := Option.map_eq_some_iff.mp hf'
    split at hheld
    · rename_i hheldBy
      have hother : f.activeOperationId = some o' := hheld
      rw [decide_eq_true_eq, hother, Option.some.injEq] at hheldBy
      exact absurd hheldBy ho
    · rename_i hother
      rw [hf, if_neg hother]

theorem recoverOperation_keepsLocks {now : Timestamp} {timeout : ℤ} {maxRecoveries : ℕ}
    {outboxId : Uuid → Uuid} (hnot : ¬ Exhausted now timeout maxRecoveries db o)
    (h : recoverOperation now timeout maxRecoveries outboxId db o = .ok db') :
    KeepsLocks accepted db db' := by
  have hacts := recoverOperation_actsFor h
  rcases recoverOperation_cases h with rfl | ⟨hbad, -⟩ | ⟨op, -, hop, hstatus, rfl⟩
  · exact .refl accepted db'
  · exact absurd hbad hnot
  · refine hacts.keepsLocks (fun _ _ ↦ place_inPhase) rfl fun _ ↦ ?_
    rw [inProgress_update hop rfl, inProgress_of_lookup hop, hstatus]
    exact iff_of_true rfl rfl

theorem recoverTimedOutOperations_keepsLocks {now : Timestamp} {timeout : ℤ} {maxRecoveries : ℕ}
    {outboxId : Uuid → Uuid} {picked : List Uuid}
    (hnot : ∀ o ∈ picked, ¬ Exhausted now timeout maxRecoveries db o)
    (h : recoverTimedOutOperations now timeout maxRecoveries outboxId picked db = .ok db') :
    KeepsLocks accepted db db' := by
  unfold recoverTimedOutOperations at h
  induction picked generalizing db with
  | nil =>
      cases h
      exact .refl accepted _
  | cons o picked ih =>
      rw [List.foldlM_cons] at h
      obtain ⟨db₁, hturn, hrest⟩ := Except.bind_eq_ok.mp h
      have hfirst := hnot o List.mem_cons_self
      refine (recoverOperation_keepsLocks hfirst hturn).trans (ih (fun o' ho' hexhausted ↦ ?_) hrest)
      exact hnot o' (List.mem_cons_of_mem o ho') (exhausted_of_recovered hturn hfirst hexhausted)

theorem enqueueLegacyOperation_keepsLocks {now : Timestamp} {outboxId : Uuid → Uuid}
    (h : enqueueLegacyOperation now outboxId db o = .ok db') : KeepsLocks accepted db db' := by
  have hacts := enqueueLegacyOperation_actsFor h
  unfold enqueueLegacyOperation at h
  split at h
  · cases h
    exact .refl accepted db
  rename_i op hop
  split at h
  · cases h
    exact .refl accepted db
  rename_i hpending
  have hbefore : op.status.terminal = false := by
    cases hs : op.status <;> simp_all [FileOperation.legacyPending, OperationStatus.terminal]
  dsimp only at h
  split at h
  · cases h
    refine hacts.keepsLocks (fun _ _ ↦ rfl) rfl fun _ ↦ ?_
    rw [inProgress_update hop rfl, inProgress_of_lookup hop]
    exact iff_of_true rfl hbefore
  · obtain ⟨-, rfl⟩ := addOutboxEvent_eq_ok h
    refine hacts.keepsLocks (fun _ _ ↦ rfl) rfl fun _ ↦ ?_
    rw [inProgress_update hop rfl, inProgress_of_lookup hop]
    exact iff_of_true rfl hbefore

theorem enqueueLegacyOperations_keepsLocks {now : Timestamp} {outboxId : Uuid → Uuid}
    {picked : List Uuid} (h : enqueueLegacyOperations now outboxId picked db = .ok db') :
    KeepsLocks accepted db db' :=
  Tx.foldlM_relates (KeepsLocks.refl accepted) KeepsLocks.trans enqueueLegacyOperation_keepsLocks h

/-- A replay occupies nothing, so it is in order for an operation without claims only. -/
theorem replayDeadLetterOperation_keepsLocks {outboxId replayOf : Uuid} {out : Option FileOperation}
    (hclaims : ∀ op, db.operations.lookup o = some op →
      op.status ∈ [OperationStatus.deadLettered, .partialFailure] → accepted o = [])
    (h : replayDeadLetterOperation outboxId o replayOf db = .ok (out, db')) :
    KeepsLocks accepted db db' := by
  have hacts := replayDeadLetterOperation_actsFor h
  have hfiles := replayDeadLetterOperation_files h
  unfold replayDeadLetterOperation at h
  split at h
  · cases h
    exact .refl accepted db
  rename_i op hop
  split at h
  · cases h
    exact .refl accepted db
  rename_i hstatus
  obtain ⟨db₁, hadd, h⟩ := Except.bind_eq_ok.mp h
  obtain ⟨-, rfl⟩ := addOutboxEvent_eq_ok hadd
  obtain ⟨-, rfl⟩ := Prod.mk.inj (Except.pure_eq_ok.mp h)
  exact hacts.keepsLocks (fun _ _ ↦ rfl) rfl fun hne ↦
    absurd (hclaims op hop (not_not.mp hstatus)) hne

/-! ## Settlement -/

theorem reservedKeys_freeKeys_of_ne {status : OperationStatus} {r : Resource} (ho : o' ≠ o)
    (hdb : db'.resourceReservations = freeKeys o status db.resourceReservations) :
    r ∈ reservedKeys db' o' ↔ r ∈ reservedKeys db o' := by
  cases r with
  | file j => simp [reservedKeys]
  | target spaceId key =>
      rw [mem_reservedKeys, mem_reservedKeys, hdb, freeKeys]
      split
      · refine exists_congr fun id ↦ ?_
        rw [AList.lookup_deleteWhere, Option.filter_eq_some_iff]
        simp [ho]
      · exact Iff.rfl

theorem reservedKeys_freeKeys {status : OperationStatus} (hterminal : status.terminal)
    (hdb : db'.resourceReservations = freeKeys o status db.resourceReservations) (r : Resource) :
    r ∉ reservedKeys db' o := by
  cases r with
  | file j => simp [reservedKeys]
  | target spaceId key =>
      rw [mem_reservedKeys, hdb, freeKeys, if_pos hterminal]
      rintro ⟨id, hid⟩
      rw [AList.lookup_deleteWhere, Option.filter_eq_some_iff] at hid
      simp at hid

/-- A terminal status sets everything free that the operation holds. -/
theorem not_held_of_settled {now : Timestamp} {status : OperationStatus} {reason : Option String}
    (hterminal : status.terminal) (hop : o ∈ db.operations)
    (h : settleBrokerOperation now o status reason db = .ok db') (r : Resource) :
    r ∉ held db' o := by
  rcases settleBrokerOperation_eq_ok h with ⟨hnone, rfl⟩ | ⟨op, -, rfl⟩
  · exact absurd hop (AList.lookup_eq_none.mp hnone)
  have hplace : ∀ j, place o (settledFiles now o op status db.files) j = none :=
    fun j ↦ place_settledFiles hterminal
  cases r with
  | file j => simp [mem_held_file, hplace]
  | target spaceId key =>
      simp only [mem_held_target, not_or]
      refine ⟨reservedKeys_freeKeys hterminal rfl _, ?_⟩
      simp [renameTarget, hplace]

theorem settleBrokerOperation_inOrder {now : Timestamp} {status : OperationStatus}
    {reason : Option String} (horder : (locks db accepted).InOrder)
    (hstatus : status.terminal = false → accepted o ≠ [] →
      ∀ op, db.operations.lookup o = some op → op.status.terminal = false)
    (h : settleBrokerOperation now o status reason db = .ok db') :
    (locks db' accepted).InOrder := by
  have hacts := settleBrokerOperation_actsFor h
  have hnone := fun hterminal hop ↦ not_held_of_settled hterminal hop h
  rcases settleBrokerOperation_eq_ok h with ⟨-, rfl⟩ | ⟨op, hop, rfl⟩
  · exact horder
  cases hterminal : status.terminal with
  | true =>
      refine horder.release (fun o' ho' ↦ untouched_locks ⟨hacts.result o', fun j ↦
        place_settledFiles_of_ne (Or.inl ho'), fun r ↦ reservedKeys_freeKeys_of_ne ho' rfl⟩
        rfl fun _ ↦ hacts.inProgress ho') ?_ (hnone hterminal (AList.mem_of_lookup hop))
      change ¬ InProgress _ o
      rw [inProgress_update hop rfl]
      simp [FileOperation.settled, hterminal]
  | false =>
      refine KeepsLocks.inOrder (hacts.keepsLocks (fun _ _ ↦
        place_settledFiles_of_ne (Or.inr hterminal)) ?_ fun hclaims ↦ ?_) horder
      · simp [freeKeys, hterminal]
      · rw [inProgress_update hop rfl, inProgress_of_lookup hop]
        exact iff_of_true hterminal (hstatus hterminal hclaims op hop)

/-! ## Creation -/

/-- The reservations made for the operation lie on keys nobody had reserved. -/
structure Reserves (o spaceId : Uuid) (keys : List String)
    (before after : Table Uuid ResourceReservation) : Prop where
  kept : ∀ id r, before.lookup id = some r → after.lookup id = some r
  made : ∀ id r, after.lookup id = some r → before.lookup id = some r ∨
    (r.operationId = o ∧ r.storageSpaceId = spaceId ∧ r.objectKey ∈ keys ∧
      ∀ id' r', before.lookup id' = some r' →
        ¬ (r'.storageSpaceId = r.storageSpaceId ∧ r'.objectKey = r.objectKey))

theorem reserveKey_reserves {spaceId : Uuid} {ids : String → Uuid} {key : String}
    {before after : Table Uuid ResourceReservation}
    (h : reserveKey spaceId o ids before key = .ok after) :
    Reserves o spaceId [key] before after := by
  unfold reserveKey at h
  split at h
  · simp at h
  rename_i hnone
  cases h
  push Not at hnone
  obtain ⟨hfree, hfresh⟩ := hnone
  rw [ne_eq, Bool.not_eq_true, AList.anyRow_eq_false] at hfree
  refine ⟨fun id r hr ↦ ?_, fun id r hr ↦ ?_⟩
  · rw [AList.lookup_insert_ne, hr]
    rintro rfl
    exact hfresh (AList.mem_of_lookup hr)
  · rw [AList.lookup_insert'] at hr
    split at hr
    · cases hr
      refine Or.inr ⟨rfl, rfl, List.mem_singleton_self key, fun id' r' hr' ⟨hspace, hkey⟩ ↦ ?_⟩
      simpa [hspace, hkey] using hfree id' r' hr'
    · exact Or.inl hr

theorem reserveKeys_reserves {spaceId : Uuid} {ids : String → Uuid} {keys : List String}
    {before after : Table Uuid ResourceReservation}
    (h : keys.foldlM (reserveKey spaceId o ids) before = .ok after) :
    Reserves o spaceId keys before after := by
  induction keys generalizing before with
  | nil =>
      cases h
      exact ⟨fun _ _ hr ↦ hr, fun _ _ hr ↦ Or.inl hr⟩
  | cons key keys ih =>
      rw [List.foldlM_cons] at h
      obtain ⟨between, hfirst, hrest⟩ := Except.bind_eq_ok.mp h
      have hfirst := reserveKey_reserves hfirst
      have hrest := ih hrest
      refine ⟨fun id r hr ↦ hrest.kept id r (hfirst.kept id r hr), fun id r hr ↦ ?_⟩
      rcases hrest.made id r hr with hr | ⟨hid, hspace, hkey, hfree⟩
      · rcases hfirst.made id r hr with hr | ⟨hid, hspace, hkey, hfree⟩
        · exact Or.inl hr
        · rw [List.mem_singleton] at hkey
          exact Or.inr ⟨hid, hspace, List.mem_cons.mpr (Or.inl hkey), hfree⟩
      · exact Or.inr ⟨hid, hspace, List.mem_cons_of_mem key hkey,
          fun id' r' hr' ↦ hfree id' r' (hfirst.kept id' r' hr')⟩

theorem createOperation_reserves {ids : OperationIds} {spaceId : Uuid} {data : OperationData}
    {op : FileOperation} (h : createOperation ids spaceId data db = .ok (op, db')) :
    Reserves ids.operation spaceId (operationResourceKeys data).2 db.resourceReservations
      db'.resourceReservations := by
  unfold createOperation at h
  split at h
  · cases h
  split at h
  · simp at h
  obtain ⟨operations, -, h⟩ := Except.bind_eq_ok.mp h
  obtain ⟨db₁, hoccupy, h⟩ := Except.bind_eq_ok.mp h
  obtain ⟨db₂, hadd, h⟩ := Except.bind_eq_ok.mp h
  obtain ⟨-, rfl⟩ := addOutboxEvent_eq_ok hadd
  obtain ⟨-, rfl⟩ := Prod.mk.inj (Except.pure_eq_ok.mp h)
  obtain ⟨occupied, -, hoccupy⟩ := Except.bind_eq_ok.mp hoccupy
  obtain ⟨⟨⟩, -, hoccupy⟩ := Except.bind_eq_ok.mp hoccupy
  obtain ⟨reservations, hreserve, hoccupy⟩ := Except.bind_eq_ok.mp hoccupy
  obtain rfl := Except.pure_eq_ok.mp hoccupy
  exact reserveKeys_reserves hreserve

theorem Reserves.others {spaceId : Uuid} {keys : List String}
    (h : Reserves o spaceId keys db.resourceReservations db'.resourceReservations) (ho : o' ≠ o)
    (r : Resource) : r ∈ reservedKeys db' o' ↔ r ∈ reservedKeys db o' := by
  cases r with
  | file j => simp [reservedKeys]
  | target spaceId key =>
      rw [mem_reservedKeys, mem_reservedKeys]
      constructor
      · rintro ⟨id, hid⟩
        rcases h.made id _ hid with hold | ⟨heq, -⟩
        · exact ⟨id, hold⟩
        · exact absurd heq ho
      · rintro ⟨id, hid⟩
        exact ⟨id, h.kept id _ hid⟩

theorem Occupies.place {op : FileOperation} {ids : List Uuid} (h : Occupies o op ids files db db')
    (ho : o' ≠ o) (hfiles : ∀ j, S3mp.place o' files j = S3mp.place o' db.files j) :
    S3mp.place o' db'.files j = S3mp.place o' db.files j := by
  rw [h.occupied, place_occupy_of_ne ho fun j hj f hf ↦ (h.free j hj f hf).2, hfiles]

/-- A new operation which holds nothing that anybody held is in order with all others. -/
theorem inOrder_of_occupies {accepted' : Claims} {op : FileOperation} {ids : List Uuid}
    {files : Table Uuid FileObject} (h : Occupies o op ids files db db')
    (horder : (locks db accepted).InOrder) (hop : op.status.terminal = false)
    (hfiles : ∀ o' j, place o' files j = place o' db.files j)
    (hreserved : ∀ o', o' ≠ o → ∀ r, r ∈ reservedKeys db' o' ↔ r ∈ reservedKeys db o')
    (hothers : ∀ o', o' ≠ o → accepted' o' = accepted o') (hself : accepted' o = held db' o)
    (htargets : ∀ spaceId key, .target spaceId key ∈ held db' o →
      ∀ o', o' ≠ o → .target spaceId key ∉ held db o') : (locks db' accepted').InOrder := by
  have hfree : ∀ j ∈ ids, ∀ f, files.lookup j = some f → f.activeOperationId = none :=
    fun j hj f hf ↦ (h.free j hj f hf).2
  have hlookup : ∀ o', o' ≠ o → db'.operations.lookup o' = db.operations.lookup o' := by
    intro o' ho'
    rw [h.operations, AList.lookup_insert_ne ho']
  refine horder.acquire (o := o) (fun o' ho' ↦ untouched_locks ⟨?_, fun j ↦ ?_, hreserved o' ho'⟩
    (hothers o' ho') fun _ ↦ ?_) ?_ (fun r ↦ ?_) fun r o' ho' hheld ↦ ?_
  · rw [hlookup o' ho']
  · exact h.place ho' (hfiles o')
  · unfold InProgress
    rw [hlookup o' ho']
  · exact ⟨op, by rw [h.operations, AList.lookup_insert], by simp [hop]⟩
  · simp only [locks, hself]
  · cases r with
    | target spaceId key => exact htargets spaceId key hheld o' ho'
    | file j =>
        obtain ⟨p, hp⟩ := Option.isSome_iff_exists.mp (mem_held_file.mp hheld)
        obtain ⟨f', hf', hactive, -⟩ := place_eq_some.mp hp
        obtain ⟨hj, f, hf, -⟩ := h.held hf' hactive
        change .file j ∉ held db o'
        rw [mem_held_file, ← hfiles]
        simp [place, hf, FileObject.place, hfree j hj f hf]

/-- An operation nobody knows holds nothing. -/
theorem held_eq_nil (horder : (locks db accepted).InOrder) (ho : o ∉ db.operations) (r : Resource) :
    r ∉ held db o := by
  intro hheld
  obtain ⟨⟨op, hop, -⟩, -⟩ := (horder.exact o r).mp hheld
  exact ho (AList.mem_of_lookup hop)

/-! ### Copies, moves and deletions -/

theorem lookup_lockedRows {seen : Table Uuid FileObject} {spaceId : Uuid} {keys : List String}
    {f : FileObject} (h : (lockedRows seen files spaceId keys).lookup j = some f) :
    files.lookup j = some f := by
  rw [lockedRows, AList.lookup_deleteWhere] at h
  exact (Option.filter_eq_some_iff.mp h).1

/-- The rows of a new operation are those it has locked. -/
theorem createOperationSeen_occupies {seen : Table Uuid FileObject} {ids : OperationIds}
    {spaceId : Uuid} {data : OperationData} {op : FileOperation} (hdb : Consistent db)
    (h : createOperationSeen seen ids spaceId data db = .ok (op, db')) :
    ∃ idempotencyKey occupied, op = newOperation spaceId data idempotencyKey ∧
      Occupies ids.operation op occupied db.files db db' ∧
      Reserves ids.operation spaceId (operationResourceKeys data).2 db.resourceReservations
        db'.resourceReservations ∧
      (operationResourceKeys data).2.forM
        (checkDestination spaceId (data.lockedRows seen spaceId db)) = .ok ⟨⟩ := by
  obtain ⟨⟨operation, locked⟩, hcreate, h⟩ := Except.bind_eq_ok.mp h
  obtain ⟨rfl, rfl⟩ := Prod.mk.inj (Except.pure_eq_ok.mp h)
  have hreserves := createOperation_reserves hcreate
  obtain ⟨idempotencyKey, occupied, reservations, outbox, hop, hfresh, hoccupied, hdestination,
    rfl⟩ := createOperation_eq_ok hcreate
  refine ⟨idempotencyKey, _, hop, ⟨hfresh, rfl, rfl, hdb, fun j hj f hf ↦ ?_⟩, hreserves,
    hdestination⟩
  obtain ⟨f', hf', hheld⟩ := AList.mem_keys_select.mp hj
  obtain ⟨f₀, hf₀, -, ⟨hmem, -⟩ | ⟨-, hactive⟩⟩ := lookup_occupy hf'
  · obtain ⟨key, -, hkey⟩ := (mem_iff_of_mapM hoccupied).mp hmem
    obtain ⟨g, hrow, hfree, hstatus, hsoft⟩ := mem_keys_of_checkOccupied hkey
    obtain rfl := Option.some.inj ((lookup_lockedRows (rowByKey_eq_some hrow).1).symm.trans hf)
    exact ⟨⟨Or.inl hstatus, hsoft⟩, hfree⟩
  · have hheld₀ : f₀.activeOperationId = some ids.operation := by
      rw [← hactive]
      simpa using hheld
    exact absurd (hdb.known j f₀ _ (lookup_lockedRows hf₀) hheld₀) hfresh

/-- The targets of a new operation are free when no rename is on its way to one of them. -/
theorem inOrder_of_newOperation {accepted' : Claims} {spaceId : Uuid} {data : OperationData}
    {idempotencyKey : String} {occupied : List Uuid} (horder : (locks db accepted).InOrder)
    (hoccupies : Occupies o (newOperation spaceId data idempotencyKey) occupied db.files db db')
    (hreserves : Reserves o spaceId (operationResourceKeys data).2 db.resourceReservations
      db'.resourceReservations)
    (hothers : ∀ o', o' ≠ o → accepted' o' = accepted o') (hself : accepted' o = held db' o)
    (htargets : ∀ key ∈ (operationResourceKeys data).2,
      ∀ o', renameTarget db o' ≠ some (.target spaceId key)) : (locks db' accepted').InOrder := by
  refine inOrder_of_occupies hoccupies horder rfl (fun _ _ ↦ rfl)
    (fun o' ho' ↦ hreserves.others ho') hothers hself fun space key hheld o' ho' ↦ ?_
  have hnone : renameTarget db' o = none := by
    rw [renameTarget, hoccupies.operations, AList.lookup_insert]
    rfl
  have hreserved := (mem_held_target.mp hheld).resolve_right (by simp [hnone])
  obtain ⟨id, hid⟩ := mem_reservedKeys.mp hreserved
  rcases hreserves.made id _ hid with hold | ⟨-, hspace, hkey, hfree⟩
  · exact absurd (mem_held_target.mpr (Or.inl (mem_reservedKeys.mpr ⟨id, hold⟩)))
      (held_eq_nil horder hoccupies.fresh _)
  · dsimp only at hspace hkey
    subst hspace
    rw [mem_held_target, not_or]
    refine ⟨fun hother ↦ ?_, htargets key hkey o'⟩
    obtain ⟨id', hid'⟩ := mem_reservedKeys.mp hother
    exact hfree id' _ hid' ⟨rfl, rfl⟩

theorem rowByKey_isSome {spaceId : Uuid} {f : FileObject} (hf : files.lookup j = some f)
    (hspace : f.storageSpaceId = spaceId) : (rowByKey spaceId f.objectKey files).isSome := by
  have hmem : (j, f) ∈ files.select fun _ g ↦ g.storageSpaceId = spaceId &&
      g.objectKey = f.objectKey := AList.mem_select_iff.mpr ⟨hf, by simp [hspace]⟩
  unfold rowByKey
  generalize files.select _ = rows at hmem
  -- Once a row has been found, the last row found is one.
  have hkeeps : ∀ (rows : List (Uuid × FileObject)) (last : Option (Uuid × FileObject)),
      last.isSome → (rows.foldl (fun last row ↦
        if last.all fun l ↦ l.1 ≤ row.1 then some row else last) last).isSome := by
    intro rows
    induction rows with
    | nil => exact fun _ h ↦ h
    | cons row rows ih =>
        intro last hlast
        refine ih _ ?_
        dsimp only
        split
        · rfl
        · exact hlast
  cases rows with
  | nil => cases hmem
  | cons row rows => exact hkeeps rows _ (by simp)

theorem renameTarget_ne_of_checkDestination {spaceId : Uuid} {key : String}
    (h : checkDestination spaceId db.files key = .ok ()) :
    renameTarget db o ≠ some (.target spaceId key) := by
  intro htarget
  obtain ⟨op, k, f, -, -, hf, -, heq⟩ := renameTarget_eq_some.mp htarget
  obtain ⟨rfl, rfl⟩ := Resource.target.inj heq
  simp [checkDestination, rowByKey_isSome hf rfl] at h

theorem createOperation_inOrder {accepted' : Claims} {ids : OperationIds} {spaceId : Uuid}
    {data : OperationData} {op : FileOperation} (hdb : Consistent db)
    (horder : (locks db accepted).InOrder)
    (hothers : ∀ o', o' ≠ ids.operation → accepted' o' = accepted o')
    (hself : accepted' ids.operation = held db' ids.operation)
    (h : createOperation ids spaceId data db = .ok (op, db')) : (locks db' accepted').InOrder := by
  obtain ⟨_, _, rfl, hoccupies, -, hdestination⟩ := createOperation_occupies hdb h
  exact inOrder_of_newOperation horder hoccupies (createOperation_reserves h) hothers hself
    fun key hkey _ ↦ renameTarget_ne_of_checkDestination (forM_eq_ok.mp hdestination key hkey)

/-- A transaction which has read before only knows of the renames it has seen. -/
theorem createOperationSeen_inOrder {accepted' : Claims} {seen : Table Uuid FileObject}
    {ids : OperationIds} {spaceId : Uuid} {data : OperationData} {op : FileOperation}
    (hdb : Consistent db) (horder : (locks db accepted).InOrder)
    (hothers : ∀ o', o' ≠ ids.operation → accepted' o' = accepted o')
    (hself : accepted' ids.operation = held db' ids.operation)
    (htargets : ∀ key ∈ (operationResourceKeys data).2,
      checkDestination spaceId (data.lockedRows seen spaceId db) key = .ok () →
        ∀ o', renameTarget db o' ≠ some (.target spaceId key))
    (h : createOperationSeen seen ids spaceId data db = .ok (op, db')) :
    (locks db' accepted').InOrder := by
  obtain ⟨_, _, rfl, hoccupies, hreserves, hdestination⟩ := createOperationSeen_occupies hdb h
  exact inOrder_of_newOperation horder hoccupies hreserves hothers hself
    fun key hkey o' ↦ htargets key hkey (forM_eq_ok.mp hdestination key hkey) o'

/-! ### Renames -/

/-- The result row of a new rename is alone at its key. -/
theorem createRenameOperation_inOrder {accepted' : Claims} {ids : OperationIds} {spaceId : Uuid}
    {data : RenameData} {op : FileOperation} (hdb : Consistent db)
    (horder : (locks db accepted).InOrder) (hne : db' ≠ db)
    (hothers : ∀ o', o' ≠ ids.operation → accepted' o' = accepted o')
    (hself : accepted' ids.operation = held db' ids.operation)
    (htarget : ∀ o', .target spaceId data.destinationPhysicalKey ∉ reservedKeys db o')
    (h : createRenameOperation ids spaceId data db = .ok (op, db')) :
    (locks db' accepted').InOrder := by
  have hkeys : ∀ o', reservedKeys db' o' = reservedKeys db o' := by
    intro o'
    unfold reservedKeys
    rcases createRenameOperation_eq_ok h with rfl | ⟨_, _, _, -, -, -, -, -, -, -, -, rfl⟩
    · rfl
    · rfl
  obtain ⟨source, hsource, hspace, -, hresult, rfl, hoccupies⟩ :=
    (createRenameOperation_occupies hdb h).resolve_left hne
  refine inOrder_of_occupies hoccupies horder rfl (fun o' j ↦ place_insert hresult rfl)
    (fun o' _ r ↦ by rw [hkeys]) hothers hself fun space key hheld o' ho' ↦ ?_
  rcases mem_held_target.mp hheld with hreserved | htargets
  · rw [hkeys] at hreserved
    exact absurd (mem_held_target.mpr (Or.inl hreserved)) (held_eq_nil horder hoccupies.fresh _)
  obtain ⟨op', k, f', hop', hresultId, hf', hheldBy, heq⟩ := renameTarget_eq_some.mp htargets
  obtain ⟨rfl, rfl⟩ := Resource.target.inj heq
  rw [hoccupies.operations, AList.lookup_insert, Option.some.injEq] at hop'
  subst hop'
  obtain rfl : ids.resultFile = k := Option.some.inj hresultId
  obtain ⟨-, f, hf, hcore⟩ := hoccupies.held hf' hheldBy
  rw [AList.lookup_insert, Option.some.injEq] at hf
  subst hf
  obtain ⟨-, -, hfspace, hfkey, -⟩ := core_fields hcore
  have hfspace : f'.storageSpaceId = spaceId := hfspace.trans hspace
  have hfkey : f'.objectKey = data.destinationPhysicalKey := hfkey
  rw [mem_held_target, not_or, hfspace, hfkey]
  refine ⟨htarget o', fun hother ↦ ?_⟩
  obtain ⟨-, k, g, -, -, hg, hgheld, heq⟩ := renameTarget_eq_some.mp hother
  obtain ⟨hgspace, hgkey⟩ := Resource.target.inj heq
  have hkne : k ≠ ids.resultFile := by
    rintro rfl
    exact hresult (AList.mem_of_lookup hg)
  have hgholds := (hdb.operable k g hg (by simp [hgheld])).holdsKey
  exact hkne (hoccupies.before.unique ids.resultFile k (renamedFile data source) g
    (AList.lookup_insert _) (by rw [AList.lookup_insert_ne hkne, hg]) rfl hgholds
    (hgspace.symm.trans hspace.symm) hgkey.symm)

/-! ## The other commands -/

theorem ChangesRow.place {k : Uuid} (hdb : Consistent db) (h : ChangesRow k db db') :
    place o db'.files j = place o db.files j := by
  unfold S3mp.place
  by_cases hj : j = k
  · subst hj
    cases hf' : db'.files.lookup j with
    | none =>
        have hnot : j ∉ db.files := fun hmem ↦ AList.lookup_eq_none.mp hf' (h.stays hmem)
        rw [AList.lookup_eq_none.mpr hnot]
    | some f' =>
        cases h.change f' hf' with
        | same _ hf => rw [hf]
        | edited f _ hf hactive hspace hkey hfree =>
            have hnone : f.activeOperationId = none := by
              by_contra hheld
              have hsome := Option.isSome_iff_ne_none.mpr hheld
              exact hheld (hfree (hdb.operable j f hf hsome))
            rw [hf, Option.bind_some, Option.bind_some, FileObject.place, FileObject.place, hactive,
              hnone]
            rfl
        | created _ hnot hunique hnone =>
            rw [AList.lookup_eq_none.mpr hnot, Option.bind_some, FileObject.place, hnone]
            rfl
  · rw [h.others j hj]

theorem ChangesRow.keepsLocks {k : Uuid} (hdb : Consistent db) (h : ChangesRow k db db')
    (hoperations : db'.operations = db.operations)
    (hreserved : db'.resourceReservations = db.resourceReservations) :
    KeepsLocks accepted db db' := by
  refine ⟨fun o ↦ by rw [hoperations], fun o ↦ ⟨by rw [hoperations], fun j ↦ h.place hdb,
    fun r ↦ ?_⟩, fun o _ ↦ ?_⟩
  · rw [reservedKeys, reservedKeys, hreserved]
  · rw [InProgress, InProgress, hoperations]

def cancelledOperation (op : FileOperation) : FileOperation :=
  { op with status := .cancelled, failureReason := some "application_deleted" }

/-- Of the other commands only the deletion of an application writes operations. -/
theorem step_operationTables {c : Cmd} (h : Step db c db') :
    db'.resourceReservations = db.resourceReservations ∧ (db'.operations = db.operations ∨
      ∃ applicationId app, c = .deleteApp applicationId ∧
        db.applications.lookup applicationId = some app ∧
        db'.operations = db.operations.updateWhere
          (fun _ op ↦ op.principalId = app.principalId && op.status = .pending)
          cancelledOperation) := by
  cases h with
  | idle | sessions | edited | deleted | purged | quotaCreated | quotaOverwritten | quotaRevoked
  | platformLimitSet | limitSet | uploadCreated | multipartCreated | verified | failed | requeued
  | expired => exact ⟨rfl, Or.inl rfl⟩
  | reaped now picked =>
      rw [reapOrphanReservations, reapOrphanReservationsWith_frame]
      exact ⟨rfl, Or.inl rfl⟩
  | commit now fileId id _ hcommit =>
      cases hcommit with
      | replayed | unreserved | charged | refused => exact ⟨rfl, Or.inl rfl⟩
  | appDeleted applicationId =>
      unfold Applications.deleteApp
      split
      · exact ⟨rfl, Or.inl rfl⟩
      rename_i app happ
      split
      · exact ⟨rfl, Or.inl rfl⟩
      · exact ⟨rfl, Or.inr ⟨applicationId, app, rfl, happ, rfl⟩⟩

/-- The deletion of an application would cancel the operation. -/
def CancelledBy (db : Db) (c : Cmd) (o : Uuid) : Prop :=
  ∃ applicationId app op, c = .deleteApp applicationId ∧
    db.applications.lookup applicationId = some app ∧ db.operations.lookup o = some op ∧
    op.principalId = app.principalId ∧ op.status = .pending

theorem step_keepsLocks {c : Cmd} (hdb : Consistent db)
    (hclaims : ∀ o, CancelledBy db c o → accepted o = []) (h : Step db c db') :
    KeepsLocks accepted db db' := by
  obtain ⟨k, hchanges⟩ := step_rows h
  obtain ⟨hreserved, hoperations | ⟨applicationId, app, rfl, happ, hoperations⟩⟩ :=
    step_operationTables h
  · exact hchanges.keepsLocks hdb hoperations hreserved
  have hlookup : ∀ o, db'.operations.lookup o = (db.operations.lookup o).map fun op ↦
      if op.principalId = app.principalId ∧ op.status = .pending then cancelledOperation op
      else op := by
    intro o
    rw [hoperations, AList.lookup_updateWhere]
    simp
  refine ⟨fun _ ↦ step_mem_operations h, fun o ↦ ⟨?_, fun j ↦ hchanges.place hdb, fun r ↦ ?_⟩,
    fun o hne ↦ ?_⟩
  · rw [hlookup, Option.bind_map]
    congr 1
    funext op
    simp only [Function.comp_apply]
    split <;> rfl
  · rw [reservedKeys, reservedKeys, hreserved]
  · unfold InProgress
    rw [hlookup]
    cases hop : db.operations.lookup o with
    | none => simp
    | some op =>
        have hnot : ¬ (op.principalId = app.principalId ∧ op.status = .pending) :=
          fun ⟨hprincipal, hpending⟩ ↦
            hne (hclaims o ⟨applicationId, app, op, rfl, happ, hop, hprincipal, hpending⟩)
        simp [hnot]

end S3mp
