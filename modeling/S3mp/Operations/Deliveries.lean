import S3mp.Files.OperationStore
import S3mp.Steps

/-!
# Deliveries as commands

What the broker receivers, the recovery job and the operator do to the
operations of a tenant, next to all other commands.  A message may be delivered
again at any time, and a worker may settle long after it has been given up, so a
run is any list of these commands.
-/

namespace S3mp

open Relational Files Governance

inductive OpCmd where
  | createOperation (ids : OperationIds) (spaceId : Uuid) (data : OperationData)
  | createRenameOperation (ids : OperationIds) (spaceId : Uuid) (data : RenameData)
  | startBrokerOperation (now : Timestamp) (id : Uuid)
  | settleBrokerOperation (now : Timestamp) (id : Uuid) (status : OperationStatus)
      (reason : Option String)
  | recordRenameProviderResult (id : Uuid) (providerEtag : Option String)
  | scheduleBrokerRetry (now : Timestamp) (id : Uuid) (reason : Option String)
  | recoverTimedOutOperations (now : Timestamp) (timeoutSeconds : ℤ) (maxRecoveries : ℕ)
      (outboxId : Uuid → Uuid) (picked : List Uuid)
  | replayDeadLetterOperation (outboxId id replayOfEventId : Uuid)
  | enqueueLegacyOperations (now : Timestamp) (outboxId : Uuid → Uuid) (picked : List Uuid)
  | other (c : Cmd)

def opExec : OpCmd → Db → Tx Db
  | .createOperation ids spaceId data, db => (createOperation ids spaceId data db).map Prod.snd
  | .createRenameOperation ids spaceId data, db =>
      (createRenameOperation ids spaceId data db).map Prod.snd
  | .startBrokerOperation now id, db => .ok (startBrokerOperation now id db).2
  | .settleBrokerOperation now id status reason, db => settleBrokerOperation now id status reason db
  | .recordRenameProviderResult id etag, db => .ok (recordRenameProviderResult id etag db)
  | .scheduleBrokerRetry now id reason, db => .ok (scheduleBrokerRetry now id reason db).2
  | .recoverTimedOutOperations now timeout maxRecoveries outboxId picked, db =>
      recoverTimedOutOperations now timeout maxRecoveries outboxId picked db
  | .replayDeadLetterOperation outboxId id replayOf, db =>
      (replayDeadLetterOperation outboxId id replayOf db).map Prod.snd
  | .enqueueLegacyOperations now outboxId picked, db =>
      enqueueLegacyOperations now outboxId picked db
  | .other c, db => exec c db

/-- The operations on whose behalf the command acts. -/
def OpCmd.subjects : OpCmd → List Uuid
  | .createOperation ids _ _ | .createRenameOperation ids _ _ => [ids.operation]
  | .startBrokerOperation _ id | .settleBrokerOperation _ id _ _
  | .recordRenameProviderResult id _ | .scheduleBrokerRetry _ id _
  | .replayDeadLetterOperation _ id _ => [id]
  | .recoverTimedOutOperations _ _ _ _ picked | .enqueueLegacyOperations _ _ picked => picked
  | .other _ => []

theorem Except.map_snd_eq_ok {ε α β : Type} {x : Except ε (α × β)} {b : β} :
    x.map Prod.snd = .ok b ↔ ∃ a, x = .ok (a, b) := by
  cases x with
  | error e => simp [Except.map]
  | ok out =>
      obtain ⟨a, b'⟩ := out
      simp [Except.map]

/-! ## What a transaction may touch -/

/-- The operation without what its deliveries write. -/
def Files.FileOperation.order (op : FileOperation) : FileOperation :=
  { op with
    status := .queued
    failureReason := none
    attemptCount := 0
    recoveryAttemptCount := 0
    replayOfEventId := none
    leaseExpiresAt := none
    nextRetryAt := none
    completedAt := none }

/-- What two deliveries of one operation have in common. -/
structure Files.FileOperation.SameOrder (op op' : FileOperation) : Prop where
  operationType : op.operationType = op'.operationType
  sourceKey : op.sourceKey = op'.sourceKey
  destinationKey : op.destinationKey = op'.destinationKey
  sourceFileId : op.sourceFileId = op'.sourceFileId
  resultFileId : op.resultFileId = op'.resultFileId
  keys : op.keys = op'.keys
  storageSpaceId : op.storageSpaceId = op'.storageSpaceId
  authorizationEvidence : op.authorizationEvidence = op'.authorizationEvidence

theorem Files.FileOperation.sameOrder {op op' : FileOperation} (h : op.order = op'.order) :
    op.SameOrder op' := by
  simp only [FileOperation.order, FileOperation.mk.injEq] at h
  constructor <;> simp only [h]

/-- The row without its ETag and its occupation. -/
def Files.FileObject.core (f : FileObject) : FileObject :=
  { f with
    etag := none
    activeOperationId := none
    operationPhase := none
    processingStartedAt := none }

/-- The row belongs to the operation: it is occupied by it, or is its result. -/
def OwnedBy (db : Db) (o j : Uuid) (f : FileObject) : Prop :=
  f.activeOperationId = some o ∨ (db.operations.lookup o).bind (·.resultFileId) = some j

/-- What the operation `o` may make of a row: it stays what it is, unless the operation sets
it free. -/
def RowFrame (o : Uuid) (f f' : FileObject) : Prop :=
  (f'.core = f.core ∧ f'.activeOperationId = f.activeOperationId) ∨
    (f.activeOperationId = some o ∧ f'.activeOperationId = none ∧
      f'.storageSpaceId = f.storageSpaceId ∧ f'.objectKey = f.objectKey)

/-- The transaction acts for the operation `o` alone. -/
structure ActsFor (o : Uuid) (db db' : Db) : Prop where
  others : ∀ o', o' ≠ o → db'.operations.lookup o' = db.operations.lookup o'
  order : (db'.operations.lookup o).map (·.order) = (db.operations.lookup o).map (·.order)
  spaces : db'.spaces = db.spaces
  rows : ∀ j f, db.files.lookup j = some f → db'.files.lookup j ≠ some f → OwnedBy db o j f
  frame : ∀ j f', db'.files.lookup j = some f' →
    ∃ f, db.files.lookup j = some f ∧ RowFrame o f f'

variable {db db' : Db} {o : Uuid}

theorem RowFrame.refl (o : Uuid) (f : FileObject) : RowFrame o f f :=
  Or.inl ⟨rfl, rfl⟩

theorem ActsFor.refl (o : Uuid) (db : Db) : ActsFor o db db :=
  ⟨fun _ _ ↦ rfl, rfl, rfl, fun _ _ hf hne ↦ absurd hf hne, fun _ f hf ↦ ⟨f, hf, .refl o f⟩⟩

theorem ActsFor.result (h : ActsFor o db db') (o' : Uuid) :
    (db'.operations.lookup o').bind (·.resultFileId) =
      (db.operations.lookup o').bind (·.resultFileId) := by
  by_cases ho : o' = o
  · subst ho
    have hresult : ∀ x : Option FileOperation,
        x.bind (·.resultFileId) = (x.map (·.order)).bind (·.resultFileId) := by
      rintro (_ | op) <;> rfl
    rw [hresult, hresult (db.operations.lookup o'), h.order]
  · rw [h.others o' ho]

theorem ActsFor.ownedBy (h : ActsFor o db db') {o' j : Uuid} {f : FileObject} :
    OwnedBy db' o' j f ↔ OwnedBy db o' j f := by
  unfold OwnedBy
  rw [h.result]

theorem lookup_updateHeld_of_ne {files : Table Uuid FileObject} {j : Uuid} {f : FileObject}
    {g : FileObject → FileObject} (hf : files.lookup j = some f)
    (hne : f.activeOperationId ≠ some o) : (updateHeld o g files).lookup j = some f := by
  simp [updateHeld, AList.lookup_updateWhere, hf, hne]

/-- The operation row is written and the rows it occupies. -/
theorem actsFor_held {op op' : FileOperation} {g : FileObject → FileObject}
    (hop : db.operations.lookup o = some op)
    (hops : db'.operations = db.operations.update o fun _ ↦ op')
    (hfiles : db'.files = updateHeld o g db.files) (hspaces : db'.spaces = db.spaces)
    (horder : op'.order = op.order)
    (hg : ∀ f, (g f).core = f.core ∧ (g f).activeOperationId = f.activeOperationId) :
    ActsFor o db db' := by
  refine ⟨fun o' ho' ↦ by rw [hops, AList.lookup_update_of_ne ho'], by simp [hops, hop, horder],
    hspaces, fun j f hf hne ↦ ?_, fun j f' hf' ↦ ?_⟩
  · rw [hfiles] at hne
    by_contra hnot
    exact hne (lookup_updateHeld_of_ne hf fun h ↦ hnot (Or.inl h))
  · rw [hfiles, updateHeld, AList.lookup_updateWhere] at hf'
    obtain ⟨f, hf, rfl⟩ := Option.map_eq_some_iff.mp hf'
    refine ⟨f, hf, ?_⟩
    split
    · exact Or.inl (hg f)
    · exact .refl o f

theorem actsFor_operation {op op' : FileOperation} (hop : db.operations.lookup o = some op)
    (hops : db'.operations = db.operations.update o fun _ ↦ op') (hfiles : db'.files = db.files)
    (hspaces : db'.spaces = db.spaces) (horder : op'.order = op.order) :
    ActsFor o db db' := by
  exact ⟨fun o' ho' ↦ by rw [hops, AList.lookup_update_of_ne ho'], by simp [hops, hop, horder],
    hspaces, fun j f hf hne ↦ absurd hf (hfiles ▸ hne),
    fun j f hf ↦ ⟨f, hfiles ▸ hf, .refl o f⟩⟩

theorem inPhase_core (phase : OperationPhase) (startedAt : Option Timestamp) (f : FileObject) :
    (f.inPhase phase startedAt).core = f.core ∧
      (f.inPhase phase startedAt).activeOperationId = f.activeOperationId :=
  ⟨rfl, rfl⟩

theorem addOutboxEvent_eq_ok {outboxId id : Uuid} {replayOf : Option Uuid}
    (h : addOutboxEvent outboxId id replayOf db = .ok db') :
    outboxId ∉ db.outbox ∧
      db' = { db with outbox := db.outbox.insert outboxId (outboxEvent id replayOf) } := by
  obtain ⟨outbox, hinsert, hdb⟩ := Except.bind_eq_ok.mp h
  obtain ⟨hfresh, rfl⟩ := insertRow_eq_ok.mp hinsert
  exact ⟨hfresh, (Except.pure_eq_ok.mp hdb).symm⟩

/-! ## The transactions of a delivery -/

theorem startBrokerOperation_actsFor (now : Timestamp) :
    ActsFor o db (startBrokerOperation now o db).2 := by
  unfold startBrokerOperation
  split
  · exact .refl o db
  · rename_i op hop
    split
    · exact .refl o db
    · exact actsFor_held hop rfl rfl rfl rfl (inPhase_core _ _)

theorem startBrokerOperation_of_terminal {now : Timestamp} {op : FileOperation}
    (hop : db.operations.lookup o = some op) (hterminal : op.status.terminal) :
    (startBrokerOperation now o db).2 = db := by
  have hnot : op.status ∉ [OperationStatus.queued, .retryScheduled] := by
    cases hs : op.status <;> simp_all [OperationStatus.terminal]
  simp [startBrokerOperation, hop, hnot]

theorem scheduleBrokerRetry_actsFor (now : Timestamp) (reason : Option String) :
    ActsFor o db (scheduleBrokerRetry now o reason db).2 := by
  unfold scheduleBrokerRetry
  split
  · exact .refl o db
  · rename_i op hop
    split
    · exact .refl o db
    · exact actsFor_held hop rfl rfl rfl rfl (inPhase_core _ _)

theorem scheduleBrokerRetry_of_terminal {now : Timestamp} {reason : Option String}
    {op : FileOperation} (hop : db.operations.lookup o = some op) (hterminal : op.status.terminal) :
    (scheduleBrokerRetry now o reason db).2 = db := by
  have hnot : op.status ≠ .processing := by
    rintro hs
    simp [hs, OperationStatus.terminal] at hterminal
  simp [scheduleBrokerRetry, hop, hnot]

theorem recordRenameProviderResult_actsFor (etag : Option String) :
    ActsFor o db (recordRenameProviderResult o etag db) := by
  unfold recordRenameProviderResult
  split
  · exact .refl o db
  rename_i op hop
  split
  · exact .refl o db
  split
  · exact .refl o db
  rename_i destination hresult
  refine ⟨fun _ _ ↦ rfl, rfl, rfl, fun j f hf hne ↦ ?_, fun j f' hf' ↦ ?_⟩
  · by_cases hj : j = destination
    · exact Or.inr (by rw [hop, Option.bind_some, hresult, hj])
    · exact absurd hf (by rwa [AList.lookup_update_of_ne hj] at hne)
  · obtain ⟨f, hf, rfl⟩ := AList.of_lookup_update hf'
    refine ⟨f, hf, ?_⟩
    split
    · exact Or.inl ⟨rfl, rfl⟩
    · exact .refl o f

theorem heldBy_eq_true {files : Table Uuid FileObject} {j : Uuid} :
    heldBy o files j = true ↔
      ∃ f, files.lookup j = some f ∧ f.activeOperationId = some o := by
  unfold heldBy
  cases files.lookup j with
  | none => simp
  | some f => simp

/-- A settlement of a rename writes rows the operation occupies, and leaves them occupied. -/
theorem settleRename_rows {now : Timestamp} {op : FileOperation} {status : OperationStatus}
    {files : Table Uuid FileObject} {j : Uuid} {f : FileObject} (hf : files.lookup j = some f)
    (hne : f.activeOperationId ≠ some o) :
    (settleRename now o op status files).lookup j = some f := by
  have hnot : ∀ i, heldBy o files i = true → j ≠ i := by
    rintro i hi rfl
    obtain ⟨f', hf', hheld⟩ := heldBy_eq_true.mp hi
    exact hne (Option.some.inj (hf.symm.trans hf') ▸ hheld)
  unfold settleRename
  split
  · rename_i source destination hsource hdestination
    have hs := hnot source (Option.filter_eq_some_iff.mp hsource).2
    have hd := hnot destination (Option.filter_eq_some_iff.mp hdestination).2
    split
    · rw [AList.lookup_update_of_ne hd, AList.lookup_update_of_ne hs, hf]
    · split
      · rw [AList.lookup_update_of_ne hd, hf]
      · exact hf
  · rename_i destination _ hdestination
    have hd := hnot destination (Option.filter_eq_some_iff.mp hdestination).2
    split
    · rw [AList.lookup_update_of_ne hd, hf]
    · exact hf
  · exact hf

/-- It writes rows for a terminal status only, and neither their keys nor their occupation. -/
theorem settleRename_frame {now : Timestamp} {op : FileOperation} {status : OperationStatus}
    {files : Table Uuid FileObject} {j : Uuid} {g : FileObject}
    (hg : (settleRename now o op status files).lookup j = some g) :
    ∃ f, files.lookup j = some f ∧ g.activeOperationId = f.activeOperationId ∧
      g.storageSpaceId = f.storageSpaceId ∧ g.objectKey = f.objectKey ∧
      (g = f ∨ status.terminal) := by
  have hstay : files.lookup j = some g →
      ∃ f, files.lookup j = some f ∧ g.activeOperationId = f.activeOperationId ∧
        g.storageSpaceId = f.storageSpaceId ∧ g.objectKey = f.objectKey ∧
        (g = f ∨ status.terminal) := fun h ↦ ⟨g, h, rfl, rfl, rfl, Or.inl rfl⟩
  have hfailed : ∀ destination, status ∈ [OperationStatus.failed, .cancelled, .deadLettered] →
      (files.update destination fun f ↦ { f with status := .renameFailed }).lookup j = some g →
      ∃ f, files.lookup j = some f ∧ g.activeOperationId = f.activeOperationId ∧
        g.storageSpaceId = f.storageSpaceId ∧ g.objectKey = f.objectKey ∧
        (g = f ∨ status.terminal) := by
    intro destination hstatus hg
    obtain ⟨f, hf, rfl⟩ := AList.of_lookup_update hg
    have hterminal : status.terminal := by
      revert hstatus
      cases status <;> decide
    refine ⟨f, hf, ?_⟩
    split
    · exact ⟨rfl, rfl, rfl, Or.inr hterminal⟩
    · exact ⟨rfl, rfl, rfl, Or.inl rfl⟩
  unfold settleRename at hg
  split at hg
  · rename_i source destination _ _
    split at hg
    · rename_i hsucceeded
      obtain ⟨f', hf', rfl⟩ := AList.of_lookup_update hg
      obtain ⟨f, hf, rfl⟩ := AList.of_lookup_update hf'
      refine ⟨f, hf, ?_⟩
      have hterminal : status.terminal := by
        subst hsucceeded
        rfl
      split
      · split
        · exact ⟨rfl, rfl, rfl, Or.inr hterminal⟩
        · exact ⟨rfl, rfl, rfl, Or.inr hterminal⟩
      · split
        · exact ⟨rfl, rfl, rfl, Or.inr hterminal⟩
        · exact ⟨rfl, rfl, rfl, Or.inl rfl⟩
    · split at hg
      · rename_i hstatus
        exact hfailed destination hstatus hg
      · exact hstay hg
  · rename_i destination _ _
    split at hg
    · rename_i hstatus
      exact hfailed destination hstatus hg
    · exact hstay hg
  · exact hstay hg

theorem settledFiles_rows {now : Timestamp} {op : FileOperation} {status : OperationStatus}
    {files : Table Uuid FileObject} {j : Uuid} {f : FileObject} (hf : files.lookup j = some f)
    (hne : f.activeOperationId ≠ some o) :
    (settledFiles now o op status files).lookup j = some f := by
  have hrename : (if op.operationType = .rename then settleRename now o op status files
      else files).lookup j = some f := by
    split
    · exact settleRename_rows hf hne
    · exact hf
  unfold settledFiles
  dsimp only
  split
  · exact lookup_updateHeld_of_ne hrename hne
  · exact hrename

theorem settledFiles_frame {now : Timestamp} {op : FileOperation} {status : OperationStatus}
    {files : Table Uuid FileObject} {j : Uuid} {f' : FileObject}
    (hf' : (settledFiles now o op status files).lookup j = some f') :
    ∃ f, files.lookup j = some f ∧ RowFrame o f f' := by
  have hrename : ∀ g, (if op.operationType = .rename then settleRename now o op status files
      else files).lookup j = some g →
      ∃ f, files.lookup j = some f ∧ g.activeOperationId = f.activeOperationId ∧
        g.storageSpaceId = f.storageSpaceId ∧ g.objectKey = f.objectKey ∧
        (g = f ∨ status.terminal) := by
    intro g hg
    split at hg
    · exact settleRename_frame hg
    · exact ⟨g, hg, rfl, rfl, rfl, Or.inl rfl⟩
  unfold settledFiles at hf'
  dsimp only at hf'
  split at hf'
  · rw [updateHeld, AList.lookup_updateWhere] at hf'
    obtain ⟨g, hg, rfl⟩ := Option.map_eq_some_iff.mp hf'
    obtain ⟨f, hf, hactive, hspace, hkey, -⟩ := hrename g hg
    by_cases hheld : f.activeOperationId = some o
    · refine ⟨f, hf, Or.inr ⟨hheld, ?_⟩⟩
      simp [hactive, hheld, FileObject.unoccupied, hspace, hkey]
    · refine ⟨f, hf, ?_⟩
      have hrow : (if op.operationType = .rename then settleRename now o op status files
          else files).lookup j = some f := by
        split
        · exact settleRename_rows hf hheld
        · exact hf
      obtain rfl := Option.some.inj (hg.symm.trans hrow)
      simp [hheld, RowFrame.refl]
  · rename_i hterminal
    obtain ⟨f, hf, -, -, -, heq | hstatus⟩ := hrename f' hf'
    · subst heq
      exact ⟨f', hf, .refl o f'⟩
    · exact absurd hstatus hterminal

/-- A settlement goes through whatever the status was, save for the rename index. -/
theorem settleBrokerOperation_eq_ok {now : Timestamp} {status : OperationStatus}
    {reason : Option String} (h : settleBrokerOperation now o status reason db = .ok db') :
    (db.operations.lookup o = none ∧ db' = db) ∨
      ∃ op, db.operations.lookup o = some op ∧ db' = { db with
        operations := db.operations.update o fun _ ↦ op.settled now status reason
        files := settledFiles now o op status db.files
        resourceReservations := freeKeys o status db.resourceReservations } := by
  unfold settleBrokerOperation at h
  split at h
  · rename_i hnone
    cases h
    exact Or.inl ⟨hnone, rfl⟩
  · rename_i op hop
    split at h
    · simp at h
    · cases h
      exact Or.inr ⟨op, hop, rfl⟩

theorem settleBrokerOperation_actsFor {now : Timestamp} {status : OperationStatus}
    {reason : Option String} (h : settleBrokerOperation now o status reason db = .ok db') :
    ActsFor o db db' := by
  rcases settleBrokerOperation_eq_ok h with ⟨-, rfl⟩ | ⟨op, hop, rfl⟩
  · exact .refl o db'
  · refine ⟨fun o' ho' ↦ AList.lookup_update_of_ne ho' _ _, ?_, rfl, fun j f hf hne ↦ ?_,
      fun j f' hf' ↦ settledFiles_frame hf'⟩
    · simp [hop, FileOperation.settled, FileOperation.order]
    · by_contra hnot
      exact hne (settledFiles_rows hf fun h ↦ hnot (Or.inl h))

/-! ## Recovery, replay and the legacy bridge -/

theorem recoverOperation_actsFor {now : Timestamp} {timeout : ℤ} {maxRecoveries : ℕ}
    {outboxId : Uuid → Uuid} (h : recoverOperation now timeout maxRecoveries outboxId db o = .ok db') :
    ActsFor o db db' := by
  unfold recoverOperation at h
  split at h
  · cases h
    exact .refl o db
  rename_i op hop
  split at h
  · cases h
    exact .refl o db
  split at h
  · cases h
    exact actsFor_operation hop rfl rfl rfl rfl
  · obtain ⟨-, rfl⟩ := addOutboxEvent_eq_ok h
    exact actsFor_held hop rfl rfl rfl rfl (inPhase_core _ _)

theorem recoverOperation_of_terminal {now : Timestamp} {timeout : ℤ} {maxRecoveries : ℕ}
    {outboxId : Uuid → Uuid} {op : FileOperation} (hop : db.operations.lookup o = some op)
    (hterminal : op.status.terminal) :
    recoverOperation now timeout maxRecoveries outboxId db o = .ok db := by
  have hnot : timedOut (now - seconds timeout) o op db = false := by
    have hs : op.status ≠ .processing := by
      rintro hs
      simp [hs, OperationStatus.terminal] at hterminal
    simp [timedOut, hs]
  simp [recoverOperation, hop, hnot]

theorem enqueueLegacyOperation_actsFor {now : Timestamp} {outboxId : Uuid → Uuid}
    (h : enqueueLegacyOperation now outboxId db o = .ok db') : ActsFor o db db' := by
  unfold enqueueLegacyOperation at h
  split at h
  · cases h
    exact .refl o db
  rename_i op hop
  split at h
  · cases h
    exact .refl o db
  dsimp only at h
  split at h
  · cases h
    exact actsFor_operation hop rfl rfl rfl rfl
  · obtain ⟨-, rfl⟩ := addOutboxEvent_eq_ok h
    exact actsFor_operation hop rfl rfl rfl rfl

theorem enqueueLegacyOperation_files {now : Timestamp} {outboxId : Uuid → Uuid}
    (h : enqueueLegacyOperation now outboxId db o = .ok db') : db'.files = db.files := by
  unfold enqueueLegacyOperation at h
  split at h
  · cases h
    rfl
  split at h
  · cases h
    rfl
  dsimp only at h
  split at h
  · cases h
    rfl
  · obtain ⟨-, rfl⟩ := addOutboxEvent_eq_ok h
    rfl

theorem enqueueLegacyOperation_of_terminal {now : Timestamp} {outboxId : Uuid → Uuid}
    {op : FileOperation} (hop : db.operations.lookup o = some op) (hterminal : op.status.terminal) :
    enqueueLegacyOperation now outboxId db o = .ok db := by
  have hnot : op.legacyPending now = false := by
    cases hs : op.status <;> simp_all [FileOperation.legacyPending, OperationStatus.terminal]
  simp [enqueueLegacyOperation, hop, hnot]

theorem replayDeadLetterOperation_actsFor {outboxId replayOf : Uuid} {out : Option FileOperation}
    (h : replayDeadLetterOperation outboxId o replayOf db = .ok (out, db')) : ActsFor o db db' := by
  unfold replayDeadLetterOperation at h
  split at h
  · cases h
    exact .refl o db
  rename_i op hop
  split at h
  · cases h
    exact .refl o db
  · obtain ⟨db₁, hadd, h⟩ := Except.bind_eq_ok.mp h
    obtain ⟨-, rfl⟩ := addOutboxEvent_eq_ok hadd
    obtain ⟨-, rfl⟩ := Prod.mk.inj (Except.pure_eq_ok.mp h)
    exact actsFor_operation hop rfl rfl rfl rfl

theorem replayDeadLetterOperation_files {outboxId replayOf : Uuid} {out : Option FileOperation}
    (h : replayDeadLetterOperation outboxId o replayOf db = .ok (out, db')) :
    db'.files = db.files := by
  unfold replayDeadLetterOperation at h
  split at h
  · cases h
    rfl
  split at h
  · cases h
    rfl
  · obtain ⟨db₁, hadd, h⟩ := Except.bind_eq_ok.mp h
    obtain ⟨-, rfl⟩ := addOutboxEvent_eq_ok hadd
    obtain ⟨-, rfl⟩ := Prod.mk.inj (Except.pure_eq_ok.mp h)
    rfl

/-! ## Creation -/

theorem mem_keys_of_checkOccupied {spaceId : Uuid} {files : Table Uuid FileObject} {key : String}
    {id : Uuid} (h : checkOccupied spaceId files key = .ok id) :
    ∃ f, rowByKey spaceId key files = some (id, f) ∧ f.activeOperationId = none ∧
      f.status = .available ∧ f.softDeleted = false := by
  unfold checkOccupied at h
  split at h
  · simp at h
  · rename_i j f hrow
    split at h
    · simp at h
    · rename_i havailable
      split at h
      · simp at h
      · rename_i hfree
        cases h
        push Not at havailable
        exact ⟨f, hrow, by simpa using hfree, havailable.1, by simpa using havailable.2⟩

theorem createOperation_eq_ok {ids : OperationIds} {spaceId : Uuid} {data : OperationData}
    {op : FileOperation} (h : createOperation ids spaceId data db = .ok (op, db')) :
    ∃ idempotencyKey occupied resourceReservations, ids.outbox ∉ db.outbox ∧
      op = newOperation spaceId data idempotencyKey ∧ ids.operation ∉ db.operations ∧
      (operationResourceKeys data).1.mapM (checkOccupied spaceId db.files) = .ok occupied ∧
      (operationResourceKeys data).2.forM (checkDestination spaceId db.files) = .ok ⟨⟩ ∧
      db' = { db with
        operations := db.operations.insert ids.operation op
        files := occupy ids.operation occupied db.files
        resourceReservations
        outbox := db.outbox.insert ids.outbox (outboxEvent ids.operation none) } := by
  unfold createOperation at h
  split at h
  · cases h
  split at h
  · simp at h
  rename_i idempotencyKey _
  obtain ⟨operations, hinsert, h⟩ := Except.bind_eq_ok.mp h
  obtain ⟨hfresh, rfl⟩ := insertRow_eq_ok.mp hinsert
  obtain ⟨db₁, hoccupy, h⟩ := Except.bind_eq_ok.mp h
  obtain ⟨db₂, hadd, h⟩ := Except.bind_eq_ok.mp h
  obtain ⟨houtbox, rfl⟩ := addOutboxEvent_eq_ok hadd
  obtain ⟨rfl, rfl⟩ := Prod.mk.inj (Except.pure_eq_ok.mp h)
  obtain ⟨occupied, hoccupied, hoccupy⟩ := Except.bind_eq_ok.mp hoccupy
  obtain ⟨⟨⟩, hdestination, hoccupy⟩ := Except.bind_eq_ok.mp hoccupy
  obtain ⟨reservations, -, hoccupy⟩ := Except.bind_eq_ok.mp hoccupy
  obtain rfl := Except.pure_eq_ok.mp hoccupy
  exact ⟨idempotencyKey, occupied, reservations, houtbox, rfl, hfresh, hoccupied, hdestination, rfl⟩

/-- A rename is either a replay, which changes nothing, or a new operation with its result row. -/
theorem createRenameOperation_eq_ok {ids : OperationIds} {spaceId : Uuid} {data : RenameData}
    {op : FileOperation} (h : createRenameOperation ids spaceId data db = .ok (op, db')) :
    db' = db ∨ ∃ source files, ids.outbox ∉ db.outbox ∧
      db.files.lookup data.sourceFileId = some source ∧ source.storageSpaceId = spaceId ∧
      source.status = .available ∧ source.softDeleted = false ∧ source.activeOperationId = none ∧
      op = newRenameOperation spaceId ids.resultFile data ∧ ids.operation ∉ db.operations ∧
      insertFile ids.resultFile (renamedFile data source) db.files = .ok files ∧
      db' = { db with
        operations := db.operations.insert ids.operation op
        files := occupy ids.operation [data.sourceFileId, ids.resultFile] files
        outbox := db.outbox.insert ids.outbox (outboxEvent ids.operation none) } := by
  unfold createRenameOperation at h
  split at h
  · simp at h
  rename_i source hsource
  split at h
  · simp at h
  rename_i hserved
  split at h
  · simp at h
  split at h
  · split at h
    · cases h
      exact Or.inl rfl
    · simp at h
  · split at h
    · simp at h
    rename_i hfree
    split at h
    · simp at h
    split at h
    · simp at h
    obtain ⟨files, hfiles, h⟩ := Except.bind_eq_ok.mp h
    obtain ⟨operations, hinsert, h⟩ := Except.bind_eq_ok.mp h
    obtain ⟨hfresh, rfl⟩ := insertRow_eq_ok.mp hinsert
    obtain ⟨db₁, hadd, h⟩ := Except.bind_eq_ok.mp h
    obtain ⟨houtbox, rfl⟩ := addOutboxEvent_eq_ok hadd
    obtain ⟨rfl, rfl⟩ := Prod.mk.inj (Except.pure_eq_ok.mp h)
    push Not at hserved
    exact Or.inr ⟨source, files, houtbox, hsource, hserved.1, hserved.2.1, by simpa using hserved.2.2,
      by simpa using hfree, rfl, hfresh, hfiles, rfl⟩

theorem createOperation_operations {ids : OperationIds} {spaceId : Uuid} {data : OperationData}
    {op : FileOperation} (h : createOperation ids spaceId data db = .ok (op, db')) :
    ids.operation ∉ db.operations ∧ db'.operations = db.operations.insert ids.operation op := by
  obtain ⟨_, _, _, _, -, hfresh, -, -, rfl⟩ := createOperation_eq_ok h
  exact ⟨hfresh, rfl⟩

theorem createRenameOperation_operations {ids : OperationIds} {spaceId : Uuid} {data : RenameData}
    {op : FileOperation} (h : createRenameOperation ids spaceId data db = .ok (op, db')) :
    db' = db ∨ ids.operation ∉ db.operations ∧
      db'.operations = db.operations.insert ids.operation op := by
  rcases createRenameOperation_eq_ok h with rfl | ⟨_, _, _, -, -, -, -, -, -, hfresh, -, rfl⟩
  · exact Or.inl rfl
  · exact Or.inr ⟨hfresh, rfl⟩

/-- The other commands leave every operation as it is which is not of the legacy kind. -/
theorem step_operations {c : Cmd} (h : Step db c db') {op : FileOperation}
    (hop : db.operations.lookup o = some op) (hstatus : op.status ≠ .pending) :
    db'.operations.lookup o = some op := by
  cases h with
  | idle | sessions | edited | deleted | purged | quotaCreated | quotaOverwritten | quotaRevoked
  | platformLimitSet | limitSet | uploadCreated | multipartCreated | verified | failed | requeued
  | expired => exact hop
  | reaped now picked =>
      rw [reapOrphanReservations, reapOrphanReservationsWith_frame]
      exact hop
  | commit now fileId id _ hcommit =>
      cases hcommit with
      | replayed | unreserved | charged | refused => exact hop
  | appDeleted applicationId =>
      unfold Applications.deleteApp
      split
      · exact hop
      split
      · exact hop
      · simp [AList.lookup_updateWhere, hop, hstatus]

/-! ## What deliveries leave alone -/

/-- A transaction of the operation store: it writes operations, what they occupy and their
outbox events, and removes no file row. -/
structure OperationSide (db db' : Db) : Prop where
  frame : db' = { db with
    files := db'.files
    operations := db'.operations
    outbox := db'.outbox
    resourceReservations := db'.resourceReservations }
  files : ∀ j, j ∈ db.files → j ∈ db'.files

namespace OperationSide

theorem refl (db : Db) : OperationSide db db :=
  ⟨rfl, fun _ hj ↦ hj⟩

theorem trans {db'' : Db} (h : OperationSide db db') (h' : OperationSide db' db'') :
    OperationSide db db'' := by
  refine ⟨?_, fun j hj ↦ h'.files j (h.files j hj)⟩
  rw [h'.frame, h.frame]

theorem tenantActive (h : OperationSide db db') : db'.tenantActive = db.tenantActive := by
  rw [h.frame]

theorem spaces (h : OperationSide db db') : db'.spaces = db.spaces := by
  rw [h.frame]

theorem ledger (h : OperationSide db db') : db'.ledger = db.ledger := by
  rw [h.frame]

theorem ingestions (h : OperationSide db db') : db'.ingestions = db.ingestions := by
  rw [h.frame]

theorem uploads (h : OperationSide db db') : db'.uploads = db.uploads := by
  rw [h.frame]

theorem multiparts (h : OperationSide db db') : db'.multiparts = db.multiparts := by
  rw [h.frame]

end OperationSide

theorem mem_updateHeld {j : Uuid} {g : FileObject → FileObject} {files : Table Uuid FileObject} :
    j ∈ updateHeld o g files ↔ j ∈ files :=
  AList.mem_updateWhere

theorem mem_occupy {j : Uuid} {ids : List Uuid} {files : Table Uuid FileObject} :
    j ∈ occupy o ids files ↔ j ∈ files :=
  AList.mem_updateWhere

theorem mem_settledFiles {now : Timestamp} {j : Uuid} {op : FileOperation}
    {status : OperationStatus} {files : Table Uuid FileObject} (hj : j ∈ files) :
    j ∈ settledFiles now o op status files := by
  have hrename : j ∈ settleRename now o op status files := by
    unfold settleRename
    split
    · split
      · exact AList.mem_update.mpr (AList.mem_update.mpr hj)
      · split
        · exact AList.mem_update.mpr hj
        · exact hj
    · split
      · exact AList.mem_update.mpr hj
      · exact hj
    · exact hj
  have hmoved : j ∈ if op.operationType = .rename then settleRename now o op status files
      else files := by
    split
    · exact hrename
    · exact hj
  unfold settledFiles
  dsimp only
  split
  · exact mem_updateHeld.mpr hmoved
  · exact hmoved

section

variable {now : Timestamp}

theorem startBrokerOperation_side : OperationSide db (startBrokerOperation now o db).2 := by
  unfold startBrokerOperation
  split
  · exact .refl db
  · split
    · exact .refl db
    · exact ⟨rfl, fun _ ↦ mem_updateHeld.mpr⟩

theorem settleBrokerOperation_side {status : OperationStatus} {reason : Option String}
    (h : settleBrokerOperation now o status reason db = .ok db') : OperationSide db db' := by
  rcases settleBrokerOperation_eq_ok h with ⟨-, rfl⟩ | ⟨op, -, rfl⟩
  · exact .refl db'
  · exact ⟨rfl, fun _ ↦ mem_settledFiles⟩

theorem recordRenameProviderResult_side {etag : Option String} :
    OperationSide db (recordRenameProviderResult o etag db) := by
  unfold recordRenameProviderResult
  split
  · exact .refl db
  split
  · exact .refl db
  split
  · exact .refl db
  · exact ⟨rfl, fun _ ↦ AList.mem_update.mpr⟩

theorem scheduleBrokerRetry_side {reason : Option String} :
    OperationSide db (scheduleBrokerRetry now o reason db).2 := by
  unfold scheduleBrokerRetry
  split
  · exact .refl db
  · split
    · exact .refl db
    · exact ⟨rfl, fun _ ↦ mem_updateHeld.mpr⟩

theorem recoverOperation_side {timeout : ℤ} {maxRecoveries : ℕ} {outboxId : Uuid → Uuid}
    (h : recoverOperation now timeout maxRecoveries outboxId db o = .ok db') :
    OperationSide db db' := by
  unfold recoverOperation at h
  split at h
  · cases h
    exact .refl db
  split at h
  · cases h
    exact .refl db
  split at h
  · cases h
    exact ⟨rfl, fun _ hj ↦ hj⟩
  · obtain ⟨-, rfl⟩ := addOutboxEvent_eq_ok h
    exact ⟨rfl, fun _ ↦ mem_updateHeld.mpr⟩

theorem replayDeadLetterOperation_side {outboxId replayOf : Uuid} {out : Option FileOperation}
    (h : replayDeadLetterOperation outboxId o replayOf db = .ok (out, db')) :
    OperationSide db db' := by
  unfold replayDeadLetterOperation at h
  split at h
  · cases h
    exact .refl db
  split at h
  · cases h
    exact .refl db
  · obtain ⟨db₁, hadd, h⟩ := Except.bind_eq_ok.mp h
    obtain ⟨-, rfl⟩ := addOutboxEvent_eq_ok hadd
    obtain ⟨-, rfl⟩ := Prod.mk.inj (Except.pure_eq_ok.mp h)
    exact ⟨rfl, fun _ hj ↦ hj⟩

theorem enqueueLegacyOperation_side {outboxId : Uuid → Uuid}
    (h : enqueueLegacyOperation now outboxId db o = .ok db') : OperationSide db db' := by
  unfold enqueueLegacyOperation at h
  split at h
  · cases h
    exact .refl db
  split at h
  · cases h
    exact .refl db
  dsimp only at h
  split at h
  · cases h
    exact ⟨rfl, fun _ hj ↦ hj⟩
  · obtain ⟨-, rfl⟩ := addOutboxEvent_eq_ok h
    exact ⟨rfl, fun _ hj ↦ hj⟩

end

/-- A command on operations is one of another store, or stays on the operations' side. -/
theorem opExec_eq_ok {c : OpCmd} (h : opExec c db = .ok db') :
    (∃ c₀, c = .other c₀ ∧ exec c₀ db = .ok db') ∨
      (∀ c₀, c ≠ .other c₀) ∧ OperationSide db db' := by
  cases c with
  | createOperation ids spaceId data =>
      obtain ⟨op, h⟩ := Except.map_snd_eq_ok.mp h
      obtain ⟨_, _, _, _, -, -, -, -, rfl⟩ := createOperation_eq_ok h
      exact Or.inr ⟨by simp, rfl, fun _ ↦ mem_occupy.mpr⟩
  | createRenameOperation ids spaceId data =>
      obtain ⟨op, h⟩ := Except.map_snd_eq_ok.mp h
      rcases createRenameOperation_eq_ok h with
        rfl | ⟨_, _, _, -, -, -, -, -, -, -, hinsert, rfl⟩
      · exact Or.inr ⟨by simp, .refl db'⟩
      · obtain ⟨-, -, rfl⟩ := insertFile_eq_ok.mp hinsert
        exact Or.inr ⟨by simp, rfl, fun _ hj ↦
          mem_occupy.mpr (AList.mem_insert'.mpr (Or.inr hj))⟩
  | startBrokerOperation now id =>
      obtain rfl := Except.ok.inj h
      exact Or.inr ⟨by simp, startBrokerOperation_side⟩
  | settleBrokerOperation now id status reason =>
      exact Or.inr ⟨by simp, settleBrokerOperation_side h⟩
  | recordRenameProviderResult id etag =>
      obtain rfl := Except.ok.inj h
      exact Or.inr ⟨by simp, recordRenameProviderResult_side⟩
  | scheduleBrokerRetry now id reason =>
      obtain rfl := Except.ok.inj h
      exact Or.inr ⟨by simp, scheduleBrokerRetry_side⟩
  | recoverTimedOutOperations now timeout maxRecoveries outboxId picked =>
      exact Or.inr ⟨by simp, Tx.foldlM_relates (R := OperationSide) .refl .trans recoverOperation_side h⟩
  | replayDeadLetterOperation outboxId id replayOf =>
      obtain ⟨out, h⟩ := Except.map_snd_eq_ok.mp h
      exact Or.inr ⟨by simp, replayDeadLetterOperation_side h⟩
  | enqueueLegacyOperations now outboxId picked =>
      exact Or.inr ⟨by simp, Tx.foldlM_relates (R := OperationSide) .refl .trans enqueueLegacyOperation_side h⟩
  | other c => exact Or.inl ⟨c, rfl, h⟩

/-! ## Spaces -/

theorem step_spaces {c : Cmd} (h : Step db c db') : db'.spaces = db.spaces := by
  cases h with
  | idle | sessions | edited | deleted | purged | quotaCreated | quotaOverwritten | quotaRevoked
  | platformLimitSet | limitSet | uploadCreated | multipartCreated | verified | failed | requeued
  | expired => rfl
  | reaped now picked =>
      rw [reapOrphanReservations, reapOrphanReservationsWith_frame]
  | commit now fileId id _ hcommit =>
      cases hcommit with
      | replayed | unreserved | charged | refused => rfl
  | appDeleted applicationId =>
      unfold Applications.deleteApp
      split
      · rfl
      split
      · rfl
      · rfl

/-- No command moves or removes a storage space. -/
theorem opExec_spaces {c : OpCmd} (h : opExec c db = .ok db') : db'.spaces = db.spaces := by
  rcases opExec_eq_ok h with ⟨c₀, -, hexec⟩ | ⟨-, hside⟩
  · exact step_spaces (exec_step hexec)
  · exact hside.spaces

end S3mp
