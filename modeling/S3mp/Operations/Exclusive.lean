import S3mp.Operations.Absorbing
import S3mp.Operations.Locks

/-!
# Exclusive locks

Transactions of any number of sessions, each of which may have read long before it
commits.  As long as no operation is dead-lettered by the recovery or replayed, no
deletion overtakes an operation and no two operations are accepted for one target,
an operation holds what it was accepted for until it ends, and nobody else does.
-/

namespace S3mp

open Relational Files Governance Transition

/-! ## Sessions -/

/-- The database, what the transactions under way have read, and what each operation was
accepted for. -/
structure Sessions where
  db : Db
  metadataVersions : Table Uuid MetadataVersion
  snapshots : Table Uuid (Table Uuid FileObject)
  accepted : Claims

inductive SessionCmd where
  | read (transaction : Uuid)
  | createOperation (transaction : Uuid) (ids : OperationIds) (spaceId : Uuid)
      (data : OperationData)
  | deleteFile (transaction : Uuid) (now : Timestamp) (deletionId spaceId fileId : Uuid)
      (data : DeleteData)
  | updateFileMetadata (spaceId fileId : Uuid) (data : MetadataData)
  | command (c : OpCmd)

/-- A new operation is accepted for what it holds by then. -/
def acceptedAfter (db db' : Db) (accepted : Claims) : Claims := fun o ↦
  if o ∈ db'.operations ∧ o ∉ db.operations then held db' o else accepted o

def Sessions.commit (s : Sessions) (db' : Db) : Sessions :=
  { s with db := db', accepted := acceptedAfter s.db db' s.accepted }

/-- The file rows as the transaction has read them. -/
def Sessions.seen (s : Sessions) (transaction : Uuid) : Tx (Table Uuid FileObject) :=
  match s.snapshots.lookup transaction with
  | none => .error (.value "the transaction has not begun")
  | some seen => .ok seen

section

variable (recordEtag : Uuid → ℕ → String)

def sessionExec : SessionCmd → Sessions → Tx Sessions
  | .read transaction, s =>
      .ok { s with snapshots := s.snapshots.insert transaction s.db.files }
  | .createOperation transaction ids spaceId data, s => do
      let seen ← s.seen transaction
      let (_, db) ← createOperationSeen seen ids spaceId data s.db
      return s.commit db
  | .deleteFile transaction now deletionId spaceId fileId data, s => do
      let seen ← s.seen transaction
      let (_, db) ← deleteFileSeen seen now deletionId spaceId fileId data s.db
      return s.commit db
  | .updateFileMetadata spaceId fileId data, s => do
      let (_, db, versions) ←
        updateFileMetadata recordEtag spaceId fileId data s.db s.metadataVersions
      return { s.commit db with metadataVersions := versions }
  | .command c, s => do
      let db ← opExec c s.db
      return s.commit db

end

/-! ## The claim and its condition -/

/-- What the locks of a state promise. -/
structure Exclusive (s : Sessions) : Prop where
  occupied : ∀ j o, (∃ f, s.db.files.lookup j = some f ∧ f.activeOperationId = some o) ↔
    InProgress s.db o ∧ .file j ∈ s.accepted o
  reserved : ∀ spaceId key o, .target spaceId key ∈ held s.db o ↔
    InProgress s.db o ∧ .target spaceId key ∈ s.accepted o
  apart : ∀ o o' r, InProgress s.db o → InProgress s.db o' → r ∈ held s.db o →
    r ∈ held s.db o' → o' = o
  retained : ∀ j f, s.db.files.lookup j = some f → f.activeOperationId.isSome →
    f.softDeleted = false
  released : ∀ o, ¬ InProgress s.db o → held s.db o = []

/-- No row which stays occupied is soft-deleted or gets other metadata. -/
def Undisturbed (s s' : Sessions) : Prop :=
  ∀ j f f' o, s.db.files.lookup j = some f → s'.db.files.lookup j = some f' →
    f.activeOperationId = some o → f'.activeOperationId = some o →
    f'.softDeleted = f.softDeleted ∧ f'.metadata = f.metadata

/-- The rename is a replay of one accepted before. -/
def Files.RenameData.replays (data : RenameData) (db : Db) : Bool :=
  (db.operations.selectFirst fun _ op ↦ op.applicationId = some data.applicationId &&
    op.operationType = .rename && op.idempotencyKey = data.idempotencyKey).isSome

def KeepsExclusive (s : Sessions) : SessionCmd → Prop
  | .read _ => True
  | .updateFileMetadata .. => True
  -- Where the transaction finds no row at a target, no rename is on its way there by now.
  | .createOperation transaction _ spaceId data => ∀ seen,
      s.snapshots.lookup transaction = some seen → ∀ key ∈ (operationResourceKeys data).2,
        checkDestination spaceId (data.lockedRows seen spaceId s.db) key = .ok () →
          ∀ o, renameTarget s.db o ≠ some (.target spaceId key)
  -- A file which was free when it was read is still free.
  | .deleteFile transaction _ _ _ fileId _ => ∀ seen row f,
      s.snapshots.lookup transaction = some seen → seen.lookup fileId = some row → row.active →
        row.activeOperationId = none → s.db.files.lookup fileId = some f →
          f.activeOperationId = none
  -- Nobody has reserved the target of a new rename.
  | .command (.createRenameOperation _ spaceId data) => data.replays s.db = false →
      ∀ o, .target spaceId data.destinationPhysicalKey ∉ reservedKeys s.db o
  -- Only an operation in progress is settled with a status which is not terminal.
  | .command (.settleBrokerOperation _ id status _) => status.terminal = false →
      s.accepted id ≠ [] → ∀ op, s.db.operations.lookup id = some op → op.status.terminal = false
  | .command (.recoverTimedOutOperations now timeoutSeconds maxRecoveries _ picked) =>
      ∀ o ∈ picked, ¬ Exhausted now timeoutSeconds maxRecoveries s.db o
  | .command (.replayDeadLetterOperation _ id _) => ∀ op, s.db.operations.lookup id = some op →
      op.status ∈ [.deadLettered, .partialFailure] → s.accepted id = []
  | .command (.other c) => ∀ o, CancelledBy s.db c o → s.accepted o = []
  | .command _ => True

/-! ## The invariant -/

structure WellLocked (s : Sessions) : Prop where
  inOrder : (locks s.db s.accepted).InOrder
  consistent : Consistent s.db

variable {s s' : Sessions} {recordEtag : Uuid → ℕ → String}

theorem WellLocked.exclusive (h : WellLocked s) : Exclusive s := by
  have hexact := h.inOrder.exact
  refine ⟨fun j o ↦ ?_, fun spaceId key o ↦ hexact o _, fun o o' r _ _ ↦
    h.inOrder.exclusive o o' r, fun j f hf hheld ↦ (h.consistent.operable j f hf hheld).2,
    fun o ho ↦ ?_⟩
  · refine Iff.trans ?_ (hexact o (.file j))
    change _ ↔ .file j ∈ held s.db o
    rw [mem_held_file, Option.isSome_iff_exists]
    simp only [place_eq_some]
    constructor
    · rintro ⟨f, hf, hheld⟩
      exact ⟨_, f, hf, hheld, rfl⟩
    · rintro ⟨p, f, hf, hheld, -⟩
      exact ⟨f, hf, hheld⟩
  · refine List.eq_nil_iff_forall_not_mem.mpr fun r hr ↦ ?_
    exact ho ((hexact o r).mp hr).1

theorem acceptedAfter_of_known {db db' : Db} {accepted : Claims}
    (h : ∀ o, o ∈ db'.operations ↔ o ∈ db.operations) :
    acceptedAfter db db' accepted = accepted := by
  funext o
  refine if_neg fun ⟨hnew, hold⟩ ↦ hold ((h o).mp hnew)

theorem acceptedAfter_new {db db' : Db} {accepted : Claims} {o : Uuid} {op : FileOperation}
    (hfresh : o ∉ db.operations) (h : db'.operations = db.operations.insert o op) :
    acceptedAfter db db' accepted o = held db' o ∧
      ∀ o', o' ≠ o → acceptedAfter db db' accepted o' = accepted o' := by
  refine ⟨if_pos ⟨by rw [h]; exact AList.mem_insert'.mpr (Or.inl rfl), hfresh⟩, fun o' ho' ↦ ?_⟩
  refine if_neg fun ⟨hnew, hold⟩ ↦ hold ?_
  rw [h] at hnew
  exact (AList.mem_insert'.mp hnew).resolve_left ho'

theorem KeepsLocks.wellLocked {db' : Db} (h : KeepsLocks s.accepted s.db db') (hs : WellLocked s)
    (hconsistent : Consistent db') : WellLocked (s.commit db') := by
  refine ⟨?_, hconsistent⟩
  unfold Sessions.commit
  dsimp only
  rw [acceptedAfter_of_known h.known]
  exact h.inOrder hs.inOrder

theorem wellLocked_of_new {db' : Db} {o : Uuid} {op : FileOperation} (hfresh : o ∉ s.db.operations)
    (hops : db'.operations = s.db.operations.insert o op) (hconsistent : Consistent db')
    (horder : ∀ accepted' : Claims, accepted' o = held db' o →
      (∀ o', o' ≠ o → accepted' o' = s.accepted o') → (locks db' accepted').InOrder) :
    WellLocked (s.commit db') := by
  obtain ⟨hself, hothers⟩ := acceptedAfter_new hfresh hops
  exact ⟨horder _ hself hothers, hconsistent⟩

theorem undisturbed_of_heldBack {db' : Db} (h : ∀ o, o ∈ s.db.operations → HeldBack o s.db db')
    (hs : WellLocked s) : Undisturbed s (s.commit db') := by
  intro j f f' o hf hf' hheld hheld'
  have ho := hs.consistent.known j f o hf hheld
  obtain ⟨f₀, hf₀, -, hcore⟩ := h o ho j f' hf' hheld'
  obtain rfl := Option.some.inj (hf.symm.trans hf₀)
  simp only [FileObject.core, FileObject.mk.injEq] at hcore
  simp only [hcore, and_self]

/-! ## Deletions and metadata -/

/-- A change to the row of a file which nobody occupies. -/
theorem wellLocked_of_changesRow {db' : Db} {k : Uuid} (hs : WellLocked s)
    (hchanges : ChangesRow k s.db db') (hoperations : db'.operations = s.db.operations)
    (hreserved : db'.resourceReservations = s.db.resourceReservations) :
    WellLocked (s.commit db') ∧ Undisturbed s (s.commit db') := by
  have hconsistent := hs.consistent.changesRow hchanges fun o ↦ by rw [hoperations]
  refine ⟨(hchanges.keepsLocks hs.consistent hoperations hreserved).wellLocked hs hconsistent,
    undisturbed_of_heldBack (fun o _ ↦ hs.consistent.heldBack hchanges) hs⟩

theorem commit_self (s : Sessions) : s.commit s.db = s := by
  unfold Sessions.commit
  rw [acceptedAfter_of_known fun _ ↦ Iff.rfl]

theorem Undisturbed.refl (s : Sessions) : Undisturbed s s := by
  intro j f f' o hf hf' _ _
  obtain rfl := Option.some.inj (hf.symm.trans hf')
  exact ⟨rfl, rfl⟩

theorem deleteFile_wellLocked {transaction deletionId spaceId fileId : Uuid} {now : Timestamp}
    {data : DeleteData} (hs : WellLocked s)
    (hc : KeepsExclusive s (.deleteFile transaction now deletionId spaceId fileId data))
    (h : sessionExec recordEtag (.deleteFile transaction now deletionId spaceId fileId data) s =
      .ok s') : WellLocked s' ∧ Undisturbed s s' := by
  obtain ⟨seen, hseen, h⟩ := Except.bind_eq_ok.mp h
  obtain ⟨⟨out, db'⟩, hdelete, h⟩ := Except.bind_eq_ok.mp h
  obtain rfl := Except.pure_eq_ok.mp h
  have hsnapshot : s.snapshots.lookup transaction = some seen := by
    unfold Sessions.seen at hseen
    split at hseen
    · cases hseen
    · rename_i found hfound
      rw [hfound, Except.ok.inj hseen]
  rcases deleteFileSeen_eq_ok hdelete with rfl | ⟨row, f, deletions, hrow, hstatus, hsoft, hfree, hf,
    hconflicts, rfl⟩
  · rw [commit_self]
    exact ⟨hs, .refl s⟩
  have hnone := hc seen row f hsnapshot hrow (by simp [FileObject.active, hstatus, hsoft]) hfree hf
  have hchange : RowChange s.db fileId (FileObject.retainedOver now data row f) :=
    .edited f _ hf rfl rfl (Or.inr hconflicts) fun _ ↦ hnone
  exact wellLocked_of_changesRow hs (changesRow_of_update hf hchange rfl) rfl rfl

theorem updateFileMetadata_wellLocked {spaceId fileId : Uuid} {data : MetadataData}
    (hs : WellLocked s)
    (h : sessionExec recordEtag (.updateFileMetadata spaceId fileId data) s = .ok s') :
    WellLocked s' ∧ Undisturbed s s' := by
  obtain ⟨⟨out, db', versions⟩, hupdate, h⟩ := Except.bind_eq_ok.mp h
  obtain rfl := Except.pure_eq_ok.mp h
  have hcommitted : WellLocked (s.commit db') ∧ Undisturbed s (s.commit db') := by
    rcases updateFileMetadata_eq_ok hupdate with rfl | ⟨f, hf, hfree, hconflicts, rfl⟩
    · rw [commit_self]
      exact ⟨hs, .refl s⟩
    · have hchange : RowChange s.db fileId (f.withMetadata data) :=
        .edited f _ hf rfl rfl (Or.inr hconflicts) fun _ ↦ hfree
      exact wellLocked_of_changesRow hs (changesRow_of_update hf hchange rfl) rfl rfl
  exact ⟨⟨hcommitted.1.inOrder, hcommitted.1.consistent⟩, hcommitted.2⟩

/-! ## Every command -/

theorem createOperation_wellLocked {transaction spaceId : Uuid} {ids : OperationIds}
    {data : OperationData} (hs : WellLocked s)
    (hc : KeepsExclusive s (.createOperation transaction ids spaceId data))
    (h : sessionExec recordEtag (.createOperation transaction ids spaceId data) s = .ok s') :
    WellLocked s' ∧ Undisturbed s s' := by
  obtain ⟨seen, hseen, h⟩ := Except.bind_eq_ok.mp h
  obtain ⟨⟨op, db'⟩, hcreate, h⟩ := Except.bind_eq_ok.mp h
  obtain rfl := Except.pure_eq_ok.mp h
  have hsnapshot : s.snapshots.lookup transaction = some seen := by
    unfold Sessions.seen at hseen
    split at hseen
    · cases hseen
    · rename_i found hfound
      rw [hfound, Except.ok.inj hseen]
  obtain ⟨_, _, rfl, hoccupies, -⟩ := createOperationSeen_occupies hs.consistent hcreate
  refine ⟨wellLocked_of_new hoccupies.fresh hoccupies.operations hoccupies.consistent
    fun accepted' hself hothers ↦ createOperationSeen_inOrder hs.consistent hs.inOrder hothers hself
      (hc seen hsnapshot) hcreate, undisturbed_of_heldBack (fun o ho ↦ ?_) hs⟩
  exact hoccupies.heldBack (.refl o s.db) ho

theorem createRenameOperation_of_replays {ids : OperationIds} {spaceId : Uuid} {data : RenameData}
    {op : FileOperation} {db db' : Db} (hreplays : data.replays db)
    (h : createRenameOperation ids spaceId data db = .ok (op, db')) : db' = db := by
  obtain ⟨⟨id, existing⟩, hexisting⟩ := Option.isSome_iff_exists.mp hreplays
  unfold createRenameOperation at h
  split at h
  · simp at h
  split at h
  · simp at h
  split at h
  · simp at h
  rw [hexisting] at h
  dsimp only at h
  split at h
  · cases h
    rfl
  · simp at h

theorem opCmd_wellLocked {c : OpCmd} (hs : WellLocked s) (hc : KeepsExclusive s (.command c))
    {db' : Db} (h : opExec c s.db = .ok db') : WellLocked (s.commit db') := by
  have hconsistent := (opExec_framed hs.consistent h).consistent
  cases c with
  | createOperation ids spaceId data =>
      obtain ⟨op, h⟩ := Except.map_snd_eq_ok.mp h
      obtain ⟨_, _, -, hoccupies, -⟩ := createOperation_occupies hs.consistent h
      exact wellLocked_of_new hoccupies.fresh hoccupies.operations hconsistent
        fun accepted' hself hothers ↦
          createOperation_inOrder hs.consistent hs.inOrder hothers hself h
  | createRenameOperation ids spaceId data =>
      obtain ⟨op, h⟩ := Except.map_snd_eq_ok.mp h
      by_cases hne : db' = s.db
      · rw [hne, commit_self]
        exact hs
      obtain ⟨hfresh, hops⟩ := (createRenameOperation_operations h).resolve_left hne
      have hnot : data.replays s.db = false := by
        rw [← Bool.not_eq_true]
        exact fun hreplays ↦ hne (createRenameOperation_of_replays hreplays h)
      exact wellLocked_of_new hfresh hops hconsistent fun accepted' hself hothers ↦
        createRenameOperation_inOrder hs.consistent hs.inOrder hne hothers hself (hc hnot) h
  | startBrokerOperation now id =>
      obtain rfl := Except.ok.inj h
      exact (startBrokerOperation_keepsLocks now).wellLocked hs hconsistent
  | settleBrokerOperation now id status reason =>
      refine ⟨?_, hconsistent⟩
      unfold Sessions.commit
      dsimp only
      rw [acceptedAfter_of_known fun o ↦ (settleBrokerOperation_actsFor h).mem_operations]
      exact settleBrokerOperation_inOrder hs.inOrder hc h
  | recordRenameProviderResult id etag =>
      obtain rfl := Except.ok.inj h
      exact (recordRenameProviderResult_keepsLocks etag).wellLocked hs hconsistent
  | scheduleBrokerRetry now id reason =>
      obtain rfl := Except.ok.inj h
      exact (scheduleBrokerRetry_keepsLocks now reason).wellLocked hs hconsistent
  | recoverTimedOutOperations now timeout maxRecoveries outboxId picked =>
      exact (recoverTimedOutOperations_keepsLocks hc h).wellLocked hs hconsistent
  | replayDeadLetterOperation outboxId id replayOf =>
      obtain ⟨out, h⟩ := Except.map_snd_eq_ok.mp h
      exact (replayDeadLetterOperation_keepsLocks hc h).wellLocked hs hconsistent
  | enqueueLegacyOperations now outboxId picked =>
      exact (enqueueLegacyOperations_keepsLocks h).wellLocked hs hconsistent
  | other c => exact (step_keepsLocks hs.consistent hc (exec_step h)).wellLocked hs hconsistent

theorem sessionExec_wellLocked {c : SessionCmd} (hs : WellLocked s) (hc : KeepsExclusive s c)
    (h : sessionExec recordEtag c s = .ok s') : WellLocked s' ∧ Undisturbed s s' := by
  cases c with
  | read transaction =>
      obtain rfl := Except.ok.inj h
      exact ⟨⟨hs.inOrder, hs.consistent⟩, Undisturbed.refl s⟩
  | createOperation transaction ids spaceId data => exact createOperation_wellLocked hs hc h
  | deleteFile transaction now deletionId spaceId fileId data => exact deleteFile_wellLocked hs hc h
  | updateFileMetadata spaceId fileId data => exact updateFileMetadata_wellLocked hs h
  | command c =>
      obtain ⟨db', hexec, h⟩ := Except.bind_eq_ok.mp h
      obtain rfl := Except.pure_eq_ok.mp h
      exact ⟨opCmd_wellLocked hs hc hexec,
        undisturbed_of_heldBack (opExec_framed hs.consistent hexec).heldBack hs⟩

/-- As long as every command meets its condition, the locks are exclusive in every state and no
row is disturbed under its operation. -/
theorem operation_locks_exclusive {cs : List SessionCmd} (hs : WellLocked s)
    (hmeets : Meets (sessionExec recordEtag) KeepsExclusive s cs) :
    (∀ pre post, cs = pre ++ post → Exclusive (run (sessionExec recordEtag) s pre)) ∧
      ∀ pre c post, cs = pre ++ c :: post →
        Undisturbed (run (sessionExec recordEtag) s pre)
          (run (sessionExec recordEtag) s (pre ++ [c])) := by
  have hpre : ∀ pre post, cs = pre ++ post → WellLocked (run (sessionExec recordEtag) s pre) := by
    rintro pre post rfl
    exact run_invariant (fun s c s' hs hc h ↦ (sessionExec_wellLocked hs hc h).1) hs
      ((meets_append _).mp hmeets).1
  refine ⟨fun pre post hsplit ↦ (hpre pre post hsplit).exclusive, fun pre c post hsplit ↦ ?_⟩
  have hstart := hpre pre (c :: post) hsplit
  subst hsplit
  obtain ⟨-, hc, -⟩ := (meets_append _).mp hmeets
  rw [run_append, run_cons, run_nil]
  exact advance_preserves (Undisturbed.refl _) fun s' h ↦ (sessionExec_wellLocked hstart hc h).2

/-- A start at which nothing is occupied, reserved or accepted. -/
theorem wellLocked_of_free (hconsistent : Consistent s.db)
    (hfree : ∀ j f, s.db.files.lookup j = some f → f.activeOperationId = none)
    (hreserved : s.db.resourceReservations = ∅) (haccepted : ∀ o, s.accepted o = []) :
    WellLocked s := by
  have hnone : ∀ o r, r ∉ held s.db o := by
    intro o r
    have hplace : ∀ j, place o s.db.files j = none := by
      intro j
      refine Option.bind_eq_none_iff.mpr fun f hf ↦ ?_
      rw [FileObject.place, hfree j f hf]
      rfl
    have hkeys : reservedKeys s.db o = [] := by
      rw [reservedKeys, hreserved]
      rfl
    cases r with
    | file j => simp [mem_held_file, hplace]
    | target spaceId key => simp [mem_held_target, hkeys, renameTarget, hplace]
  refine ⟨⟨fun o r ↦ ?_, fun o o' r hheld ↦ absurd hheld (hnone o r)⟩, hconsistent⟩
  simp [locks, hnone, haccepted]

namespace Sample

def sessions : Sessions := ⟨stored, ∅, ∅, fun _ ↦ []⟩

theorem wellLocked_sessions : WellLocked sessions := by
  refine wellLocked_of_free consistent_stored (fun j f hf ↦ ?_) rfl fun _ ↦ rfl
  rw [sessions, stored, AList.lookup_insert'] at hf
  split at hf
  · obtain rfl := Option.some.inj hf
    rfl
  · cases hf

def fileEtag (fileId : Uuid) (recordVersion : ℕ) : String :=
  "file-record:" ++ uuidText fileId ++ ":" ++ toString recordVersion

/-- A rename is delivered twice. -/
def renamed : List SessionCmd :=
  recovered.map .command

theorem keepsExclusive_renamed : Meets (sessionExec fileEtag) KeepsExclusive sessions renamed := by
  refine ⟨fun _ o hreserved ↦ ?_, trivial, fun o ho hexhausted ↦ ?_, trivial, fun h ↦ ?_, trivial⟩
  · cases hreserved
  · obtain rfl := List.mem_singleton.mp ho
    obtain ⟨op, hop, -, hmax⟩ := hexhausted
    have hcount : ((run (sessionExec fileEtag) sessions (renamed.take 2)).db.operations.lookup
        50).map (·.recoveryAttemptCount) = some 0 := by decide
    have hop' : (run (sessionExec fileEtag) sessions (renamed.take 2)).db.operations.lookup 50 =
      some op := hop
    rw [hop', Option.map_some, Option.some.injEq] at hcount
    omega
  · cases h

def copy : OperationData where
  principalId := 6
  membershipId := none
  operationType := .copy
  sourceKey := some "a"
  destinationKey := some "b"
  keys := []
  sourcePhysicalKey := some "ns/a"
  destinationPhysicalKey := some "ns/b"
  physicalKeys := []
  idempotencyKey := some "copy-a-b"
  applicationId := some 5
  actorApplicationId := none
  storageNamespace := some "ns"
  profileVersion := 1
  authorizationVersion := 1
  providerTargetVersion := 1
  authorizationEvidence := operationEvidence

/-- Another file, at the relative key `c`. -/
def twoFiles : Sessions :=
  { sessions with
    db := { stored with files := stored.files.insert 31 { file with objectKey := "ns/c" } } }

/-- A rename times out when it must not be recovered any more. -/
def timedOut : List SessionCmd :=
  [.command (.createRenameOperation operationIds 2 rename),
    .command (.startBrokerOperation 0 50),
    .command (.recoverTimedOutOperations (seconds 900) 600 0 (fun _ ↦ 54) [50])]

end Sample

theorem operation_locks_exclusive_sample :
    (∀ pre post, Sample.renamed = pre ++ post →
      Exclusive (run (sessionExec Sample.fileEtag) Sample.sessions pre)) ∧
    ∀ pre c post, Sample.renamed = pre ++ c :: post →
      Undisturbed (run (sessionExec Sample.fileEtag) Sample.sessions pre)
        (run (sessionExec Sample.fileEtag) Sample.sessions (pre ++ [c])) :=
  operation_locks_exclusive Sample.wellLocked_sessions Sample.keepsExclusive_renamed

/-- An operation which the recovery has dead-lettered occupies its file for ever. -/
theorem dead_lettered_operation_keeps_file : ¬ ∀ recordEtag s cs, WellLocked s →
    Exclusive (run (sessionExec recordEtag) s cs) := by
  intro h
  have hexclusive := h Sample.fileEtag Sample.sessions Sample.timedOut Sample.wellLocked_sessions
  have hfile : ((run (sessionExec Sample.fileEtag) Sample.sessions Sample.timedOut).db.files.lookup
      30).map (·.activeOperationId) = some (some 50) := by decide
  have hstatus : ((run (sessionExec Sample.fileEtag) Sample.sessions
      Sample.timedOut).db.operations.lookup 50).map (·.status) = some .deadLettered := by decide
  obtain ⟨f, hf, hheld⟩ := Option.map_eq_some_iff.mp hfile
  obtain ⟨⟨op, hop, hnot⟩, -⟩ := (hexclusive.occupied 30 50).mp ⟨f, hf, hheld⟩
  rw [hop, Option.map_some, Option.some.injEq] at hstatus
  rw [hstatus] at hnot
  exact hnot rfl

/-- A replayed operation is in progress again and holds nothing. -/
example : ¬ Exclusive (run (sessionExec Sample.fileEtag) Sample.sessions
    [.command (.createRenameOperation Sample.operationIds 2 Sample.rename),
      .command (.settleBrokerOperation 0 50 .deadLettered none),
      .command (.replayDeadLetterOperation 54 50 51)]) := by
  intro h
  obtain ⟨f, hf, hheld⟩ := (h.occupied 30 50).mpr ⟨⟨_, rfl, by decide⟩, by decide⟩
  cases hf
  cases hheld

/-- A deletion which has read the row before the rename was accepted. -/
example : ¬ Exclusive (run (sessionExec Sample.fileEtag) Sample.sessions
    [.read 90, .command (.createRenameOperation Sample.operationIds 2 Sample.rename),
      .deleteFile 90 0 91 2 30 ⟨none, none, none, none, none, true, none, 0⟩]) := by
  intro h
  have hsoft := h.retained 30 _ rfl rfl
  revert hsoft
  decide +kernel

/-- A rename to the key which a copy has reserved. -/
example : ¬ Exclusive (run (sessionExec Sample.fileEtag) Sample.twoFiles
    [.command (.createOperation ⟨60, 61, 62, fun _ ↦ 63⟩ 2 Sample.copy),
      .command (.createRenameOperation Sample.operationIds 2
        { Sample.rename with sourceFileId := 31, sourceKey := "c" })]) := by
  intro h
  have heq : (50 : Uuid) = 60 := h.apart 60 50 (.target 2 "ns/b") ⟨_, rfl, by decide⟩
    ⟨_, rfl, by decide⟩ (by decide) (by decide)
  cases heq

end S3mp
