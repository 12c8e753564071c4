import S3mp.Operations.Occupation

/-!
# Terminal operations

Starting, scheduling, recovering and the legacy bridge look at the status of an
operation before they act.  A settlement and the record of a provider result do
not: a worker which was given up may still settle after another delivery has
finished the operation.  As long as these two meet operations in progress,
terminal operations stay as they are and no file row is touched for them.
-/

namespace S3mp

open Relational Files Governance Transition

variable {db db' : Db}

/-- Terminal operations stay, and rows change only for operations in progress. -/
structure AbsorbedBy (os : List Uuid) (db db' : Db) : Prop where
  result : ∀ o op, db.operations.lookup o = some op → op.status.terminal →
    db'.operations.lookup o = some op
  rows : ∀ j f, db.files.lookup j = some f → db'.files.lookup j ≠ some f →
    ∃ o ∈ os, OwnedBy db o j f ∧ ∀ op, db.operations.lookup o = some op → ¬ op.status.terminal

def OpCmd.replays (c : OpCmd) (o : Uuid) : Prop :=
  ∃ outboxId replayOf, c = .replayDeadLetterOperation outboxId o replayOf

/-- What the claim asks of one command: every terminal operation the operator does not
replay keeps its row, and no file row changes on behalf of a terminal operation. -/
structure Absorbed (db : Db) (c : OpCmd) (db' : Db) : Prop where
  result : ∀ o op, db.operations.lookup o = some op → op.status.terminal → ¬ c.replays o →
    db'.operations.lookup o = some op
  rows : (∀ c', c ≠ .other c') → ∀ j f, db.files.lookup j = some f →
    db'.files.lookup j ≠ some f → ∃ o ∈ c.subjects,
      ∀ op, db.operations.lookup o = some op → OwnedBy db o j f ∧ ¬ op.status.terminal

/-- A settlement or a provider result finds its operation in progress. -/
def KeepsTerminal (db : Db) : OpCmd → Prop
  | .settleBrokerOperation _ id _ _ | .recordRenameProviderResult id _ =>
      ∀ op, db.operations.lookup id = some op → ¬ op.status.terminal
  | _ => True

/-! ## One transaction -/

theorem AbsorbedBy.refl (os : List Uuid) (db : Db) : AbsorbedBy os db db :=
  ⟨fun _ _ hop _ ↦ hop, fun _ _ hf hne ↦ absurd hf hne⟩

theorem absorbedBy_of_actsFor {o : Uuid} (h : ActsFor o db db')
    (hprogress : ∀ op, db.operations.lookup o = some op → ¬ op.status.terminal) :
    AbsorbedBy [o] db db' := by
  refine ⟨fun o' op hop hterminal ↦ ?_, fun j f hf hne ↦
    ⟨o, List.mem_singleton_self o, h.rows j f hf hne, hprogress⟩⟩
  have ho : o' ≠ o := by
    rintro rfl
    exact hprogress op hop hterminal
  rw [h.others o' ho, hop]

/-- A transaction which leaves the state of a terminal operation alone. -/
theorem absorbedBy_of_guarded {o : Uuid} (h : ActsFor o db db')
    (hguard : ∀ op, db.operations.lookup o = some op → op.status.terminal → db' = db) :
    AbsorbedBy [o] db db' := by
  by_cases hterminal : ∃ op, db.operations.lookup o = some op ∧ op.status.terminal
  · obtain ⟨op, hop, hterminal⟩ := hterminal
    rw [hguard op hop hterminal]
    exact .refl _ _
  · exact absorbedBy_of_actsFor h fun op hop hstatus ↦ hterminal ⟨op, hop, hstatus⟩

/-- A loop over operations each turn of which acts for one of them and is guarded. -/
theorem absorbedBy_foldlM {turn : Db → Uuid → Tx Db}
    (hacts : ∀ {s s' o}, turn s o = .ok s' → ActsFor o s s')
    (hguard : ∀ {s o op}, s.operations.lookup o = some op → op.status.terminal → turn s o = .ok s)
    {picked : List Uuid} (h : picked.foldlM turn db = .ok db') : AbsorbedBy picked db db' := by
  induction picked generalizing db with
  | nil =>
      cases h
      exact .refl _ _
  | cons o picked ih =>
      rw [List.foldlM_cons] at h
      obtain ⟨db₁, hturn, hrest⟩ := Except.bind_eq_ok.mp h
      have hfirst := hacts hturn
      have hone : AbsorbedBy [o] db db₁ := absorbedBy_of_guarded hfirst fun op hop hterminal ↦
        Except.ok.inj (hturn.symm.trans (hguard hop hterminal))
      have hlater := ih hrest
      refine ⟨fun o' op hop hterminal ↦
        hlater.result o' op (hone.result o' op hop hterminal) hterminal, fun j f hf hne ↦ ?_⟩
      by_cases hmid : db₁.files.lookup j = some f
      · obtain ⟨o', ho', howned, hprogress⟩ := hlater.rows j f hmid hne
        exact ⟨o', List.mem_cons_of_mem o ho', hfirst.ownedBy.mp howned, fun op hop hterminal ↦
          hprogress op (hone.result o' op hop hterminal) hterminal⟩
      · obtain ⟨o', ho', howned, hprogress⟩ := hone.rows j f hf hmid
        obtain rfl := List.mem_singleton.mp ho'
        exact ⟨o', List.mem_cons_self, howned, hprogress⟩

/-! ## Every command -/

theorem AbsorbedBy.absorbed {c : OpCmd} (h : AbsorbedBy c.subjects db db') : Absorbed db c db' := by
  refine ⟨fun o op hop hterminal _ ↦ h.result o op hop hterminal, fun _ j f hf hne ↦ ?_⟩
  obtain ⟨o, ho, howned, hprogress⟩ := h.rows j f hf hne
  exact ⟨o, ho, fun op hop ↦ ⟨howned, hprogress op hop⟩⟩

/-- A new operation acts for itself, and it is not terminal. -/
theorem absorbed_of_created {c : OpCmd} {o : Uuid} {op : FileOperation}
    (hsubject : c.subjects = [o]) (hfresh : o ∉ db.operations)
    (hops : db'.operations = db.operations.insert o op) : Absorbed db c db' := by
  refine ⟨fun o' op' hop' _ _ ↦ ?_, fun _ j f _ _ ↦ ⟨o, hsubject ▸ List.mem_singleton_self o,
    fun op' hop' ↦ absurd (AList.mem_of_lookup hop') hfresh⟩⟩
  have ho : o' ≠ o := by
    rintro rfl
    exact hfresh (AList.mem_of_lookup hop')
  rw [hops, AList.lookup_insert_ne ho, hop']

theorem absorbed_exec {c : OpCmd} (hc : KeepsTerminal db c) (h : opExec c db = .ok db') :
    Absorbed db c db' := by
  cases c with
  | createOperation ids spaceId data =>
      obtain ⟨op, h⟩ := Except.map_snd_eq_ok.mp h
      obtain ⟨hfresh, hops⟩ := createOperation_operations h
      exact absorbed_of_created rfl hfresh hops
  | createRenameOperation ids spaceId data =>
      obtain ⟨op, h⟩ := Except.map_snd_eq_ok.mp h
      rcases createRenameOperation_operations h with rfl | ⟨hfresh, hops⟩
      · exact (AbsorbedBy.refl _ db').absorbed
      · exact absorbed_of_created rfl hfresh hops
  | startBrokerOperation now id =>
      obtain rfl := Except.ok.inj h
      exact AbsorbedBy.absorbed (absorbedBy_of_guarded (startBrokerOperation_actsFor now)
        fun op hop hterminal ↦ startBrokerOperation_of_terminal hop hterminal)
  | settleBrokerOperation now id status reason =>
      exact AbsorbedBy.absorbed (absorbedBy_of_actsFor (settleBrokerOperation_actsFor h) hc)
  | recordRenameProviderResult id etag =>
      obtain rfl := Except.ok.inj h
      exact AbsorbedBy.absorbed
        (absorbedBy_of_actsFor (recordRenameProviderResult_actsFor etag) hc)
  | scheduleBrokerRetry now id reason =>
      obtain rfl := Except.ok.inj h
      exact AbsorbedBy.absorbed (absorbedBy_of_guarded (scheduleBrokerRetry_actsFor now reason)
        fun op hop hterminal ↦ scheduleBrokerRetry_of_terminal hop hterminal)
  | recoverTimedOutOperations now timeout maxRecoveries outboxId picked =>
      exact AbsorbedBy.absorbed
        (absorbedBy_foldlM recoverOperation_actsFor recoverOperation_of_terminal h)
  | enqueueLegacyOperations now outboxId picked =>
      exact AbsorbedBy.absorbed
        (absorbedBy_foldlM enqueueLegacyOperation_actsFor enqueueLegacyOperation_of_terminal h)
  | replayDeadLetterOperation outboxId id replayOf =>
      obtain ⟨out, h⟩ := Except.map_snd_eq_ok.mp h
      have hacts := replayDeadLetterOperation_actsFor h
      refine ⟨fun o op hop _ hnot ↦ ?_, fun _ j f hf hne ↦ ?_⟩
      · have ho : o ≠ id := by
          rintro rfl
          exact hnot ⟨outboxId, replayOf, rfl⟩
        rw [hacts.others o ho, hop]
      · exact absurd (replayDeadLetterOperation_files h ▸ hf) hne
  | other c =>
      refine ⟨fun o op hop hterminal _ ↦ ?_, fun hnot ↦ absurd rfl (hnot c)⟩
      refine step_operations (exec_step h) hop ?_
      rintro hs
      simp [hs, OperationStatus.terminal] at hterminal

theorem Absorbed.refl (c : OpCmd) (db : Db) : Absorbed db c db :=
  ⟨fun _ _ hop _ _ ↦ hop, fun _ _ _ hf hne ↦ absurd hf hne⟩

theorem absorbed_advance {c : OpCmd} (hc : KeepsTerminal db c) :
    Absorbed db c (advance opExec db c) :=
  advance_preserves (I := Absorbed db c) (.refl c db) fun _ h ↦ absorbed_exec hc h

/-- In a run whose settlements and provider results all find their operation in progress,
every command but a replay leaves the terminal operations and their rows as they are. -/
theorem terminal_operations_absorbing {cs : List OpCmd} (hmeets : Meets opExec KeepsTerminal db cs)
    {pre post : List OpCmd} {c : OpCmd} (heq : cs = pre ++ c :: post) :
    Absorbed (run opExec db pre) c (advance opExec (run opExec db pre) c) := by
  subst heq
  obtain ⟨-, hc, -⟩ := (meets_append opExec).mp hmeets
  exact absorbed_advance hc

namespace Sample

def file : FileObject where
  storageSpaceId := 2
  applicationId := some 5
  storageNamespace := some "ns"
  profileVersion := 1
  objectKey := "ns/a"
  providerTargetVersion := 1
  contentLength := 40
  contentType := "text/plain"
  etag := some "etag"
  checksum := none
  publicFileRef := none
  metadata := none
  activeOperationId := none
  operationPhase := none
  processingStartedAt := none
  status := .available
  deletionAttemptCount := 0
  deletionNextRetryAt := none
  deletedAt := none
  deletionPrincipalId := none
  deletionAuthorizationVersion := none
  deletionAuthorizationEvidence := none
  deletionIdempotencyKey := none
  softDeleted := false
  purgeDueAt := none
  purgeState := none
  purgeAttemptCount := 0
  purgeNextRetryAt := none
  purgedAt := none

/-- The tenant with one file of 40 bytes at the relative key `a`. -/
def stored : Db :=
  { tenant with files := (∅ : Table Uuid FileObject).insert 30 file }

theorem consistent_stored : Consistent stored := by
  have hempty : Consistent (run opExec tenant []) := consistent_run rfl
  exact hempty.insert (k := 30) (f := file) (by decide) rfl

def operationEvidence : OperationEvidence where
  subjectKind := .application
  applicationId := some 5
  actorApplicationId := none
  apiKeyId := some 7
  apiKeyScopes := ["files.delete", "files.move", "files.read", "files.write"]
  apiKeyDirectoryPrefix := none
  renameIntegrity := some ⟨some 40, some "etag", none⟩

def rename : RenameData where
  principalId := 6
  membershipId := none
  applicationId := 5
  actorApplicationId := none
  sourceFileId := 30
  sourceKey := "a"
  destinationKey := "b"
  destinationPhysicalKey := "ns/b"
  resultFileRef := none
  ifMatch := some "etag"
  idempotencyKey := "rename-a-b"
  requestFingerprint := "fingerprint"
  storageNamespace := some "ns"
  profileVersion := 1
  authorizationVersion := 1
  providerTargetVersion := 1
  authorizationEvidence := operationEvidence

def operationIds : OperationIds := ⟨50, 51, 52, fun _ ↦ 53⟩

/-- A delivery is declared timed out; the next one finishes the rename. -/
def recovered : List OpCmd :=
  [.createRenameOperation operationIds 2 rename,
    .startBrokerOperation 0 50,
    .recoverTimedOutOperations (seconds 900) 600 3 (fun _ ↦ 54) [50],
    .startBrokerOperation (seconds 901) 50,
    .settleBrokerOperation (seconds 902) 50 .succeeded none]

/-- The worker of the first delivery reports after all. -/
def lateSettlement : OpCmd :=
  .settleBrokerOperation (seconds 903) 50 .partialFailure (some "source_delete_failed")

theorem keepsTerminal_recovered : Meets opExec KeepsTerminal stored recovered := by
  refine ⟨trivial, trivial, trivial, trivial, fun op hop hterminal ↦ ?_, trivial⟩
  have hstatus : ((run opExec stored (recovered.take 4)).operations.lookup 50).map (·.status) =
      some .processing := by decide
  have hop' : (run opExec stored (recovered.take 4)).operations.lookup 50 = some op := hop
  rw [hop', Option.map_some, Option.some.injEq] at hstatus
  rw [hstatus] at hterminal
  cases hterminal

end Sample

theorem terminal_operations_absorbing_sample :
    Absorbed (run opExec Sample.stored (Sample.recovered.take 4))
      (.settleBrokerOperation (seconds 902) 50 .succeeded none)
      (advance opExec (run opExec Sample.stored (Sample.recovered.take 4))
        (.settleBrokerOperation (seconds 902) 50 .succeeded none)) :=
  terminal_operations_absorbing Sample.keepsTerminal_recovered rfl

theorem late_settlement_overwrites : ¬ ∀ db pre c,
    Absorbed (run opExec db pre) c (advance opExec (run opExec db pre) c) := by
  intro h
  have habsorbed := h Sample.stored Sample.recovered Sample.lateSettlement
  have hbefore : ((run opExec Sample.stored Sample.recovered).operations.lookup 50).map
      (·.status) = some .succeeded := by decide
  have hafter : ((advance opExec (run opExec Sample.stored Sample.recovered)
      Sample.lateSettlement).operations.lookup 50).map (·.status) = some .partialFailure := by
    decide
  obtain ⟨op, hop, hstatus⟩ := Option.map_eq_some_iff.mp hbefore
  have hkept := habsorbed.result 50 op hop (by rw [hstatus]; rfl) (by
    rintro ⟨outboxId, replayOf, heq⟩
    cases heq)
  rw [hkept, Option.map_some, hstatus] at hafter
  cases hafter

end S3mp
