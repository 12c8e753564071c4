import S3mp.Operations.Locks
import S3mp.Operations.Settlement

/-!
# Replay and direct success

An operation may be given up and taken up again any number of times before a
delivery of it succeeds.  Its file rows end up as if the first delivery had
succeeded, unless it is a rename which another terminal status has parted from
its rows before.
-/

namespace S3mp

open Relational Files Governance Transition

/-- The command is a step in the deliveries of operations. -/
def OpCmd.delivery : OpCmd → Prop
  | .createOperation .. | .createRenameOperation .. | .other _ => False
  | _ => True

/-- The row without what the provider and the clock put in. -/
def Files.FileObject.outcome (f : FileObject) : FileObject :=
  { f with etag := none, deletedAt := f.deletedAt.map fun _ ↦ 0 }

/-! ## One delivery -/

/-- The operation loses none of its rows, and no free row changes its outcome. -/
def Carried (o : Uuid) (db db' : Db) : Prop :=
  ∀ j f, db.files.lookup j = some f → f.activeOperationId = none ∨ f.activeOperationId = some o →
    ∃ f', db'.files.lookup j = some f' ∧ f'.activeOperationId = f.activeOperationId ∧
      (f.activeOperationId = none → f'.outcome = f.outcome)

variable {db db' : Db} {o o' : Uuid}

theorem Carried.refl (o : Uuid) (db : Db) : Carried o db db :=
  fun _ f hf _ ↦ ⟨f, hf, rfl, fun _ ↦ rfl⟩

theorem Carried.trans {db'' : Db} (h : Carried o db db') (h' : Carried o db' db'') :
    Carried o db db'' := by
  intro j f hf hmine
  obtain ⟨f', hf', hactive, houtcome⟩ := h j f hf hmine
  obtain ⟨f'', hf'', hactive', houtcome'⟩ := h' j f' hf' (hactive ▸ hmine)
  exact ⟨f'', hf'', hactive'.trans hactive,
    fun hfree ↦ (houtcome' (hactive.trans hfree)).trans (houtcome hfree)⟩

theorem carried_of_files (h : db'.files = db.files) : Carried o db db' :=
  fun _ f hf _ ↦ ⟨f, h ▸ hf, rfl, fun _ ↦ rfl⟩

theorem carried_inPhase {phase : OperationPhase} {startedAt : Option Timestamp}
    (h : db'.files = updateHeld o' (FileObject.inPhase phase startedAt) db.files) :
    Carried o db db' := by
  intro j f hf _
  rw [h, updateHeld, AList.lookup_updateWhere, hf, Option.map_some]
  refine ⟨_, rfl, ?_, fun hfree ↦ ?_⟩
  · split <;> rfl
  · rw [if_neg (by simp [hfree])]

theorem recoverOperation_carried {now : Timestamp} {timeout : ℤ} {maxRecoveries : ℕ}
    {outboxId : Uuid → Uuid} (h : recoverOperation now timeout maxRecoveries outboxId db o' = .ok db') :
    Carried o db db' := by
  rcases recoverOperation_cases h with rfl | ⟨-, op, -, rfl⟩ | ⟨op, -, -, -, rfl⟩
  · exact .refl o db'
  · exact carried_of_files rfl
  · exact carried_inPhase rfl

theorem settledFiles_of_not_terminal {now : Timestamp} {op : FileOperation}
    {status : OperationStatus} {files : Table Uuid FileObject} (h : status.terminal = false) :
    settledFiles now o op status files = files := by
  have hstatus : status ≠ .succeeded ∧ status ∉ [.failed, .cancelled, .deadLettered] := by
    cases status <;> simp_all [OperationStatus.terminal]
  have hrename : settleRename now o op status files = files := by
    unfold settleRename
    split
    · rw [if_neg hstatus.1, if_neg hstatus.2]
    · rw [if_neg hstatus.2]
    · rfl
  unfold settledFiles
  dsimp only
  rw [hrename, ite_self, if_neg (by simp [h])]

theorem settledFiles_carried {now : Timestamp} {op : FileOperation} {status : OperationStatus}
    (h : o' ≠ o ∨ status.terminal = false)
    (hfiles : db'.files = settledFiles now o' op status db.files) : Carried o db db' := by
  rcases h with hother | hstatus
  · intro j f hf hmine
    refine ⟨f, hfiles ▸ settledFiles_rows hf ?_, rfl, fun _ ↦ rfl⟩
    rcases hmine with hfree | hheld
    · simp [hfree]
    · simpa [hheld] using hother.symm
  · exact carried_of_files (hfiles.trans (settledFiles_of_not_terminal hstatus))

/-- A delivery carries the rows on, unless it settles the operation for good. -/
theorem delivery_carried {c : OpCmd} (hc : c.delivery)
    (hnot : ∀ now status reason, c = .settleBrokerOperation now o status reason →
      status.terminal = false) (h : opExec c db = .ok db') : Carried o db db' := by
  cases c with
  | createOperation | createRenameOperation | other => cases hc
  | startBrokerOperation now id =>
      obtain rfl := Except.ok.inj h
      unfold startBrokerOperation
      split
      · exact .refl o db
      split
      · exact .refl o db
      · exact carried_inPhase rfl
  | settleBrokerOperation now id status reason =>
      rcases settleBrokerOperation_eq_ok h with ⟨-, rfl⟩ | ⟨op, -, rfl⟩
      · exact .refl o db'
      · refine settledFiles_carried ?_ rfl
        by_cases hid : id = o
        · exact Or.inr (hnot now status reason (by rw [hid]))
        · exact Or.inl hid
  | recordRenameProviderResult id etag =>
      obtain rfl := Except.ok.inj h
      unfold recordRenameProviderResult
      split
      · exact .refl o db
      split
      · exact .refl o db
      split
      · exact .refl o db
      · intro j f hf _
        dsimp only
        rw [AList.lookup_update]
        split
        · rename_i hj
          rw [← hj, hf]
          exact ⟨_, rfl, rfl, fun _ ↦ rfl⟩
        · exact ⟨f, hf, rfl, fun _ ↦ rfl⟩
  | scheduleBrokerRetry now id reason =>
      obtain rfl := Except.ok.inj h
      unfold scheduleBrokerRetry
      split
      · exact .refl o db
      split
      · exact .refl o db
      · exact carried_inPhase rfl
  | recoverTimedOutOperations now timeout maxRecoveries outboxId picked =>
      exact Tx.foldlM_relates (Carried.refl o) Carried.trans recoverOperation_carried h
  | enqueueLegacyOperations now outboxId picked =>
      exact Tx.foldlM_relates (Carried.refl o) Carried.trans
        (fun hturn ↦ carried_of_files (enqueueLegacyOperation_files hturn)) h
  | replayDeadLetterOperation outboxId id replayOf =>
      obtain ⟨out, h⟩ := Except.map_snd_eq_ok.mp h
      exact carried_of_files (replayDeadLetterOperation_files h)

/-- No delivery, not even one which settles an operation, writes a free row. -/
theorem delivery_free {c : OpCmd} (hc : c.delivery) (h : opExec c db = .ok db') {j : Uuid}
    {f : FileObject} (hf : db.files.lookup j = some f) (hfree : f.activeOperationId = none) :
    ∃ f', db'.files.lookup j = some f' ∧ f'.outcome = f.outcome := by
  by_cases hends : ∃ now o status reason, c = .settleBrokerOperation now o status reason
  · obtain ⟨now, o, status, reason, rfl⟩ := hends
    rcases settleBrokerOperation_eq_ok h with ⟨-, rfl⟩ | ⟨op, -, rfl⟩
    · exact ⟨f, hf, rfl⟩
    · exact ⟨f, settledFiles_rows hf (by simp [hfree]), rfl⟩
  · obtain ⟨f', hf', -, houtcome⟩ := delivery_carried (o := 0) hc
      (fun now status reason heq ↦ absurd ⟨now, 0, status, reason, heq⟩ hends) h j f hf
      (Or.inl hfree)
    exact ⟨f', hf', houtcome hfree⟩

theorem heldBy_iff_place {files : Table Uuid FileObject} {j : Uuid} :
    heldBy o files j = true ↔ (place o files j).isSome := by
  rw [heldBy_eq_true, Option.isSome_iff_exists]
  constructor
  · rintro ⟨f, hf, hheld⟩
    exact ⟨_, place_eq_some.mpr ⟨f, hf, hheld, rfl⟩⟩
  · rintro ⟨p, hp⟩
    obtain ⟨f, hf, hheld, -⟩ := place_eq_some.mp hp
    exact ⟨f, hf, hheld⟩

/-- The other commands leave to an operation the rows it occupies. -/
theorem place_of_not_delivery {c : OpCmd} (hdb : Consistent db) (ho : o ∈ db.operations)
    (hc : ¬ c.delivery) (h : opExec c db = .ok db') (j : Uuid) :
    place o db'.files j = place o db.files j := by
  cases c with
  | createOperation ids spaceId data =>
      obtain ⟨op, h⟩ := Except.map_snd_eq_ok.mp h
      obtain ⟨_, _, -, hoccupies, -⟩ := createOperation_occupies hdb h
      exact hoccupies.place (fun heq ↦ hoccupies.fresh (heq ▸ ho)) fun _ ↦ rfl
  | createRenameOperation ids spaceId data =>
      obtain ⟨op, h⟩ := Except.map_snd_eq_ok.mp h
      rcases createRenameOperation_occupies hdb h with
        rfl | ⟨source, -, -, -, hresult, -, hoccupies⟩
      · rfl
      · exact hoccupies.place (fun heq ↦ hoccupies.fresh (heq ▸ ho)) fun _ ↦
          place_insert hresult rfl
  | other c =>
      obtain ⟨k, hchanges⟩ := step_rows (exec_step h)
      exact hchanges.place hdb
  | _ => exact absurd trivial hc

namespace Acceptance

variable (A : Acceptance)

/-! ## The rows of the operation -/

/-- A settlement with a terminal status makes this of a row which the operation occupies. -/
def afterRow (now : Timestamp) (status : OperationStatus) (j : Uuid) (f : FileObject) :
    FileObject :=
  if A.op.operationType = .rename then
    if status = .succeeded then
      if A.op.resultFileId = some j then { f with status := .available }
      else if A.op.sourceFileId = some j then { f with status := .deleted, deletedAt := some now }
      else f
    else if A.op.resultFileId = some j ∧ status ∈ [.failed, .cancelled, .deadLettered] then
      { f with status := .renameFailed }
    else f
  else f

/-- The row as success leaves it. -/
def finalRow (p : Uuid × FileObject) : FileObject :=
  (A.afterRow 0 .succeeded p.1 p.2).unoccupied.outcome

/-- All rows are as success leaves them. -/
def Moved (db : Db) : Prop :=
  ∀ p ∈ A.sources ++ A.results, (db.files.lookup p.1).map (·.outcome) = some (A.finalRow p)

/-- A rename has lost its source, which is still there. -/
def Left (db : Db) : Prop :=
  A.op.operationType = .rename ∧ ∃ p ∈ A.sources, ∃ f, db.files.lookup p.1 = some f ∧
    f.activeOperationId = none ∧ f.status ≠ .deleted

/-- The index on active renames of one source does not stop the settlement. -/
def Settles (status : OperationStatus) (db : Db) : Prop :=
  status = .partialFailure → ∀ source, A.op.sourceFileId = some source →
    db.operations.anyRow (fun j other ↦ j ≠ A.id && other.activeRenameOf source) = false

/-- No terminal status but success parts a rename from the rows it occupies. -/
def KeepsMove (db : Db) : OpCmd → Prop
  | .settleBrokerOperation _ id status _ => A.op.operationType = .rename → id = A.id →
      status.terminal → status ≠ .succeeded → A.Settles status db → ¬ A.Holds db
  | _ => True

/-- Nobody else writes the rows which the operation no longer occupies. -/
def Alone (db : Db) (c : OpCmd) : Prop :=
  c.delivery ∨ A.Holds db ∨ ∀ p ∈ A.sources ++ A.results,
    ((advance opExec db c).files.lookup p.1).map (·.outcome) =
      (db.files.lookup p.1).map (·.outcome)

/-- What holds of an operation from its acceptance on, whoever works on it. -/
structure Ongoing (db : Db) : Prop where
  underway : A.Underway db
  functional : ∀ p ∈ A.sources ++ A.results, ∀ q ∈ A.sources ++ A.results, q.1 = p.1 → q = p
  rename : A.op.operationType = .rename → ∃ source result, A.RenameRows source result

variable {A} {now : Timestamp} {status : OperationStatus}

theorem Accepted.ongoing (h : A.Accepted db) : A.Ongoing db :=
  ⟨h.underway, h.functional, h.rename⟩

theorem Ongoing.advance (h : A.Ongoing db) (c : OpCmd) : A.Ongoing (advance opExec db c) :=
  ⟨h.underway.advance c, h.functional, h.rename⟩

/-- The settlement of a rename which occupies both its rows. -/
theorem lookup_settleRename {op : FileOperation} {files : Table Uuid FileObject} {s r j : Uuid}
    {f : FileObject} (hsource : op.sourceFileId = some s) (hresult : op.resultFileId = some r)
    (hsheld : heldBy o files s) (hrheld : heldBy o files r) (hne : s ≠ r)
    (hf : files.lookup j = some f) :
    (settleRename now o op status files).lookup j = some (
      if status = .succeeded then
        if r = j then { f with status := .available }
        else if s = j then { f with status := .deleted, deletedAt := some now }
        else f
      else if r = j ∧ status ∈ [.failed, .cancelled, .deadLettered] then
        { f with status := .renameFailed }
      else f) := by
  simp only [settleRename, hsource, hresult, Option.filter_some, hsheld, hrheld, if_true]
  by_cases hsucceeded : status = .succeeded
  · rw [if_pos hsucceeded, if_pos hsucceeded]
    by_cases hr : r = j
    · subst hr
      rw [AList.lookup_update_self, AList.lookup_update_of_ne hne.symm, hf, if_pos rfl]
      rfl
    · rw [AList.lookup_update_of_ne (Ne.symm hr), if_neg hr]
      by_cases hs : s = j
      · subst hs
        rw [AList.lookup_update_self, hf, if_pos rfl]
        rfl
      · rw [AList.lookup_update_of_ne (Ne.symm hs), hf, if_neg hs]
  · rw [if_neg hsucceeded, if_neg hsucceeded]
    by_cases hfailed : status ∈ [OperationStatus.failed, .cancelled, .deadLettered]
    · rw [if_pos hfailed]
      by_cases hr : r = j
      · subst hr
        rw [AList.lookup_update_self, hf, if_pos ⟨rfl, hfailed⟩]
        rfl
      · rw [AList.lookup_update_of_ne (Ne.symm hr), hf, if_neg (by simp [hr])]
    · rw [if_neg hfailed, if_neg (by simp [hfailed]), hf]

/-- A terminal settlement of an operation which occupies all its rows. -/
theorem lookup_settledFiles (h : A.Ongoing db) (hholds : A.Holds db) (hterminal : status.terminal)
    {op : FileOperation} (hop : db.operations.lookup A.id = some op) {p : Uuid × FileObject}
    (hp : p ∈ A.sources ++ A.results) {f : FileObject} (hf : db.files.lookup p.1 = some f) :
    (settledFiles now A.id op status db.files).lookup p.1 =
      some (A.afterRow now status p.1 f).unoccupied := by
  obtain ⟨op₀, hop₀, horder⟩ := h.underway.operation
  obtain rfl := Option.some.inj (hop₀.symm.trans hop)
  have hsame := FileOperation.sameOrder horder
  have hheld : f.activeOperationId = some A.id := by
    obtain ⟨f₀, hf₀, hheld⟩ := heldBy_eq_true.mp (hholds p hp)
    rwa [Option.some.inj (hf.symm.trans hf₀)]
  have hmoved : (if op₀.operationType = .rename then settleRename now A.id op₀ status db.files
      else db.files).lookup p.1 = some (A.afterRow now status p.1 f) := by
    rw [afterRow, hsame.operationType]
    by_cases hkind : A.op.operationType = .rename
    · obtain ⟨source, result, hrows⟩ := h.rename hkind
      have hsource := hsame.sourceFileId.trans hrows.sourceId
      have hresult := hsame.resultFileId.trans hrows.resultId
      rw [if_pos hkind, if_pos hkind, lookup_settleRename hsource hresult
        (hholds source (by simp [hrows.sources])) (hholds result (by simp [hrows.results])) hrows.ne hf]
      simp only [hrows.sourceId, hrows.resultId, Option.some.injEq]
    · rw [if_neg hkind, if_neg hkind, hf]
  have hactive : (A.afterRow now status p.1 f).activeOperationId = some A.id := by
    rw [← hheld]
    unfold afterRow
    split_ifs <;> rfl
  unfold settledFiles
  dsimp only
  rw [if_pos hterminal, updateHeld, AList.lookup_updateWhere, hmoved, Option.map_some,
    if_pos (by simp [hactive])]

theorem settled_rows {reason : Option String} (h : A.Ongoing db) (hholds : A.Holds db)
    (hterminal : status.terminal)
    (hexec : settleBrokerOperation now A.id status reason db = .ok db') {p : Uuid × FileObject}
    (hp : p ∈ A.sources ++ A.results) :
    ∃ f, db.files.lookup p.1 = some f ∧ f.activeOperationId = some A.id ∧ f.core = p.2.core ∧
      db'.files.lookup p.1 = some (A.afterRow now status p.1 f).unoccupied := by
  obtain ⟨f, hf, hheld, hcore⟩ := h.underway.held (hholds p hp) (h.functional p hp)
  obtain ⟨op, hop, -⟩ := h.underway.operation
  rcases settleBrokerOperation_eq_ok hexec with ⟨hnone, -⟩ | ⟨op', hop', rfl⟩
  · rw [hop] at hnone
    cases hnone
  · exact ⟨f, hf, hheld, hcore, lookup_settledFiles h hholds hterminal hop' hp hf⟩

/-- Rows with the same core have the same outcome once they are free. -/
theorem outcome_congr {f g : FileObject} (h : f.core = g.core) :
    f.unoccupied.outcome = g.unoccupied.outcome := by
  change f.core.outcome = g.core.outcome
  rw [h]

theorem outcome_afterRow {f g : FileObject} {j : Uuid} (hcore : f.core = g.core)
    (hmoves : A.op.operationType = .rename → status = .succeeded) :
    (A.afterRow now status j f).unoccupied.outcome =
      (A.afterRow 0 .succeeded j g).unoccupied.outcome := by
  unfold afterRow
  by_cases hkind : A.op.operationType = .rename
  · rw [if_pos hkind, if_pos hkind, if_pos (hmoves hkind), if_pos rfl]
    split
    · change ({ f.core with status := .available } : FileObject).outcome =
        ({ g.core with status := .available } : FileObject).outcome
      rw [hcore]
    split
    · change ({ f.core with status := .deleted, deletedAt := some 0 } : FileObject).outcome =
        ({ g.core with status := .deleted, deletedAt := some 0 } : FileObject).outcome
      rw [hcore]
    · exact outcome_congr hcore
  · rw [if_neg hkind, if_neg hkind]
    exact outcome_congr hcore

/-- Success, and for anything but a rename every terminal status, leaves the rows as they are to
end up. -/
theorem moved_of_settled {reason : Option String} (h : A.Ongoing db) (hholds : A.Holds db)
    (hterminal : status.terminal) (hmoves : A.op.operationType = .rename → status = .succeeded)
    (hexec : settleBrokerOperation now A.id status reason db = .ok db') : A.Moved db' := by
  intro p hp
  obtain ⟨f, -, -, hcore, hf'⟩ := settled_rows h hholds hterminal hexec hp
  rw [hf', Option.map_some, outcome_afterRow hcore hmoves]
  rfl

/-- Any other terminal status parts a rename from its source. -/
theorem left_of_settled {reason : Option String} (h : A.Ongoing db) (hholds : A.Holds db)
    (hterminal : status.terminal) (hkind : A.op.operationType = .rename)
    (hfailed : status ≠ .succeeded)
    (hexec : settleBrokerOperation now A.id status reason db = .ok db') : A.Left db' := by
  obtain ⟨source, result, hrows⟩ := h.rename hkind
  have hmem : source ∈ A.sources := by simp [hrows.sources]
  obtain ⟨f, hf, hheld, -, hf'⟩ :=
    settled_rows h hholds hterminal hexec (List.mem_append_left _ hmem)
  have hstay : A.afterRow now status source.1 f = f := by
    have hne : result.1 ≠ source.1 := hrows.ne.symm
    rw [afterRow, if_pos hkind, if_neg hfailed, if_neg (by simp [hrows.resultId, hne])]
  have hoperable := h.underway.consistent.operable source.1 f hf (by simp [hheld])
  refine ⟨hkind, source, hmem, _, hf', rfl, ?_⟩
  rw [hstay]
  rcases hoperable.1 with hs | hs <;> simp [FileObject.unoccupied, hs]

/-! ## Free rows stay as they are -/

theorem outcome_free {f f' : FileObject} (h : f'.outcome = f.outcome) :
    f'.activeOperationId = none ↔ f.activeOperationId = none := by
  change f'.outcome.activeOperationId = none ↔ f.outcome.activeOperationId = none
  rw [h]

theorem not_holds_of_free {p : Uuid × FileObject} (hp : p ∈ A.sources ++ A.results)
    {f : FileObject} (hf : db.files.lookup p.1 = some f) (hfree : f.activeOperationId = none) :
    ¬ A.Holds db := by
  intro hholds
  obtain ⟨f₀, hf₀, hheld⟩ := heldBy_eq_true.mp (hholds p hp)
  obtain rfl := Option.some.inj (hf.symm.trans hf₀)
  rw [hfree] at hheld
  cases hheld

/-- A row of the operation which is free stays as it is, whatever happens next. -/
theorem Alone.outcome {c : OpCmd} (hc : A.Alone db c) {p : Uuid × FileObject}
    (hp : p ∈ A.sources ++ A.results) {f : FileObject} (hf : db.files.lookup p.1 = some f)
    (hfree : f.activeOperationId = none) :
    ∃ f', (advance opExec db c).files.lookup p.1 = some f' ∧ f'.outcome = f.outcome := by
  rcases hc with hc | hholds | hrows
  · exact advance_preserves (I := fun s : Db ↦ ∃ f', s.files.lookup p.1 = some f' ∧
      f'.outcome = f.outcome) ⟨f, hf, rfl⟩ fun db' hexec ↦ delivery_free hc hexec hf hfree
  · exact absurd hholds (not_holds_of_free hp hf hfree)
  · have hrow := hrows p hp
    rw [hf, Option.map_some] at hrow
    exact Option.map_eq_some_iff.mp hrow

theorem Moved.row (h : A.Moved db) {p : Uuid × FileObject} (hp : p ∈ A.sources ++ A.results) :
    ∃ f, db.files.lookup p.1 = some f ∧ f.outcome = A.finalRow p ∧ f.activeOperationId = none := by
  obtain ⟨f, hf, houtcome⟩ := Option.map_eq_some_iff.mp (h p hp)
  refine ⟨f, hf, houtcome, ?_⟩
  change f.outcome.activeOperationId = none
  rw [houtcome]
  rfl

theorem Moved.advance {c : OpCmd} (h : A.Moved db) (hc : A.Alone db c) :
    A.Moved (Transition.advance opExec db c) := by
  intro p hp
  obtain ⟨f, hf, houtcome, hfree⟩ := h.row hp
  obtain ⟨f', hf', houtcome'⟩ := hc.outcome hp hf hfree
  rw [hf', Option.map_some, houtcome', houtcome]

theorem Left.advance {c : OpCmd} (h : A.Left db) (hc : A.Alone db c) :
    A.Left (Transition.advance opExec db c) := by
  obtain ⟨hkind, p, hp, f, hf, hfree, hstatus⟩ := h
  obtain ⟨f', hf', houtcome⟩ := hc.outcome (List.mem_append_left _ hp) hf hfree
  refine ⟨hkind, p, hp, f', hf', (outcome_free houtcome).mpr hfree, ?_⟩
  change f'.outcome.status ≠ .deleted
  rw [houtcome]
  exact hstatus

theorem Left.not_holds (h : A.Left db) : ¬ A.Holds db := by
  obtain ⟨-, p, hp, f, hf, hfree, -⟩ := h
  exact not_holds_of_free (List.mem_append_left _ hp) hf hfree

theorem Left.not_moved (h : A.Left db) (hdb : A.Ongoing db) : ¬ A.Moved db := by
  obtain ⟨hkind, p, hp, f, hf, -, hstatus⟩ := h
  intro hmoved
  obtain ⟨source, result, hrows⟩ := hdb.rename hkind
  obtain rfl : p = source := by simpa [hrows.sources] using hp
  have hrow := hmoved p (List.mem_append_left _ hp)
  have hne : result.1 ≠ p.1 := hrows.ne.symm
  rw [hf, Option.map_some, Option.some.injEq, finalRow, afterRow, if_pos hkind, if_pos rfl,
    if_neg (by simp [hrows.resultId, hne]), if_pos hrows.sourceId] at hrow
  exact hstatus (congrArg FileObject.status hrow)

theorem Moved.not_holds (h : A.Moved db) (hdb : A.Ongoing db)
    (hkind : A.op.operationType = .rename) : ¬ A.Holds db := by
  obtain ⟨source, result, hrows⟩ := hdb.rename hkind
  have hmem : source ∈ A.sources ++ A.results := by simp [hrows.sources]
  obtain ⟨f, hf, -, hfree⟩ := h.row hmem
  exact not_holds_of_free hmem hf hfree

/-! ## One step -/

/-- A terminal status is recorded unless the index on active renames forbids it. -/
theorem settle_isOk_iff {reason : Option String} (h : A.Ongoing db) (hterminal : status.terminal)
    (hkind : A.op.operationType = .rename) :
    (∃ db', settleBrokerOperation now A.id status reason db = .ok db') ↔ A.Settles status db := by
  obtain ⟨op, hop, horder⟩ := h.underway.operation
  have hsame := FileOperation.sameOrder horder
  obtain ⟨source, result, hrows⟩ := h.rename hkind
  have hactive : (op.settled now status reason).activeRenameOf source.1 =
      decide (status = .partialFailure) := by
    have hsource := hsame.sourceFileId.trans hrows.sourceId
    have htype := hsame.operationType.trans hkind
    simp only [FileOperation.activeRenameOf, FileOperation.settled, hsource, htype, decide_true,
      Bool.true_and]
    cases status <;> simp_all [OperationStatus.terminal]
  unfold settleBrokerOperation Settles
  simp only [hop, hsame.sourceFileId, hrows.sourceId, Option.any_some, hactive, Option.some.injEq,
    forall_eq']
  by_cases hindexed : status = .partialFailure
  · simp only [hindexed, decide_true, Bool.true_and, forall_const]
    cases db.operations.anyRow fun j other ↦ j ≠ A.id && other.activeRenameOf source.1 <;> simp
  · simp [hindexed]

theorem settle_succeeded {reason : Option String} (h : A.Ongoing db) :
    ∃ db', settleBrokerOperation now A.id .succeeded reason db = .ok db' := by
  obtain ⟨op, hop, -⟩ := h.underway.operation
  have hnone : op.sourceFileId.any (fun source ↦
      (op.settled now .succeeded reason).activeRenameOf source &&
        db.operations.anyRow fun j other ↦ j ≠ A.id && other.activeRenameOf source) = false := by
    cases op.sourceFileId <;> simp [FileOperation.activeRenameOf, FileOperation.settled]
  unfold settleBrokerOperation
  simp only [hop, hnone, Bool.false_eq_true, if_false]
  exact ⟨_, rfl⟩

/-- The state of the rows: still occupied, moved, or parted from the operation. -/
def Known (A : Acceptance) (db : Db) : Prop :=
  A.Holds db ∨ A.Moved db ∨ A.Left db

/-- The operation keeps its rows, unless it is settled for good. -/
theorem holds_advance {c : OpCmd} (h : A.Ongoing db) (hholds : A.Holds db)
    (hnot : ∀ now status reason, c = .settleBrokerOperation now A.id status reason →
      status.terminal = false) : A.Holds (advance opExec db c) := by
  refine advance_preserves (I := A.Holds) hholds fun db' hexec p hp ↦ ?_
  by_cases hc : c.delivery
  · obtain ⟨f, hf, hheld⟩ := heldBy_eq_true.mp (hholds p hp)
    obtain ⟨f', hf', hactive, -⟩ := delivery_carried hc hnot hexec p.1 f hf (Or.inr hheld)
    exact heldBy_eq_true.mpr ⟨f', hf', hactive.trans hheld⟩
  · obtain ⟨op, hop, -⟩ := h.underway.operation
    rw [heldBy_iff_place, place_of_not_delivery h.underway.consistent (AList.mem_of_lookup hop) hc
      hexec, ← heldBy_iff_place]
    exact hholds p hp

/-- A terminal settlement of an operation which occupies its rows decides what becomes of them. -/
theorem settlement_decides {reason : Option String} (h : A.Ongoing db) (hholds : A.Holds db)
    (hterminal : status.terminal) :
    A.Known (advance opExec db (.settleBrokerOperation now A.id status reason)) ∧
      (¬ A.Left (advance opExec db (.settleBrokerOperation now A.id status reason)) ↔
        A.KeepsMove db (.settleBrokerOperation now A.id status reason)) := by
  cases hexec : settleBrokerOperation now A.id status reason db with
  | error e =>
      rw [advance_of_error (show opExec (.settleBrokerOperation now A.id status reason) db =
        .error e from hexec)]
      refine ⟨Or.inl hholds, iff_of_true (fun hleft ↦ hleft.not_holds hholds)
        fun hkind _ _ _ hsettles ↦ ?_⟩
      have hok : ∃ db', settleBrokerOperation now A.id status reason db = .ok db' :=
        (settle_isOk_iff h hterminal hkind).mpr hsettles
      rw [hexec] at hok
      simp at hok
  | ok db' =>
      rw [advance_of_ok (show opExec (.settleBrokerOperation now A.id status reason) db =
        .ok db' from hexec)]
      by_cases hmoves : A.op.operationType = .rename → status = .succeeded
      · have hmoved := moved_of_settled h hholds hterminal hmoves hexec
        have hongoing : A.Ongoing db' := by
          have hadvance := h.advance (.settleBrokerOperation now A.id status reason)
          rwa [advance_of_ok (show opExec (.settleBrokerOperation now A.id status reason) db =
            .ok db' from hexec)] at hadvance
        exact ⟨Or.inr (Or.inl hmoved), iff_of_true (fun hleft ↦ hleft.not_moved hongoing hmoved)
          fun hkind _ _ hfailed ↦ absurd (hmoves hkind) hfailed⟩
      · push Not at hmoves
        obtain ⟨hkind, hfailed⟩ := hmoves
        have hleft := left_of_settled h hholds hterminal hkind hfailed hexec
        refine ⟨Or.inr (Or.inr hleft), iff_of_false (not_not.mpr hleft) fun hkeeps ↦ ?_⟩
        exact hkeeps hkind rfl hterminal hfailed
          ((settle_isOk_iff h hterminal hkind).mp ⟨db', hexec⟩) hholds

/-- Step lemma: the rows are parted from a rename by the settlements which do not keep its move. -/
theorem known_advance {c : OpCmd} (h : A.Ongoing db) (hdb : A.Known db) (hc : A.Alone db c) :
    A.Known (advance opExec db c) ∧
      (¬ A.Left (advance opExec db c) ↔ ¬ A.Left db ∧ A.KeepsMove db c) := by
  rcases hdb with hholds | hmoved | hleft
  · have hnot : ¬ A.Left db := fun hleft ↦ hleft.not_holds hholds
    simp only [hnot, not_false_eq_true, true_and]
    by_cases hends : ∃ now status reason, c = .settleBrokerOperation now A.id status reason ∧
        status.terminal
    · obtain ⟨now, status, reason, rfl, hterminal⟩ := hends
      exact settlement_decides h hholds hterminal
    · have hstays : ∀ now status reason, c = .settleBrokerOperation now A.id status reason →
          status.terminal = false := by
        intro now status reason heq
        rw [← Bool.not_eq_true]
        exact fun hterminal ↦ hends ⟨now, status, reason, heq, hterminal⟩
      have hholds' := holds_advance h hholds hstays
      refine ⟨Or.inl hholds', iff_of_true (fun hleft ↦ hleft.not_holds hholds') ?_⟩
      cases c with
      | settleBrokerOperation now id status reason =>
          rintro - rfl hterminal -
          exact absurd ⟨now, status, reason, rfl, hterminal⟩ hends
      | _ => exact trivial
  · have hmoved' := hmoved.advance hc
    refine ⟨Or.inr (Or.inl hmoved'), iff_of_true (fun hleft ↦ hleft.not_moved (h.advance c) hmoved')
      ⟨fun hleft ↦ hleft.not_moved h hmoved, ?_⟩⟩
    cases c with
    | settleBrokerOperation now id status reason =>
        exact fun hkind _ _ _ _ ↦ hmoved.not_holds h hkind
    | _ => exact trivial
  · have hleft' := hleft.advance hc
    exact ⟨Or.inr (Or.inr hleft'), iff_of_false (not_not.mpr hleft') fun hboth ↦ hboth.1 hleft⟩

/-! ## Whole runs -/

theorem settled_ok (h : A.Ongoing db) (now : Timestamp) :
    settleBrokerOperation now A.id .succeeded none db = .ok (A.settled now db) := by
  have hok : ∃ db', settleBrokerOperation now A.id .succeeded none db = .ok db' := settle_succeeded h
  obtain ⟨db', hexec⟩ := hok
  rwa [settled, advance_of_ok (show opExec (.settleBrokerOperation now A.id .succeeded none) db =
    .ok db' from hexec)]

theorem settled_moved_iff (h : A.Ongoing db) (hdb : A.Known db) (now : Timestamp) :
    A.Moved (A.settled now db) ↔ ¬ A.Left db := by
  have hsettle : A.Alone db (.settleBrokerOperation now A.id .succeeded none) := Or.inl trivial
  rcases hdb with hholds | hmoved | hleft
  · exact iff_of_true (moved_of_settled h hholds rfl (fun _ ↦ rfl) (settled_ok h now))
      fun hleft ↦ hleft.not_holds hholds
  · exact iff_of_true (hmoved.advance hsettle) fun hleft ↦ hleft.not_moved h hmoved
  · exact iff_of_false (Left.not_moved (hleft.advance hsettle) (h.advance _)) (not_not.mpr hleft)

/-- Run lemma: the final success moves the rows unless they were parted from the operation. -/
theorem moved_iff (h : A.Ongoing db) (hdb : A.Known db) (cs : List OpCmd)
    (hmeets : Meets opExec A.Alone db cs) (now : Timestamp) :
    A.Moved (A.settled now (run opExec db cs)) ↔ ¬ A.Left db ∧ Meets opExec A.KeepsMove db cs := by
  induction cs generalizing db with
  | nil => simpa [Meets] using settled_moved_iff h hdb now
  | cons c cs ih =>
      obtain ⟨hc, hrest⟩ := hmeets
      obtain ⟨hdb', hkeeps⟩ := known_advance h hdb hc
      rw [run_cons, ih (h.advance c) hdb' hrest, hkeeps]
      exact and_assoc

theorem Ongoing.run (h : A.Ongoing db) (cs : List OpCmd) :
    A.Ongoing (Transition.run opExec db cs) := by
  induction cs generalizing db with
  | nil => exact h
  | cons c cs ih => exact ih (h.advance c)

/-- The run in which the first delivery succeeds and nothing else happens. -/
def direct (A : Acceptance) (startedAt : Timestamp) (etag : Option String) (now : Timestamp)
    (db : Db) : Db :=
  A.settled now (run opExec db
    [.startBrokerOperation startedAt A.id, .recordRenameProviderResult A.id etag])

/-- Success after the commands `cs` leaves what the success of the first delivery leaves. -/
structure ReplaysDirect (A : Acceptance) (startedAt : Timestamp) (etag : Option String)
    (now now' : Timestamp) (db : Db) (cs : List OpCmd) : Prop where
  rows : ∀ p ∈ A.sources ++ A.results,
    ((A.settled now' (run opExec db cs)).files.lookup p.1).map (·.outcome) =
      ((A.direct startedAt etag now db).files.lookup p.1).map (·.outcome)
  renamed : ∀ source result, A.op.operationType = .rename → A.RenameRows source result →
    ∃ f g, (A.settled now' (run opExec db cs)).files.lookup source.1 = some f ∧
      f.status = .deleted ∧ (A.settled now' (run opExec db cs)).files.lookup result.1 = some g ∧
      g.status = .available ∧ source.2.SameContent g
  released : ∀ r, r ∉ held (A.settled now' (run opExec db cs)) A.id ∧
    r ∉ held (A.direct startedAt etag now db) A.id
  quotas : (∀ c ∈ cs, c.delivery) → (A.settled now' (run opExec db cs)).ledger =
    (A.direct startedAt etag now db).ledger

theorem direct_moved (h : A.Ongoing db) (hholds : A.Holds db) (startedAt : Timestamp)
    (etag : Option String) (now : Timestamp) : A.Moved (A.direct startedAt etag now db) :=
  (moved_iff h (Or.inl hholds)
    [.startBrokerOperation startedAt A.id, .recordRenameProviderResult A.id etag]
    ⟨Or.inl trivial, Or.inl trivial, trivial⟩ now).mpr
    ⟨fun hleft ↦ hleft.not_holds hholds, trivial, trivial, trivial⟩

theorem Moved.renamed (h : A.Moved db) {source result : Uuid × FileObject}
    (hkind : A.op.operationType = .rename) (hrows : A.RenameRows source result) :
    ∃ f g, db.files.lookup source.1 = some f ∧ f.status = .deleted ∧
      db.files.lookup result.1 = some g ∧ g.status = .available ∧ source.2.SameContent g := by
  obtain ⟨f, hf, houtcome, -⟩ := h.row (p := source) (by simp [hrows.sources])
  obtain ⟨g, hg, houtcome', -⟩ := h.row (p := result) (by simp [hrows.results])
  rw [finalRow, afterRow, if_pos hkind, if_pos rfl, if_neg (by simp [hrows.resultId, hrows.ne.symm]),
    if_pos hrows.sourceId] at houtcome
  rw [finalRow, afterRow, if_pos hkind, if_pos rfl, if_pos hrows.resultId] at houtcome'
  obtain ⟨hlength, hchecksum, happlication, hspace⟩ := hrows.content
  refine ⟨f, g, hf, congrArg FileObject.status houtcome, hg, congrArg FileObject.status houtcome', ?_⟩
  exact ⟨(congrArg FileObject.contentLength houtcome').trans hlength,
    (congrArg FileObject.checksum houtcome').trans hchecksum,
    (congrArg FileObject.applicationId houtcome').trans happlication,
    (congrArg FileObject.storageSpaceId houtcome').trans hspace⟩

theorem settled_released (h : A.Ongoing db) (now : Timestamp) (r : Resource) :
    r ∉ held (A.settled now db) A.id := by
  obtain ⟨op, hop, -⟩ := h.underway.operation
  exact not_held_of_settled rfl (AList.mem_of_lookup hop) (settled_ok h now) r

/-- No delivery charges or refunds anything. -/
theorem ledger_of_deliveries {cs : List OpCmd} (h : ∀ c ∈ cs, c.delivery) :
    (run opExec db cs).ledger = db.ledger := by
  induction cs generalizing db with
  | nil => rfl
  | cons c cs ih =>
      have hc := h c List.mem_cons_self
      rw [run_cons, ih fun d hd ↦ h d (List.mem_cons_of_mem c hd)]
      refine advance_preserves (I := fun s : Db ↦ s.ledger = db.ledger) rfl fun db' hexec ↦ ?_
      rcases opExec_eq_ok hexec with ⟨c₀, rfl, -⟩ | ⟨-, hside⟩
      · cases hc
      · exact hside.ledger

theorem settled_ledger (now : Timestamp) : (A.settled now db).ledger = db.ledger := by
  have hdelivery : ∀ c ∈ [OpCmd.settleBrokerOperation now A.id .succeeded none], c.delivery := by
    simp [OpCmd.delivery]
  exact ledger_of_deliveries hdelivery

end Acceptance

/-- An operation which has just been accepted, is given up and taken up again any number of times
and succeeds in the end leaves what its first delivery would have left, exactly when no terminal
status but success has been recorded of a rename which still occupied its rows.  Nobody else
writes the rows while the operation does not occupy them. -/
theorem replay_equals_direct_iff (A : Acceptance) {db : Db} (haccepted : A.Accepted db)
    (hholds : A.Holds db) {cs : List OpCmd} (halone : Meets opExec A.Alone db cs)
    (startedAt : Timestamp) (etag : Option String) (now now' : Timestamp) :
    A.ReplaysDirect startedAt etag now now' db cs ↔ Meets opExec A.KeepsMove db cs := by
  have hongoing := haccepted.ongoing
  have hdirect := Acceptance.direct_moved hongoing hholds startedAt etag now
  have hiff := Acceptance.moved_iff hongoing (Or.inl hholds) cs halone now'
  constructor
  · intro h
    exact (hiff.mp fun p hp ↦ (h.rows p hp).trans (hdirect p hp)).2
  · intro hkeeps
    have hmoved := hiff.mpr ⟨fun hleft ↦ hleft.not_holds hholds, hkeeps⟩
    refine ⟨fun p hp ↦ (hmoved p hp).trans (hdirect p hp).symm,
      fun source result hkind hrows ↦ hmoved.renamed hkind hrows,
      fun r ↦ ⟨Acceptance.settled_released (hongoing.run cs) now' r,
        Acceptance.settled_released (hongoing.run _) now r⟩, fun hdeliveries ↦ ?_⟩
    rw [Acceptance.settled_ledger, Acceptance.ledger_of_deliveries hdeliveries, Acceptance.direct,
      Acceptance.settled_ledger, Acceptance.ledger_of_deliveries (by simp [OpCmd.delivery])]

namespace Sample

/-- The stored file right after its rename has been accepted. -/
def renameAccepted : Db := advance opExec stored (.createRenameOperation operationIds 2 rename)

/-- The recovery gives the operation up, and the operator brings it back. -/
def abandoned : List OpCmd :=
  [.startBrokerOperation 0 50,
    .recoverTimedOutOperations (seconds 900) 600 0 (fun _ ↦ 54) [50],
    .replayDeadLetterOperation 55 50 51,
    .startBrokerOperation (seconds 1000) 50]

/-- The receiver gives the operation up, and the operator brings it back. -/
def rejected : List OpCmd :=
  [.startBrokerOperation 0 50,
    .settleBrokerOperation (seconds 30) 50 .deadLettered (some "provider_failed"),
    .replayDeadLetterOperation 55 50 51,
    .startBrokerOperation (seconds 1000) 50]

theorem accepted_rename : ∃ A : Acceptance, A.id = 50 ∧ A.Accepted renameAccepted ∧ A.Holds renameAccepted ∧
    A.op = newRenameOperation 2 52 rename := by
  have haccept : createRenameOperation operationIds 2 rename stored =
    .ok (newRenameOperation 2 52 rename, renameAccepted) := rfl
  have hservice : Acceptance.RenameFromService 1 2 space rename stored := by
    refine ⟨fun f hf ↦ ?_, by decide, by decide⟩
    obtain rfl := Option.some.inj (hf.symm.trans (show stored.files.lookup 30 = some file from rfl))
    decide
  rcases Acceptance.createRenameOperation_accepted consistent_stored rfl hservice haccept with
    hsame | ⟨A, -, hid, hop, -, -, haccepted, hholds⟩
  · have hfiles := congrArg (fun s : Db ↦ (s.files.lookup 52).isSome) hsame
    cases hfiles
  · exact ⟨A, hid, haccepted, hholds, hop⟩

end Sample

theorem replay_equals_direct_sample : ∃ A : Acceptance, A.id = 50 ∧
    A.ReplaysDirect 0 none (seconds 1) (seconds 1001) Sample.renameAccepted Sample.abandoned := by
  obtain ⟨A, hid, haccepted, hholds, -⟩ := Sample.accepted_rename
  have halone : Meets opExec A.Alone Sample.renameAccepted Sample.abandoned :=
    ⟨Or.inl trivial, Or.inl trivial, Or.inl trivial, Or.inl trivial, trivial⟩
  exact ⟨A, hid, (replay_equals_direct_iff A haccepted hholds halone 0 none _ _).mpr
    ⟨trivial, trivial, trivial, trivial, trivial⟩⟩

/-- The source of a rename which was dead-lettered before it succeeded stays available. -/
theorem replayed_rename_keeps_source : ¬ ∀ (A : Acceptance) (db : Db) (cs : List OpCmd)
    (startedAt : Timestamp) (etag : Option String) (now now' : Timestamp), A.Accepted db →
      A.Holds db → Meets opExec A.Alone db cs → A.ReplaysDirect startedAt etag now now' db cs := by
  intro h
  obtain ⟨A, hid, haccepted, hholds, hop⟩ := Sample.accepted_rename
  obtain ⟨source, result, hrows⟩ := haccepted.rename (by rw [hop]; rfl)
  have hreplays := h A Sample.renameAccepted Sample.rejected 0 none 0 0 haccepted hholds
    ⟨Or.inl trivial, Or.inl trivial, Or.inl trivial, Or.inl trivial, trivial⟩
  obtain ⟨f, -, hf, hstatus, -⟩ := hreplays.renamed source result (by rw [hop]; rfl) hrows
  have hsource : source.1 = 30 := by
    have hid := hrows.sourceId
    rw [hop] at hid
    exact (Option.some.inj hid).symm
  rw [Acceptance.settled, hid, hsource] at hf
  obtain rfl := Option.some.inj hf
  cases hstatus

end S3mp
