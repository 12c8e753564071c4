import S3mp.Governance.Projection
import S3mp.Ledger.Charge

/-!
# The projection and the charges

Usage is charged by commits and taken back by purges; a reconciliation run computes it
anew from the available files.  The two agree as long as, for every quota the run
writes, the files it counts are the files charged to the quota.  A deleted file in its
retention period is charged and not counted.
-/

namespace S3mp

open Relational Files Governance Transition

/-! ## Tallies -/

/-- The one loaded file of its key, and the listing shows an object of its size there. -/
def Governance.Found (rows : LoadedRows) (objects : List ReconciliationObject) (f : FileObject) :
    Prop :=
  fileRows (rows.files.map fun row ↦ inventoryFile row.2) f.objectKey = [inventoryFile f] ∧
    ∃ o, providerRow objects f.objectKey = some o ∧ o.contentLength = f.contentLength

/-- The run counts the loaded row `f` of the file for the quota. -/
def Governance.Counts (rows : LoadedRows) (objects : List ReconciliationObject) (q : Quota)
    (fileId : Uuid) (f : FileObject) : Prop :=
  (fileId, f) ∈ rows.files ∧ Found rows objects f ∧ q.timesCounted f ≠ 0

/-- For every quota the run selects, the files with content which it counts are the files
charged to the quota and not yet released, and none counts twice. -/
structure Tallies (db : Db) (request : ReconciliationRequest) (rows : LoadedRows)
    (objects : List ReconciliationObject) : Prop where
  counted : ∀ k q, db.ledger.quotas.lookup k = some q →
    projects request (rows.spaces.map Prod.fst) q → ∀ fileId f, Counts rows objects q fileId f →
      0 < f.contentLength → q.timesCounted f = 1 ∧ ∃ f', db.files.lookup fileId = some f' ∧
        f'.contentLength = f.contentLength ∧ ChargedTo db fileId k ∧ ¬ f'.Released
  charged : ∀ k q, db.ledger.quotas.lookup k = some q →
    projects request (rows.spaces.map Prod.fst) q → ∀ fileId f, db.files.lookup fileId = some f →
      ChargedTo db fileId k → ¬ f.Released → 0 < f.contentLength →
        ∃ f', Counts rows objects q fileId f' ∧ f'.contentLength = f.contentLength

variable {db : Db} {request : ReconciliationRequest} {rows : LoadedRows}
  {objects : List ReconciliationObject} {tenantId : Uuid}

theorem mem_matched_iff (tenantId : Uuid) (objects : List ReconciliationObject)
    {row : Uuid × FileObject} (hrow : row ∈ rows.files) :
    row.2.objectKey ∈ matchedFiles (inventoryResults tenantId rows objects) ↔
      Found rows objects row.2 := by
  rw [inventoryResults, mem_matchedFiles]
  constructor
  · rintro ⟨file, o, hone, -, hprovider, hlen⟩
    have hmem : inventoryFile row.2 ∈
        fileRows (rows.files.map fun row ↦ inventoryFile row.2) row.2.objectKey :=
      List.mem_filter.mpr ⟨List.mem_map.mpr ⟨row, hrow, rfl⟩, decide_eq_true rfl⟩
    rw [hone, List.mem_singleton] at hmem
    subst hmem
    exact ⟨hone, o, hprovider, hlen⟩
  · rintro ⟨hone, o, hprovider, hlen⟩
    exact ⟨inventoryFile row.2, o, hone, rfl, hprovider, hlen⟩

theorem chargeOn_eq_zero {k fileId : Uuid} {f : FileObject}
    (h : ¬ (ChargedTo db fileId k ∧ ¬ f.Released ∧ 0 < f.contentLength)) :
    chargeOn db k fileId f = 0 := by
  unfold chargeOn
  split
  · rename_i hcharged
    have hzero : f.contentLength = 0 := by
      by_contra hne
      exact h ⟨hcharged.1, hcharged.2, Nat.pos_of_ne_zero hne⟩
    rw [hzero]
    rfl
  · rfl

/-- A quota shows at least the bytes of each file charged to it. -/
theorem ChargedOnce.le_used (h : ChargedOnce db) {k fileId : Uuid} {q : Quota} {f : FileObject}
    (hq : db.ledger.quotas.lookup k = some q) (hf : db.files.lookup fileId = some f)
    (hcharged : ChargedTo db fileId k) (hunreleased : ¬ f.Released) :
    (f.contentLength : ℤ) ≤ q.usedBytes := by
  rw [h.usage k q hq, ← chargeOn_of_charged hcharged hunreleased]
  refine AList.le_total (w := chargeOn db k) (fun _ g _ ↦ ?_) hf
  unfold chargeOn
  split
  · exact Int.natCast_nonneg _
  · exact le_rfl

/-- Where a run tallies, the bytes it adds for a file are the bytes charged. -/
theorem Tallies.bytes_eq (h : Tallies db request rows objects) {k : Uuid} {q : Quota}
    (hq : db.ledger.quotas.lookup k = some q)
    (hprojects : projects request (rows.spaces.map Prod.fst) q) {row : Uuid × FileObject}
    (hrow : row ∈ rows.files) :
    (if row.2.objectKey ∈ matchedFiles (inventoryResults tenantId rows objects) then
      q.timesCounted row.2 * (row.2.contentLength : ℤ) else 0) =
      db.files.weightAt (chargeOn db k) row.1 := by
  obtain ⟨fileId, f⟩ := row
  have hmatched := mem_matched_iff tenantId objects hrow
  by_cases hcounts : Counts rows objects q fileId f ∧ 0 < f.contentLength
  · obtain ⟨hone, f', hf', hlen, hcharged, hreleased⟩ :=
      h.counted k q hq hprojects fileId f hcounts.1 hcounts.2
    rw [if_pos (hmatched.mpr hcounts.1.2.1), hone, AList.weightAt_of_lookup hf',
      chargeOn_of_charged hcharged hreleased, one_mul, hlen]
  · have hzero : (if f.objectKey ∈ matchedFiles (inventoryResults tenantId rows objects) then
        q.timesCounted f * (f.contentLength : ℤ) else 0) = 0 := by
      split
      · rename_i hmem
        have hfound := hmatched.mp hmem
        by_cases htimes : q.timesCounted f = 0
        · rw [htimes, zero_mul]
        · have hlen : f.contentLength = 0 := by
            by_contra hne
            exact hcounts ⟨⟨hrow, hfound, htimes⟩, Nat.pos_of_ne_zero hne⟩
          rw [hlen, Nat.cast_zero, mul_zero]
      · rfl
    rw [hzero]
    cases hf' : db.files.lookup fileId with
    | none => rw [AList.weightAt_of_notMem (AList.lookup_eq_none.mp hf')]
    | some f' =>
        rw [AList.weightAt_of_lookup hf', chargeOn_eq_zero]
        rintro ⟨hcharged, hreleased, hpos⟩
        obtain ⟨f₁, hcounts₁, hlen₁⟩ :=
          h.charged k q hq hprojects fileId f' hf' hcharged hreleased hpos
        obtain rfl : f₁ = f :=
          congrArg Prod.snd (List.inj_on_of_nodup_map rows.distinct hcounts₁.1 hrow rfl)
        exact hcounts ⟨hcounts₁, hlen₁ ▸ hpos⟩

theorem Tallies.projectedValue_eq (h : Tallies db request rows objects)
    (hdb : Charged db) {k : Uuid} {q : Quota} (hq : db.ledger.quotas.lookup k = some q)
    (hprojects : projects request (rows.spaces.map Prod.fst) q) :
    projectedValue (projectionTotals rows.files
      (matchedFiles (inventoryResults tenantId rows objects))) q = q.usedBytes := by
  rw [hdb.usage k q hq, projectedValue_eq_sum]
  refine (AList.total_eq_sum_rows rows.distinct
    (fun row hrow ↦ h.bytes_eq hq hprojects hrow) fun fileId f hf hunloaded ↦ ?_).symm
  refine chargeOn_eq_zero fun ⟨hcharged, hreleased, hpos⟩ ↦ hunloaded ?_
  obtain ⟨f', hcounts, -⟩ := h.charged k q hq hprojects fileId f hf hcharged hreleased hpos
  exact List.mem_map.mpr ⟨(fileId, f'), hcounts.1, rfl⟩

/-- A run which tallies writes what is there. -/
theorem Tallies.applyProjection_eq (h : Tallies db request rows objects) (hdb : Charged db) :
    applyProjection request rows (matchedFiles (inventoryResults tenantId rows objects)) db =
      db := by
  have hquotas := AList.updateWhere_eq_self (t := db.ledger.quotas)
    (p := fun _ q ↦ projects request (rows.spaces.map Prod.fst) q)
    (f := fun q ↦ { q with usedBytes := projectedValue (projectionTotals rows.files
      (matchedFiles (inventoryResults tenantId rows objects))) q })
    fun k q hq hprojects ↦ by rw [h.projectedValue_eq hdb hq hprojects]
  simp only [applyProjection, hquotas]

/-! ## Runs -/

inductive ReconciledCmd where
  | store (c : Cmd)
  | reconcile (fresh : Uuid) (now : Timestamp) (caller : ReconciliationCaller)
      (storageConfigured : Bool) (request : ReconciliationRequest) (pages : List InventoryPage)

namespace Governance.ReconciliationState

def exec : ReconciledCmd → ReconciliationState → Tx ReconciliationState
  | .store c, s => (S3mp.exec c s.db).map fun db ↦ { s with db }
  | .reconcile fresh now caller storageConfigured request pages, s =>
      .ok (Governance.reconcile fresh now caller storageConfigured request pages s).2

/-- The store commands keep the charges, as in `Charge`. -/
def NoDrift (s : ReconciliationState) : ReconciledCmd → Prop
  | .store c => KeepsCharge s.db c
  | .reconcile .. => True

/-- The reconciliation runs which write tally as well. -/
def KeepsTally (s : ReconciliationState) : ReconciledCmd → Prop
  | .store c => KeepsCharge s.db c
  | .reconcile fresh _ caller storageConfigured request pages =>
      Writes fresh caller storageConfigured request pages s →
        Tallies s.db request (loadRows request s.db) (listedObjects pages)

end Governance.ReconciliationState

open ReconciliationState in
theorem reconcile_unchanged {s : ReconciliationState} {fresh : Uuid} {now : Timestamp}
    {caller : ReconciliationCaller} {storageConfigured : Bool} {pages : List InventoryPage}
    (hs : Charged s.db)
    (h : KeepsTally s (.reconcile fresh now caller storageConfigured request pages)) :
    (Governance.reconcile fresh now caller storageConfigured request pages s).2.db = s.db := by
  by_cases hwrites : Writes fresh caller storageConfigured request pages s
  · obtain ⟨tenantId, -, hdb⟩ := reconcile_db now hwrites
    rw [hdb]
    exact (h hwrites).applyProjection_eq hs
  · exact reconcile_db_of_not hwrites

namespace Governance.ReconciliationState

variable {s s' : ReconciliationState}

theorem charged_exec {c : ReconciledCmd} (hs : Charged s.db) (hc : KeepsTally s c)
    (h : exec c s = .ok s') : Charged s'.db := by
  cases c with
  | store c =>
      obtain ⟨db', hdb, rfl⟩ := Except.map_eq_ok.mp h
      exact hs.step hc (exec_step hdb)
  | reconcile fresh now caller storageConfigured request pages =>
      obtain rfl := Except.ok.inj h
      rw [reconcile_unchanged hs hc]
      exact hs

theorem exec_store (s : ReconciliationState) (c : Cmd) (db : Db) :
    exec (.store c) { s with db } = (S3mp.exec c db).map fun db ↦ { s with db } :=
  rfl

/-- In every state of a run whose store commands keep the charges and whose reconciliations
tally, usage is what the charged files contain, retained files included, and a
reconciliation leaves every quota as it is. -/
theorem reconciliation_keeps_usage (h : Untouched s.db) {cs : List ReconciledCmd}
    (hmeets : Meets exec KeepsTally s cs) {pre post : List ReconciledCmd} (heq : cs = pre ++ post) :
    ChargedOnce (run exec s pre).db ∧
      ∀ fresh now caller storageConfigured request pages rest,
        post = .reconcile fresh now caller storageConfigured request pages :: rest →
          (Governance.reconcile fresh now caller storageConfigured request pages
            (run exec s pre)).2.db = (run exec s pre).db := by
  subst heq
  obtain ⟨hpre, hpost⟩ := (meets_append exec).mp hmeets
  have hcharged : Charged (run exec s pre).db :=
    run_invariant (I := fun s : ReconciliationState ↦ Charged s.db)
      (fun _ _ _ hs hc hok ↦ charged_exec hs hc hok) h.charged hpre
  refine ⟨hcharged.once, ?_⟩
  rintro fresh now caller storageConfigured request pages rest rfl
  exact reconcile_unchanged hcharged hpost.1

end Governance.ReconciliationState

namespace Sample

open ReconciliationState

def reconciled : ReconciliationState := ⟨tenant, ∅, []⟩

def applyAll : ReconciliationRequest where
  mode := "apply"
  applicationId := none
  storageSpaceId := none
  idempotencyKey := none

/-- The bucket with the object of the sample upload. -/
def uploadedBucket : List InventoryPage :=
  [⟨[⟨"ns/a", 40⟩], none⟩]

def retention : DeleteData where
  actorPrincipalId := some 3
  authorizationVersion := some 1
  authorizationEvidence := some evidence
  idempotencyKey := some "delete-a"
  ifMatch := some "etag"
  isFileRef := false
  originalRelativeKey := some "a"
  purgeDueAt := 5000

/-- The uploaded file is deleted, and then the tenant is reconciled. -/
def retainedThenReconciled : List ReconciledCmd :=
  committed.map .store ++ [.store (.deleteFile 1 40 2 30 retention),
    .reconcile 50 2 (.internal (some 1)) true applyAll uploadedBucket]

/-- The run of the sample upload, and a reconciliation of it. -/
def committedThenReconciled : List ReconciledCmd :=
  committed.map .store ++
    [.reconcile 50 2 (.internal (some 1)) true applyAll uploadedBucket]

/-- The state after the sample upload: file 30 of 40 bytes, charged to quota 1. -/
def afterUpload : Db := run exec tenant committed

theorem chargedTo_of {db : Db}
    (hrow : (db.ingestions.lookup 12).map (fun row ↦ (row.fileObjectId, row.quotaReservationId)) =
      some (some 30, some 10))
    (hres : (db.ledger.reservations.lookup 10).map (fun r ↦ (r.status, r.quotaIds)) =
      some (.settled, [1])) : ChargedTo db 30 1 := by
  obtain ⟨row, hrow, heq⟩ := Option.map_eq_some_iff.mp hrow
  obtain ⟨r, hr, heq'⟩ := Option.map_eq_some_iff.mp hres
  simp only [Prod.mk.injEq] at heq heq'
  exact ⟨12, 10, ⟨row, hrow, heq.1, heq.2⟩, r, hr, heq'.1, by simp [heq'.2]⟩

theorem chargedTo_afterUpload : ChargedTo afterUpload 30 1 :=
  chargedTo_of (by decide) (by decide)

theorem afterUpload_file : ∃ f, afterUpload.files.lookup 30 = some f ∧
    (loadRows applyAll afterUpload).files = [(30, f)] ∧ f.objectKey = "ns/a" ∧
      f.contentLength = 40 ∧ f.status = .available ∧ f.purgeState = none := by
  refine ⟨(afterUpload.files.lookup 30).get (by decide), ?_⟩
  decide

theorem afterUpload_files {fileId : Uuid} (h : fileId ∈ afterUpload.files) : fileId = 30 := by
  have hkeys : afterUpload.files.keys = [30] := by decide
  rw [AList.mem_keys, hkeys, List.mem_singleton] at h
  exact h

theorem afterUpload_quotas {k : Uuid} {q : Quota} (h : afterUpload.ledger.quotas.lookup k = some q) :
    k = 1 ∧ q.applicationId = none ∧ q.storageSpaceId = none := by
  have hkeys : afterUpload.ledger.quotas.keys = [1] := by decide
  have hk := AList.mem_of_lookup h
  rw [AList.mem_keys, hkeys, List.mem_singleton] at hk
  subst hk
  have hone : (afterUpload.ledger.quotas.lookup 1).map (fun q ↦ (q.applicationId, q.storageSpaceId)) =
      some (none, none) := by decide
  rw [h, Option.map_some, Option.some.injEq, Prod.mk.injEq] at hone
  exact ⟨rfl, hone⟩

theorem tallies_afterUpload :
    Tallies afterUpload applyAll (loadRows applyAll afterUpload) (listedObjects uploadedBucket) := by
  obtain ⟨f, hf, hrows, hkey, hlen, hstatus, hstate⟩ := afterUpload_file
  have hunreleased : ¬ f.Released := by simp [FileObject.Released, hstate]
  have htimes : ∀ q : Quota, q.applicationId = none → q.storageSpaceId = none →
      q.timesCounted f = 1 := fun q happ hspace ↦ by simp [Quota.timesCounted, happ, hspace]
  have hfound : Found (loadRows applyAll afterUpload) (listedObjects uploadedBucket) f := by
    refine ⟨by simp [hrows, fileRows, inventoryFile], ⟨"ns/a", 40⟩, ?_, hlen.symm⟩
    rw [hkey]
    decide
  refine ⟨fun k q hq _ fileId f' hcounts _ ↦ ?_, fun k q hq _ fileId f' hf' _ _ _ ↦ ?_⟩
  · obtain ⟨rfl, happ, hspace⟩ := afterUpload_quotas hq
    have hmem := hcounts.1
    rw [hrows, List.mem_singleton, Prod.mk.injEq] at hmem
    obtain ⟨rfl, rfl⟩ := hmem
    exact ⟨htimes q happ hspace, f', hf, rfl, chargedTo_afterUpload, hunreleased⟩
  · obtain ⟨rfl, happ, hspace⟩ := afterUpload_quotas hq
    obtain rfl := afterUpload_files (AList.mem_of_lookup hf')
    obtain rfl := Option.some.inj (hf'.symm.trans hf)
    refine ⟨f', ⟨by rw [hrows]; exact List.mem_singleton_self _, hfound, ?_⟩, rfl⟩
    rw [htimes q happ hspace]
    exact one_ne_zero

theorem keepsTally_sample : Meets ReconciliationState.exec KeepsTally reconciled
    committedThenReconciled := by
  refine (meets_append _).mpr ⟨?_, fun _ ↦ ?_, trivial⟩
  · exact (meets_lift _ _ (exec_store reconciled) fun _ _ ↦ Iff.rfl).mpr keepsCharge_committed
  · have hrun : run ReconciliationState.exec reconciled (committed.map .store) =
        { reconciled with db := afterUpload } :=
      run_lift _ _ (exec_store reconciled) tenant committed
    rw [hrun]
    exact tallies_afterUpload

/-- File 30 is charged to quota 1, which shows no usage. -/
theorem undercounted {db : Db}
    (hquota : (db.ledger.quotas.lookup 1).map (·.usedBytes) = some 0)
    (hrow : (db.ingestions.lookup 12).map (fun row ↦ (row.fileObjectId, row.quotaReservationId)) =
      some (some 30, some 10))
    (hres : (db.ledger.reservations.lookup 10).map (fun r ↦ (r.status, r.quotaIds)) =
      some (.settled, [1]))
    (hfile : (db.files.lookup 30).any fun f ↦
      f.status ≠ .deleted && f.purgeState ≠ some .purged && 0 < f.contentLength) :
    ¬ ChargedOnce db := by
  intro h
  obtain ⟨q, hq, hused⟩ := Option.map_eq_some_iff.mp hquota
  obtain ⟨f, hf, hlive⟩ := (Option.any_eq_true _ _).mp hfile
  simp only [ne_eq, Bool.and_eq_true, decide_eq_true_eq] at hlive
  have hle := h.le_used hq hf (chargedTo_of hrow hres)
    (by simp [FileObject.Released, hlive.1.1, hlive.1.2])
  omega

end Sample

theorem reconciliation_keeps_usage_sample :
    ChargedOnce (run ReconciliationState.exec Sample.reconciled (Sample.committed.map .store)).db ∧
      ∀ fresh now caller storageConfigured request pages rest,
        [ReconciledCmd.reconcile 50 2 (.internal (some 1)) true Sample.applyAll
            Sample.uploadedBucket] =
          .reconcile fresh now caller storageConfigured request pages :: rest →
        (Governance.reconcile fresh now caller storageConfigured request pages
          (run ReconciliationState.exec Sample.reconciled (Sample.committed.map .store))).2.db =
          (run ReconciliationState.exec Sample.reconciled (Sample.committed.map .store)).db :=
  ReconciliationState.reconciliation_keeps_usage Sample.untouched Sample.keepsTally_sample rfl

/-- A run in which nothing has drifted: the retained file is still charged, and the
reconciliation takes its bytes off the usage. -/
theorem retained_file_uncounted : ¬ ∀ s, Untouched s.db → ∀ cs,
    Meets ReconciliationState.exec ReconciliationState.NoDrift s cs →
      ChargedOnce (run ReconciliationState.exec s cs).db := by
  intro h
  have hmeets : Meets ReconciliationState.exec ReconciliationState.NoDrift Sample.reconciled
      Sample.retainedThenReconciled :=
    (meets_append _).mpr
      ⟨(meets_lift _ _ (ReconciliationState.exec_store Sample.reconciled) fun _ _ ↦ Iff.rfl).mpr
        Sample.keepsCharge_committed, trivial, trivial, trivial⟩
  exact Sample.undercounted (by decide) (by decide) (by decide) (by decide)
    (h Sample.reconciled Sample.untouched _ hmeets)

end S3mp
