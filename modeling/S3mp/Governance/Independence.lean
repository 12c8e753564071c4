import S3mp.Governance.Projection

/-!
# What a run shows of other tenants

The listing of a reconciliation run covers the whole shared bucket.  The outcome of the
run determines every object listed: two runs over the same rows have the same outcome
exactly when the objects of the other tenants are the same as well.  The usage written
depends on the objects under the keys of the tenant's files only.
-/

namespace S3mp.Governance

open Relational Files Storage

/-! ## Results and objects -/

section Results

variable {files : List ReconciliationFile} {objects objects' : List ReconciliationObject}
  {prefixes : List String} {key : String} {row : ReconciliationFile} {r : ReconciliationResult}

/-- The results which become rows of the differences. -/
def reported (files : List ReconciliationFile) (objects : List ReconciliationObject)
    (prefixes : List String) : List ReconciliationResult :=
  (compareInventory files objects prefixes).filter (·.kind ≠ .matched)

theorem compareRow_mem (hrow : fileRows files key = [row]) (hactive : row.active) :
    compareRow row key (providerRow objects key) ∈ compareInventory files objects prefixes := by
  have hmem : row ∈ fileRows files key := by rw [hrow]; exact List.mem_singleton_self row
  obtain ⟨hfile, hkey⟩ := List.mem_filter.mp hmem
  refine List.mem_append_left _ (List.mem_filterMap.mpr ⟨key, ?_, ?_⟩)
  · exact mem_dictKeys.mpr (List.mem_map.mpr ⟨row, hfile, by simpa using hkey⟩)
  · simp [compareKey, hrow, hactive]

@[simp] theorem compareRow_physicalKey (o : Option ReconciliationObject) :
    (compareRow row key o).physicalKey = key := by
  unfold compareRow
  split
  · rfl
  · split <;> rfl

theorem compareRow_recorded (o : Option ReconciliationObject) :
    (compareRow row key o).recordedBytes = some row.contentLength := by
  unfold compareRow
  split
  · rfl
  · split <;> rfl

/-- A result with recorded bytes is about the one row of its key. -/
theorem eq_compareRow (hr : r ∈ compareInventory files objects prefixes)
    (hrow : fileRows files r.physicalKey = [row]) (hrecorded : r.recordedBytes.isSome) :
    r = compareRow row r.physicalKey (providerRow objects r.physicalKey) := by
  rw [compareInventory, List.mem_append, List.mem_filterMap, List.mem_filterMap] at hr
  rcases hr with ⟨key, -, hcompare⟩ | ⟨key, -, hleft⟩
  · unfold compareKey at hcompare
    split at hcompare
    · rename_i row' hrow'
      split at hcompare
      · obtain rfl := Option.some.inj hcompare
        rw [compareRow_physicalKey] at hrow ⊢
        obtain rfl := List.singleton_inj.mp (hrow'.symm.trans hrow)
        rfl
      · cases hcompare
    · obtain rfl := Option.some.inj hcompare
      simp at hrecorded
  · obtain ⟨o, -, rfl⟩ := Option.map_eq_some_iff.mp hleft
    simp [unmapped] at hrecorded

/-- What is reported and what is on record tell every object of the listing. -/
theorem mem_objects_of_reported (hdistinct : DistinctKeys objects)
    (hdistinct' : DistinctKeys objects') (hactive : ∀ row ∈ files, row.active)
    (h : ∀ r, r ∈ reported files objects prefixes ↔ r ∈ reported files objects' prefixes)
    {o : ReconciliationObject} (ho : o ∈ objects) : o ∈ objects' := by
  have hseen : o ∈ (compareInventory files objects prefixes).filterMap
      ReconciliationResult.observed := (mem_observed hdistinct hactive).mpr ho
  obtain ⟨r, hr, hobserved⟩ := List.mem_filterMap.mp hseen
  by_cases hkind : r.kind = .matched
  · have hmatched : r.physicalKey ∈ matchedFiles (compareInventory files objects prefixes) := by
      rw [matchedFiles, List.mem_dedup]
      exact List.mem_map.mpr ⟨r, List.mem_filter.mpr ⟨hr, by simpa using hkind⟩, rfl⟩
    obtain ⟨row, o₁, hrow, hact, hprovider, hlen⟩ := mem_matchedFiles.mp hmatched
    obtain ⟨n, -, rfl⟩ := Option.map_eq_some_iff.mp hobserved
    obtain rfl : o₁ = ⟨r.physicalKey, n⟩ := by
      obtain ⟨hmem, hkey⟩ := providerRow_mem hprovider
      exact List.inj_on_of_nodup_map hdistinct hmem ho hkey
    obtain rfl : n = row.contentLength := hlen
    have hthis : (compareRow row r.physicalKey (providerRow objects r.physicalKey)).kind =
        .matched := by simp [hprovider, compareRow]
    have hmem' : compareRow row r.physicalKey (providerRow objects' r.physicalKey) ∈
        compareInventory files objects' prefixes := compareRow_mem hrow hact
    by_cases hkind' : (compareRow row r.physicalKey (providerRow objects' r.physicalKey)).kind =
        .matched
    · cases hprovider' : providerRow objects' r.physicalKey with
      | none => simp [hprovider', compareRow] at hkind'
      | some o' =>
          obtain ⟨ho', hkey'⟩ := providerRow_mem hprovider'
          have hlen' : o'.contentLength = row.contentLength := by
            by_contra hne
            simp [hprovider', compareRow, hne] at hkind'
          obtain ⟨k', n'⟩ := o'
          obtain rfl : k' = r.physicalKey := hkey'
          obtain rfl : n' = row.contentLength := hlen'
          exact ho'
    · -- what the other run reports of the key, this one would report as well
      have hback := (h _).mpr (List.mem_filter.mpr ⟨hmem', by simpa using hkind'⟩)
      have hrow' : fileRows files
          (compareRow row r.physicalKey (providerRow objects' r.physicalKey)).physicalKey =
            [row] := by rw [compareRow_physicalKey]; exact hrow
      have hsame := eq_compareRow (List.mem_filter.mp hback).1 hrow'
        (by rw [compareRow_recorded]; rfl)
      rw [compareRow_physicalKey] at hsame
      exact absurd ((congrArg ReconciliationResult.kind hsame).trans hthis) hkind'
  · have hreported := (h r).mp (List.mem_filter.mpr ⟨hr, by simpa using hkind⟩)
    exact (mem_observed hdistinct' hactive).mp
      (List.mem_filterMap.mpr ⟨r, (List.mem_filter.mp hreported).1, hobserved⟩)

/-- Whether a row is matched depends on the object under its key. -/
theorem matchedFiles_congr
    (h : ∀ row ∈ files, providerRow objects' row.physicalKey = providerRow objects row.physicalKey) :
    key ∈ matchedFiles (compareInventory files objects' prefixes) ↔
      key ∈ matchedFiles (compareInventory files objects prefixes) := by
  rw [mem_matchedFiles, mem_matchedFiles]
  refine exists_congr fun row ↦ exists_congr fun o ↦ and_congr_right fun hrow ↦ ?_
  have hmem : row ∈ fileRows files key := by rw [hrow]; exact List.mem_singleton_self row
  obtain ⟨hfile, hkey⟩ := List.mem_filter.mp hmem
  obtain rfl : row.physicalKey = key := by simpa using hkey
  rw [h row hfile]

end Results

theorem lookup_countKinds (results : List ReconciliationResult) (kind : ReconciliationDifference) :
    (countKinds results).lookup kind =
      if results.countP (·.kind = kind) = 0 then none
      else some (results.countP (·.kind = kind)) := by
  have hfold : ∀ counts : Table ReconciliationDifference ℕ,
      (results.foldl (fun counts item ↦
        counts.insert item.kind ((counts.lookup item.kind).getD 0 + 1)) counts).lookup kind =
      if results.countP (·.kind = kind) = 0 then counts.lookup kind
      else some ((counts.lookup kind).getD 0 + results.countP (·.kind = kind)) := by
    induction results with
    | nil => simp
    | cons item results ih =>
        intro counts
        rw [List.foldl_cons, ih, AList.lookup_insert']
        by_cases hkind : kind = item.kind
        · subst hkind
          simp only [List.countP_cons, decide_true, if_true, Nat.add_eq_zero_iff, one_ne_zero,
            and_false, if_false, Option.getD_some]
          split
          · rename_i hzero
            rw [hzero, Nat.zero_add]
          · simp only [Option.some.injEq]
            omega
        · rw [if_neg hkind]
          simp [Ne.symm hkind]
  rw [countKinds, hfold]
  simp

/-! ## Outcomes -/

def SameReport (report report' : RunReport) : Prop :=
  (∀ kind, report'.counts.lookup kind = report.counts.lookup kind) ∧
    report'.matchedFiles = report.matchedFiles ∧
    report'.providerObjects = report.providerObjects ∧
    report'.allocationDrift = report.allocationDrift

/-- Two summaries of the same kind, with the same report. -/
def SameSummary : RunSummary → RunSummary → Prop
  | .report report, .report report' => SameReport report report'
  | .empty, .empty | .failure, .failure => True
  | _, _ => False

def SameResponse : Except ReconciliationError RunView → Except ReconciliationError RunView → Prop
  | .error e, .error e' => e' = e
  | .ok view, .ok view' =>
    view'.id = view.id ∧ view'.mode = view.mode ∧ view'.status = view.status ∧
      SameSummary view.summary view'.summary
  | _, _ => False

/-- The same answer, the same differences in some order and the same rows. -/
structure SameOutcome
    (out out' : Except ReconciliationError RunView × ReconciliationState) : Prop where
  response : SameResponse out.1 out'.1
  differences : out.2.differences.Perm out'.2.differences
  db : out'.2.db = out.2.db

theorem SameReport.refl (report : RunReport) : SameReport report report :=
  ⟨fun _ ↦ rfl, rfl, rfl, rfl⟩

theorem SameSummary.refl (summary : RunSummary) : SameSummary summary summary := by
  cases summary with
  | report report => exact SameReport.refl report
  | empty | failure => trivial

theorem SameResponse.refl (response : Except ReconciliationError RunView) :
    SameResponse response response := by
  cases response with
  | error e => rfl
  | ok view => exact ⟨rfl, rfl, rfl, .refl _⟩

theorem SameOutcome.refl (out : Except ReconciliationError RunView × ReconciliationState) :
    SameOutcome out out :=
  ⟨.refl _, .refl _, rfl⟩

/-! ## Two runs -/

section TwoRuns

variable {fresh : Uuid} {now : Timestamp} {caller : ReconciliationCaller}
  {storageConfigured : Bool} {request : ReconciliationRequest}
  {pages pages' : List InventoryPage} {s : ReconciliationState}

/-- The run gets to the listing. -/
def Lists (fresh : Uuid) (caller : ReconciliationCaller) (storageConfigured : Bool)
    (request : ReconciliationRequest) (s : ReconciliationState) : Prop :=
  (∃ tenantId mode, admitReconciliation caller storageConfigured request = .ok (tenantId, mode)) ∧
    existingRun request s.runs = none ∧ fresh ∉ s.runs

/-- A key in a namespace of the tenant the caller speaks for. -/
def ownKey (caller : ReconciliationCaller) (db : Db) (key : String) : Bool :=
  caller.tenantId.any fun tenantId ↦
    db.spaces.anyRow fun id space ↦ startsWithAny [namespaceOf tenantId id space ++ "/"] key

theorem reconcile_of_not_lists (h : ¬ Lists fresh caller storageConfigured request s) :
    reconcile fresh now caller storageConfigured request pages' s =
      reconcile fresh now caller storageConfigured request pages s := by
  unfold reconcile
  split
  · rfl
  rename_i tenantId mode hadmitted
  split
  · rfl
  rename_i hnew
  split
  · rfl
  rename_i started hstarted
  obtain ⟨runs, hinsert, -⟩ := Except.bind_eq_ok.mp hstarted
  exact absurd ⟨⟨tenantId, mode, hadmitted⟩, hnew, (insertRow_eq_ok.mp hinsert).1⟩ h

variable (now) in
/-- What a run over a complete listing leaves. -/
theorem reconcile_of_lists {tenantId : Uuid} {mode : ReconciliationMode}
    (hadmitted : admitReconciliation caller storageConfigured request = .ok (tenantId, mode))
    (hnew : existingRun request s.runs = none) (hfresh : fresh ∉ s.runs)
    (hserved : (served pages).2) :
    ∃ out, reconcile fresh now caller storageConfigured request pages s = out ∧
      out.1 = .ok ⟨fresh, mode, .completed,
        .report (reportOf tenantId (loadRows request s.db) (listedObjects pages) s.db)⟩ ∧
      out.2.db = (if mode = .apply then applyProjection request (loadRows request s.db)
        (matchedFiles (inventoryResults tenantId (loadRows request s.db) (listedObjects pages)))
        s.db else s.db) ∧
      out.2.differences = s.differences ++ runDifferences fresh mode request
        (inventoryResults tenantId (loadRows request s.db) (listedObjects pages))
        (allocationDrift s.db.ledger.quotas) := by
  refine ⟨_, rfl, ?_⟩
  simp only [reconcile, hadmitted, hnew, startRun, insertRow, hfresh, if_false, hserved, if_true]
  exact ⟨rfl, rfl, rfl⟩

theorem differenceRow_injective (runId : Uuid) (mode : ReconciliationMode) :
    Function.Injective (differenceRow runId mode request) := by
  rintro ⟨kind, key, recorded, observed⟩ ⟨kind', key', recorded', observed'⟩ h
  simp only [differenceRow, DifferenceRow.mk.injEq, Option.some.injEq, true_and, and_true] at h
  obtain ⟨rfl, rfl, hrecorded, hobserved⟩ := h
  rw [Option.map_injective (fun _ _ ↦ Int.ofNat.inj) hrecorded,
    Option.map_injective (fun _ _ ↦ Int.ofNat.inj) hobserved]

theorem active_inventoryFile (rows : LoadedRows) :
    ∀ row ∈ rows.files.map fun row ↦ inventoryFile row.2, row.active := by
  intro row hrow
  obtain ⟨_, -, rfl⟩ := List.mem_map.mp hrow
  rfl

/-- The same objects in another order. -/
theorem reportOf_perm {tenantId : Uuid} {rows : LoadedRows} {db : Db}
    (hdistinct : DistinctKeys (listedObjects pages))
    (h : (listedObjects pages).Perm (listedObjects pages')) :
    SameReport (reportOf tenantId rows (listedObjects pages) db)
      (reportOf tenantId rows (listedObjects pages') db) := by
  have hresults : (inventoryResults tenantId rows (listedObjects pages)).Perm
      (inventoryResults tenantId rows (listedObjects pages')) := hdistinct.compareInventory_perm h
  have hcounts : ∀ kind, (countKinds (inventoryResults tenantId rows (listedObjects pages'))).lookup
      kind = (countKinds (inventoryResults tenantId rows (listedObjects pages))).lookup kind := by
    intro kind
    rw [lookup_countKinds, lookup_countKinds, hresults.countP_eq]
  refine ⟨fun kind ↦ ?_, ?_, h.length_eq.symm, rfl⟩
  · simp only [reportOf, runReport]
    split
    · rw [AList.lookup_insert', AList.lookup_insert', hcounts]
    · exact hcounts kind
  · exact (((hresults.filter _).map _).dedup).length_eq.symm

/-- Two runs over the same rows have the same outcome exactly when the objects outside of
the tenant's namespaces are the same, or the run does not get to the listing. -/
theorem reconcile_independent (hserved : (served pages).2) (hserved' : (served pages').2)
    (hdistinct : DistinctKeys (listedObjects pages))
    (hdistinct' : DistinctKeys (listedObjects pages'))
    (hown : ∀ o, ownKey caller s.db o.physicalKey →
      (o ∈ listedObjects pages ↔ o ∈ listedObjects pages')) :
    SameOutcome (reconcile fresh now caller storageConfigured request pages s)
        (reconcile fresh now caller storageConfigured request pages' s) ↔
      (Lists fresh caller storageConfigured request s → ∀ o, ¬ ownKey caller s.db o.physicalKey →
        (o ∈ listedObjects pages ↔ o ∈ listedObjects pages')) := by
  by_cases hlists : Lists fresh caller storageConfigured request s
  · obtain ⟨⟨tenantId, mode, hadmitted⟩, hnew, hfresh⟩ := id hlists
    obtain ⟨out, hout, hresponse, hdb, hdifferences⟩ :=
      reconcile_of_lists now hadmitted hnew hfresh hserved
    obtain ⟨out', hout', hresponse', hdb', hdifferences'⟩ :=
      reconcile_of_lists now hadmitted hnew hfresh hserved'
    rw [hout, hout']
    have hactive := active_inventoryFile (loadRows request s.db)
    constructor
    · rintro hsame - o -
      have hperm := hsame.differences
      rw [hdifferences, hdifferences', List.perm_append_left_iff, runDifferences, runDifferences,
        List.perm_append_right_iff] at hperm
      have hreported : ∀ r, r ∈ reported _ (listedObjects pages) _ ↔
          r ∈ reported _ (listedObjects pages') _ := fun r ↦
        ((List.map_perm_map_iff (differenceRow_injective fresh mode)).mp hperm).mem_iff
      exact ⟨mem_objects_of_reported hdistinct hdistinct' hactive hreported,
        mem_objects_of_reported hdistinct' hdistinct hactive fun r ↦ (hreported r).symm⟩
    · intro hforeign
      have hobjects : (listedObjects pages).Perm (listedObjects pages') := by
        refine (List.perm_ext_iff_of_nodup hdistinct.of_map hdistinct'.of_map).mpr fun o ↦ ?_
        by_cases ho : ownKey caller s.db o.physicalKey
        · exact hown o ho
        · exact hforeign hlists o ho
      have hmatched : ∀ key, key ∈ matchedFiles (inventoryResults tenantId (loadRows request s.db)
          (listedObjects pages')) ↔ key ∈ matchedFiles (inventoryResults tenantId
            (loadRows request s.db) (listedObjects pages)) := fun key ↦
        matchedFiles_congr fun row _ ↦ hdistinct.providerRow_perm hobjects row.physicalKey
      refine ⟨?_, ?_, ?_⟩
      · rw [hresponse, hresponse']
        exact ⟨rfl, rfl, rfl, reportOf_perm hdistinct hobjects⟩
      · rw [hdifferences, hdifferences']
        refine List.Perm.append_left _ (List.Perm.append_right _ (List.Perm.map _ ?_))
        exact (hdistinct.compareInventory_perm hobjects).filter _
      · rw [hdb, hdb']
        simp only [applyProjection, projectionTotals, hmatched]
  · have hsame : reconcile fresh now caller storageConfigured request pages' s =
        reconcile fresh now caller storageConfigured request pages s :=
      reconcile_of_not_lists hlists
    rw [hsame]
    exact iff_of_true (.refl _) fun h ↦ absurd h hlists

end TwoRuns

namespace Sample

def tenantAudit : ReconciliationRequest where
  mode := "audit"
  applicationId := none
  storageSpaceId := none
  idempotencyKey := none

/-- The bucket once another tenant has stored an object. -/
def foreignBucket : List InventoryPage :=
  [⟨[⟨"other/key", 8⟩], none⟩]

theorem distinct_emptyBucket : DistinctKeys (listedObjects emptyBucket) := by decide

theorem distinct_foreignBucket : DistinctKeys (listedObjects foreignBucket) := by decide

theorem own_agree (o : ReconciliationObject) (ho : ownKey (.internal (some 1)) state.db o.physicalKey) :
    o ∈ listedObjects emptyBucket ↔ o ∈ listedObjects foreignBucket := by
  constructor
  · intro h
    simp [listedObjects, served, emptyBucket] at h
  · intro h
    obtain rfl : o = ⟨"other/key", 8⟩ := by
      simpa [listedObjects, served, foreignBucket] using h
    exact absurd ho (by decide)

end Sample

theorem reconcile_independent_sample :
    SameOutcome
        (reconcile 7 0 (.internal (some 1)) true Sample.tenantAudit Sample.emptyBucket Sample.state)
        (reconcile 7 0 (.internal (some 1)) true Sample.tenantAudit Sample.foreignBucket
          Sample.state) ↔
      (Lists 7 (.internal (some 1)) true Sample.tenantAudit Sample.state →
        ∀ o, ¬ ownKey (.internal (some 1)) Sample.state.db o.physicalKey →
          (o ∈ listedObjects Sample.emptyBucket ↔ o ∈ listedObjects Sample.foreignBucket)) :=
  reconcile_independent rfl rfl Sample.distinct_emptyBucket Sample.distinct_foreignBucket
    Sample.own_agree

/-- The object of the other tenant is reported as an orphan. -/
theorem foreign_object_reported : ¬ ∀ (fresh : Uuid) (now : Timestamp)
    (caller : ReconciliationCaller) (storageConfigured : Bool) (request : ReconciliationRequest)
    (pages pages' : List InventoryPage) (s : ReconciliationState),
    (served pages).2 → (served pages').2 → DistinctKeys (listedObjects pages) →
      DistinctKeys (listedObjects pages') →
      (∀ o, ownKey caller s.db o.physicalKey →
        (o ∈ listedObjects pages ↔ o ∈ listedObjects pages')) →
      SameOutcome (reconcile fresh now caller storageConfigured request pages s)
        (reconcile fresh now caller storageConfigured request pages' s) := by
  intro h
  have hsame := h 7 0 (.internal (some 1)) true Sample.tenantAudit Sample.emptyBucket
    Sample.foreignBucket Sample.state rfl rfl Sample.distinct_emptyBucket
    Sample.distinct_foreignBucket Sample.own_agree
  exact absurd hsame.differences.length_eq (by decide)

end S3mp.Governance
