import S3mp.Commands
import S3mp.Governance.Reconciliation

/-!
# What a reconciliation run overwrites

The projection gives each selected quota the sum of the matched files which count for
it.  A run for one application or one space which is served overwrites no quota outside
of it.  A space which is not served leaves no filter: the run then clears every active
quota of the tenant.
-/

namespace S3mp.Governance

open Relational Files Storage

/-! ## Projected values -/

/-- How many times the projection adds a matched file to a quota. -/
def Quota.timesCounted (q : Quota) (f : FileObject) : ℤ :=
  match q.applicationId, q.storageSpaceId with
  | some applicationId, _ => if f.applicationId = some applicationId then 1 else 0
  | none, some spaceId =>
    (if f.applicationId = none ∧ f.storageSpaceId = spaceId then 1 else 0) +
      if f.storageSpaceId = spaceId then 1 else 0
  | none, none => 1

section Values

variable {files : List (Uuid × FileObject)} {matched : List String}

theorem total_projectionTotals (p : Option Uuid × Uuid → Prop) [DecidablePred p] :
    ((projectionTotals files matched).total fun key size ↦ if p key then size else 0) =
      (files.map fun row ↦
        if row.2.objectKey ∈ matched ∧ p (row.2.applicationId, row.2.storageSpaceId) then
          (row.2.contentLength : ℤ) else 0).sum := by
  have hfold : ∀ totals : Table (Option Uuid × Uuid) ℤ,
      ((files.foldl (fun totals row ↦
        if row.2.objectKey ∈ matched then
          totals.insert (row.2.applicationId, row.2.storageSpaceId)
            ((totals.lookup (row.2.applicationId, row.2.storageSpaceId)).getD 0 +
              (row.2.contentLength : ℤ))
        else totals) totals).total fun key size ↦ if p key then size else 0) =
      (totals.total fun key size ↦ if p key then size else 0) +
        (files.map fun row ↦
          if row.2.objectKey ∈ matched ∧ p (row.2.applicationId, row.2.storageSpaceId) then
            (row.2.contentLength : ℤ) else 0).sum := by
    induction files with
    | nil => simp
    | cons row files ih =>
        intro totals
        rw [List.foldl_cons, ih, List.map_cons, List.sum_cons, ← add_assoc]
        congr 1
        by_cases hmatched : row.2.objectKey ∈ matched
        · rw [if_pos hmatched, AList.total_accumulate]
          simp [hmatched]
        · simp [hmatched]
  have hempty : ((∅ : Table (Option Uuid × Uuid) ℤ).total
      fun key size ↦ if p key then size else 0) = 0 := rfl
  exact (hfold ∅).trans (by rw [hempty, zero_add])

theorem projectedValue_eq_sum (q : Quota) :
    projectedValue (projectionTotals files matched) q =
      (files.map fun row ↦ if row.2.objectKey ∈ matched then
        q.timesCounted row.2 * row.2.contentLength else 0).sum := by
  unfold projectedValue
  cases happ : q.applicationId with
  | some applicationId =>
      simp only [Quota.timesCounted, happ]
      rw [total_projectionTotals fun key ↦ key.1 = some applicationId]
      congr 1
      refine List.map_congr_left fun row _ ↦ ?_
      by_cases hmatched : row.2.objectKey ∈ matched <;> simp [hmatched]
  | none =>
      cases hspace : q.storageSpaceId with
      | some spaceId =>
          simp only [Quota.timesCounted, happ, hspace]
          rw [← AList.total_at, total_projectionTotals fun key ↦ key = (none, spaceId),
            total_projectionTotals fun key ↦ key.2 = spaceId, ← List.sum_map_add]
          congr 1
          refine List.map_congr_left fun row _ ↦ ?_
          by_cases hmatched : row.2.objectKey ∈ matched
          · simp only [hmatched, true_and, if_true, Prod.mk.injEq, add_mul, ite_mul, one_mul,
              zero_mul]
          · simp [hmatched]
      | none =>
          simp only [Quota.timesCounted, happ, hspace, one_mul]
          have htotal := @total_projectionTotals files matched (fun _ ↦ True) _
          simpa using htotal

theorem projectedValue_nil (q : Quota) : projectedValue (projectionTotals [] matched) q = 0 := by
  rw [projectedValue_eq_sum]
  rfl

end Values

/-! ## Scopes -/

/-- The quotas a request is about. -/
def InScope (request : ReconciliationRequest) (db : Db) (q : Quota) : Prop :=
  (∀ applicationId, request.applicationId = some applicationId →
    q.applicationId = some applicationId ∨ ∃ spaceId space, q.storageSpaceId = some spaceId ∧
      db.spaces.lookup spaceId = some space ∧ space.applicationId = some applicationId) ∧
  ∀ spaceId, request.storageSpaceId = some spaceId → q.storageSpaceId = some spaceId

/-- The request names a space which is not served. -/
def Unresolved (request : ReconciliationRequest) (db : Db) : Prop :=
  request.storageSpaceId.isSome ∧ reconciledSpaces request db = []

/-- Every file lies in a space of the tenant, and no space has the nil identifier. -/
structure FilesPlaced (db : Db) : Prop where
  placed : ∀ id f, db.files.lookup id = some f → f.storageSpaceId ∈ db.spaces
  nonnil : 0 ∉ db.spaces

variable {request : ReconciliationRequest} {db : Db} {q : Quota}

theorem mem_reconciledSpaces {spaceId : Uuid} {space : StorageSpace} :
    (spaceId, space) ∈ reconciledSpaces request db ↔
      db.spaces.lookup spaceId = some space ∧ spaceServed db space ∧
      (∀ applicationId, request.applicationId = some applicationId →
        space.applicationId = some applicationId) ∧
      ∀ id, request.storageSpaceId = some id → spaceId = id := by
  simp only [reconciledSpaces, List.mem_filter, AList.mem_select_iff, Option.all_eq_true,
    decide_eq_true_eq, and_assoc]

theorem orFilter_quotaPredicates {applicationId : Option Uuid} {allowed : List Uuid} :
    orFilter (quotaPredicates applicationId allowed) q ↔
      (applicationId = none ∧ allowed = []) ∨
      (∃ id, applicationId = some id ∧ q.applicationId = some id) ∨
      ∃ id ∈ allowed, q.storageSpaceId = some id := by
  have hspaces : q.inSpaces allowed ↔ ∃ id ∈ allowed, q.storageSpaceId = some id := by
    simp only [Quota.inSpaces, Option.any_eq_true, List.contains_iff_mem]
    exact exists_congr fun id ↦ and_comm
  cases applicationId with
  | none =>
      by_cases hallowed : allowed = []
      · simp [orFilter, quotaPredicates, hallowed]
      · simp [orFilter, quotaPredicates, hallowed, hspaces]
  | some id =>
      by_cases hallowed : allowed = []
      · simp [orFilter, quotaPredicates, hallowed, Quota.ofApplication]
      · simp [orFilter, quotaPredicates, hallowed, hspaces, Quota.ofApplication]

/-- A scope which resolves keeps the projection inside it. -/
theorem inScope_of_projects
    (hexclusive : ¬ (request.applicationId.isSome ∧ request.storageSpaceId.isSome))
    (hresolved : ¬ Unresolved request db)
    (h : projects request ((loadRows request db).spaces.map Prod.fst) q) :
    InScope request db q := by
  simp only [loadRows, loadRowsIn, projects, Bool.and_eq_true, Bool.or_eq_true, Bool.not_eq_true', scopeLimited,
    Bool.or_eq_false_iff, Option.isSome_eq_false_iff, Option.isNone_iff_eq_none] at h
  obtain ⟨-, ⟨happ, hspace⟩ | hfilter⟩ := h
  · simp [InScope, happ, hspace]
  rcases orFilter_quotaPredicates.mp hfilter with ⟨happ, hnil⟩ | ⟨id, happ, hq⟩ | ⟨id, hid, hq⟩
  · have hempty : reconciledSpaces request db = [] := List.map_eq_nil_iff.mp hnil
    refine ⟨by simp [happ], fun spaceId hspace ↦ absurd ⟨?_, hempty⟩ hresolved⟩
    simp [hspace]
  · refine ⟨fun applicationId hid ↦ Or.inl ?_, fun spaceId hspace ↦ ?_⟩
    · rw [← hid, happ, hq]
    · exact absurd ⟨by simp [happ], by simp [hspace]⟩ hexclusive
  · obtain ⟨⟨spaceId, space⟩, hmem, rfl⟩ := List.mem_map.mp hid
    obtain ⟨hlookup, -, happ, hspace⟩ := mem_reconciledSpaces.mp hmem
    refine ⟨fun applicationId hid ↦ Or.inr ⟨spaceId, space, hq, hlookup, happ _ hid⟩, ?_⟩
    intro id hid
    rw [hq, hspace id hid]

theorem loadFiles_of_unresolved (hplaced : FilesPlaced db)
    (hunresolved : Unresolved request db) : (loadRows request db).files = [] := by
  rw [List.eq_nil_iff_forall_not_mem]
  rintro ⟨id, f⟩ hmem
  simp only [loadRows, loadRowsIn, hunresolved.2, loadFiles, AList.mem_select_iff, List.map_nil, spaceFilter,
    if_true, Bool.and_eq_true, List.contains_iff_mem, List.mem_singleton] at hmem
  obtain ⟨hf, -, hnil⟩ := hmem
  exact hplaced.nonnil (hnil ▸ hplaced.placed id f hf)

theorem projects_of_unresolved
    (hexclusive : ¬ (request.applicationId.isSome ∧ request.storageSpaceId.isSome))
    (hunresolved : Unresolved request db) :
    projects request ((loadRows request db).spaces.map Prod.fst) q ↔ q.status = .active := by
  have happ : request.applicationId = none := by
    cases happ : request.applicationId with
    | none => rfl
    | some id => exact absurd ⟨by simp [happ], hunresolved.1⟩ hexclusive
  have hfilter : orFilter (quotaPredicates request.applicationId []) q :=
    orFilter_quotaPredicates.mpr (Or.inl ⟨happ, rfl⟩)
  simp [loadRows, loadRowsIn, projects, hunresolved.2, hfilter]

/-! ## The effect of a run on the quotas -/

section Run

variable {fresh : Uuid} {now : Timestamp} {caller : ReconciliationCaller}
  {storageConfigured : Bool} {pages : List InventoryPage} {s : ReconciliationState}

/-- The run gets to write in apply mode: it is admitted and new, and the listing ends. -/
def Writes (fresh : Uuid) (caller : ReconciliationCaller) (storageConfigured : Bool)
    (request : ReconciliationRequest) (pages : List InventoryPage) (s : ReconciliationState) :
    Prop :=
  (∃ tenantId, admitReconciliation caller storageConfigured request = .ok (tenantId, .apply)) ∧
    existingRun request s.runs = none ∧ fresh ∉ s.runs ∧ (served pages).2

theorem exclusive_of_admitted {tenantId : Uuid} {mode : ReconciliationMode}
    (h : admitReconciliation caller storageConfigured request = .ok (tenantId, mode)) :
    ¬ (request.applicationId.isSome ∧ request.storageSpaceId.isSome) := by
  unfold admitReconciliation at h
  split at h
  · exact absurd h (raise_ne_ok _ _ _ _)
  obtain ⟨-, -, h⟩ := Except.bind_eq_ok.mp h
  split at h
  · exact absurd h (raise_ne_ok _ _ _ _)
  split at h
  · exact absurd h (raise_ne_ok _ _ _ _)
  rename_i hboth
  simpa using hboth

variable (now) in
theorem reconcile_db (h : Writes fresh caller storageConfigured request pages s) :
    ∃ tenantId, admitReconciliation caller storageConfigured request = .ok (tenantId, .apply) ∧
      (reconcile fresh now caller storageConfigured request pages s).2.db =
        applyProjection request (loadRows request s.db) (matchedFiles
          (inventoryResults tenantId (loadRows request s.db) (listedObjects pages))) s.db := by
  obtain ⟨⟨tenantId, hadmitted⟩, hnew, hfresh, hserved⟩ := h
  refine ⟨tenantId, hadmitted, ?_⟩
  simp only [reconcile, hadmitted, hnew, startRun, insertRow, hfresh, if_false, hserved, if_true]
  rfl

theorem reconcile_db_of_not (h : ¬ Writes fresh caller storageConfigured request pages s) :
    (reconcile fresh now caller storageConfigured request pages s).2.db = s.db := by
  unfold reconcile
  split
  · rfl
  rename_i tenantId mode hadmitted
  split
  · rfl
  rename_i hnew
  split
  · rfl
  rename_i started hstarted
  obtain ⟨runs, hinsert, hstart⟩ := Except.bind_eq_ok.mp hstarted
  obtain ⟨hfresh, -⟩ := insertRow_eq_ok.mp hinsert
  obtain rfl := Except.ok.inj hstart
  dsimp only
  split
  · rename_i hserved
    have hmode : mode ≠ .apply := by
      rintro rfl
      exact h ⟨⟨tenantId, hadmitted⟩, hnew, hfresh, hserved⟩
    simp only [finishRun, if_neg hmode]
  · rfl

/-- Every quota outside the scope of the request keeps its usage. -/
def KeepsOthers (request : ReconciliationRequest) (db db' : Db) : Prop :=
  ∀ k q, db.ledger.quotas.lookup k = some q → ¬ InScope request db q →
    ∃ q', db'.ledger.quotas.lookup k = some q' ∧ q'.usedBytes = q.usedBytes

theorem lookup_applyProjection {rows : LoadedRows} {matched : List String} (k : Uuid) :
    (applyProjection request rows matched db).ledger.quotas.lookup k =
      (db.ledger.quotas.lookup k).map fun q ↦
        if projects request (rows.spaces.map Prod.fst) q then
          { q with usedBytes := projectedValue (projectionTotals rows.files matched) q }
        else q :=
  AList.lookup_updateWhere _ _ _ _

/-- A run rewrites a quota outside its scope exactly when it writes for a space which is
not served while some other active quota has usage. -/
theorem reconcile_keeps_others (hplaced : FilesPlaced s.db) :
    KeepsOthers request s.db
        (reconcile fresh now caller storageConfigured request pages s).2.db ↔
      ¬ (Writes fresh caller storageConfigured request pages s ∧ Unresolved request s.db ∧
        ∃ k q, s.db.ledger.quotas.lookup k = some q ∧ q.status = .active ∧
          ¬ InScope request s.db q ∧ q.usedBytes ≠ 0) := by
  by_cases hwrites : Writes fresh caller storageConfigured request pages s
  · obtain ⟨tenantId, hadmitted, hdb⟩ := reconcile_db now hwrites
    have hexclusive := exclusive_of_admitted hadmitted
    rw [hdb]
    by_cases hunresolved : Unresolved request s.db
    · have hnone := loadFiles_of_unresolved hplaced hunresolved
      constructor
      · rintro hkeeps ⟨-, -, k, q, hq, hactive, hout, hused⟩
        obtain ⟨q', hq', hsame⟩ := hkeeps k q hq hout
        rw [lookup_applyProjection, hq, Option.map_some,
          if_pos ((projects_of_unresolved hexclusive hunresolved).mpr hactive),
          Option.some.injEq] at hq'
        rw [← hq', hnone, projectedValue_nil] at hsame
        exact hused hsame.symm
      · intro hclear k q hq hout
        refine ⟨_, by rw [lookup_applyProjection, hq, Option.map_some], ?_⟩
        split
        · rename_i hprojects
          have hactive := (projects_of_unresolved hexclusive hunresolved).mp hprojects
          rw [hnone, projectedValue_nil]
          by_contra hused
          exact hclear ⟨hwrites, hunresolved, k, q, hq, hactive, hout, fun h ↦ hused h.symm⟩
        · rfl
    · refine iff_of_true (fun k q hq hout ↦ ⟨q, ?_, rfl⟩) fun h ↦ hunresolved h.2.1
      rw [lookup_applyProjection, hq, Option.map_some,
        if_neg fun h ↦ hout (inScope_of_projects hexclusive hunresolved h)]
  · rw [reconcile_db_of_not hwrites]
    exact iff_of_true (fun k q hq _ ↦ ⟨q, hq, rfl⟩) fun h ↦ hwrites h.1

end Run

namespace Sample

open S3mp.Sample

/-- The small tenant with 40 bytes in use. -/
def used : Quota :=
  { tenantQuota with usedBytes := 40 }

def state : ReconciliationState where
  db := { tenant with ledger := { tenant.ledger with quotas := tenant.ledger.quotas.insert 1 used } }
  runs := ∅
  differences := []

/-- A run for a space the tenant does not have. -/
def unserved : ReconciliationRequest where
  mode := "apply"
  applicationId := none
  storageSpaceId := some 99
  idempotencyKey := none

def emptyBucket : List InventoryPage :=
  [⟨[], none⟩]

theorem filesPlaced : FilesPlaced state.db :=
  ⟨fun id f hf ↦ absurd hf (by simp [state, tenant]), by decide⟩

theorem not_inScope_unserved : ¬ InScope unserved state.db used :=
  fun h ↦ by simpa [used, tenantQuota] using h.2 99 rfl

end Sample

theorem reconcile_keeps_others_sample :
    KeepsOthers Sample.unserved Sample.state.db
        (reconcile 7 0 (.internal (some 1)) true Sample.unserved Sample.emptyBucket
          Sample.state).2.db ↔
      ¬ (Writes 7 (.internal (some 1)) true Sample.unserved Sample.emptyBucket Sample.state ∧
        Unresolved Sample.unserved Sample.state.db ∧
        ∃ k q, Sample.state.db.ledger.quotas.lookup k = some q ∧ q.status = .active ∧
          ¬ InScope Sample.unserved Sample.state.db q ∧ q.usedBytes ≠ 0) :=
  reconcile_keeps_others Sample.filesPlaced

/-- The run for a space which is not there clears the tenant total. -/
theorem unserved_space_clears : ¬ ∀ (fresh : Uuid) (now : Timestamp)
    (caller : ReconciliationCaller) (storageConfigured : Bool) (request : ReconciliationRequest)
    (pages : List InventoryPage) (s : ReconciliationState), FilesPlaced s.db →
      KeepsOthers request s.db
        (reconcile fresh now caller storageConfigured request pages s).2.db := by
  intro h
  obtain ⟨q', hq', hsame⟩ := h 7 0 (.internal (some 1)) true Sample.unserved Sample.emptyBucket
    Sample.state Sample.filesPlaced 1 Sample.used (by decide) Sample.not_inScope_unserved
  have hcleared : (reconcile 7 0 (.internal (some 1)) true Sample.unserved Sample.emptyBucket
      Sample.state).2.db.ledger.quotas.lookup 1 = some { Sample.used with usedBytes := 0 } := by
    decide
  rw [hcleared, Option.some.injEq] at hq'
  rw [← hq'] at hsame
  exact absurd hsame (by decide)

end S3mp.Governance
