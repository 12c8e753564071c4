import S3mp.Files.Reservation

/-!
# The quota administration store

`SqlAlchemyQuotaStore`: limits are set through the platform calls and through the
tenant call `update_quota`.  Each path computes its own floor and ceiling for the
new limit.
-/

namespace S3mp.Governance

open Relational Files

/-- `_lock_application_quotas`, as the limits the callers sum. -/
def lockApplicationQuotas (quotas : Table Uuid Quota) (exclude : Option Uuid) : List Quota :=
  ((activeApplicationQuotas quotas).map Prod.snd).filter fun q ↦
    exclude.isNone || q.applicationId ≠ exclude

def allocatedLimit (allocations : List Quota) : ℤ :=
  (allocations.map fun q ↦ q.limitBytes).sum

def validateLimitFloor (q : Quota) (limitBytes : ℤ) : Tx Unit :=
  if limitBytes < max q.usedBytes q.reservedBytes then
    raise "quota_limit_too_low" "Quota limit is below usage or reservations" 422
  else .ok ()

def newQuota (applicationId : Option Uuid) (limitBytes : ℤ) (mode : QuotaAllocationMode) :
    Quota where
  storageSpaceId := none
  applicationId := applicationId
  limitBytes := limitBytes
  usedBytes := 0
  reservedBytes := 0
  allocationMode := mode
  status := .active

def setQuotas (quotas : Table Uuid Quota) (db : Db) : Db :=
  { db with ledger := { db.ledger with quotas } }

/-- `bucket_capacity_bytes is not None and limit_bytes > bucket_capacity_bytes`. -/
def exceedsCapacity (capacity : Option ℤ) (limitBytes : ℤ) : Bool :=
  capacity.any (· < limitBytes)

def activeApplication (applicationId : Uuid) (db : Db) : Bool :=
  (db.applications.lookup applicationId).any fun a ↦ a.status = .active

/-- The checks of `create_platform_quota`: the row to be overwritten, or `none` when a new
one is to be inserted. -/
def createPlatformQuotaTarget (applicationId : Option Uuid) (limitBytes : ℤ)
    (bucketCapacity : Option ℤ) (db : Db) : Tx (Option Uuid) :=
  if limitBytes < 0 then raise "validation_failed" "Quota limit must not be negative" 422
  else if !db.tenantActive then raise "resource_not_found" "Active tenant not found" 404
  else
    match applicationId with
    | none =>
      if exceedsCapacity bucketCapacity limitBytes then
        raise "quota_allocation_exceeded" "Tenant quota exceeds Bucket capacity" 422
      else overwritten (activeTenantQuota db.ledger.quotas)
    | some applicationId =>
      if !activeApplication applicationId db then
        raise "resource_not_found" "Active application not found" 404
      else
        match activeTenantQuota db.ledger.quotas with
        | none => raise "quota_not_configured" "Tenant quota must be configured first" 409
        | some (_, tenantQuota) =>
          if allocatedLimit (lockApplicationQuotas db.ledger.quotas (some applicationId)) +
              limitBytes > tenantQuota.limitBytes then
            raise "quota_allocation_exceeded" "Application allocations exceed tenant quota" 422
          else overwritten (db.ledger.quotas.selectFirst fun _ q ↦
            q.applicationId = some applicationId)
where
  overwritten (row : Option (Uuid × Quota)) : Tx (Option Uuid) :=
    match row with
    | none => .ok none
    | some (id, q) => do
      validateLimitFloor q limitBytes
      return some id

def createPlatformQuota (fresh : Uuid) (applicationId : Option Uuid) (limitBytes : ℤ)
    (bucketCapacity : Option ℤ) (db : Db) : Tx Db := do
  let mode := if applicationId.isSome then .applicationReserved else .tenantTotal
  match ← createPlatformQuotaTarget applicationId limitBytes bucketCapacity db with
  | none =>
    let quotas ← insertRow "quota_pkey" fresh (newQuota applicationId limitBytes mode)
      db.ledger.quotas
    return setQuotas quotas db
  | some id =>
    return setQuotas (db.ledger.quotas.update id fun q ↦ { q with
      limitBytes
      allocationMode := if applicationId.isSome then mode else q.allocationMode
      status := .active }) db

/-- Whether a row was found, as in the optional view the code returns. -/
def revokePlatformQuota (id : Uuid) (db : Db) : Tx (Bool × Db) :=
  match db.ledger.quotas.lookup id with
  | none => .ok (false, db)
  | some q =>
    if q.status ≠ .active then .ok (false, db)
    else if q.applicationId.isNone then
      raise "quota_not_revokeable" "Tenant total quota cannot be revoked" 409
    else if q.usedBytes ≠ 0 ∨ q.reservedBytes ≠ 0 then
      raise "quota_in_use" "Application quota has usage or reservations" 409
    else .ok (true, setQuotas (db.ledger.quotas.update id fun q ↦
      { q with status := .revoked, allocationMode := .applicationReserved }) db)

/-- The floor of a tenant total: usage, reservations and allocations one by one. -/
def belowTenantFloor (q : Quota) (allocations : List Quota) (limitBytes : ℤ) : Bool :=
  limitBytes < max (max q.usedBytes q.reservedBytes) (allocatedLimit allocations)

def setLimit (id : Uuid) (limitBytes : ℤ) (db : Db) : Db :=
  setQuotas (db.ledger.quotas.update id fun q ↦ { q with limitBytes }) db

/-- The checks of `update_platform_quota`: whether the row is to be written. -/
def updatePlatformQuotaAllowed (id : Uuid) (limitBytes : ℤ) (bucketCapacity : Option ℤ) (db : Db) :
    Tx Bool :=
  if limitBytes < 0 then raise "validation_failed" "Quota limit must not be negative" 422
  else
    match db.ledger.quotas.lookup id with
    | none => .ok false
    | some q =>
      if q.status ≠ .active then .ok false
      else if q.isTenantTotal then
        if exceedsCapacity bucketCapacity limitBytes then
          raise "quota_allocation_exceeded" "Tenant quota exceeds Bucket capacity" 422
        else if belowTenantFloor q (lockApplicationQuotas db.ledger.quotas none) limitBytes then
          raise "quota_limit_too_low" "Tenant quota is below active usage or allocations" 422
        else .ok true
      else
        let allocations := lockApplicationQuotas db.ledger.quotas q.applicationId
        match activeTenantQuota db.ledger.quotas with
        | none =>
          raise "quota_allocation_exceeded" "Application allocations exceed tenant quota" 422
        | some (_, tenantQuota) =>
          if allocatedLimit allocations + limitBytes > tenantQuota.limitBytes then
            raise "quota_allocation_exceeded" "Application allocations exceed tenant quota" 422
          else do
            validateLimitFloor q limitBytes
            return true

/-- The checks of the tenant-scoped `update_quota`.  Only the tenant total has a floor. -/
def updateQuotaAllowed (id : Uuid) (limitBytes : ℤ) (db : Db) : Tx Bool :=
  match db.ledger.quotas.lookup id with
  | none => .ok false
  | some q =>
    if q.status ≠ .active then .ok false
    else if !db.tenantActive then .ok false
    else
      match q.applicationId, q.storageSpaceId with
      | some applicationId, _ =>
        if !activeApplication applicationId db then .ok false
        else
          let allocations := lockApplicationQuotas db.ledger.quotas (some applicationId)
          if (activeTenantQuota db.ledger.quotas).any fun t ↦
              t.2.limitBytes < allocatedLimit allocations + limitBytes then
            raise "quota_allocation_exceeded" "Application quota cannot exceed tenant quota" 422
          else .ok true
      | none, some spaceId =>
        if !(db.spaces.lookup spaceId).any (·.active) then .ok false
        else
          -- the tenant total is looked up here without its status
          if (db.ledger.quotas.selectFirst fun _ q ↦ q.isTenantTotal).any fun t ↦
              t.2.limitBytes < limitBytes then
            raise "quota_allocation_exceeded" "Storage space quota cannot exceed tenant quota" 422
          else .ok true
      | none, none =>
        if belowTenantFloor q (lockApplicationQuotas db.ledger.quotas none) limitBytes then
          raise "quota_limit_too_low" "Tenant quota is below active usage or allocations" 422
        else .ok true

def updatePlatformQuota (id : Uuid) (limitBytes : ℤ) (bucketCapacity : Option ℤ) (db : Db) :
    Tx (Bool × Db) := do
  if ← updatePlatformQuotaAllowed id limitBytes bucketCapacity db then
    return (true, setLimit id limitBytes db)
  else return (false, db)

def updateQuota (id : Uuid) (limitBytes : ℤ) (db : Db) : Tx (Bool × Db) := do
  if ← updateQuotaAllowed id limitBytes db then return (true, setLimit id limitBytes db)
  else return (false, db)

/-! ## What the transactions do -/

section Specification

variable {id fresh : Uuid} {limitBytes : ℤ} {capacity : Option ℤ} {db db' : Db}
  {applicationId : Option Uuid} {written : Bool}

/-- A limit set by an accepted command on the row `id`. -/
def relimit (applicationId : Option Uuid) (limitBytes : ℤ) (q : Quota) : Quota :=
  { q with
    limitBytes
    allocationMode := if applicationId.isSome then .applicationReserved else q.allocationMode
    status := .active }

theorem createPlatformQuota_eq_ok
    (h : createPlatformQuota fresh applicationId limitBytes capacity db = .ok db') :
    (createPlatformQuotaTarget applicationId limitBytes capacity db = .ok none ∧
        fresh ∉ db.ledger.quotas ∧
        ∃ mode, db' = setQuotas (db.ledger.quotas.insert fresh
          (newQuota applicationId limitBytes mode)) db) ∨
      ∃ id, createPlatformQuotaTarget applicationId limitBytes capacity db = .ok (some id) ∧
        db' = setQuotas (db.ledger.quotas.update id (relimit applicationId limitBytes)) db := by
  unfold createPlatformQuota at h
  dsimp only at h
  obtain ⟨target, htarget, h⟩ := Except.bind_eq_ok.mp h
  cases target with
  | none =>
      obtain ⟨quotas, hquotas, h⟩ := Except.bind_eq_ok.mp h
      obtain ⟨hfresh, rfl⟩ := insertRow_eq_ok.mp hquotas
      rw [Except.pure_eq_ok] at h
      exact Or.inl ⟨htarget, hfresh, _, h.symm⟩
  | some id =>
      rw [Except.pure_eq_ok] at h
      refine Or.inr ⟨id, htarget, h.symm.trans ?_⟩
      cases applicationId <;> rfl

theorem createPlatformQuotaTarget_nonneg {target : Option Uuid}
    (h : createPlatformQuotaTarget applicationId limitBytes capacity db = .ok target) :
    0 ≤ limitBytes := by
  unfold createPlatformQuotaTarget at h
  split at h
  · simp at h
  · rename_i hneg
    exact not_lt.mp hneg

theorem updatePlatformQuota_eq_ok
    (h : updatePlatformQuota id limitBytes capacity db = .ok (written, db')) :
    db' = db ∨ (updatePlatformQuotaAllowed id limitBytes capacity db = .ok true ∧
      db' = setLimit id limitBytes db) := by
  unfold updatePlatformQuota at h
  obtain ⟨allowed, hallowed, h⟩ := Except.bind_eq_ok.mp h
  cases allowed with
  | false =>
      rw [if_neg Bool.false_ne_true, Except.pure_eq_ok] at h
      exact Or.inl (Prod.mk.inj h).2.symm
  | true =>
      rw [if_pos rfl, Except.pure_eq_ok] at h
      exact Or.inr ⟨hallowed, (Prod.mk.inj h).2.symm⟩

theorem updateQuota_eq_ok (h : updateQuota id limitBytes db = .ok (written, db')) :
    db' = db ∨ (updateQuotaAllowed id limitBytes db = .ok true ∧
      db' = setLimit id limitBytes db) := by
  unfold updateQuota at h
  obtain ⟨allowed, hallowed, h⟩ := Except.bind_eq_ok.mp h
  cases allowed with
  | false =>
      rw [if_neg Bool.false_ne_true, Except.pure_eq_ok] at h
      exact Or.inl (Prod.mk.inj h).2.symm
  | true =>
      rw [if_pos rfl, Except.pure_eq_ok] at h
      exact Or.inr ⟨hallowed, (Prod.mk.inj h).2.symm⟩

theorem revokePlatformQuota_eq_ok (h : revokePlatformQuota id db = .ok (written, db')) :
    db' = db ∨ db' = setQuotas (db.ledger.quotas.update id fun q ↦
      { q with status := .revoked, allocationMode := .applicationReserved }) db := by
  unfold revokePlatformQuota at h
  split at h
  · cases h
    exact Or.inl rfl
  split at h
  · cases h
    exact Or.inl rfl
  split at h
  · simp at h
  split at h
  · simp at h
  · cases h
    exact Or.inr rfl

theorem createPlatformQuota_of_target
    (h : createPlatformQuotaTarget applicationId limitBytes capacity db = .ok (some id)) :
    createPlatformQuota fresh applicationId limitBytes capacity db =
      .ok (setQuotas (db.ledger.quotas.update id (relimit applicationId limitBytes)) db) := by
  unfold createPlatformQuota
  rw [h]
  cases applicationId <;> rfl

theorem updatePlatformQuota_of_allowed
    (h : updatePlatformQuotaAllowed id limitBytes capacity db = .ok true) :
    updatePlatformQuota id limitBytes capacity db = .ok (true, setLimit id limitBytes db) := by
  unfold updatePlatformQuota
  rw [h]
  rfl

theorem updateQuota_of_allowed (h : updateQuotaAllowed id limitBytes db = .ok true) :
    updateQuota id limitBytes db = .ok (true, setLimit id limitBytes db) := by
  unfold updateQuota
  rw [h]
  rfl

theorem active_of_updatePlatformQuotaAllowed {q : Quota}
    (h : updatePlatformQuotaAllowed id limitBytes capacity db = .ok true)
    (hq : db.ledger.quotas.lookup id = some q) : q.status = .active := by
  unfold updatePlatformQuotaAllowed at h
  split at h
  · simp at h
  · rw [hq] at h
    dsimp only at h
    split at h
    · cases h
    · rename_i hactive
      exact not_not.mp hactive

theorem active_of_updateQuotaAllowed {q : Quota}
    (h : updateQuotaAllowed id limitBytes db = .ok true)
    (hq : db.ledger.quotas.lookup id = some q) : q.status = .active := by
  unfold updateQuotaAllowed at h
  rw [hq] at h
  dsimp only at h
  split at h
  · cases h
  · rename_i hactive
    exact not_not.mp hactive

end Specification

end S3mp.Governance
