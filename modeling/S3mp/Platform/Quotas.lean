import S3mp.Platform.System

/-!
# Quotas under the whole system

What each command of the system does to the quota table: the stores change the
terms of single rows, the life cycle of applications and of the tenant switches
the status of many.
-/

namespace S3mp

open Relational Governance Files Applications Platform

variable {t t' : Tenant} {db : Db}

def Platform.Tenant.quotas (t : Tenant) : Table Uuid Quota :=
  t.db.ledger.quotas

/-- The rows selected by `p` get the status. -/
def switched (p : Quota → Bool) (status : QuotaStatus) (quotas : Table Uuid Quota) :
    Table Uuid Quota :=
  quotas.updateWhere (fun _ q ↦ p q) fun q ↦ { q with status }

/-- The quotas a restored application gets back. -/
def suspendedOf (applicationId : Uuid) (q : Quota) : Bool :=
  q.applicationId = some applicationId && q.status = .suspended

inductive QuotaMove (t t' : Tenant) : TenantCmd → Prop
  | idle (c : TenantCmd) (hstatus : t'.status = t.status) (hledger : t'.db.ledger = t.db.ledger) :
      QuotaMove t t' c
  | stored (c : Cmd) (hstatus : t'.status = t.status) (hexec : exec c t.db = .ok t'.db)
      (h : QuotaStep t.db c t'.quotas) : QuotaMove t t' (.stored c)
  | appRestored (applicationId : Uuid) (app : Application)
      (happ : t.db.applications.lookup applicationId = some app) (hdeleted : app.status = .deleted)
      (hactive : t.status = .active) (hstatus : t'.status = .active)
      (hquotas : t'.quotas = switched (suspendedOf applicationId) .active t.quotas) :
      QuotaMove t t' (.restoreApp applicationId true)
  | switched (status : TenantLifecycleStatus) (hlive : t.status ≠ .deleted)
      (hstatus : t'.status = status)
      (hquotas : t'.quotas = switched switchable (quotaStatus status) t.quotas) :
      QuotaMove t t' (.updateTenant (some status))
  | deleted (hlive : t.status ≠ .deleted) (hstatus : t'.status = .deleted)
      (hquotas : t'.quotas = switched switchable .suspended t.quotas) :
      QuotaMove t t' .deleteTenant
  | restored (hdeleted : t.status = .deleted) (hstatus : t'.status = .suspended)
      (hquotas : t'.quotas = switched (·.status = .suspended) .active t.quotas) :
      QuotaMove t t' .restoreTenant

theorem tenantStep_quotas {c : TenantCmd} (h : TenantStep t t' c) : QuotaMove t t' c := by
  cases h with
  | idle _ hsame => exact .idle c (congrArg _ hsame) (hsame ▸ rfl)
  | stored c hstatus h => exact .stored c hstatus h (exec_quotas h)
  | operated c hother hstatus h hside => exact .idle _ hstatus hside.ledger
  | uploadCreated _ _ _ _ hstatus _ _ hdb | multipartCreated _ _ _ _ _ hstatus _ _ hdb
  | uploadCompleted _ _ _ _ _ hstatus _ _ _ hdb | multipartCompleted _ _ _ _ hstatus _ _ _ hdb =>
      exact .idle _ hstatus (hdb ▸ rfl)
  | appRestored applicationId app happ hdeleted hactive h =>
      refine .appRestored applicationId app happ hdeleted hactive h.1 ?_
      rw [Tenant.quotas, h.2]
      rfl
  | switched status hlive hnext h =>
      refine .switched status hlive h.1 ?_
      rw [Tenant.quotas, h.2]
      rfl
  | deleted hlive h =>
      refine .deleted hlive h.1 ?_
      rw [Tenant.quotas, h.2]
      rfl
  | restored hdeleted h =>
      refine .restored hdeleted h.1 ?_
      rw [Tenant.quotas, h.2]
      rfl

theorem lookup_switched (p : Quota → Bool) (status : QuotaStatus) (quotas : Table Uuid Quota)
    (k : Uuid) :
    (switched p status quotas).lookup k =
      (quotas.lookup k).map fun q ↦ if p q then { q with status } else q :=
  AList.lookup_updateWhere _ _ _ _

theorem switchable_iff {q : Quota} :
    switchable q = true ↔ q.status = .active ∨ q.status = .suspended := by
  simp [switchable]

theorem tenantActive_of_target {applicationId : Option Uuid} {limit : ℤ} {capacity : Option ℤ}
    {target : Option Uuid}
    (h : createPlatformQuotaTarget applicationId limit capacity db = .ok target) :
    db.tenantActive = true := by
  unfold createPlatformQuotaTarget at h
  split at h
  · simp at h
  · split at h
    · simp at h
    · rename_i hactive
      simpa using hactive

/-- A limit is set for an active row. -/
theorem active_of_limits {c : Cmd} {id : Uuid} {limit : ℤ} (h : c.limits db id limit) :
    ∃ q, db.ledger.quotas.lookup id = some q ∧ q.status = .active := by
  cases c with
  | updatePlatformQuota id' limit' capacity =>
      obtain ⟨rfl, rfl, hallowed⟩ := h
      cases hq : db.ledger.quotas.lookup id' with
      | none =>
          unfold updatePlatformQuotaAllowed at hallowed
          rw [hq] at hallowed
          split at hallowed
          · simp at hallowed
          · cases hallowed
      | some q => exact ⟨q, rfl, active_of_updatePlatformQuotaAllowed hallowed hq⟩
  | updateQuota id' limit' =>
      obtain ⟨rfl, rfl, hallowed⟩ := h
      cases hq : db.ledger.quotas.lookup id' with
      | none =>
          unfold updateQuotaAllowed at hallowed
          rw [hq] at hallowed
          cases hallowed
      | some q => exact ⟨q, rfl, active_of_updateQuotaAllowed hallowed hq⟩
  | _ => exact h.elim

/-! ## When a life cycle command commits -/

section Commits

variable {applicationId : Uuid}

theorem lookup_suspended {quotas : Table Uuid Quota} {k : Uuid} {q : Quota}
    (h : (switched switchable .suspended quotas).lookup k = some q) : q.status ≠ .active := by
  rw [lookup_switched, Option.map_eq_some_iff] at h
  obtain ⟨q₀, -, rfl⟩ := h
  split
  · exact fun h ↦ by cases h
  · rename_i hnot
    rw [switchable_iff, not_or] at hnot
    exact hnot.1

end Commits

end S3mp
