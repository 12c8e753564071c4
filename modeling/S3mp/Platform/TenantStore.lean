import S3mp.Applications.AppStore
import S3mp.Governance.QuotaStore

/-!
# The tenant life cycle

The platform's transactions on the tenant row.  Suspension, deletion and their
undoing switch the quotas of the tenant in bulk.  The other stores only ask
whether the tenant is active; its status is kept here, next to their rows.
-/

namespace S3mp.Platform

open Relational Governance Files

inductive TenantLifecycleStatus where
  | active | suspended | deleted
  deriving DecidableEq, Repr

/-- The index `uq_quota_active_tenant_total` holds. -/
def oneActiveTotal (quotas : Table Uuid Quota) : Bool :=
  (quotas.select fun _ q ↦ q.isTenantTotal && q.status = .active).length ≤ 1

structure Tenant where
  status : TenantLifecycleStatus
  db : Db
  active_iff : db.tenantActive = decide (status = .active)
  one_total : oneActiveTotal db.ledger.quotas

/-- Committing a transaction, where the index of the active totals is checked. -/
def Tenant.commit (status : TenantLifecycleStatus) (db : Db) : Tx Tenant :=
  if h : oneActiveTotal db.ledger.quotas then
    .ok ⟨status, { db with tenantActive := decide (status = .active) }, rfl, h⟩
  else integrityError "uq_quota_active_tenant_total"

/-- The statuses which follow those of the tenant. -/
def switchable (q : Quota) : Bool :=
  q.status ∈ [.active, .suspended]

def switchQuotas (p : Quota → Bool) (status : QuotaStatus) (db : Db) : Db :=
  setQuotas (db.ledger.quotas.updateWhere (fun _ q ↦ p q) fun q ↦ { q with status }) db

/-- The status all switchable quotas get with the tenant. -/
def quotaStatus (status : TenantLifecycleStatus) : QuotaStatus :=
  if status = .active then .active else .suspended

/-- `none` stands for a change of the name alone. -/
def updatePlatformTenant (status : Option TenantLifecycleStatus) (t : Tenant) :
    Tx (Bool × Tenant) :=
  if t.status = .deleted then .ok (false, t)
  else
    match status with
    | none => .ok (true, t)
    | some status => do
      let t ← Tenant.commit status (switchQuotas switchable (quotaStatus status) t.db)
      return (true, t)

/-- The rows of a tenant after its deletion: its quotas suspended, its applications deleted
and everything pending cancelled. -/
def deleteRows (db : Db) : Db :=
  { switchQuotas switchable .suspended db with
    applications := db.applications.updateWhere (fun _ a ↦ a.status ≠ .deleted) fun a ↦
      { a with status := .deleted, authorizationVersion := a.authorizationVersion + 1 }
    spaces := db.spaces.updateWhere (fun _ s ↦ s.active) fun s ↦ { s with active := false }
    uploads := db.uploads.updateWhere (fun _ u ↦ u.status = .pending) fun u ↦
      { u with status := .cancelled }
    multiparts := db.multiparts.updateWhere (fun _ m ↦ m.status = .pending) fun m ↦
      { m with status := .cancelled }
    operations := db.operations.updateWhere (fun _ o ↦ o.status = .pending) fun o ↦
      { o with status := .cancelled, failureReason := some "tenant_deleted" } }

def deletePlatformTenant (t : Tenant) : Tx (Bool × Tenant) :=
  if t.status = .deleted then .ok (false, t)
  else do
    let t ← Tenant.commit .deleted (deleteRows t.db)
    return (true, t)

/-- The tenant comes back suspended; its quotas come back active. -/
def restorePlatformTenant (t : Tenant) : Tx (Bool × Tenant) :=
  if t.status ≠ .deleted then .ok (false, t)
  else do
    let t ← Tenant.commit .suspended (switchQuotas (·.status = .suspended) .active t.db)
    return (true, t)

/-! ## The service calls -/

def found (missing : String) (result : Bool × Tenant) : Tx Tenant :=
  if result.1 then .ok result.2 else raise "resource_not_found" missing 404

def updateTenant (status : Option TenantLifecycleStatus) (t : Tenant) : Tx Tenant :=
  if status = some .deleted then raise "validation_failed" "Invalid tenant status" 422
  else do found "Tenant not found" (← updatePlatformTenant status t)

def deleteTenant (t : Tenant) : Tx Tenant := do
  found "Tenant not found" (← deletePlatformTenant t)

def restoreTenant (t : Tenant) : Tx Tenant := do
  found "Deleted tenant not found" (← restorePlatformTenant t)

end S3mp.Platform
