import S3mp.Database

/-!
# Application deletion and restoration

The parts of `delete_app` and `restore_app` which touch quotas, sessions and
operations.
-/

namespace S3mp.Applications

open Relational Governance Files

def deleteApp (applicationId : Uuid) (db : Db) : Bool × Db :=
  match db.applications.lookup applicationId with
  | none => (false, db)
  | some app =>
    if app.status = .deleted ∨ !db.tenantActive then (false, db)
    else (true, { db with
      applications := db.applications.update applicationId fun a ↦
        { a with status := .deleted, authorizationVersion := a.authorizationVersion + 1 }
      ledger := { db.ledger with
        quotas := db.ledger.quotas.updateWhere
          (fun _ q ↦ q.applicationId = some applicationId && q.status = .active)
          fun q ↦ { q with status := .suspended } }
      uploads := db.uploads.updateWhere
        (fun _ u ↦ u.principalId = app.principalId && u.status = .pending)
        fun u ↦ { u with status := .cancelled }
      multiparts := db.multiparts.updateWhere
        (fun _ m ↦ m.principalId = app.principalId && m.status = .pending)
        fun m ↦ { m with status := .cancelled }
      operations := db.operations.updateWhere
        (fun _ o ↦ o.principalId = app.principalId && o.status = .pending)
        fun o ↦ { o with status := .cancelled, failureReason := some "application_deleted" } })

/-- The application is active again, and so is every suspended quota of it. -/
def restoredApp (applicationId : Uuid) (db : Db) : Db :=
  { db with
    applications := db.applications.update applicationId fun a ↦
      { a with status := .active, authorizationVersion := a.authorizationVersion + 1 }
    ledger := { db.ledger with
      quotas := db.ledger.quotas.updateWhere
        (fun _ q ↦ q.applicationId = some applicationId && q.status = .suspended)
        fun q ↦ { q with status := .active } } }

/-- `ownerActive`: some owner of the application is an active member with an enabled principal. -/
def restoreApp (applicationId : Uuid) (ownerActive : Bool) (db : Db) : Tx (Bool × Db) :=
  match db.applications.lookup applicationId with
  | none => .ok (false, db)
  | some app =>
    if app.status ≠ .deleted then .ok (false, db)
    else if !(db.tenantActive && ownerActive) then
      .error (.value "application restore requires an active tenant and active Owner")
    else .ok (true, restoredApp applicationId db)

end S3mp.Applications
