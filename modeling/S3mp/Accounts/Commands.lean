import S3mp.Accounts.MembershipStore
import S3mp.Transition.Run

/-!
# Runs of account transactions

One command for each transaction on the registry, and what a committed
transaction has done.  An expiry pass over support requests is a series of
revocations.
-/

namespace S3mp

open Relational Platform Registry
open Directory (MembershipStatus)

inductive RegistryCmd where
  | register (id : Uuid) (email employeeNumber displayName passwordHash : String)
  | importAccounts (rows : List ImportRow)
  | resolveExternal (ids : ExternalIds) (passwordHash issuer : String) (identity : CasIdentity)
  | createInitialPlatformAdmin (ids : BootstrapIds)
      (email employeeNumber displayName passwordHash : String)
  | ensurePlatformAdmin (ids : BootstrapIds)
      (email employeeNumber displayName passwordHash : String)
  | createAccountSession (token : SessionToken) (userId : Uuid) (ticket : Option String)
  | revokeAccountSession (now : Timestamp) (sessionId : Uuid)
  | revokeTenantSessions (now : Timestamp) (userId : Uuid)
  | revokeCasServiceTicketSession (now : Timestamp) (digest : String)
  | insertTenantSession (token : SessionToken) (membershipId : Uuid) (m : Membership)
  | deletePlatformAccount (now : Timestamp) (userId : Uuid)
  | restorePlatformAccount (userId : Uuid)
  | resetPlatformAccountPassword (now : Timestamp) (userId : Uuid) (passwordHash : String)
  | createMember (userId : Uuid) (ids : MemberIds) (now : Timestamp) (tenantId : Uuid)
      (email : String) (displayName : Option String) (roleId createdBy : Uuid)
      (expiresAt : Timestamp)
  | acceptTenantInvitation (now : Timestamp) (userId membershipId : Uuid)
  | updateMember (now : Timestamp) (tenantId membershipId : Uuid) (status : MembershipStatus)
      (reason : String) (changedBy : Uuid)
  | createPlatformTenant (ids : TenantIds) (slug name : String) (adminId : Uuid)
  | updatePlatformTenant (tenantId : Uuid) (name : Option String)
      (status : Option TenantLifecycleStatus)
  | deletePlatformTenant (now : Timestamp) (tenantId : Uuid)
  | restorePlatformTenant (tenantId : Uuid)
  | requestSupportAccess (id : Uuid) (now : Timestamp) (requesterId tenantId : Uuid)
      (reason : String) (expiresAt : Timestamp)
  | approveSupportAccess (ids : SupportIds) (now : Timestamp) (approverId requestId : Uuid)
  | revokeSupportAccess (now : Timestamp) (requestId : Uuid)

namespace Registry

variable (text : CaseMaps) {r r' : Registry}

def exec : RegistryCmd → Registry → Tx Registry
  | .register id email employeeNumber displayName passwordHash, r =>
      register text id email employeeNumber displayName passwordHash r
  | .importAccounts rows, r => importAccounts text rows r
  | .resolveExternal ids passwordHash issuer identity, r =>
      (resolveOrLinkExternalIdentity text ids passwordHash issuer (casIdentity identity) r).map (·.2)
  | .createInitialPlatformAdmin ids email employeeNumber displayName passwordHash, r =>
      createInitialPlatformAdmin text ids email employeeNumber displayName passwordHash r
  | .ensurePlatformAdmin ids email employeeNumber displayName passwordHash, r =>
      ensurePlatformAdmin text ids email employeeNumber displayName passwordHash r
  | .createAccountSession token userId ticket, r => createAccountSession token userId ticket r
  | .revokeAccountSession now sessionId, r => .ok (revokeAccountSession now sessionId r)
  | .revokeTenantSessions now userId, r => .ok (revokeTenantSessions now userId r)
  | .revokeCasServiceTicketSession now digest, r =>
      .ok (revokeCasServiceTicketSession now digest r).2
  | .insertTenantSession token membershipId m, r => insertTenantSession token membershipId m r
  | .deletePlatformAccount now userId, r => .ok (deletePlatformAccount now userId r).2
  | .restorePlatformAccount userId, r => (restorePlatformAccount userId r).map (·.2)
  | .resetPlatformAccountPassword now userId passwordHash, r =>
      .ok (resetPlatformAccountPassword now userId passwordHash r).2
  | .createMember userId ids now tenantId email displayName roleId createdBy expiresAt, r =>
      createMember text userId ids now tenantId email displayName roleId createdBy expiresAt r
  | .acceptTenantInvitation now userId membershipId, r =>
      .ok (acceptTenantInvitation now userId membershipId r).2
  | .updateMember now tenantId membershipId status reason changedBy, r =>
      .ok (updateMember now tenantId membershipId status reason changedBy r).2
  | .createPlatformTenant ids slug name adminId, r => createPlatformTenant ids slug name adminId r
  | .updatePlatformTenant tenantId name status, r =>
      .ok (updatePlatformTenant tenantId name status r).2
  | .deletePlatformTenant now tenantId, r => .ok (deletePlatformTenant now tenantId r).2
  | .restorePlatformTenant tenantId, r => .ok (restorePlatformTenant tenantId r).2
  | .requestSupportAccess id now requesterId tenantId reason expiresAt, r =>
      requestSupportAccess id now requesterId tenantId reason expiresAt r
  | .approveSupportAccess ids now approverId requestId, r =>
      (approveSupportAccess ids now approverId requestId r).map (·.2)
  | .revokeSupportAccess now requestId, r => .ok (revokeSupportAccess now requestId r).2

end Registry

end S3mp
