import S3mp.Identity.Directory
import S3mp.Platform.TenantStore

/-!
# The account registry

The rows which the platform store keeps for all tenants together: accounts and
their credentials, sessions and external identities, the tenants, and the
memberships, roles and applications of each tenant as far as the account
transactions touch them.  Accounts are shared between tenants.
-/

namespace S3mp

open Relational Authorization Platform
open Directory (UserStatus MembershipStatus PrincipalType)

namespace Registry

structure Tenant where
  slug : String
  name : String
  status : TenantLifecycleStatus
  deriving DecidableEq, Repr

structure User where
  email : String
  normalizedEmail : String
  employeeNumber : Option String
  normalizedEmployeeNumber : Option String
  displayName : String
  status : UserStatus
  passwordHash : Option String
  deriving DecidableEq, Repr

/-- Issuer and subject are opaque and case-sensitive. -/
structure ExternalIdentity where
  userId : Uuid
  issuer : String
  subject : String
  deriving DecidableEq, Repr

structure AccountSession where
  userId : Uuid
  tokenDigest : String
  expiresAt : Timestamp
  revokedAt : Option Timestamp
  deriving DecidableEq, Repr

/-- The account session a CAS service ticket has created, under the digest of the ticket. -/
structure CasServiceTicketSession where
  accountSessionId : Uuid
  expiresAt : Timestamp
  deriving DecidableEq, Repr

structure Principal where
  tenantId : Uuid
  type : PrincipalType
  enabled : Bool
  deriving DecidableEq, Repr

structure Membership where
  tenantId : Uuid
  userId : Uuid
  principalId : Uuid
  status : MembershipStatus
  authorizationVersion : ℕ
  expiresAt : Option Timestamp
  deriving DecidableEq, Repr

structure MembershipStatusHistory where
  tenantId : Uuid
  membershipId : Uuid
  fromStatus : Option MembershipStatus
  toStatus : MembershipStatus
  reason : String
  changedByPrincipalId : Uuid
  deriving DecidableEq, Repr

structure Session where
  tenantId : Uuid
  membershipId : Uuid
  principalId : Uuid
  tokenDigest : String
  authorizationVersion : ℕ
  expiresAt : Timestamp
  revokedAt : Option Timestamp
  deriving DecidableEq, Repr

structure Role where
  tenantId : Uuid
  name : String
  builtIn : Bool
  permissions : List String
  deriving DecidableEq, Repr

structure RoleBinding where
  tenantId : Uuid
  principalId : Uuid
  roleId : Uuid
  effect : Decision
  reason : String
  startsAt : Timestamp
  expiresAt : Timestamp
  createdByPrincipalId : Uuid
  revokedAt : Option Timestamp
  deriving DecidableEq, Repr

structure SupportAccessRequest where
  requesterUserId : Uuid
  tenantId : Uuid
  reason : String
  expiresAt : Timestamp
  approvedAt : Option Timestamp
  approvedByUserId : Option Uuid
  membershipId : Option Uuid
  roleBindingId : Option Uuid
  revokedAt : Option Timestamp
  deriving DecidableEq, Repr

structure PlatformRole where
  name : String
  permissions : List String
  deriving DecidableEq, Repr

structure PlatformRoleBinding where
  userId : Uuid
  roleId : Uuid
  expiresAt : Option Timestamp
  revokedAt : Option Timestamp
  deriving DecidableEq, Repr

structure Application where
  tenantId : Uuid
  status : Directory.ApplicationStatus
  authorizationVersion : ℕ
  deriving DecidableEq, Repr

structure ApplicationOwner where
  tenantId : Uuid
  applicationId : Uuid
  ownerPrincipalId : Uuid
  deriving DecidableEq, Repr

end Registry

structure Registry where
  tenants : Table Uuid Registry.Tenant
  users : Table Uuid Registry.User
  externalIdentities : Table Uuid Registry.ExternalIdentity
  accountSessions : Table Uuid Registry.AccountSession
  serviceTickets : Table String Registry.CasServiceTicketSession
  principals : Table Uuid Registry.Principal
  memberships : Table Uuid Registry.Membership
  /-- The rows of `membership_status_history`, the oldest first. -/
  history : List Registry.MembershipStatusHistory
  sessions : Table Uuid Registry.Session
  roles : Table Uuid Registry.Role
  roleBindings : Table Uuid Registry.RoleBinding
  supportRequests : Table Uuid Registry.SupportAccessRequest
  platformRoles : Table Uuid Registry.PlatformRole
  platformBindings : Table Uuid Registry.PlatformRoleBinding
  /-- `platform_bootstrap_state` has its row. -/
  bootstrapped : Bool
  applications : Table Uuid Registry.Application
  owners : Table Uuid Registry.ApplicationOwner

namespace Registry

variable {r r' : Registry}

def empty : Registry where
  tenants := ∅
  users := ∅
  externalIdentities := ∅
  accountSessions := ∅
  serviceTickets := ∅
  principals := ∅
  memberships := ∅
  history := []
  sessions := ∅
  roles := ∅
  roleBindings := ∅
  supportRequests := ∅
  platformRoles := ∅
  platformBindings := ∅
  bootstrapped := false
  applications := ∅
  owners := ∅

/-! ## Insertions -/

/-- The partial indexes `uq_user_active_email` and `uq_user_active_employee_number`: a deleted
account holds neither. -/
def User.conflictsIn (u : User) (users : Table Uuid User) : Option String :=
  if users.anyRow fun _ v ↦ v.status ≠ .deleted && v.normalizedEmail = u.normalizedEmail then
    some "uq_user_active_email"
  else if u.normalizedEmployeeNumber.isSome && users.anyRow fun _ v ↦
      v.status ≠ .deleted && v.normalizedEmployeeNumber = u.normalizedEmployeeNumber then
    some "uq_user_active_employee_number"
  else none

/-- Every account is inserted as an active one. -/
def insertUser (id : Uuid) (u : User) (r : Registry) : Tx Registry := do
  match u.conflictsIn r.users with
  | some constraint => integrityError constraint
  | none =>
    let users ← insertRow "user_account_pkey" id u r.users
    return { r with users := users }

def hasMembership (tenantId userId : Uuid) (r : Registry) : Bool :=
  r.memberships.anyRow fun _ m ↦ m.tenantId = tenantId && m.userId = userId

structure MemberIds where
  principalId : Uuid
  membershipId : Uuid
  bindingId : Uuid
  deriving DecidableEq, Repr

/-- A member of a tenant and the principal it acts as. -/
def insertMember (ids : MemberIds) (tenantId userId : Uuid) (status : MembershipStatus)
    (expiresAt : Option Timestamp) (r : Registry) : Tx Registry := do
  if r.hasMembership tenantId userId then integrityError "membership_tenant_id_user_id_key"
  else
    let principals ← insertRow "principal_pkey" ids.principalId ⟨tenantId, .user, true⟩ r.principals
    let memberships ← insertRow "membership_pkey" ids.membershipId
      ⟨tenantId, userId, ids.principalId, status, 1, expiresAt⟩ r.memberships
    return { r with principals := principals, memberships := memberships }

def insertBinding (id : Uuid) (b : RoleBinding) (r : Registry) : Tx Registry := do
  let roleBindings ← insertRow "role_binding_pkey" id b r.roleBindings
  return { r with roleBindings := roleBindings }

theorem insertUser_eq_ok {id : Uuid} {u : User} :
    insertUser id u r = .ok r' ↔
      u.conflictsIn r.users = none ∧ id ∉ r.users ∧ r' = { r with users := r.users.insert id u } := by
  unfold insertUser
  cases u.conflictsIn r.users with
  | some constraint => simp
  | none =>
      simp only [Except.bind_eq_ok, insertRow_eq_ok, Except.pure_eq_ok, true_and]
      constructor
      · rintro ⟨_, ⟨hid, rfl⟩, rfl⟩
        exact ⟨hid, rfl⟩
      · rintro ⟨hid, rfl⟩
        exact ⟨_, ⟨hid, rfl⟩, rfl⟩

theorem insertMember_eq_ok {ids : MemberIds} {tenantId userId : Uuid} {status : MembershipStatus}
    {expiresAt : Option Timestamp} :
    insertMember ids tenantId userId status expiresAt r = .ok r' ↔
      r.hasMembership tenantId userId = false ∧ ids.principalId ∉ r.principals ∧
        ids.membershipId ∉ r.memberships ∧
        r' = { r with
          principals := r.principals.insert ids.principalId ⟨tenantId, .user, true⟩
          memberships := r.memberships.insert ids.membershipId
            ⟨tenantId, userId, ids.principalId, status, 1, expiresAt⟩ } := by
  unfold insertMember
  cases r.hasMembership tenantId userId with
  | true => simp
  | false =>
      simp only [Bool.false_eq_true, if_false, Except.bind_eq_ok, insertRow_eq_ok, Except.pure_eq_ok,
        true_and]
      constructor
      · rintro ⟨_, ⟨hp, rfl⟩, _, ⟨hm, rfl⟩, rfl⟩
        exact ⟨hp, hm, rfl⟩
      · rintro ⟨hp, hm, rfl⟩
        exact ⟨_, ⟨hp, rfl⟩, _, ⟨hm, rfl⟩, rfl⟩

theorem insertBinding_eq_ok {id : Uuid} {b : RoleBinding} :
    insertBinding id b r = .ok r' ↔
      id ∉ r.roleBindings ∧ r' = { r with roleBindings := r.roleBindings.insert id b } := by
  unfold insertBinding
  simp only [Except.bind_eq_ok, insertRow_eq_ok, Except.pure_eq_ok]
  constructor
  · rintro ⟨_, ⟨hid, rfl⟩, rfl⟩
    exact ⟨hid, rfl⟩
  · rintro ⟨hid, rfl⟩
    exact ⟨_, ⟨hid, rfl⟩, rfl⟩

end Registry

end S3mp
