import S3mp.Accounts.AccountStore

/-!
# Memberships, tenants and support access

The transactions which write memberships: invitation and update of
`identity_repository.py`, and acceptance, the life cycle of a tenant and support
access of `platform/infrastructure/repository.py`.
-/

namespace S3mp.Registry

open Relational Platform
open Directory (UserStatus MembershipStatus)

/-! ## Members -/

/-- The account `create_member` invites: the one with this address, whatever its status. -/
def invitedUser (text : CaseMaps) (id : Uuid) (email : String) (displayName : Option String)
    (r : Registry) : Tx (Uuid × Registry) :=
  let normalizedEmail := text.lower (strip email)
  match r.anyByEmail normalizedEmail with
  | some userId => .ok (userId, r)
  | none => do
    let r ← insertUser id (newUser (strip email) normalizedEmail none none
      ((truthy displayName).getD normalizedEmail) none) r
    return (id, r)

def roleIn (tenantId roleId : Uuid) (r : Registry) : Bool :=
  (r.roles.lookup roleId).any (·.tenantId = tenantId)

def createMember (text : CaseMaps) (userId : Uuid) (ids : MemberIds) (now : Timestamp)
    (tenantId : Uuid) (email : String) (displayName : Option String) (roleId createdBy : Uuid)
    (expiresAt : Timestamp) (r : Registry) : Tx Registry := do
  let (userId, r) ← invitedUser text userId email displayName r
  if r.hasMembership tenantId userId then .error (.value "membership already exists")
  else
    let r ← insertMember ids tenantId userId .invited none r
    if !r.roleIn tenantId roleId then .error (.value "role not found")
    else insertBinding ids.bindingId ⟨tenantId, ids.principalId, roleId, .allow,
      "Initial role granted with member invitation", now, expiresAt, createdBy, none⟩ r

def recordStatus (row : MembershipStatusHistory) (r : Registry) : Registry :=
  { r with history := r.history ++ [row] }

/-- The membership with its new status. -/
def withStatus (membershipId : Uuid) (status : MembershipStatus) (r : Registry) : Registry :=
  { r with memberships := r.memberships.update membershipId (Membership.ended status) }

def acceptTenantInvitation (now : Timestamp) (userId membershipId : Uuid) (r : Registry) :
    Bool × Registry :=
  match r.memberships.lookup membershipId with
  | none => (false, r)
  | some row =>
    if row.userId ≠ userId ∨ !r.tenantActive row.tenantId then (false, r)
    else if row.status = .active then (true, r)
    else if row.status ≠ .invited then (false, r)
    else if !row.expiresAt.all (now < ·) then (false, r)
    else (true, (r.withStatus membershipId .active).recordStatus
      ⟨row.tenantId, membershipId, some .invited, .active, "tenant_invitation_accepted",
        row.principalId⟩)

/-- The query for `active_owner` in `update_member`. -/
def hasActiveOwner (now : Timestamp) (tenantId applicationId : Uuid) (r : Registry) : Bool :=
  r.owners.anyRow fun _ o ↦ o.tenantId = tenantId && o.applicationId = applicationId &&
    r.memberships.anyRow fun _ m ↦ m.tenantId = tenantId &&
      m.principalId = o.ownerPrincipalId && m.status = .active && m.expiresAt.all (now < ·)

def owns (tenantId principalId applicationId : Uuid) (r : Registry) : Bool :=
  r.owners.anyRow fun _ o ↦ o.tenantId = tenantId && o.applicationId = applicationId &&
    o.ownerPrincipalId = principalId

def Application.contained (a : Application) : Application :=
  { a with status := .pendingTakeover, authorizationVersion := a.authorizationVersion + 1 }

/-- The applications of the principal which are left without an active owner. -/
def containOwnerless (now : Timestamp) (tenantId principalId : Uuid) (r : Registry) : Registry :=
  { r with
    applications := r.applications.updateWhere
      (fun id a ↦ a.tenantId = tenantId && r.owns tenantId principalId id &&
        !r.hasActiveOwner now tenantId id && a.status = .active)
      Application.contained }

def updateMember (now : Timestamp) (tenantId membershipId : Uuid) (status : MembershipStatus)
    (reason : String) (changedBy : Uuid) (r : Registry) : Bool × Registry :=
  match r.memberships.lookup membershipId with
  | none => (false, r)
  | some row =>
    if row.tenantId ≠ tenantId then (false, r)
    else
      let changed := ((r.withStatus membershipId status).recordStatus
        ⟨tenantId, membershipId, some row.status, status, reason, changedBy⟩).revokeSessions now
          fun s ↦ s.tenantId = tenantId && s.membershipId = membershipId
      (true, if status ≠ .active then changed.containOwnerless now tenantId row.principalId
        else changed)

/-! ## Tenants -/

/-- The unique index on the slug is asked for by the code as well. -/
def slugTaken (slug : String) (r : Registry) : Bool :=
  r.tenants.anyRow fun _ t ↦ t.slug = slug

structure TenantIds where
  tenantId : Uuid
  member : MemberIds
  roleId : Uuid
  deriving DecidableEq, Repr

/-- The role of this name, or a new one; either way with the baseline permissions. -/
def ensureRole (id tenantId : Uuid) (name : String) (permissions : List String) (r : Registry) :
    Tx (Uuid × Registry) :=
  match r.roles.selectFirst fun _ role ↦ role.tenantId = tenantId && role.name = name with
  | some (roleId, _) => .ok (roleId, { r with
      roles := r.roles.update roleId fun role ↦
        { role with permissions := ensurePermissions permissions role.permissions } })
  | none => do
    let roles ← insertRow "role_pkey" id ⟨tenantId, name, true, ensurePermissions permissions []⟩
      r.roles
    return (id, { r with roles := roles })

def createPlatformTenant (ids : TenantIds) (slug name : String) (adminId : Uuid) (r : Registry) :
    Tx Registry := do
  if !(r.users.lookup adminId).any (·.status = .active) then
    .error (.value "initial administrator must be an active account")
  else if r.slugTaken slug then .error (.value "tenant slug already exists")
  else
    let tenants ← insertRow "tenant_pkey" ids.tenantId ⟨slug, name, .active⟩ r.tenants
    let r ← insertMember ids.member ids.tenantId adminId .active none { r with tenants := tenants }
    let (_, r) ← ensureRole ids.roleId ids.tenantId "tenant-admin" tenantAdminPermissions r
    return r

def setTenantStatus (tenantId : Uuid) (status : TenantLifecycleStatus) (r : Registry) : Registry :=
  { r with tenants := r.tenants.update tenantId fun t ↦ { t with status := status } }

/-- A tenant which is not deleted changes its name, its status or both. -/
def updatePlatformTenant (tenantId : Uuid) (name : Option String)
    (status : Option TenantLifecycleStatus) (r : Registry) : Bool × Registry :=
  match r.tenants.lookup tenantId with
  | none => (false, r)
  | some t =>
    if t.status = .deleted then (false, r)
    else (true, { r with tenants := r.tenants.update tenantId fun t ↦
      { t with name := name.getD t.name, status := status.getD t.status } })

def deletedTenant (now : Timestamp) (tenantId : Uuid) (r : Registry) : Registry :=
  let r := (r.setTenantStatus tenantId .deleted).revokeSessions now fun s ↦ s.tenantId = tenantId
  { r with
    memberships := r.memberships.updateWhere
      (fun _ m ↦ m.tenantId = tenantId && m.status = .active) (Membership.ended .removed)
    principals := r.principals.updateWhere (fun _ p ↦ p.tenantId = tenantId)
      fun p ↦ { p with enabled := false }
    roleBindings := r.roleBindings.updateWhere
      (fun _ b ↦ b.tenantId = tenantId && b.revokedAt.isNone)
      fun b ↦ { b with revokedAt := some now }
    applications := r.applications.updateWhere
      (fun _ a ↦ a.tenantId = tenantId && a.status ≠ .deleted)
      fun a ↦ { a with status := .deleted, authorizationVersion := a.authorizationVersion + 1 } }

@[simp] theorem deletedTenant_memberships (now : Timestamp) (tenantId : Uuid) (r : Registry) :
    (r.deletedTenant now tenantId).memberships = r.memberships.updateWhere
      (fun _ m ↦ m.tenantId = tenantId && m.status = .active) (Membership.ended .removed) := rfl

@[simp] theorem deletedTenant_roleBindings (now : Timestamp) (tenantId : Uuid) (r : Registry) :
    (r.deletedTenant now tenantId).roleBindings = r.roleBindings.updateWhere
      (fun _ b ↦ b.tenantId = tenantId && b.revokedAt.isNone)
      fun b ↦ { b with revokedAt := some now } := rfl

def deletePlatformTenant (now : Timestamp) (tenantId : Uuid) (r : Registry) : Bool × Registry :=
  match r.tenants.lookup tenantId with
  | none => (false, r)
  | some t => if t.status = .deleted then (false, r) else (true, r.deletedTenant now tenantId)

/-- A deleted tenant comes back suspended. -/
def restorePlatformTenant (tenantId : Uuid) (r : Registry) : Bool × Registry :=
  match r.tenants.lookup tenantId with
  | none => (false, r)
  | some t =>
    if t.status ≠ .deleted then (false, r) else (true, r.setTenantStatus tenantId .suspended)

/-! ## Support access -/

def requestSupportAccess (id : Uuid) (now : Timestamp) (requesterId tenantId : Uuid)
    (reason : String) (expiresAt : Timestamp) (r : Registry) : Tx Registry := do
  if expiresAt ≤ now then .error (.value "support access expiry must be in the future")
  else if tenantId ∉ r.tenants then .error (.value "tenant not found")
  else
    let supportRequests ← insertRow "support_access_request_pkey" id
      ⟨requesterId, tenantId, reason, expiresAt, none, none, none, none, none⟩ r.supportRequests
    return { r with supportRequests := supportRequests }

structure SupportIds where
  member : MemberIds
  roleId : Uuid
  deriving DecidableEq, Repr

def SupportAccessRequest.approve (now : Timestamp) (approverId membershipId bindingId : Uuid)
    (request : SupportAccessRequest) : SupportAccessRequest :=
  { request with
    approvedAt := some now
    approvedByUserId := some approverId
    membershipId := some membershipId
    roleBindingId := some bindingId }

/-- The binding which carries the support role. -/
def supportBinding (now : Timestamp) (principalId roleId : Uuid) (request : SupportAccessRequest) :
    RoleBinding where
  tenantId := request.tenantId
  principalId := principalId
  roleId := roleId
  effect := .allow
  reason := "approved platform support access"
  startsAt := now
  expiresAt := request.expiresAt
  createdByPrincipalId := principalId
  revokedAt := none

/-- The member, its role and its binding of an approved request. -/
def grantSupport (ids : SupportIds) (now : Timestamp) (approverId requestId : Uuid)
    (request : SupportAccessRequest) (r : Registry) : Tx Registry := do
  let r ← insertMember ids.member request.tenantId request.requesterUserId .active
    (some request.expiresAt) r
  let (roleId, r) ← ensureRole ids.roleId request.tenantId supportRoleName supportRolePermissions r
  let r ← insertBinding ids.member.bindingId
    (supportBinding now ids.member.principalId roleId request) r
  return { r with
    supportRequests := r.supportRequests.update requestId
      (SupportAccessRequest.approve now approverId ids.member.membershipId ids.member.bindingId) }

def approveSupportAccess (ids : SupportIds) (now : Timestamp) (approverId requestId : Uuid)
    (r : Registry) : Tx (Bool × Registry) :=
  match r.supportRequests.lookup requestId with
  | none => .ok (false, r)
  | some request =>
    if request.requesterUserId = approverId then
      .error (.value "support access requires a different approver")
    else if request.approvedAt.isSome || request.revokedAt.isSome || request.expiresAt ≤ now then
      .error (.value "support access request is no longer approvable")
    else if !(r.users.lookup request.requesterUserId).any (·.status = .active) then
      .error (.value "requester account is not active")
    else if r.hasMembership request.tenantId request.requesterUserId then
      .error (.value "requester already has a tenant membership")
    else do
      let r ← grantSupport ids now approverId requestId request r
      return (true, r)

/-- The request with what it has created: the binding ends, the membership is suspended whatever
its status. -/
def revokedSupport (now : Timestamp) (requestId : Uuid) (request : SupportAccessRequest)
    (r : Registry) : Registry :=
  revokeSessions now (fun s ↦ request.membershipId = some s.membershipId)
    { r with
      supportRequests := r.supportRequests.update requestId fun q ↦ { q with revokedAt := some now }
      roleBindings := r.roleBindings.updateWhere (fun id _ ↦ request.roleBindingId = some id) fun b ↦
        { b with revokedAt := some now }
      memberships := r.memberships.updateWhere (fun id _ ↦ request.membershipId = some id)
        (Membership.ended .suspended) }

@[simp] theorem revokedSupport_memberships (now : Timestamp) (requestId : Uuid)
    (request : SupportAccessRequest) (r : Registry) :
    (r.revokedSupport now requestId request).memberships = r.memberships.updateWhere
      (fun id _ ↦ request.membershipId = some id) (Membership.ended .suspended) := rfl

@[simp] theorem revokedSupport_roleBindings (now : Timestamp) (requestId : Uuid)
    (request : SupportAccessRequest) (r : Registry) :
    (r.revokedSupport now requestId request).roleBindings = r.roleBindings.updateWhere
      (fun id _ ↦ request.roleBindingId = some id) fun b ↦ { b with revokedAt := some now } := rfl

def revokeSupportAccess (now : Timestamp) (requestId : Uuid) (r : Registry) : Bool × Registry :=
  match r.supportRequests.lookup requestId with
  | none => (false, r)
  | some request =>
    if request.revokedAt.isSome then (false, r) else (true, r.revokedSupport now requestId request)

/-- The requests one expiry pass revokes, one transaction each. -/
def elapsedSupport (now : Timestamp) (r : Registry) : List Uuid :=
  (r.supportRequests.select fun _ q ↦
    q.approvedAt.isSome && q.revokedAt.isNone && q.expiresAt ≤ now).map Prod.fst

end S3mp.Registry
