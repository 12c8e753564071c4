import S3mp.Authorization.Scope
import S3mp.Identity.Context
import S3mp.Identity.DirectoryStore

/-!
# Management of members, groups, roles and bindings

The mutations of `authorization/application/management_service.py` and
`identity/application/management_service.py`, over the directory.  A call reads
the clock once.  Audit records of denied delegations are left out.
-/

namespace S3mp.Authorization

open Relational Directory Identity

/-- `datetime.min` and `datetime.max`, in UTC. -/
def datetimeMin : Timestamp := -62135596800000000

def datetimeMax : Timestamp := 253402300799999999

def tenantMemberPermissions : List String := ["applications.read", "quotas.read"]

/-- What the service is configured with; `baselineId` names the virtual bindings of a member. -/
structure ManagementService where
  knownPermissions : List String
  delegablePermissions : Option (List String)
  tenantAdminPermissions : Option (List String)
  baselineId : String → Uuid

structure PlatformGrant where
  id : Uuid
  startsAt : Timestamp
  expiresAt : Timestamp
  reason : String
  deriving DecidableEq, Repr

/-- The joins of `platform_tenant_admin_binding`. -/
def tenantAdminGrant (now : Timestamp) (principalId : Uuid) (d : Directory)
    (g : PlatformRoleBinding) : Bool :=
  g.roleName = "tenant-admin" && g.revokedAt.isNone && g.expiresAt.all (now < ·) &&
    d.memberships.anyRow fun _ m ↦ m.userId = g.userId && m.principalId = principalId &&
      m.status = .active && d.standing now m

/-- The latest grant. -/
def platformTenantAdminBinding (now : Timestamp) (principalId : Uuid) (d : Directory) :
    Option PlatformGrant :=
  let found := d.platformBindings.select fun _ g ↦ tenantAdminGrant now principalId d g
  (found.mergeSort fun g g' ↦ decide (g'.2.createdAt ≤ g.2.createdAt)).head?.map fun (id, g) ↦
    ⟨id, g.createdAt, g.expiresAt.getD datetimeMax, "platform tenant-admin grant"⟩

def exceedsAuthority {α : Type} (message : String) : Tx α :=
  raise "delegation_exceeds_authority" message 403

/-- The result of a store call, or 404. -/
def found (label : String) : Tx (Bool × Directory) → Tx Directory
  | .ok (true, d) => .ok d
  | .ok (false, _) => raise "resource_not_found" (label ++ " not found") 404
  | .error e => .error e

namespace ManagementService

variable (S : ManagementService) (ctx : PrincipalContext) (now : Timestamp)

def baselineBindings : List Binding :=
  tenantMemberPermissions.map fun permission ↦
    ⟨S.baselineId permission, permission, .allow, none, datetimeMin, datetimeMax,
      "tenant member baseline", none⟩

def platformBindings (principalId : Uuid) (d : Directory) : List Binding :=
  match S.tenantAdminPermissions, platformTenantAdminBinding now principalId d with
  | some permissions, some g => permissions.map fun permission ↦
      ⟨g.id, permission, .allow, none, g.startsAt, g.expiresAt, g.reason, none⟩
  | _, _ => []

/-- `_bindings`. -/
def bindings (principalId : Uuid) (includePlatformTenantAdmin includeTenantMemberBaseline : Bool)
    (d : Directory) : List Binding :=
  d.bindingsForPrincipal now principalId ++
    (if includeTenantMemberBaseline then S.baselineBindings else []) ++
    if includePlatformTenantAdmin then S.platformBindings now principalId d else []

/-- The bindings a delegation is measured by. -/
def actorBindings (d : Directory) : List Binding :=
  S.bindings now ctx.principalId true (ctx.subjectKind = .human) d

def requirePermission (permission : String) (d : Directory) : Tx Unit :=
  let bindings := S.bindings now ctx.principalId (ctx.subjectKind = .human)
    (ctx.subjectKind = .human) d
  if Allowed bindings permission none "" now then .ok ()
  else raise "permission_denied" "Permission denied" 403

/-- The dependency of the management routes. -/
def managementPermission (permission : String) (d : Directory) : Tx Unit :=
  if ctx.subjectKind = .application then
    raise "permission_denied" "API keys cannot access management APIs" 403
  else S.requirePermission ctx now permission d

def isPlatformTenantAdmin (d : Directory) : Bool :=
  ctx.subjectKind = .human && S.tenantAdminPermissions.isSome &&
    (platformTenantAdminBinding now ctx.principalId d).isSome

def validatePermissions (permissions : List String) : Tx Unit :=
  if permissions.all (· ∈ S.knownPermissions) then .ok ()
  else raise "validation_failed" "Unknown permission" 422

def validateDelegablePermissions (permissions : List String) (allowNonDelegable : Bool) :
    Tx Unit :=
  if allowNonDelegable || S.delegablePermissions.all fun delegable ↦
      permissions.all (· ∈ delegable) then .ok ()
  else exceedsAuthority "Permission is not delegable"

def requireDelegableSubset (permissions : List String) (storageSpaceId : Option Uuid)
    (canonicalPrefix : Option String) (bypass : Bool) (d : Directory) : Tx Unit :=
  if bypass then .ok ()
  else permissions.forM fun permission ↦
    match evaluateAt permission (S.actorBindings ctx now d) storageSpaceId
      (canonicalPrefix.getD "") now with
    | none => .error (.value (prefixError (canonicalPrefix.getD "")))
    | some decision =>
      if decision.decision ≠ .allow then exceedsAuthority "Delegation exceeds authority"
      else .ok ()

/-- An allow binding which, taken alone, allows the permission for the tenant as a whole. -/
def authorizes (permission : String) (b : Binding) : Bool :=
  b.permission = permission && b.effect = .allow && decide (Allowed [b] permission none "" now)

/-- Every caller asks for the tenant as a whole. -/
def requireDelegationExpiryBound (permissions : List String) (expiresAt : Timestamp)
    (d : Directory) : Tx Unit :=
  permissions.forM fun permission ↦
    if (S.actorBindings ctx now d).any fun b ↦
        authorizes now permission b && expiresAt ≤ b.expiresAt then .ok ()
    else exceedsAuthority "Delegation expiry exceeds authority"

/-- `get_role`. -/
def getRole (roleId : Uuid) (d : Directory) : Option Role :=
  (d.roles.lookup roleId).filter (·.name ≠ "tenant-admin")

/-- What `validate_role_grant` and `maximum_role_grant_expiry` begin with. -/
def delegableRole (roleId : Uuid) (d : Directory) : Tx Role :=
  match getRole roleId d with
  | none => raise "resource_not_found" "Role not found" 404
  | some role =>
    if role.name = "tenant-admin" then
      raise "validation_failed" "tenant-admin is a platform role and cannot be bound as a tenant role"
        422
    else do
      S.validateDelegablePermissions role.permissions (S.isPlatformTenantAdmin ctx now d)
      S.requireDelegableSubset ctx now role.permissions none none (S.isPlatformTenantAdmin ctx now d) d
      return role

def validateRoleGrant (roleId : Uuid) (expiresAt : Timestamp) (d : Directory) : Tx Unit := do
  let role ← S.delegableRole ctx now roleId d
  if expiresAt ≤ now then raise "validation_failed" "expires_at must be in the future" 422
  else S.requireDelegationExpiryBound ctx now role.permissions expiresAt d

def latestExpiry (permission : String) (d : Directory) : Tx Timestamp :=
  match (((S.actorBindings ctx now d).filter (authorizes now permission)).map (·.expiresAt)).max? with
  | none => exceedsAuthority "Delegation expiry exceeds authority"
  | some expiresAt => .ok expiresAt

def maximumRoleGrantExpiry (roleId : Uuid) (d : Directory) : Tx Timestamp := do
  let role ← S.delegableRole ctx now roleId d
  let expiries ← role.permissions.mapM fun permission ↦ S.latestExpiry ctx now permission d
  match expiries.min? with
  | none => raise "validation_failed" "Role must contain permissions" 422
  | some expiresAt => .ok expiresAt

/-- `get_active_role_binding`. -/
def hasActiveRoleBinding (principalId roleId : Uuid) (d : Directory) : Bool :=
  d.roleBindings.anyRow fun _ b ↦ b.principalId = principalId && b.roleId = roleId &&
    b.revokedAt.isNone && (d.principals.lookup principalId).any (·.type ∈ [.user, .group])

def duplicateBinding {α : Type} : Tx α :=
  raise "duplicate_resource"
    "This member or group already has this role binding; update it instead" 409

def createRoleBinding (id principalId : Uuid) (data : GrantData) (d : Directory) : Tx Directory := do
  S.validateRoleGrant ctx now data.roleId data.expiresAt d
  match d.principals.lookup principalId with
  | none => raise "resource_not_found" "Principal not found" 404
  | some principal =>
    if principal.type ∉ [.user, .group] then
      raise "validation_failed" "Role bindings can only target tenant members or user groups" 422
    else if hasActiveRoleBinding principalId data.roleId d then duplicateBinding
    else match d.createRoleBinding id now principalId data ctx.principalId with
      | .error (.integrity _) => duplicateBinding
      | result => found "Role binding" result

def updateRoleBinding (id : Uuid) (data : GrantData) (d : Directory) : Tx Directory :=
  match d.getRoleBinding id with
  | none => raise "resource_not_found" "Role binding not found" 404
  | some _ => do
    S.validateRoleGrant ctx now data.roleId data.expiresAt d
    found "Role binding" (d.updateRoleBinding now id data)

def createMember (ids : MemberIds) (normalizedEmail : String) (roleId : Uuid) (d : Directory) :
    Tx Directory := do
  let expiresAt ← S.maximumRoleGrantExpiry ctx now roleId d
  match d.createMember ids now normalizedEmail roleId ctx.principalId expiresAt with
  | .error (.value message) =>
    if message = "role not found" then raise "resource_not_found" "Role not found" 404
    else raise "duplicate_resource" "Membership already exists" 409
  | result => result

/-- The bindings of a role which are effective now. -/
def bindingsForRole (roleId : Uuid) (d : Directory) : List RoleBinding :=
  (d.roleBindings.select fun _ b ↦ b.roleId = roleId && b.current now).map Prod.snd

/-- The permissions a role gains, at the scopes of its effective bindings. -/
def validateAdded (roleId : Uuid) (permissions : List String) (d : Directory) : Tx Unit :=
  match getRole roleId d with
  | none => .ok ()
  | some role =>
    let added := permissions.filter (· ∉ role.permissions)
    (bindingsForRole now roleId d).forM fun b ↦
      S.requireDelegableSubset ctx now added b.storageSpaceId b.canonicalPrefix
        (S.isPlatformTenantAdmin ctx now d) d

/-- What `update_role` checks when it is given permissions. -/
def validateRoleEdit (roleId : Uuid) (permissions : List String) (d : Directory) : Tx Unit := do
  S.validatePermissions permissions
  S.validateDelegablePermissions permissions (S.isPlatformTenantAdmin ctx now d)
  S.requireDelegableSubset ctx now permissions none none (S.isPlatformTenantAdmin ctx now d) d
  S.validateAdded ctx now roleId permissions d

def updateRole (roleId : Uuid) (name : Option String) (permissions : Option (List String))
    (d : Directory) : Tx Directory :=
  if name = some "tenant-admin" then
    raise "validation_failed" "tenant-admin is a platform role and cannot be created in a tenant" 422
  else if (getRole roleId d).any (·.builtIn) then
    raise "permission_denied" "Built-in roles are immutable" 403
  else do
    permissions.elim (.ok ()) fun names ↦ S.validateRoleEdit ctx now roleId names d
    match d.updateRole now roleId name permissions with
    | .error (.value message) => raise "validation_failed" message 422
    | result => found "Role" result

end ManagementService

/-! ## Mutations without a delegation check -/

def revokeRoleBinding (now : Timestamp) (id : Uuid) (d : Directory) : Tx Directory :=
  found "Role binding" (d.revokeRoleBinding now id)

def deleteGroup (now : Timestamp) (groupId : Uuid) (d : Directory) : Tx Directory :=
  found "Group" (d.deleteGroup now groupId)

def addGroupMember (id : Uuid) (now : Timestamp) (groupId membershipId : Uuid) (d : Directory) :
    Tx Directory :=
  match d.addGroupMember id now groupId membershipId with
  | .error (.value _) => raise "duplicate_resource" "Group membership already exists" 409
  | result => found "Group or member" result

def removeGroupMember (now : Timestamp) (groupId membershipId : Uuid) (d : Directory) :
    Tx Directory :=
  found "Group membership" (d.removeGroupMember now groupId membershipId)

def updateMember (now : Timestamp) (membershipId : Uuid) (status : MembershipStatus)
    (d : Directory) : Tx Directory :=
  found "Member" (d.updateMember now membershipId status)

end S3mp.Authorization
