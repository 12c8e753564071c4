import S3mp.Database
import S3mp.Identity.Directory

/-!
# Transactions on the directory

The mutations of `identity_repository.py` and the membership binding of
`applications/infrastructure/repositories.py`, each one transaction.  The answer
says whether the row was found; nothing is written otherwise.  A permission, a
group or an application is bumped by adding one to `authorization_version`.
-/

namespace S3mp.Directory

open Relational Authorization

/-! ## Version bumps -/

def Membership.bumped (m : Membership) : Membership :=
  { m with authorizationVersion := m.authorizationVersion + 1 }

def Application.bumped (a : Application) : Application :=
  { a with authorizationVersion := a.authorizationVersion + 1 }

def revokeSessions (now : Timestamp) (p : Session → Bool) (d : Directory) : Directory :=
  { d with
    sessions := d.sessions.updateWhere (fun _ s ↦ p s && s.revokedAt.isNone)
      fun s ↦ { s with revokedAt := some now } }

def bumpMembershipVersion (now : Timestamp) (principalId : Uuid) (d : Directory) : Directory :=
  revokeSessions now (fun s ↦ s.principalId = principalId)
    { d with
      memberships := d.memberships.updateWhere (fun _ m ↦ m.principalId = principalId)
        Membership.bumped }

/-- An active binding leads from the application to a membership of the principal. -/
def boundThrough (principalId applicationId : Uuid) (d : Directory) : Bool :=
  d.representatives.anyRow fun _ b ↦
    b.applicationId = applicationId && b.status = .active &&
      (d.memberships.lookup b.membershipId).any (·.principalId = principalId)

def bumpBoundApplicationVersions (principalId : Uuid) (d : Directory) : Directory :=
  { d with
    applications := d.applications.updateWhere (fun id _ ↦ d.boundThrough principalId id)
      Application.bumped }

def bumpApplicationsOf (principalId : Uuid) (d : Directory) : Directory :=
  { d with
    applications := d.applications.updateWhere (fun _ a ↦ a.principalId = principalId)
      Application.bumped }

/-- What `_bump_affected_principals` does for a direct subject and for each member of a group. -/
def bumpSubject (now : Timestamp) (d : Directory) (principalId : Uuid) : Directory :=
  ((d.bumpMembershipVersion now principalId).bumpBoundApplicationVersions principalId)
    |>.bumpApplicationsOf principalId

def memberPrincipals (groupId : Uuid) (d : Directory) : List Uuid :=
  (d.groupMembers.select fun _ m ↦ m.groupId = groupId).map (·.2.principalId)

def affectedPrincipals (principalId : Uuid) (d : Directory) : List Uuid :=
  match d.principals.lookup principalId with
  | none => []
  | some principal =>
    if principal.type ≠ .group then [principalId]
    else match d.groups.selectFirst fun _ g ↦ g.principalId = principalId with
      | none => []
      | some (groupId, _) => d.memberPrincipals groupId

/-- Invalidate a direct subject or every member of a group subject. -/
def bumpAffectedPrincipals (now : Timestamp) (d : Directory) (principalId : Uuid) : Directory :=
  (d.affectedPrincipals principalId).foldl (bumpSubject now) d

def bumpBoundPrincipals (now : Timestamp) (roleId : Uuid) (d : Directory) : Directory :=
  ((d.roleBindings.select fun _ b ↦ b.roleId = roleId && b.revokedAt.isNone).map
    (·.2.principalId)).foldl (bumpAffectedPrincipals now) d

/-! ## Members -/

structure MemberIds where
  userId : Uuid
  principalId : Uuid
  membershipId : Uuid
  bindingId : Uuid
  deriving DecidableEq, Repr

def invitation (principalId roleId createdBy : Uuid) (now expiresAt : Timestamp) : RoleBinding where
  principalId := principalId
  roleId := roleId
  effect := .allow
  storageSpaceId := none
  canonicalPrefix := none
  reason := "Initial role granted with member invitation"
  startsAt := now
  expiresAt := expiresAt
  createdByPrincipalId := createdBy
  revokedAt := none

/-- The account with this address, or a new one. -/
def invitedUser (id : Uuid) (normalizedEmail : String) (d : Directory) :
    Tx (Uuid × Table Uuid User) :=
  match d.users.selectFirst fun _ u ↦ u.normalizedEmail = normalizedEmail with
  | some (userId, _) => .ok (userId, d.users)
  | none => do
    let users ← insertRow "user_account_pkey" id ⟨normalizedEmail, .active⟩ d.users
    return (id, users)

/-- The role is looked up last; a failure rolls everything back. -/
def createMember (ids : MemberIds) (now : Timestamp) (normalizedEmail : String)
    (roleId createdBy : Uuid) (expiresAt : Timestamp) (d : Directory) : Tx Directory := do
  let (userId, users) ← d.invitedUser ids.userId normalizedEmail
  if d.memberships.anyRow fun _ m ↦ m.userId = userId then
    .error (.value "membership already exists")
  else
    let principals ← insertRow "principal_pkey" ids.principalId ⟨.user, true⟩ d.principals
    let memberships ← insertRow "membership_pkey" ids.membershipId
      ⟨userId, ids.principalId, .invited, 1, none⟩ d.memberships
    if roleId ∉ d.roles then
      .error (.value "role not found")
    else
      let roleBindings ← insertRow "role_binding_pkey" ids.bindingId
        (invitation ids.principalId roleId createdBy now expiresAt) d.roleBindings
      return { d with
        users := users
        principals := principals
        memberships := memberships
        roleBindings := roleBindings }

/-- The query for `active_owner`. -/
def hasActiveOwner (now : Timestamp) (applicationId : Uuid) (d : Directory) : Bool :=
  d.owners.anyRow fun _ o ↦ o.applicationId = applicationId &&
    d.memberships.anyRow fun _ m ↦
      m.principalId = o.ownerPrincipalId && m.status = .active && m.expiresAt.all (now < ·)

def owns (principalId applicationId : Uuid) (d : Directory) : Bool :=
  d.owners.anyRow fun _ o ↦ o.applicationId = applicationId && o.ownerPrincipalId = principalId

/-- The applications of the principal which are left without an active owner. -/
def containOwnerless (now : Timestamp) (principalId : Uuid) (d : Directory) : Directory :=
  { d with
    applications := d.applications.updateWhere
      (fun id a ↦ d.owns principalId id && !d.hasActiveOwner now id && a.status = .active)
      fun a ↦ { a.bumped with status := .pendingTakeover } }

/-- The membership with its new status. -/
def statusChanged (membershipId : Uuid) (status : MembershipStatus) (d : Directory) : Directory :=
  { d with
    memberships := d.memberships.update membershipId fun m ↦ { m.bumped with status := status } }

def updateMember (now : Timestamp) (membershipId : Uuid) (status : MembershipStatus)
    (d : Directory) : Tx (Bool × Directory) :=
  match d.memberships.lookup membershipId with
  | none => .ok (false, d)
  | some row =>
    let changed := revokeSessions now (fun s ↦ s.membershipId = membershipId)
      (d.statusChanged membershipId status)
    .ok (true, if status ≠ .active then changed.containOwnerless now row.principalId else changed)

/-! ## Groups -/

/-- Rows whose references to the principal forbid its deletion. -/
def restrictsDeletion (principalId : Uuid) (d : Directory) : Bool :=
  d.roleBindings.anyRow (fun _ b ↦ b.createdByPrincipalId = principalId) ||
    d.owners.anyRow (fun _ o ↦ o.ownerPrincipalId = principalId) ||
    d.representatives.anyRow fun _ b ↦ b.createdByPrincipalId = principalId

/-- The group, its principal and what the foreign keys delete with them.  No membership and no
application has the principal of a group. -/
def withoutGroup (groupId principalId : Uuid) (d : Directory) : Directory :=
  { d with
    groups := d.groups.deleteWhere fun id g ↦ id = groupId || g.principalId = principalId
    principals := d.principals.erase principalId
    groupMembers := d.groupMembers.deleteWhere fun _ m ↦
      m.groupId = groupId || m.principalId = principalId
    roleBindings := d.roleBindings.deleteWhere fun _ b ↦ b.principalId = principalId }

def deleteGroup (now : Timestamp) (groupId : Uuid) (d : Directory) : Tx (Bool × Directory) :=
  match d.groups.lookup groupId with
  | none => .ok (false, d)
  | some row =>
    if d.restrictsDeletion row.principalId then integrityError "principal is referenced"
    else .ok (true, (d.bumpAffectedPrincipals now row.principalId).withoutGroup groupId
      row.principalId)

def addGroupMember (id : Uuid) (now : Timestamp) (groupId membershipId : Uuid) (d : Directory) :
    Tx (Bool × Directory) :=
  match d.groups.lookup groupId, d.memberships.lookup membershipId with
  | some _, some member =>
    if d.isGroupMember groupId member.principalId then
      .error (.value "group membership already exists")
    else do
      let groupMembers ← insertRow "group_member_pkey" id ⟨groupId, member.principalId⟩
        d.groupMembers
      return (true, { d with groupMembers := groupMembers }.bumpMembershipVersion now
        member.principalId)
  | _, _ => .ok (false, d)

def removeGroupMember (now : Timestamp) (groupId membershipId : Uuid) (d : Directory) :
    Tx (Bool × Directory) :=
  match d.memberships.lookup membershipId with
  | none => .ok (false, d)
  | some member =>
    match d.groupMembers.selectFirst fun _ m ↦
      m.groupId = groupId && m.principalId = member.principalId with
    | none => .ok (false, d)
    | some (id, _) =>
      .ok (true, { d with groupMembers := d.groupMembers.erase id }.bumpMembershipVersion now
        member.principalId)

/-! ## Roles and their bindings -/

/-- `_replace_role_permissions`. -/
def replacePermissions (names : List String) (d : Directory) : Tx (List String) :=
  let missing := (names.filter (· ∉ d.permissions)).dedup
  if missing.isEmpty then .ok names.dedup
  else .error (.value ("unknown permissions: " ++
    ", ".intercalate (missing.mergeSort fun a b ↦ decide (a ≤ b))))

def newPermissions (role : Role) (permissions : Option (List String)) (d : Directory) :
    Tx (List String) :=
  permissions.elim (.ok role.permissions) d.replacePermissions

/-- The unique constraint on the names of roles. -/
def roleNameTaken (roleId : Uuid) (name : String) (d : Directory) : Bool :=
  d.roles.anyRow fun id r ↦ id ≠ roleId && r.name = name

def updateRole (now : Timestamp) (roleId : Uuid) (name : Option String)
    (permissions : Option (List String)) (d : Directory) : Tx (Bool × Directory) :=
  match d.roles.lookup roleId with
  | none => .ok (false, d)
  | some role =>
    if d.roleNameTaken roleId (name.getD role.name) then integrityError "role_tenant_id_name_key"
    else do
      let permissions ← d.newPermissions role permissions
      return (true, bumpBoundPrincipals now roleId
        { d with roles := d.roles.update roleId fun r ↦
            { r with name := name.getD role.name, permissions := permissions } })

/-- What a request says of a role binding. -/
structure GrantData where
  roleId : Uuid
  effect : Decision
  reason : String
  startsAt : Option Timestamp
  expiresAt : Timestamp
  deriving DecidableEq, Repr

/-- The partial index `uq_role_binding_active_principal_role`. -/
def bindingTaken (id principalId roleId : Uuid) (d : Directory) : Bool :=
  d.roleBindings.anyRow fun j b ↦
    j ≠ id && b.principalId = principalId && b.roleId = roleId && b.revokedAt.isNone

def grantedBinding (principalId createdBy : Uuid) (now : Timestamp) (data : GrantData) :
    RoleBinding where
  principalId := principalId
  roleId := data.roleId
  effect := data.effect
  storageSpaceId := none
  canonicalPrefix := none
  reason := data.reason
  startsAt := data.startsAt.getD now
  expiresAt := data.expiresAt
  createdByPrincipalId := createdBy
  revokedAt := none

/-- The services pass neither a space nor a prefix. -/
def createRoleBinding (id : Uuid) (now : Timestamp) (principalId : Uuid) (data : GrantData)
    (createdBy : Uuid) (d : Directory) : Tx (Bool × Directory) :=
  match d.principals.lookup principalId with
  | none => .ok (false, d)
  | some principal =>
    if data.roleId ∉ d.roles || principal.type ∉ [.user, .group] then .ok (false, d)
    else if d.bindingTaken id principalId data.roleId then
      integrityError "uq_role_binding_active_principal_role"
    else do
      let roleBindings ← insertRow "role_binding_pkey" id
        (grantedBinding principalId createdBy now data) d.roleBindings
      return (true, { d with roleBindings := roleBindings }.bumpAffectedPrincipals now principalId)

/-- `get_role_binding`: an unrevoked binding of a member or of a group. -/
def getRoleBinding (id : Uuid) (d : Directory) : Option RoleBinding :=
  (d.roleBindings.lookup id).filter fun b ↦ b.revokedAt.isNone &&
    (d.principals.lookup b.principalId).any (·.type ∈ [.user, .group])

def RoleBinding.rewritten (now : Timestamp) (data : GrantData) (b : RoleBinding) : RoleBinding :=
  { b with
    roleId := data.roleId
    effect := data.effect
    reason := data.reason
    startsAt := data.startsAt.getD now
    expiresAt := data.expiresAt }

def updateRoleBinding (now : Timestamp) (id : Uuid) (data : GrantData) (d : Directory) :
    Tx (Bool × Directory) :=
  match d.getRoleBinding id with
  | none => .ok (false, d)
  | some row =>
    if data.roleId ∉ d.roles then .ok (false, d)
    else if d.bindingTaken id row.principalId data.roleId then
      integrityError "uq_role_binding_active_principal_role"
    else .ok (true,
      { d with roleBindings := d.roleBindings.update id (RoleBinding.rewritten now data) }
        |>.bumpAffectedPrincipals now row.principalId)

def revokeRoleBinding (now : Timestamp) (id : Uuid) (d : Directory) : Tx (Bool × Directory) :=
  match d.getRoleBinding id with
  | none => .ok (false, d)
  | some row => .ok (true,
      { d with roleBindings := d.roleBindings.update id fun b ↦ { b with revokedAt := some now } }
        |>.bumpAffectedPrincipals now row.principalId)

/-! ## Applications -/

/-- The membership which may be bound, with an enabled principal and an active account. -/
def bindableMembership (membershipId : Uuid) (d : Directory) : Option Membership :=
  (d.memberships.lookup membershipId).filter fun m ↦
    (d.principals.lookup m.principalId).any (·.enabled) &&
      (d.users.lookup m.userId).any (·.status = .active)

/-- The binding of the application, moved to the membership, or a new one. -/
def delegation (id applicationId membershipId actorPrincipalId : Uuid) (d : Directory) :
    Tx (Table Uuid ApplicationMembershipBinding) :=
  match d.representatives.selectFirst fun _ b ↦ b.applicationId = applicationId with
  | none => insertRow "application_membership_binding_pkey" id
      ⟨applicationId, membershipId, actorPrincipalId, .active, none, none⟩ d.representatives
  | some (bound, _) => .ok (d.representatives.update bound fun b ↦
      { b with membershipId := membershipId, status := .active, revokedAt := none, revokedBy := none })

def bindMembership (id : Uuid) (applicationId membershipId actorPrincipalId : Uuid)
    (expectedApplicationVersion : Option ℕ) (d : Directory) : Tx Directory :=
  match (d.applications.lookup applicationId).filter (·.status ≠ .deleted) with
  | none => .error (.value "application_not_found")
  | some app =>
    if !expectedApplicationVersion.all (· = app.authorizationVersion) then
      .error (.value "authorization_version_conflict")
    else match d.bindableMembership membershipId with
      | none => .error (.value "membership_not_found")
      | some membership =>
        if membership.status ≠ .active then .error (.value "membership_not_active")
        else do
          let representatives ← d.delegation id applicationId membershipId actorPrincipalId
          return { d with
            representatives := representatives
            applications := d.applications.update applicationId Application.bumped }

def revokeMembershipBinding (now : Timestamp) (applicationId actorPrincipalId : Uuid)
    (d : Directory) : Tx (Bool × Directory) :=
  match d.representatives.selectFirst (fun _ b ↦ b.applicationId = applicationId),
    d.applications.lookup applicationId with
  | some (bound, _), some _ => .ok (true, { d with
      representatives := d.representatives.update bound fun b ↦
        { b with status := .revoked, revokedAt := some now, revokedBy := some actorPrincipalId }
      applications := d.applications.update applicationId Application.bumped })
  | _, _ => .ok (false, d)

end S3mp.Directory
