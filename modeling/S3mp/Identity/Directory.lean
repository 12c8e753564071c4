import S3mp.Authorization.Evaluator
import S3mp.Relational.Table

/-!
# The directory of one tenant

Principals, memberships, groups, roles and applications, with the columns which
the management stores read or decide on.  A permission of a role is named, not
numbered.  The rows of other tenants are neither read nor written; accounts are
shared between tenants.
-/

namespace S3mp

open Relational Authorization

namespace Directory

inductive PrincipalType where
  | user | group | application
  deriving DecidableEq, Repr

inductive UserStatus where
  | active | disabled | deleted
  deriving DecidableEq, Repr

inductive MembershipStatus where
  | invited | active | suspended | removed
  deriving DecidableEq, Repr

inductive ApplicationStatus where
  | active | suspended | pendingTakeover | deleted
  deriving DecidableEq, Repr

inductive DelegationStatus where
  | active | revoked
  deriving DecidableEq, Repr

structure Principal where
  type : PrincipalType
  enabled : Bool
  deriving DecidableEq, Repr

structure User where
  normalizedEmail : String
  status : UserStatus
  deriving DecidableEq, Repr

structure Membership where
  userId : Uuid
  principalId : Uuid
  status : MembershipStatus
  authorizationVersion : ℕ
  expiresAt : Option Timestamp
  deriving DecidableEq, Repr

structure Group where
  principalId : Uuid
  enabled : Bool
  deriving DecidableEq, Repr

structure GroupMember where
  groupId : Uuid
  principalId : Uuid
  deriving DecidableEq, Repr

structure Role where
  name : String
  builtIn : Bool
  permissions : List String
  deriving DecidableEq, Repr

structure RoleBinding where
  principalId : Uuid
  roleId : Uuid
  effect : Decision
  storageSpaceId : Option Uuid
  canonicalPrefix : Option String
  reason : String
  startsAt : Timestamp
  expiresAt : Timestamp
  createdByPrincipalId : Uuid
  revokedAt : Option Timestamp
  deriving DecidableEq, Repr

structure Application where
  principalId : Uuid
  status : ApplicationStatus
  authorizationVersion : ℕ
  deriving DecidableEq, Repr

structure ApplicationOwner where
  applicationId : Uuid
  ownerPrincipalId : Uuid
  deriving DecidableEq, Repr

/-- The membership an application acts for. -/
structure ApplicationMembershipBinding where
  applicationId : Uuid
  membershipId : Uuid
  createdByPrincipalId : Uuid
  status : DelegationStatus
  revokedAt : Option Timestamp
  revokedBy : Option Uuid
  deriving DecidableEq, Repr

structure Session where
  membershipId : Uuid
  principalId : Uuid
  revokedAt : Option Timestamp
  deriving DecidableEq, Repr

/-- A grant of a platform role to an account. -/
structure PlatformRoleBinding where
  userId : Uuid
  roleName : String
  createdAt : Timestamp
  expiresAt : Option Timestamp
  revokedAt : Option Timestamp
  deriving DecidableEq, Repr

end Directory

structure Directory where
  tenantActive : Bool
  permissions : List String
  principals : Table Uuid Directory.Principal
  users : Table Uuid Directory.User
  memberships : Table Uuid Directory.Membership
  groups : Table Uuid Directory.Group
  groupMembers : Table Uuid Directory.GroupMember
  roles : Table Uuid Directory.Role
  roleBindings : Table Uuid Directory.RoleBinding
  applications : Table Uuid Directory.Application
  owners : Table Uuid Directory.ApplicationOwner
  representatives : Table Uuid Directory.ApplicationMembershipBinding
  sessions : Table Uuid Directory.Session
  platformBindings : Table Uuid Directory.PlatformRoleBinding

namespace Directory

/-! ## Effective bindings -/

/-- The role named `tenant-admin` is a platform role: no binding of it counts. -/
def Role.grants (r : Role) : List String :=
  if r.name = "tenant-admin" then [] else r.permissions

def RoleBinding.current (now : Timestamp) (b : RoleBinding) : Bool :=
  b.revokedAt.isNone && b.startsAt ≤ now && now < b.expiresAt

def RoleBinding.binding (id : Uuid) (b : RoleBinding) (permission : String) : Binding where
  id := id
  permission := permission
  effect := b.effect
  canonicalPrefix := b.canonicalPrefix
  startsAt := b.startsAt
  expiresAt := b.expiresAt
  reason := b.reason
  storageSpaceId := b.storageSpaceId

/-- The member itself, its account and the tenant allow it to be represented; its status is
another matter. -/
def standing (now : Timestamp) (m : Membership) (d : Directory) : Bool :=
  m.expiresAt.all (now < ·) && (d.principals.lookup m.principalId).any (·.enabled) &&
    (d.users.lookup m.userId).any (·.status = .active) && d.tenantActive

/-- The joins of `representative_principal`: the binding leads from an active application with
this principal to an active membership. -/
def ApplicationMembershipBinding.represents (now : Timestamp) (principalId : Uuid) (d : Directory)
    (b : ApplicationMembershipBinding) : Bool :=
  (d.applications.lookup b.applicationId).any
      (fun a ↦ a.principalId = principalId && a.status = .active) &&
    b.status = .active &&
    (d.memberships.lookup b.membershipId).any fun m ↦ m.status = .active && d.standing now m

def representativePrincipal (now : Timestamp) (principalId : Uuid) (d : Directory) : Option Uuid :=
  (d.representatives.selectFirst fun _ b ↦ b.represents now principalId d).bind fun found ↦
    (d.memberships.lookup found.2.membershipId).map (·.principalId)

def isGroupMember (groupId principalId : Uuid) (d : Directory) : Bool :=
  d.groupMembers.anyRow fun _ m ↦ m.groupId = groupId && m.principalId = principalId

/-- The principals of the enabled groups which have one of the subjects as a member. -/
def groupPrincipals (subjects : List Uuid) (d : Directory) : List Uuid :=
  (d.groups.select fun id g ↦ g.enabled && subjects.any fun p ↦ d.isGroupMember id p).map
    (·.2.principalId)

/-- The member and, for an application, the member it acts for. -/
def actingPrincipals (now : Timestamp) (principalId : Uuid) (d : Directory) : List Uuid :=
  (if (d.principals.lookup principalId).any (·.type = .application) then [] else [principalId]) ++
    (d.representativePrincipal now principalId).toList

def subjectPrincipals (now : Timestamp) (principalId : Uuid) (d : Directory) : List Uuid :=
  d.actingPrincipals now principalId ++ d.groupPrincipals (d.actingPrincipals now principalId)

def bindingsForPrincipal (now : Timestamp) (principalId : Uuid) (d : Directory) : List Binding :=
  (d.roleBindings.select fun _ b ↦
    b.principalId ∈ d.subjectPrincipals now principalId && b.current now).flatMap fun (id, b) ↦
      ((d.roles.lookup b.roleId).elim [] Role.grants).map (b.binding id)

/-- A binding which the rows attach to one principal. -/
def Attached (now : Timestamp) (principalId : Uuid) (x : Binding) (d : Directory) : Prop :=
  ∃ id b role permission, d.roleBindings.lookup id = some b ∧ b.principalId = principalId ∧
    b.current now ∧ d.roles.lookup b.roleId = some role ∧ permission ∈ role.grants ∧
      x = b.binding id permission

theorem mem_bindingsForPrincipal {now : Timestamp} {principalId : Uuid} {d : Directory}
    {x : Binding} :
    x ∈ d.bindingsForPrincipal now principalId ↔
      ∃ q ∈ d.subjectPrincipals now principalId, d.Attached now q x := by
  rw [bindingsForPrincipal, List.mem_flatMap]
  constructor
  · rintro ⟨⟨id, b⟩, hrow, hx⟩
    obtain ⟨hlookup, hselected⟩ := AList.mem_select_iff.mp hrow
    rw [Bool.and_eq_true, decide_eq_true_eq] at hselected
    obtain ⟨permission, hpermission, rfl⟩ := List.mem_map.mp hx
    cases hrole : d.roles.lookup b.roleId with
    | none =>
        rw [hrole] at hpermission
        cases hpermission
    | some role =>
        rw [hrole] at hpermission
        exact ⟨b.principalId, hselected.1, id, b, role, permission, hlookup, rfl, hselected.2, hrole,
          hpermission, rfl⟩
  · rintro ⟨q, hq, id, b, role, permission, hlookup, rfl, hcurrent, hrole, hpermission, rfl⟩
    refine ⟨(id, b), AList.mem_select_iff.mpr ⟨hlookup, ?_⟩, List.mem_map.mpr ⟨permission, ?_, rfl⟩⟩
    · rw [Bool.and_eq_true, decide_eq_true_eq]
      exact ⟨hq, hcurrent⟩
    · rw [hrole]
      exact hpermission

/-- A binding names the row it comes from. -/
theorem Attached.principal_unique {now : Timestamp} {p q : Uuid} {x : Binding} {d : Directory}
    (hp : d.Attached now p x) (hq : d.Attached now q x) : p = q := by
  obtain ⟨id, b, _, _, hb, rfl, -, -, -, rfl⟩ := hp
  obtain ⟨id', b', _, _, hb', rfl, -, -, -, heq⟩ := hq
  obtain rfl : id = id' := congrArg Binding.id heq
  rw [hb] at hb'
  rw [Option.some.inj hb']

theorem mem_groupPrincipals {subjects : List Uuid} {d : Directory} {q : Uuid} :
    q ∈ d.groupPrincipals subjects ↔
      ∃ id g, d.groups.lookup id = some g ∧ g.enabled ∧ (∃ p ∈ subjects, d.isGroupMember id p) ∧
        g.principalId = q := by
  rw [groupPrincipals, List.mem_map]
  constructor
  · rintro ⟨⟨id, g⟩, hrow, rfl⟩
    obtain ⟨hlookup, hselected⟩ := AList.mem_select_iff.mp hrow
    rw [Bool.and_eq_true, List.any_eq_true] at hselected
    exact ⟨id, g, hlookup, hselected.1, hselected.2, rfl⟩
  · rintro ⟨id, g, hlookup, henabled, hmember, rfl⟩
    refine ⟨(id, g), AList.mem_select_iff.mpr ⟨hlookup, ?_⟩, rfl⟩
    rw [Bool.and_eq_true, List.any_eq_true]
    exact ⟨henabled, hmember⟩

theorem mem_subjectPrincipals {now : Timestamp} {principalId q : Uuid} {d : Directory} :
    q ∈ d.subjectPrincipals now principalId ↔
      q ∈ d.actingPrincipals now principalId ∨
        ∃ id g, d.groups.lookup id = some g ∧ g.enabled ∧
          (∃ p ∈ d.actingPrincipals now principalId, d.isGroupMember id p) ∧ g.principalId = q := by
  rw [subjectPrincipals, List.mem_append, mem_groupPrincipals]

end Directory

end S3mp
