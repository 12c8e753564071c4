import S3mp.Authorization.EffectivePermissions
import S3mp.Identity.CachedAuthorization
import S3mp.Platform.Baseline

/-!
# What a supporter may do

An approved support request makes a member of the tenant with one binding, of
the role which the tenant has under the name of the support role.  As long as the
tenant gives that member nothing else, its permissions are those of this role, of
every member and of a platform grant of its account.
-/

namespace S3mp.Directory

open Relational Authorization Transition
open Platform (supportRoleName supportRolePermissions ensurePermissions mem_ensurePermissions)

variable {d d' d'' : Directory} {k p : Uuid}

/-! ## The approval in the directory of the tenant -/

structure SupportIds where
  principalId : Uuid
  membershipId : Uuid
  bindingId : Uuid
  roleId : Uuid
  deriving DecidableEq, Repr

/-- `ensure_support_role`: the role of this name, whatever it is, or a new one. -/
def ensureSupportRole (id : Uuid) (d : Directory) : Tx (Uuid × Directory) :=
  let d := { d with permissions := ensurePermissions supportRolePermissions d.permissions }
  match d.roles.selectFirst fun _ r ↦ r.name = supportRoleName with
  | some (roleId, _) => .ok (roleId, { d with
      roles := d.roles.update roleId fun r ↦
        { r with permissions := ensurePermissions supportRolePermissions r.permissions } })
  | none => do
    let roles ← insertRow "role_pkey" id
      ⟨supportRoleName, true, ensurePermissions supportRolePermissions []⟩ d.roles
    return (id, { d with roles := roles })

def supportBinding (principalId roleId : Uuid) (now expiresAt : Timestamp) : RoleBinding where
  principalId := principalId
  roleId := roleId
  effect := .allow
  storageSpaceId := none
  canonicalPrefix := none
  reason := "approved platform support access"
  startsAt := now
  expiresAt := expiresAt
  createdByPrincipalId := principalId
  revokedAt := none

/-- What `approve_support_access` writes for an approvable request of the account. -/
def approveSupport (ids : SupportIds) (now expiresAt : Timestamp) (userId : Uuid)
    (d : Directory) : Tx Directory := do
  if !(d.users.lookup userId).any (·.status = .active) then
    .error (.value "requester account is not active")
  else if d.memberships.anyRow fun _ m ↦ m.userId = userId then
    .error (.value "requester already has a tenant membership")
  else
    let principals ← insertRow "principal_pkey" ids.principalId ⟨.user, true⟩ d.principals
    let memberships ← insertRow "membership_pkey" ids.membershipId
      ⟨userId, ids.principalId, .active, 1, some expiresAt⟩ d.memberships
    let (roleId, d) ← ensureSupportRole ids.roleId
      { d with principals := principals, memberships := memberships }
    let roleBindings ← insertRow "role_binding_pkey" ids.bindingId
      (supportBinding ids.principalId roleId now expiresAt) d.roleBindings
    return { d with roleBindings := roleBindings }

/-! ## The supporter -/

/-- The tenant has given the member nothing but the support binding. -/
structure Supporter (k p : Uuid) (d : Directory) : Prop where
  membership : ∃ m, d.memberships.lookup k = some m ∧ m.principalId = p
  binding : ∀ {id b}, d.roleBindings.lookup id = some b → b.principalId = p →
    b.effect = .allow ∧ b.storageSpaceId = none ∧ b.canonicalPrefix = none
  alone : ∀ {id g}, d.groupMembers.lookup id = some g → g.principalId ≠ p

/-- The principals which bindings and group memberships name exist. -/
structure Linked (d : Directory) : Prop where
  binding : ∀ {id b}, d.roleBindings.lookup id = some b → b.principalId ∈ d.principals
  groupMember : ∀ {id g}, d.groupMembers.lookup id = some g → g.principalId ∈ d.principals

theorem ensureSupportRole_frame {id roleId : Uuid}
    (h : ensureSupportRole id d = .ok (roleId, d')) :
    d'.memberships = d.memberships ∧ d'.roleBindings = d.roleBindings ∧
      d'.groupMembers = d.groupMembers := by
  unfold ensureSupportRole at h
  dsimp only at h
  split at h
  · cases h
    exact ⟨rfl, rfl, rfl⟩
  · obtain ⟨roles, -, hr⟩ := Except.bind_eq_ok.mp h
    cases hr
    exact ⟨rfl, rfl, rfl⟩

theorem supporter_of_approveSupport {ids : SupportIds} {now expiresAt : Timestamp} {userId : Uuid}
    (hlinked : d.Linked) (h : approveSupport ids now expiresAt userId d = .ok d') :
    Supporter ids.membershipId ids.principalId d' := by
  unfold approveSupport at h
  split at h
  · cases h
  · split at h
    · cases h
    · obtain ⟨principals, hprincipal, hrest⟩ := Except.bind_eq_ok.mp h
      obtain ⟨memberships, hmembership, hrest⟩ := Except.bind_eq_ok.mp hrest
      obtain ⟨⟨roleId, d₁⟩, hrole, hrest⟩ := Except.bind_eq_ok.mp hrest
      obtain ⟨roleBindings, hbinding, hr⟩ := Except.bind_eq_ok.mp hrest
      cases hr
      obtain ⟨hfresh, -⟩ := insertRow_eq_ok.mp hprincipal
      obtain ⟨-, rfl⟩ := insertRow_eq_ok.mp hmembership
      obtain ⟨-, rfl⟩ := insertRow_eq_ok.mp hbinding
      obtain ⟨hmemberships, hbindings, hmembers⟩ := ensureSupportRole_frame hrole
      refine ⟨⟨⟨userId, ids.principalId, .active, 1, some expiresAt⟩, ?_, rfl⟩,
        fun {id b} hb hp ↦ ?_, fun {id g} hg hp ↦ ?_⟩
      · change d₁.memberships.lookup ids.membershipId = _
        rw [hmemberships]
        exact AList.lookup_insert _
      · change (d₁.roleBindings.insert ids.bindingId _).lookup id = some b at hb
        rw [hbindings, AList.lookup_insert'] at hb
        split at hb
        · obtain rfl := Option.some.inj hb
          exact ⟨rfl, rfl, rfl⟩
        · exact absurd (hp ▸ hlinked.binding hb) hfresh
      · change d₁.groupMembers.lookup id = some g at hg
        rw [hmembers] at hg
        exact hfresh (hp ▸ hlinked.groupMember hg)

/-! ## What the tenant does later -/

/-- The step gives the principal no binding and no group membership: its bindings are at most
revoked or deleted. -/
structure KeepsSupporter (k p : Uuid) (d d' : Directory) : Prop where
  membership : ∀ {m}, d.memberships.lookup k = some m →
    ∃ m', d'.memberships.lookup k = some m' ∧ m'.principalId = m.principalId
  binding : ∀ {id b'}, d'.roleBindings.lookup id = some b' → b'.principalId = p →
    ∃ b t, d.roleBindings.lookup id = some b ∧ b' = { b with revokedAt := t }
  groupMember : ∀ {id g}, d'.groupMembers.lookup id = some g → g.principalId = p →
    d.groupMembers.lookup id = some g

theorem KeepsSupporter.trans (h : KeepsSupporter k p d d') (h' : KeepsSupporter k p d' d'') :
    KeepsSupporter k p d d'' := by
  refine ⟨fun hm ↦ ?_, fun {id b''} hb'' hp ↦ ?_, fun hg hp ↦ h.groupMember (h'.groupMember hg hp) hp⟩
  · obtain ⟨m', hm', hprincipal⟩ := h.membership hm
    obtain ⟨m'', hm'', hprincipal'⟩ := h'.membership hm'
    exact ⟨m'', hm'', hprincipal'.trans hprincipal⟩
  · obtain ⟨b', t', hb', rfl⟩ := h'.binding hb'' hp
    obtain ⟨b, t, hb, rfl⟩ := h.binding hb' hp
    exact ⟨b, t', hb, rfl⟩

theorem Supporter.kept (h : Supporter k p d) (hkeeps : KeepsSupporter k p d d') :
    Supporter k p d' := by
  obtain ⟨m, hm, hp⟩ := h.membership
  obtain ⟨m', hm', hprincipal⟩ := hkeeps.membership hm
  refine ⟨⟨m', hm', hprincipal.trans hp⟩, fun {id b'} hb' hp' ↦ ?_, fun hg hp' ↦ ?_⟩
  · obtain ⟨b, t, hb, rfl⟩ := hkeeps.binding hb' hp'
    have hrow := h.binding hb hp'
    exact hrow
  · exact h.alone (hkeeps.groupMember hg hp') hp'

theorem keepsSupporter_refl (k p : Uuid) (d : Directory) : KeepsSupporter k p d d :=
  ⟨fun hm ↦ ⟨_, hm, rfl⟩, fun {_ b} hb _ ↦ ⟨b, b.revokedAt, hb, rfl⟩, fun hg _ ↦ hg⟩

theorem Bumps.keepsSupporter (h : d.Bumps d') : KeepsSupporter k p d d' := by
  refine ⟨fun {m} hm ↦ ?_, fun {id b} hb _ ↦ ?_, fun hg _ ↦ ?_⟩
  · obtain ⟨n, hn⟩ := h.membership k
    exact ⟨m.advanced n, by rw [hn, hm, Option.map_some], rfl⟩
  · rw [h.roleBindings_eq] at hb
    exact ⟨b, b.revokedAt, hb, rfl⟩
  · rw [h.groupMembers_eq] at hg
    exact hg

/-- Members, bindings and group memberships as before. -/
theorem keepsSupporter_of_eq (hm : d'.memberships = d.memberships)
    (hb : d'.roleBindings = d.roleBindings) (hg : d'.groupMembers = d.groupMembers) :
    KeepsSupporter k p d d' := by
  refine ⟨fun h ↦ ⟨_, hm ▸ h, rfl⟩, fun {_ b} h _ ↦ ⟨b, b.revokedAt, hb ▸ h, rfl⟩, fun h _ ↦ hg ▸ h⟩

theorem keepsSupporter_bindings {roleBindings : Table Uuid RoleBinding}
    (h : ∀ {id b'}, roleBindings.lookup id = some b' → b'.principalId = p →
      ∃ b t, d.roleBindings.lookup id = some b ∧ b' = { b with revokedAt := t }) :
    KeepsSupporter k p d { d with roleBindings := roleBindings } :=
  ⟨fun hm ↦ ⟨_, hm, rfl⟩, h, fun hg _ ↦ hg⟩

theorem keepsSupporter_groupMembers {groupMembers : Table Uuid GroupMember}
    (h : ∀ {id g}, groupMembers.lookup id = some g → g.principalId = p →
      d.groupMembers.lookup id = some g) :
    KeepsSupporter k p d { d with groupMembers := groupMembers } :=
  ⟨fun hm ↦ ⟨_, hm, rfl⟩, fun {_ b} hb _ ↦ ⟨b, b.revokedAt, hb, rfl⟩, h⟩

theorem keepsSupporter_roles (roles : Table Uuid Role) :
    KeepsSupporter k p d { d with roles := roles } :=
  keepsSupporter_of_eq rfl rfl rfl

/-- The command gives the principal a binding or a group membership, or rewrites a binding of it. -/
def GivesSupporter (p : Uuid) (d : Directory) : ManagementCmd → Prop
  | .createRoleBinding _ _ principalId _ _ => principalId = p
  | .updateRoleBinding _ id _ => ∃ b, d.roleBindings.lookup id = some b ∧ b.principalId = p
  | .addGroupMember _ _ _ membershipId =>
      ∃ m, d.memberships.lookup membershipId = some m ∧ m.principalId = p
  | _ => False

theorem keepsSupporter_updateRoleBinding {now : Timestamp} {id : Uuid} {data : GrantData}
    {found : Bool} (hc : ¬ ∃ b, d.roleBindings.lookup id = some b ∧ b.principalId = p)
    (h : updateRoleBinding now id data d = .ok (found, d')) : KeepsSupporter k p d d' := by
  unfold updateRoleBinding at h
  split at h
  · cases h
    exact keepsSupporter_refl k p d
  · rename_i row hrow
    split at h
    · cases h
      exact keepsSupporter_refl k p d
    · split at h
      · simp at h
      · cases h
        refine (keepsSupporter_bindings fun {j b'} hb' hp ↦ ?_).trans
          (bumps_affectedPrincipals now _ row.principalId).keepsSupporter
        rw [AList.lookup_update] at hb'
        split at hb'
        · rename_i heq
          subst heq
          obtain ⟨b, hb, rfl⟩ := Option.map_eq_some_iff.mp hb'
          exact absurd ⟨b, hb, hp⟩ hc
        · exact ⟨b', b'.revokedAt, hb', rfl⟩

theorem keepsSupporter_revokeRoleBinding {now : Timestamp} {id : Uuid} {found : Bool}
    (h : revokeRoleBinding now id d = .ok (found, d')) : KeepsSupporter k p d d' := by
  unfold revokeRoleBinding at h
  split at h
  · cases h
    exact keepsSupporter_refl k p d
  · rename_i row hrow
    cases h
    refine (keepsSupporter_bindings fun {j b'} hb' _ ↦ ?_).trans
      (bumps_affectedPrincipals now _ row.principalId).keepsSupporter
    rw [AList.lookup_update] at hb'
    split at hb'
    · rename_i heq
      subst heq
      obtain ⟨b, hb, rfl⟩ := Option.map_eq_some_iff.mp hb'
      exact ⟨b, some now, hb, rfl⟩
    · exact ⟨b', b'.revokedAt, hb', rfl⟩

theorem keepsSupporter_createRoleBinding {id principalId createdBy : Uuid} {now : Timestamp}
    {data : GrantData} {found : Bool} (hc : principalId ≠ p)
    (h : createRoleBinding id now principalId data createdBy d = .ok (found, d')) :
    KeepsSupporter k p d d' := by
  unfold createRoleBinding at h
  split at h
  · cases h
    exact keepsSupporter_refl k p d
  · split at h
    · cases h
      exact keepsSupporter_refl k p d
    · split at h
      · simp at h
      · obtain ⟨roleBindings, hinsert, hr⟩ := Except.bind_eq_ok.mp h
        obtain ⟨-, rfl⟩ := insertRow_eq_ok.mp hinsert
        cases hr
        refine (keepsSupporter_bindings fun {j b'} hb' hp ↦ ?_).trans
          (bumps_affectedPrincipals now _ principalId).keepsSupporter
        rw [AList.lookup_insert'] at hb'
        split at hb'
        · obtain rfl := Option.some.inj hb'
          exact absurd hp hc
        · exact ⟨b', b'.revokedAt, hb', rfl⟩

theorem keepsSupporter_addGroupMember {id groupId membershipId : Uuid} {now : Timestamp}
    {found : Bool} (hc : ¬ ∃ m, d.memberships.lookup membershipId = some m ∧ m.principalId = p)
    (h : addGroupMember id now groupId membershipId d = .ok (found, d')) :
    KeepsSupporter k p d d' := by
  unfold addGroupMember at h
  split at h
  · rename_i group member hgroup hmember
    split at h
    · cases h
    · obtain ⟨groupMembers, hinsert, hr⟩ := Except.bind_eq_ok.mp h
      obtain ⟨-, rfl⟩ := insertRow_eq_ok.mp hinsert
      cases hr
      refine (keepsSupporter_groupMembers fun {j g} hg hp ↦ ?_).trans
        (bumps_membershipVersion _ now member.principalId).keepsSupporter
      rw [AList.lookup_insert'] at hg
      split at hg
      · obtain rfl := Option.some.inj hg
        exact absurd ⟨member, hmember, hp⟩ hc
      · exact hg
  · cases h
    exact keepsSupporter_refl k p d

theorem keepsSupporter_removeGroupMember {groupId membershipId : Uuid} {now : Timestamp}
    {found : Bool} (h : removeGroupMember now groupId membershipId d = .ok (found, d')) :
    KeepsSupporter k p d d' := by
  unfold removeGroupMember at h
  split at h
  · cases h
    exact keepsSupporter_refl k p d
  · rename_i member hmember
    split at h
    · cases h
      exact keepsSupporter_refl k p d
    · rename_i id row hrow
      cases h
      refine (keepsSupporter_groupMembers fun {j g} hg _ ↦ ?_).trans
        (bumps_membershipVersion _ now member.principalId).keepsSupporter
      by_cases hj : j = id
      · rw [hj, AList.lookup_erase] at hg
        cases hg
      · rwa [AList.lookup_erase_ne hj] at hg

theorem keepsSupporter_deleteGroup {groupId : Uuid} {now : Timestamp} {found : Bool}
    (h : deleteGroup now groupId d = .ok (found, d')) : KeepsSupporter k p d d' := by
  unfold deleteGroup at h
  split at h
  · cases h
    exact keepsSupporter_refl k p d
  · rename_i row hrow
    split at h
    · simp at h
    · cases h
      refine (bumps_affectedPrincipals now d row.principalId).keepsSupporter.trans
        ⟨fun hm ↦ ⟨_, hm, rfl⟩, fun {j b} hb _ ↦ ?_, fun {j g} hg _ ↦ ?_⟩
      · change (AList.deleteWhere _ _).lookup j = some b at hb
        rw [AList.lookup_deleteWhere] at hb
        exact ⟨b, b.revokedAt, (Option.filter_eq_some_iff.mp hb).1, rfl⟩
      · change (AList.deleteWhere _ _).lookup j = some g at hg
        rw [AList.lookup_deleteWhere] at hg
        exact (Option.filter_eq_some_iff.mp hg).1

theorem keepsSupporter_updateMember {now : Timestamp} {membershipId : Uuid}
    {status : MembershipStatus} {found : Bool}
    (h : updateMember now membershipId status d = .ok (found, d')) : KeepsSupporter k p d d' := by
  unfold updateMember at h
  split at h
  · cases h
    exact keepsSupporter_refl k p d
  · rename_i row hrow
    have hchanged : KeepsSupporter k p d (revokeSessions now (fun s ↦ s.membershipId = membershipId)
        (d.statusChanged membershipId status)) := by
      refine ⟨fun {m} hm ↦ ?_, fun {_ b} hb _ ↦ ⟨b, b.revokedAt, hb, rfl⟩, fun hg _ ↦ hg⟩
      have hlookup : (d.statusChanged membershipId status).memberships.lookup k =
          if k = membershipId then some { m.bumped with status := status } else some m := by
        change (d.memberships.update membershipId _).lookup k = _
        rw [AList.lookup_update]
        split
        · rename_i heq
          rw [← heq, hm, Option.map_some]
        · exact hm
      by_cases hk : k = membershipId
      · exact ⟨_, hlookup.trans (if_pos hk), rfl⟩
      · exact ⟨_, hlookup.trans (if_neg hk), rfl⟩
    cases h
    split
    · exact hchanged.trans (keepsSupporter_of_eq rfl rfl rfl)
    · exact hchanged

theorem keepsSupporter_of_manage {c : ManagementCmd} (hc : ¬ GivesSupporter p d c)
    (h : manage c d = .ok d') : KeepsSupporter k p d d' := by
  cases c with
  | createRoleBinding =>
      obtain ⟨found, h⟩ := snd_eq_ok.mp h
      exact keepsSupporter_createRoleBinding hc h
  | updateRoleBinding =>
      obtain ⟨found, h⟩ := snd_eq_ok.mp h
      exact keepsSupporter_updateRoleBinding hc h
  | revokeRoleBinding =>
      obtain ⟨found, h⟩ := snd_eq_ok.mp h
      exact keepsSupporter_revokeRoleBinding h
  | updateRole now roleId name permissions =>
      obtain ⟨found, h⟩ := snd_eq_ok.mp h
      unfold updateRole at h
      split at h
      · cases h
        exact keepsSupporter_refl k p d
      · split at h
        · simp at h
        · obtain ⟨new, -, hr⟩ := Except.bind_eq_ok.mp h
          cases hr
          exact (keepsSupporter_roles _).trans (bumps_boundPrincipals now _ roleId).keepsSupporter
  | updateMember =>
      obtain ⟨found, h⟩ := snd_eq_ok.mp h
      exact keepsSupporter_updateMember h
  | deleteGroup =>
      obtain ⟨found, h⟩ := snd_eq_ok.mp h
      exact keepsSupporter_deleteGroup h
  | addGroupMember =>
      obtain ⟨found, h⟩ := snd_eq_ok.mp h
      exact keepsSupporter_addGroupMember hc h
  | removeGroupMember =>
      obtain ⟨found, h⟩ := snd_eq_ok.mp h
      exact keepsSupporter_removeGroupMember h
  | bindMembership id applicationId membershipId actorPrincipalId expected =>
      rw [manage, bindMembership] at h
      split at h
      · cases h
      · split at h
        · cases h
        · split at h
          · cases h
          · split at h
            · cases h
            · obtain ⟨representatives, -, hr⟩ := Except.bind_eq_ok.mp h
              cases hr
              exact keepsSupporter_of_eq rfl rfl rfl
  | revokeMembershipBinding now applicationId actorPrincipalId =>
      obtain ⟨found, h⟩ := snd_eq_ok.mp h
      unfold revokeMembershipBinding at h
      split at h
      · cases h
        exact keepsSupporter_of_eq rfl rfl rfl
      · cases h
        exact keepsSupporter_refl k p d

/-- Over a run of management transactions which give the principal nothing. -/
theorem keepsSupporter_run {cs : List ManagementCmd}
    (hmeets : Meets manage (fun d c ↦ ¬ GivesSupporter p d c) d cs) :
    KeepsSupporter k p d (run manage d cs) :=
  run_invariant (I := KeepsSupporter k p d)
    (fun _ _ _ hkeeps hc hexec ↦ hkeeps.trans (keepsSupporter_of_manage hc hexec))
    (keepsSupporter_refl k p d) hmeets

theorem keepsSupporter_sample :
    KeepsSupporter 100 1 Sample.delegating (run manage Sample.delegating Sample.revoking) := by
  have hmeets : Meets manage (fun d c ↦ ¬ GivesSupporter 1 d c) Sample.delegating Sample.revoking :=
    ⟨not_false, not_false, trivial⟩
  exact keepsSupporter_run hmeets

end S3mp.Directory

/-! ## The permissions of the supporter -/

namespace S3mp.Authorization

open Relational Directory Identity Transition

variable {S : ManagementService} {t : Timestamp} {d d₁ d' : Directory} {k p : Uuid}

def supporterPermissions : List String :=
  Platform.supportRolePermissions ++ Platform.tenantMemberPermissions

def fileContentPermissions : List String :=
  ["files.list", "files.read", "files.write", "files.delete", "files.copy", "files.move",
    "presigned_urls.issue"]

theorem supporterPermissions_noFileContent :
    ∀ q ∈ supporterPermissions, q ∉ fileContentPermissions := by
  decide

/-- The role bound to the principal and a platform grant in force give no more. -/
structure Within (S : ManagementService) (t : Timestamp) (p : Uuid) (d : Directory) : Prop where
  role : ∀ id b role, d.roleBindings.lookup id = some b → b.principalId = p → b.current t →
    d.roles.lookup b.roleId = some role → ∀ q ∈ role.grants, q ∈ supporterPermissions
  platform : ∀ b ∈ S.platformBindings t p d, b.startsAt ≤ t → t < b.expiresAt →
    b.permission ∈ supporterPermissions

def tenantWide (permission : String) : Place :=
  ⟨permission, none, "", rfl⟩

/-- A binding without a scope speaks about its permission in the tenant as a whole. -/
theorem speaks_tenantWide {b : Binding} (hspace : b.storageSpaceId = none)
    (hunscoped : b.canonicalPrefix = none) (hstarts : b.startsAt ≤ t) (hends : t < b.expiresAt) :
    b.speaks (tenantWide b.permission) t := by
  simp only [Binding.speaks, Binding.covers, tenantWide, hspace, hunscoped, scopeMatches,
    Bool.and_eq_true, Bool.or_eq_true, decide_eq_true_eq, truthy]
  exact ⟨⟨⟨⟨trivial, hstarts⟩, hends⟩, Or.inl trivial⟩, rfl⟩

theorem permission_of_speaks {x : Place} {b : Binding} (h : b.speaks x t) :
    b.permission = x.permission ∧ b.startsAt ≤ t ∧ t < b.expiresAt := by
  simp only [Binding.speaks, Binding.covers, Bool.and_eq_true, decide_eq_true_eq] at h
  exact ⟨h.1.1.1.1, h.1.1.1.2, h.1.1.2⟩

/-- The bindings which count for the supporter are those of its own principal. -/
theorem mem_effective_supporter (hd : d.Consistent) (hs : Supporter k p d) {b : Binding} :
    b ∈ d.effective t (.member k) ↔ d.Attached t p b := by
  obtain ⟨m, hm, rfl⟩ := hs.membership
  have hacts : d.Acts t (.member k) m.principalId := by
    change d.principal (.member k) = some m.principalId
    rw [principal, hm, Option.map_some]
  rw [hd.mem_effective_acting hacts]
  constructor
  · rintro ⟨q, rfl | ⟨id, g, -, -, hmember, -⟩, hattached⟩
    · exact hattached
    · obtain ⟨j, row, hrow, -, hp⟩ := isGroupMember_iff.mp hmember
      exact absurd hp (hs.alone hrow)
  · intro hattached
    exact ⟨m.principalId, Or.inl rfl, hattached⟩

theorem not_says_deny (hd : d.Consistent) (hs : Supporter k p d) (x : Place) :
    ¬ Says (d.effective t (.member k)) .deny x t := by
  rintro ⟨b, hb, -, hdeny⟩
  obtain ⟨id, row, role, q, hrow, hp, -, -, -, rfl⟩ := (mem_effective_supporter hd hs).mp hb
  have hallow : row.effect = .deny := hdeny
  rw [(hs.binding hrow hp).1] at hallow
  cases hallow

theorem permits_within_iff (hd : d.Consistent) (hs : Supporter k p d) :
    (∀ x, Permits S x t d (.member k) → x.permission ∈ supporterPermissions) ↔ Within S t p d := by
  obtain ⟨m, hm, hp⟩ := hs.membership
  constructor
  · intro h
    refine ⟨fun id b role hb hbp hcurrent hrole q hq ↦ ?_, fun b hb hstarts hends ↦ ?_⟩
    · obtain ⟨heffect, hspace, hunscoped⟩ := hs.binding hb hbp
      refine h (tenantWide q) (permits_iff.mpr ⟨not_says_deny hd hs _, Or.inl ?_⟩)
      have htimes := hcurrent
      simp only [RoleBinding.current, Bool.and_eq_true, decide_eq_true_eq] at htimes
      refine ⟨b.binding id q, (mem_effective_supporter hd hs).mpr ?_,
        speaks_tenantWide (b := b.binding id q) hspace hunscoped htimes.1.2 htimes.2, heffect⟩
      exact ⟨id, b, role, q, hb, hbp, hcurrent, hrole, hq, rfl⟩
    · refine h (tenantWide b.permission) (permits_iff.mpr ⟨not_says_deny hd hs _, Or.inr ?_⟩)
      have hscope : b.storageSpaceId = none ∧ b.canonicalPrefix = none := by
        have hmem := hb
        unfold ManagementService.platformBindings at hmem
        split at hmem
        · obtain ⟨q, -, rfl⟩ := List.mem_map.mp hmem
          exact ⟨rfl, rfl⟩
        · cases hmem
      refine ⟨k, m, rfl, hm, b, List.mem_append_right _ (hp ▸ hb), ?_⟩
      exact speaks_tenantWide hscope.1 hscope.2 hstarts hends
  · intro h x hpermits
    obtain ⟨-, ⟨b, hb, hspeaks, -⟩ | ⟨k', m', hk, hm', b, hb, hspeaks⟩⟩ := permits_iff.mp hpermits
    · obtain ⟨id, row, role, q, hrow, hrowp, hcurrent, hrole, hq, rfl⟩ :=
        (mem_effective_supporter hd hs).mp hb
      rw [← (permission_of_speaks hspeaks).1]
      exact h.role id row role hrow hrowp hcurrent hrole q hq
    · cases hk
      obtain rfl : m = m' := Option.some.inj (hm.symm.trans hm')
      obtain ⟨hpermission, hstarts, hends⟩ := permission_of_speaks hspeaks
      rw [← hpermission]
      rcases List.mem_append.mp hb with hbaseline | hplatform
      · obtain ⟨q, hq, rfl⟩ := List.mem_map.mp hbaseline
        exact List.mem_append_right _ hq
      · exact h.platform b (hp ▸ hplatform) hstarts hends

/-- After an approval, and as long as the tenant gives the supporter nothing else, it has only the
permissions of supporters and members, and so none on file content, exactly when the role bound
to it and a platform grant of its account give no more. -/
theorem support_permissions_iff (hlinked : d.Linked) {ids : SupportIds} {now expiresAt : Timestamp}
    {userId : Uuid} (happrove : approveSupport ids now expiresAt userId d = .ok d₁)
    (hkeeps : KeepsSupporter ids.membershipId ids.principalId d₁ d') (hd : d'.Consistent) :
    (∀ x, Permits S x t d' (.member ids.membershipId) →
        x.permission ∈ supporterPermissions ∧ x.permission ∉ fileContentPermissions) ↔
      Within S t ids.principalId d' := by
  have hs := (supporter_of_approveSupport hlinked happrove).kept hkeeps
  rw [← permits_within_iff hd hs]
  constructor
  · exact fun h x hx ↦ (h x hx).1
  · exact fun h x hx ↦ ⟨h x hx, supporterPermissions_noFileContent _ (h x hx)⟩

namespace SupportSample

def service : ManagementService where
  knownPermissions := Platform.tenantAdminPermissions
  delegablePermissions := none
  tenantAdminPermissions := some Platform.tenantAdminPermissions
  baselineId := fun _ ↦ 0

/-- A tenant without members, and an account of the platform. -/
def tenant (roles : Table Uuid Role) : Directory where
  tenantActive := true
  permissions := []
  principals := ∅
  users := (∅ : Table Uuid User).insert 20 ⟨"sue@example.com", .active⟩
  memberships := ∅
  groups := ∅
  groupMembers := ∅
  roles := roles
  roleBindings := ∅
  applications := ∅
  owners := ∅
  representatives := ∅
  sessions := ∅
  platformBindings := ∅

def ids : SupportIds := ⟨8, 110, 400, 300⟩

/-- The tenant after the approval, with the role the supporter is bound to. -/
def supported (permissions : List String) (role : Role) : Directory :=
  { tenant ((∅ : Table Uuid Role).insert 300 role) with
    permissions := permissions
    principals := (∅ : Table Uuid Principal).insert 8 ⟨.user, true⟩
    memberships := (∅ : Table Uuid Membership).insert 110 ⟨20, 8, .active, 1, some 100⟩
    roleBindings := (∅ : Table Uuid RoleBinding).insert 400 (supportBinding 8 300 1 100) }

def builtIn : Role := ⟨Platform.supportRoleName, true, Platform.supportRolePermissions⟩

/-- The tenant's own role of this name, with what the approval adds to it. -/
def ownRole : Role :=
  ⟨Platform.supportRoleName, false,
    Platform.ensurePermissions Platform.supportRolePermissions ["files.read"]⟩

theorem linked_tenant (roles : Table Uuid Role) : (tenant roles).Linked :=
  ⟨fun h ↦ (by cases h), fun h ↦ (by cases h)⟩

theorem consistent_supported (permissions : List String) (role : Role) :
    (supported permissions role).Consistent := by
  refine ⟨fun h ↦ ?_, fun h h' _ ↦ ?_, fun h ↦ (by cases h), fun h ↦ (by cases h),
    fun h ↦ (by cases h), fun h ↦ (by cases h), fun h ↦ (by cases h), fun h ↦ (by cases h),
    fun h ↦ (by cases h)⟩
  · obtain ⟨-, rfl⟩ := AList.lookup_single.mp h
    exact ⟨true, rfl⟩
  · exact (AList.lookup_single.mp h).1.trans (AList.lookup_single.mp h').1.symm

theorem within_builtIn : Within service 5 8 (supported Platform.supportRolePermissions builtIn) := by
  refine ⟨fun id b role hb _ _ hrole q hq ↦ ?_, fun b hb ↦ ?_⟩
  · obtain ⟨-, rfl⟩ := AList.lookup_single.mp hb
    obtain ⟨-, rfl⟩ := AList.lookup_single.mp hrole
    have hgrants : ∀ q ∈ builtIn.grants, q ∈ supporterPermissions := by decide
    exact hgrants q hq
  · have hnone : service.platformBindings 5 8
        (supported Platform.supportRolePermissions builtIn) = [] :=
      (show Unprivileged 0 8 _ from fun _ _ _ _ _ _ hg ↦ (by cases hg)).platformBindings (by decide)
    rw [hnone] at hb
    cases hb

end SupportSample

theorem support_permissions_sample :
    ¬ Permits SupportSample.service (tenantWide "files.read") 5
      (SupportSample.supported Platform.supportRolePermissions SupportSample.builtIn)
      (.member 110) := by
  intro h
  have happrove : approveSupport SupportSample.ids 1 100 20 (SupportSample.tenant ∅) =
      .ok (SupportSample.supported Platform.supportRolePermissions SupportSample.builtIn) := rfl
  have hwithin := (support_permissions_iff (SupportSample.linked_tenant ∅) happrove
    (keepsSupporter_refl _ _ _) (SupportSample.consistent_supported _ _)).mpr
    SupportSample.within_builtIn _ h
  exact hwithin.2 (by decide)

/-- The tenant has a role of its own under the name of the support role. -/
theorem support_reads_files : ¬ ∀ (S : ManagementService) (d d' : Directory) (ids : SupportIds)
    (now expiresAt t : Timestamp) (userId : Uuid), d.Linked →
      approveSupport ids now expiresAt userId d = .ok d' → d'.Consistent →
        ∀ x, Permits S x t d' (.member ids.membershipId) → x.permission ∈ supporterPermissions := by
  intro h
  have hlookup : (SupportSample.supported
      (Platform.ensurePermissions Platform.supportRolePermissions [])
      SupportSample.ownRole).roles.lookup 300 = some SupportSample.ownRole :=
    AList.lookup_insert _
  have happrove : approveSupport SupportSample.ids 1 100 20 (SupportSample.tenant
      ((∅ : Table Uuid Role).insert 300 ⟨Platform.supportRoleName, false, ["files.read"]⟩)) =
        .ok (SupportSample.supported
          (Platform.ensurePermissions Platform.supportRolePermissions [])
          SupportSample.ownRole) := rfl
  have hall := h SupportSample.service _ _ SupportSample.ids 1 100 5 20
    (SupportSample.linked_tenant _) happrove (SupportSample.consistent_supported _ _)
  have hs := supporter_of_approveSupport (SupportSample.linked_tenant _) happrove
  have hwithin := (permits_within_iff (SupportSample.consistent_supported _ _) hs).mp hall
  have hfiles := hwithin.role 400 _ _ (AList.lookup_insert _) rfl (by decide) hlookup "files.read"
    (by decide)
  exact absurd hfiles (by decide)

end S3mp.Authorization
