import S3mp.Authorization.EffectivePermissions

/-!
# Management without a delegation check

Groups, memberships and the revocation of bindings change what others may do
without being measured by the authority of the actor.  A call escalates when it
gives somebody what the actor may not do: the bindings of a group, or what a
deny binding kept back.
-/

namespace S3mp.Authorization

open Relational Directory Identity Transition

inductive AdminCmd where
  | addGroupMember (now : Timestamp) (id groupId membershipId : Uuid)
  | removeGroupMember (now : Timestamp) (groupId membershipId : Uuid)
  | deleteGroup (now : Timestamp) (groupId : Uuid)
  | revokeRoleBinding (now : Timestamp) (id : Uuid)
  | updateRoleBinding (now : Timestamp) (id : Uuid) (data : GrantData)
  | updateMember (now : Timestamp) (membershipId : Uuid) (status : MembershipStatus)

def AdminCmd.now : AdminCmd → Timestamp
  | .addGroupMember now _ _ _ => now
  | .removeGroupMember now _ _ => now
  | .deleteGroup now _ => now
  | .revokeRoleBinding now _ => now
  | .updateRoleBinding now _ _ => now
  | .updateMember now _ _ => now

section

variable (S : ManagementService) (ctx : PrincipalContext)

/-- The permission of the route, then the call of the service. -/
def administer : AdminCmd → Directory → Tx Directory
  | .addGroupMember now id groupId membershipId, d => do
    S.managementPermission ctx now "groups.manage" d
    addGroupMember id now groupId membershipId d
  | .removeGroupMember now groupId membershipId, d => do
    S.managementPermission ctx now "groups.manage" d
    removeGroupMember now groupId membershipId d
  | .deleteGroup now groupId, d => do
    S.managementPermission ctx now "groups.manage" d
    deleteGroup now groupId d
  | .revokeRoleBinding now id, d => do
    S.managementPermission ctx now "role_bindings.manage" d
    revokeRoleBinding now id d
  | .updateRoleBinding now id data, d => do
    S.managementPermission ctx now "role_bindings.manage" d
    S.updateRoleBinding ctx now id data d
  | .updateMember now membershipId status, d => do
    S.managementPermission ctx now "members.manage" d
    updateMember now membershipId status d

end

section

variable (S : ManagementService) (x : Place) (t : Timestamp) (d : Directory)

/-- A deny binding among these is what keeps the subject from the place. -/
def Lifts (i : Holder) (removed : Set Binding) : Prop :=
  Says (d.effective t i ∩ removed) .deny x t ∧ Permitted S x t d i (d.effective t i \ removed)

/-- A platform grant of the account, in force but for the status of the membership. -/
def AccountGives (row : Membership) : Prop :=
  ∃ permissions id g, S.tenantAdminPermissions = some permissions ∧ x.permission ∈ permissions ∧
    d.platformBindings.lookup id = some g ∧ g.userId = row.userId ∧ g.roleName = "tenant-admin" ∧
    g.revokedAt = none ∧ g.createdAt ≤ t ∧ g.expiresAt.all (t < ·)

/-- What the command gives a subject at a place where it is not permitted.  What a rewritten
binding grants is measured by the deny bindings of the `actor` alone. -/
def Gains (actor i : Holder) : AdminCmd → Prop
  | .addGroupMember _ _ groupId membershipId => ∃ group member,
      d.groups.lookup groupId = some group ∧ d.memberships.lookup membershipId = some member ∧
      d.Acts t i member.principalId ∧ Says (d.groupBindings t group) .allow x t ∧
      ¬ Says (d.groupBindings t group) .deny x t ∧ ¬ Says (d.effective t i) .deny x t
  | .removeGroupMember _ groupId membershipId => ∃ group member,
      d.groups.lookup groupId = some group ∧ d.memberships.lookup membershipId = some member ∧
      d.Acts t i member.principalId ∧ Lifts S x t d i (d.groupBindings t group)
  | .deleteGroup _ groupId => ∃ group, d.groups.lookup groupId = some group ∧
      Lifts S x t d i (d.groupBindings t group)
  | .revokeRoleBinding _ id => Lifts S x t d i {b | b.id = id}
  | .updateRoleBinding now id data => ∃ row, d.roleBindings.lookup id = some row ∧
      ((Lifts S x t d i {b | b.id = id} ∧
          ¬ Says (d.rowBindings t i id (row.rewritten now data)) .deny x t) ∨
        (Says (d.rowBindings t i id (row.rewritten now data)) .allow x t ∧
          ¬ Says (d.effective t i \ {b | b.id = id}) .deny x t ∧
          Says (d.effective t actor) .deny x t))
  | .updateMember _ membershipId status => ∃ row, d.memberships.lookup membershipId = some row ∧
      status = .active ∧ row.status ≠ .active ∧ d.standing t row ∧
      ¬ Says (d.effective t (.member membershipId)) .deny x t ∧
      ((∃ a, i = .application a ∧ d.Delegates membershipId a ∧
          Says (d.effective t (.member membershipId)) .allow x t) ∨
        (i = .member membershipId ∧ AccountGives S x t d row))

end

/-- Some subject gains what neither it nor the actor may do. -/
def Escalates (S : ManagementService) (actor : Holder) (d : Directory) (c : AdminCmd) : Prop :=
  ∃ i x t, c.now ≤ t ∧ ¬ Permits S x t d i ∧ ¬ Permits S x t d actor ∧ Gains S x t d actor i c

/-- Whoever is permitted something afterwards was so before, or the actor was. -/
structure Confines (S : ManagementService) (actor : Holder) (now : Timestamp) (d d' : Directory) :
    Prop where
  consistent : d'.Consistent
  accounts : KeepsAccounts d d'
  confined : ∀ {x t i}, now ≤ t → Permits S x t d' i →
    Permits S x t d i ∨ Permits S x t d actor

variable {S : ManagementService} {ctx : PrincipalContext} {actor i : Holder} {x : Place}
  {now t : Timestamp} {d d' : Directory}

/-! ## What stays the same -/

theorem innate_congr (haccounts : KeepsAccounts d d')
    (hgrant : ∀ p g, tenantAdminGrant t p d' g ↔ tenantAdminGrant t p d g) :
    Innate S x t d' i ↔ Innate S x t d i := by
  have hplatform : ∀ p, S.platformBindings t p d' = S.platformBindings t p d := fun p ↦
    platformBindings_congr haccounts.platformBindings (hgrant p)
  constructor
  · rintro ⟨k, m', rfl, hm', b, hb, hspeaks⟩
    have hrow := haccounts.membership k
    rw [hm', Option.map_some] at hrow
    obtain ⟨m, hm, heq⟩ := Option.map_eq_some_iff.mp hrow.symm
    rw [hplatform, ← (Prod.mk.inj heq).1] at hb
    exact ⟨k, m, rfl, hm, b, hb, hspeaks⟩
  · rintro ⟨k, m, rfl, hm, b, hb, hspeaks⟩
    have hrow := haccounts.membership k
    rw [hm, Option.map_some] at hrow
    obtain ⟨m', hm', heq⟩ := Option.map_eq_some_iff.mp hrow
    rw [← hplatform, ← (Prod.mk.inj heq).1] at hb
    exact ⟨k, m', rfl, hm', b, hb, hspeaks⟩

theorem keepsAccounts_of_bumps (h : d.Bumps d') : KeepsAccounts d d' := by
  refine ⟨by rw [h.rest], fun k ↦ ?_⟩
  obtain ⟨n, hn⟩ := h.membership k
  rw [hn, Option.map_map]
  rfl

theorem tenantAdminGrant_bumps (h : d.Bumps d') (p : Uuid) (g : PlatformRoleBinding) :
    tenantAdminGrant t p d' g ↔ tenantAdminGrant t p d g := by
  rw [tenantAdminGrant_iff, tenantAdminGrant_iff]
  refine and_congr_right fun _ ↦ and_congr_right fun _ ↦ and_congr_right fun _ ↦ ?_
  constructor
  · rintro ⟨k, m', hm', huser, hp, hstatus, hstanding⟩
    obtain ⟨m, n, hm, rfl⟩ := h.membership_eq_some hm'
    exact ⟨k, m, hm, huser, hp, hstatus, h.standing_eq m n ▸ hstanding⟩
  · rintro ⟨k, m, hm, huser, hp, hstatus, hstanding⟩
    obtain ⟨n, hn⟩ := h.membership k
    rw [hm, Option.map_some] at hn
    exact ⟨k, m.advanced n, hn, huser, hp, hstatus, (h.standing_eq m n).trans hstanding⟩

/-- A bump permits nothing. -/
theorem permits_bumps (hd : d.Consistent) (h : d.Bumps d') :
    Permits S x t d' i ↔ Permits S x t d i := by
  rw [permits_iff, permits_iff, h.effective_eq hd, Permitted, Permitted,
    innate_congr (keepsAccounts_of_bumps h) (tenantAdminGrant_bumps h)]

theorem KeepsAccounts.trans {d'' : Directory} (h : KeepsAccounts d d') (h' : KeepsAccounts d' d'') :
    KeepsAccounts d d'' :=
  ⟨h'.platformBindings.trans h.platformBindings, fun k ↦ (h'.membership k).trans (h.membership k)⟩

theorem Confines.bumps {d'' : Directory} (h : Confines S actor now d d') (hbumps : d'.Bumps d'') :
    Confines S actor now d d'' :=
  ⟨hbumps.consistent h.consistent, h.accounts.trans (keepsAccounts_of_bumps hbumps),
    fun ht hpermits ↦ h.confined ht ((permits_bumps h.consistent hbumps).mp hpermits)⟩

/-- What is permitted without some bindings was permitted with them, unless they denied it. -/
theorem permits_or_lifts {removed : Set Binding}
    (h : Permitted S x t d i (d.effective t i \ removed)) :
    Permits S x t d i ∨ Lifts S x t d i removed := by
  by_cases hdeny : Says (d.effective t i ∩ removed) .deny x t
  · exact Or.inr ⟨hdeny, h⟩
  · refine Or.inl (permits_iff.mpr ⟨?_, h.2.imp_left ?_⟩)
    · rintro ⟨b, hb, hspeaks, heffect⟩
      by_cases hremoved : b ∈ removed
      · exact hdeny ⟨b, ⟨hb, hremoved⟩, hspeaks, heffect⟩
      · exact h.1 ⟨b, ⟨hb, hremoved⟩, hspeaks, heffect⟩
    · rintro ⟨b, hb, hspeaks, heffect⟩
      exact ⟨b, hb.1, hspeaks, heffect⟩

/-! ## Groups -/

theorem permits_change {groupId q : Uuid} (h : MembershipChange groupId q d d') :
    Permits S x t d' i ↔ Permitted S x t d i (d'.effective t i) := by
  have hinnate : Innate S x t d' i ↔ Innate S x t d i := by
    rw [h.rest]
    rfl
  rw [permits_iff, Permitted, Permitted, hinnate]

/-- Only who acts as the member notices that its membership changes. -/
theorem Confines.of_change {groupId q : Uuid} {group : Group} (hd : d.Consistent)
    (hgroup : d.groups.lookup groupId = some group) (h : MembershipChange groupId q d d')
    (hconfined : ∀ {x t i}, now ≤ t → d.Acts t i q → Permitted S x t d i (d'.effective t i) →
      Permits S x t d i ∨ Permits S x t d actor) :
    Confines S actor now d d' := by
  refine ⟨h.consistent hd hgroup, ?_, fun {x t i} ht hpermits ↦ ?_⟩
  · rw [h.rest]
    exact ⟨rfl, fun _ ↦ rfl⟩
  · have hpermits := (permits_change h).mp hpermits
    by_cases hq : d.Acts t i q
    · exact hconfined ht hq hpermits
    · rw [h.effective_other hd hgroup hq] at hpermits
      exact Or.inl (permits_iff.mpr hpermits)

theorem addGroupMember_eq_ok {id groupId membershipId : Uuid}
    (h : addGroupMember id now groupId membershipId d = .ok d') :
    ∃ group member, d.groups.lookup groupId = some group ∧
      d.memberships.lookup membershipId = some member ∧
      ¬ d.isGroupMember groupId member.principalId ∧ id ∉ d.groupMembers ∧
      d' = bumpMembershipVersion now member.principalId
        { d with groupMembers := d.groupMembers.insert id ⟨groupId, member.principalId⟩ } := by
  unfold addGroupMember at h
  split at h
  · cases h
  have h := found_eq_ok h
  unfold Directory.addGroupMember at h
  split at h
  · rename_i group member hgroup hmember
    split at h
    · cases h
    rename_i hnew
    obtain ⟨rows, hrows, h⟩ := Except.bind_eq_ok.mp h
    obtain ⟨hfresh, rfl⟩ := insertRow_eq_ok.mp hrows
    cases h
    exact ⟨group, member, hgroup, hmember, hnew, hfresh, rfl⟩
  · cases h

theorem addGroupMember_confines (hd : d.Consistent) {id groupId membershipId : Uuid}
    (h : addGroupMember id now groupId membershipId d = .ok d')
    (hnot : ¬ Escalates S actor d (.addGroupMember now id groupId membershipId)) :
    Confines S actor now d d' := by
  obtain ⟨group, member, hgroup, hmember, hnew, hfresh, rfl⟩ := addGroupMember_eq_ok h
  have hchange := membershipChange_insert hd hfresh hnew
  have hjoined := hchange.changed.mpr hnew
  refine Confines.bumps (.of_change hd hgroup hchange fun {x t i} ht hq hpermits ↦ ?_)
    (bumps_membershipVersion _ _ _)
  rw [hchange.effective_joined hd hgroup hjoined hq, Permitted, says_union, says_union,
    not_or] at hpermits
  obtain ⟨⟨hundenied, hgroupUndenied⟩, hallowed⟩ := hpermits
  by_contra hneither
  obtain ⟨hbefore, hactor⟩ := not_or.mp hneither
  refine hnot ⟨i, x, t, ht, hbefore, hactor, group, member, hgroup, hmember, hq, ?_,
    hgroupUndenied, hundenied⟩
  rcases hallowed with (hown | hgiven) | hinnate
  · exact absurd (permits_iff.mpr ⟨hundenied, Or.inl hown⟩) hbefore
  · exact hgiven
  · exact absurd (permits_iff.mpr ⟨hundenied, Or.inr hinnate⟩) hbefore

theorem removeGroupMember_eq_ok {groupId membershipId : Uuid}
    (h : removeGroupMember now groupId membershipId d = .ok d') :
    ∃ member id row, d.memberships.lookup membershipId = some member ∧
      d.groupMembers.lookup id = some row ∧ row.groupId = groupId ∧
      row.principalId = member.principalId ∧
      d' = bumpMembershipVersion now member.principalId
        { d with groupMembers := d.groupMembers.erase id } := by
  have h := found_eq_ok h
  unfold Directory.removeGroupMember at h
  split at h
  · cases h
  rename_i member hmember
  split at h
  · cases h
  rename_i id row hfound
  cases h
  obtain ⟨hrow, hselected⟩ := AList.lookup_of_selectFirst hfound
  rw [Bool.and_eq_true, decide_eq_true_eq, decide_eq_true_eq] at hselected
  exact ⟨member, id, row, hmember, hrow, hselected.1, hselected.2, rfl⟩

theorem removeGroupMember_confines (hd : d.Consistent) {groupId membershipId : Uuid}
    (h : removeGroupMember now groupId membershipId d = .ok d')
    (hnot : ¬ Escalates S actor d (.removeGroupMember now groupId membershipId)) :
    Confines S actor now d d' := by
  obtain ⟨member, id, row, hmember, hrow, rfl, hprincipal, rfl⟩ := removeGroupMember_eq_ok h
  obtain ⟨group, hgroup⟩ := hd.groupMember hrow
  have hchange := membershipChange_erase hd hrow
  have hleft := hchange.changed.not.mpr
    (not_not_intro (isGroupMember_iff.mpr ⟨id, row, hrow, rfl, rfl⟩))
  refine Confines.bumps (.of_change hd hgroup hchange fun {x t i} ht hq hpermits ↦ ?_)
    (bumps_membershipVersion _ _ _)
  rw [hchange.effective_left hd hgroup hleft hq] at hpermits
  rcases permits_or_lifts hpermits with hbefore | hlifts
  · exact Or.inl hbefore
  · by_contra hneither
    obtain ⟨hbefore, hactor⟩ := not_or.mp hneither
    exact hnot ⟨i, x, t, ht, hbefore, hactor, group, member, hgroup, hmember, hprincipal ▸ hq,
      hlifts⟩

theorem tenantAdminGrant_withoutGroup (hd : d.Consistent) {groupId : Uuid} {row : Group}
    (hrow : d.groups.lookup groupId = some row) (p : Uuid) (g : PlatformRoleBinding) :
    tenantAdminGrant t p (d.withoutGroup groupId row.principalId) g ↔ tenantAdminGrant t p d g := by
  rw [tenantAdminGrant_iff, tenantAdminGrant_iff]
  refine and_congr_right fun _ ↦ and_congr_right fun _ ↦ and_congr_right fun _ ↦
    exists_congr fun k ↦ exists_congr fun m ↦ and_congr_right fun hm ↦ ?_
  rw [standing, lookup_principal_withoutGroup (hd.member_ne_group hrow hm)]
  rfl

theorem deleteGroup_eq_ok {groupId : Uuid} (h : deleteGroup now groupId d = .ok d') :
    ∃ row, d.groups.lookup groupId = some row ∧
      d' = (d.bumpAffectedPrincipals now row.principalId).withoutGroup groupId row.principalId := by
  have h := found_eq_ok h
  unfold Directory.deleteGroup at h
  split at h
  · cases h
  rename_i row hrow
  split at h
  · cases h
  cases h
  exact ⟨row, hrow, rfl⟩

theorem deleteGroup_confines (hd : d.Consistent) {groupId : Uuid}
    (h : deleteGroup now groupId d = .ok d')
    (hnot : ¬ Escalates S actor d (.deleteGroup now groupId)) : Confines S actor now d d' := by
  obtain ⟨row, hrow, rfl⟩ := deleteGroup_eq_ok h
  have hbumps := bumps_affectedPrincipals now d row.principalId
  have hd₁ := hbumps.consistent hd
  have hrow₁ : (d.bumpAffectedPrincipals now row.principalId).groups.lookup groupId = some row :=
    hbumps.groups_eq ▸ hrow
  have haccounts : KeepsAccounts d ((d.bumpAffectedPrincipals now row.principalId).withoutGroup
      groupId row.principalId) :=
    (keepsAccounts_of_bumps hbumps).trans ⟨rfl, fun _ ↦ rfl⟩
  refine ⟨hd₁.withoutGroup hrow₁, haccounts, fun {x t i} ht hpermits ↦ ?_⟩
  have hgroup : (d.bumpAffectedPrincipals now row.principalId).groupBindings t row =
      d.groupBindings t row := by
    ext b
    exact and_congr_right fun _ ↦ hbumps.attached_iff
  rw [permits_iff, effective_deleted hd₁ hrow₁, hbumps.effective_eq hd, hgroup, Permitted,
    innate_congr haccounts fun p g ↦ (tenantAdminGrant_withoutGroup hd₁ hrow₁ p g).trans
      (tenantAdminGrant_bumps hbumps p g)] at hpermits
  rcases permits_or_lifts hpermits with hbefore | hlifts
  · exact Or.inl hbefore
  · by_contra hneither
    obtain ⟨hbefore, hactor⟩ := not_or.mp hneither
    exact hnot ⟨i, x, t, ht, hbefore, hactor, row, hrow, hlifts⟩

/-! ## Role bindings -/

/-- One row is replaced, and its principal is bumped. -/
theorem Confines.of_rewritten (hd : d.Consistent) {id : Uuid} {row : RoleBinding}
    {f : RoleBinding → RoleBinding} (hrow : d.roleBindings.lookup id = some row)
    (hconfined : ∀ {x t i}, now ≤ t →
      Permitted S x t d i ((d.effective t i \ {b | b.id = id}) ∪ d.rowBindings t i id (f row)) →
        Permits S x t d i ∨ Permits S x t d actor) :
    Confines S actor now d (bumpAffectedPrincipals now
      { d with roleBindings := d.roleBindings.update id f } row.principalId) := by
  have hinnate : ∀ {x t i}, Innate S x t
      { d with roleBindings := d.roleBindings.update id f } i ↔ Innate S x t d i := Iff.rfl
  have hreplaced : Confines S actor now d
      { d with roleBindings := d.roleBindings.update id f } := by
    refine ⟨hd.withRoles _ _, ⟨rfl, fun _ ↦ rfl⟩, fun {x t i} ht hpermits ↦ hconfined ht ?_⟩
    rw [permits_iff, effective_rewritten hd hrow, Permitted, hinnate] at hpermits
    exact hpermits
  exact hreplaced.bumps (bumps_affectedPrincipals _ _ _)

theorem revokeRoleBinding_eq_ok {id : Uuid} (h : revokeRoleBinding now id d = .ok d') :
    ∃ row, d.roleBindings.lookup id = some row ∧
      d' = bumpAffectedPrincipals now { d with
        roleBindings := d.roleBindings.update id fun b ↦ { b with revokedAt := some now } }
          row.principalId := by
  have h := found_eq_ok h
  unfold Directory.revokeRoleBinding at h
  split at h
  · cases h
  rename_i row hrow
  cases h
  exact ⟨row, (getRoleBinding_eq_some hrow).1, rfl⟩

theorem revokeRoleBinding_confines (hd : d.Consistent) {id : Uuid}
    (h : revokeRoleBinding now id d = .ok d')
    (hnot : ¬ Escalates S actor d (.revokeRoleBinding now id)) : Confines S actor now d d' := by
  obtain ⟨row, hrow, rfl⟩ := revokeRoleBinding_eq_ok h
  refine .of_rewritten hd hrow fun {x t i} ht hpermits ↦ ?_
  rw [rowBindings_revoked, Set.union_empty] at hpermits
  rcases permits_or_lifts hpermits with hbefore | hlifts
  · exact Or.inl hbefore
  · by_contra hneither
    obtain ⟨hbefore, hactor⟩ := not_or.mp hneither
    exact hnot ⟨i, x, t, ht, hbefore, hactor, hlifts⟩

theorem speaks_later {b : Binding} (h : b.speaks x now) (ht : now ≤ t) (hends : t < b.expiresAt) :
    b.speaks x t := by
  simp only [Binding.speaks, Binding.covers, Bool.and_eq_true, decide_eq_true_eq] at h ⊢
  obtain ⟨⟨⟨⟨hpermission, hstarts⟩, -⟩, hspace⟩, hscope⟩ := h
  exact ⟨⟨⟨⟨hpermission, hstarts.trans ht⟩, hends⟩, hspace⟩, hscope⟩

/-- A binding of a member counts until it expires. -/
theorem effective_member_later (hd : d.Consistent) {k : Uuid} {b : Binding}
    (hb : b ∈ d.effective now (.member k)) (ht : now ≤ t) (hends : t < b.expiresAt) :
    b ∈ d.effective t (.member k) := by
  obtain ⟨p, q, hp, hreaches, id, row, role, permission, hrow, hprincipal, hcurrent, hrole, hgrant,
    rfl⟩ := hd.mem_effective.mp hb
  refine hd.mem_effective.mpr ⟨p, q, hp, hreaches, id, row, role, permission, hrow, hprincipal, ?_,
    hrole, hgrant, rfl⟩
  simp only [RoleBinding.current, Bool.and_eq_true, decide_eq_true_eq] at hcurrent ⊢
  exact ⟨⟨hcurrent.1.1, hcurrent.1.2.trans ht⟩, hends⟩

/-- Who backs a grant is permitted what the grant gives, unless it is denied there. -/
theorem permits_of_backed (hd : d.Consistent) {k : Uuid}
    (hactor : d.principal (.member k) = some ctx.principalId)
    (hplatform : S.platformBindings now ctx.principalId d = []) {expiresAt : Timestamp}
    {permissions : List String}
    (hbacked : Backed (S.actorBindings ctx now d) now expiresAt permissions)
    (hpermission : x.permission ∈ permissions) (ht : now ≤ t) (hends : t < expiresAt)
    (hundenied : ¬ Says (d.effective t (.member k)) .deny x t) : Permits S x t d (.member k) := by
  obtain ⟨b, hb, hauthorizes, hlasts⟩ := hbacked _ hpermission
  obtain ⟨hallow, hcovers⟩ := authorizes_iff.mp hauthorizes
  have hends := hends.trans_le hlasts
  have hspeaks : b.speaks x t := speaks_later (covers_of_tenantWide hcovers) ht hends
  obtain ⟨m, hm, hprincipal⟩ := Option.map_eq_some_iff.mp hactor
  refine permits_iff.mpr ⟨hundenied, ?_⟩
  rw [ManagementService.actorBindings, ManagementService.bindings, hplatform, ite_self,
    List.append_nil, List.mem_append] at hb
  rcases hb with hb | hb
  · exact Or.inl ⟨b, effective_member_later hd ⟨_, hactor, hb⟩ ht hends, hspeaks, hallow⟩
  · split at hb
    · exact Or.inr ⟨k, m, rfl, hm, b, List.mem_append_left _ hb, hspeaks⟩
    · cases hb

theorem updateRoleBinding_eq_ok {id : Uuid} {data : GrantData}
    (h : S.updateRoleBinding ctx now id data d = .ok d') :
    ∃ row role, d.roleBindings.lookup id = some row ∧ d.roles.lookup data.roleId = some role ∧
      role.grants = role.permissions ∧
      Backed (S.actorBindings ctx now d) now data.expiresAt role.permissions ∧
      d' = bumpAffectedPrincipals now
        { d with roleBindings := d.roleBindings.update id (RoleBinding.rewritten now data) }
          row.principalId := by
  unfold ManagementService.updateRoleBinding at h
  split at h
  · cases h
  obtain ⟨_, hvalid, h⟩ := Except.bind_eq_ok.mp h
  obtain ⟨role, hrole, hgrants, -, hbacked⟩ := validateRoleGrant_eq_ok hvalid
  have h := found_eq_ok h
  unfold Directory.updateRoleBinding at h
  split at h
  · cases h
  rename_i row hrow
  split at h
  · cases h
  split at h
  · cases h
  cases h
  exact ⟨row, role, (getRoleBinding_eq_some hrow).1, hrole, hgrants, hbacked, rfl⟩

theorem updateRoleBinding_confines (hd : d.Consistent) {k : Uuid}
    (hactor : d.principal (.member k) = some ctx.principalId)
    (hplatform : S.platformBindings now ctx.principalId d = []) {id : Uuid} {data : GrantData}
    (h : S.updateRoleBinding ctx now id data d = .ok d')
    (hnot : ¬ Escalates S (.member k) d (.updateRoleBinding now id data)) :
    Confines S (.member k) now d d' := by
  obtain ⟨row, role, hrow, hrole, hgrants, hbacked, rfl⟩ := updateRoleBinding_eq_ok h
  refine .of_rewritten hd hrow fun {x t i} ht hpermits ↦ ?_
  rw [Permitted, says_union, says_union, not_or] at hpermits
  obtain ⟨⟨hrest, hnew⟩, hallowed⟩ := hpermits
  by_contra hneither
  obtain ⟨hbefore, hbeyond⟩ := not_or.mp hneither
  refine hnot ⟨i, x, t, ht, hbefore, hbeyond, row, hrow, ?_⟩
  by_cases hgiven : Says (d.rowBindings t i id (row.rewritten now data)) .allow x t
  · refine Or.inr ⟨hgiven, hrest, ?_⟩
    by_contra hundenied
    obtain ⟨b, ⟨-, hcurrent, role', permission, hrole', hgrant, rfl⟩, hspeaks, -⟩ := hgiven
    obtain rfl := Option.some.inj (hrole.symm.trans hrole')
    simp only [RoleBinding.current, Bool.and_eq_true, decide_eq_true_eq] at hcurrent
    simp only [Binding.speaks, Binding.covers, Bool.and_eq_true, decide_eq_true_eq] at hspeaks
    obtain rfl : permission = x.permission := hspeaks.1.1.1.1
    exact hbeyond (permits_of_backed hd hactor hplatform hbacked (hgrants ▸ hgrant) ht hcurrent.2
      hundenied)
  · have hpermitted : Permitted S x t d i (d.effective t i \ {b | b.id = id}) :=
      ⟨hrest, hallowed.imp_left fun h ↦ h.resolve_right hgiven⟩
    rcases permits_or_lifts hpermitted with hown | hlifts
    · exact absurd hown hbefore
    · exact Or.inl ⟨hlifts, hnew⟩

/-! ## The status of a membership -/

section Status

variable {membershipId : Uuid} {status : MembershipStatus} {row : Membership}

theorem updateMember_eq_ok (h : updateMember now membershipId status d = .ok d') :
    ∃ row, d.memberships.lookup membershipId = some row ∧
      d' = d.memberUpdated now membershipId status row.principalId := by
  have h := found_eq_ok h
  unfold Directory.updateMember at h
  split at h
  · cases h
  rename_i row hrow
  cases h
  exact ⟨row, hrow, rfl⟩

theorem keepsAccounts_memberUpdated :
    KeepsAccounts d (d.memberUpdated now membershipId status row.principalId) := by
  refine ⟨by rw [memberUpdated_rest], fun k ↦ ?_⟩
  rw [memberships_memberUpdated, AList.lookup_update]
  split
  · rename_i hk
    subst hk
    rw [Option.map_map]
    rfl
  · rfl

/-- The grants of a principal whose status does not change count as before. -/
theorem tenantAdminGrant_memberUpdated (hrow : d.memberships.lookup membershipId = some row)
    {p : Uuid} (hsame : p = row.principalId → (status = .active ↔ row.status = .active))
    (g : PlatformRoleBinding) :
    tenantAdminGrant t p (d.memberUpdated now membershipId status row.principalId) g ↔
      tenantAdminGrant t p d g := by
  rw [tenantAdminGrant_iff, tenantAdminGrant_iff]
  refine and_congr_right fun _ ↦ and_congr_right fun _ ↦ and_congr_right fun _ ↦
    exists_congr fun k ↦ ?_
  rw [memberships_memberUpdated, AList.lookup_update]
  split
  · rename_i hk
    subst hk
    rw [hrow, Option.map_some]
    constructor
    · rintro ⟨m', hm', huser, hp, hstatus, hstanding⟩
      obtain rfl := Option.some.inj hm'
      rw [standing_memberUpdated rfl rfl rfl] at hstanding
      exact ⟨row, rfl, huser, hp, (hsame hp.symm).mp hstatus, hstanding⟩
    · rintro ⟨m, hm, huser, hp, hstatus, hstanding⟩
      obtain rfl := Option.some.inj hm
      refine ⟨_, rfl, huser, hp, (hsame hp.symm).mpr hstatus, ?_⟩
      rw [standing_memberUpdated rfl rfl rfl]
      exact hstanding
  · refine exists_congr fun m ↦ and_congr_right fun _ ↦ and_congr_right fun _ ↦
      and_congr_right fun _ ↦ and_congr_right fun _ ↦ ?_
    rw [standing_memberUpdated rfl rfl rfl]

/-- A grant which counts for the member after the change: the member is active. -/
theorem active_of_tenantAdminGrant (hd : d.Consistent)
    (hrow : d.memberships.lookup membershipId = some row) {g : PlatformRoleBinding}
    (h : tenantAdminGrant t row.principalId
      (d.memberUpdated now membershipId status row.principalId) g) :
    status = .active ∧ d.standing t row ∧ row.userId = g.userId := by
  obtain ⟨-, -, -, k, m', hm', huser, hp, hstatus, hstanding⟩ := tenantAdminGrant_iff.mp h
  obtain rfl : k = membershipId :=
    hd.memberUpdated.memberUnique hm' (lookup_membership_memberUpdated hrow) hp
  rw [lookup_membership_memberUpdated hrow] at hm'
  obtain rfl := Option.some.inj hm'
  rw [standing_memberUpdated rfl rfl rfl] at hstanding
  exact ⟨hstatus, hstanding, huser⟩

/-- What a member gains by a change of status is a platform grant, and the member has become
active. -/
theorem innate_of_memberUpdated (hd : d.Consistent)
    (hrow : d.memberships.lookup membershipId = some row)
    (h : Innate S x t (d.memberUpdated now membershipId status row.principalId) i) :
    Innate S x t d i ∨ (i = .member membershipId ∧ status = .active ∧ row.status ≠ .active ∧
      d.standing t row ∧ AccountGives S x t d row) := by
  obtain ⟨k, m', rfl, hm', b, hb, hspeaks⟩ := h
  rw [memberships_memberUpdated] at hm'
  obtain ⟨m, hm, heq⟩ := AList.of_lookup_update hm'
  have hprincipal : m'.principalId = m.principalId := by
    rw [heq]
    split
    · rfl
    · rfl
  rw [hprincipal] at hb
  rcases List.mem_append.mp hb with hbase | hplatform
  · exact Or.inl ⟨k, m, rfl, hm, b, List.mem_append_left _ hbase, hspeaks⟩
  obtain ⟨permissions, id, g, hpermissions, hpermission, hg, hcreated, hgrant⟩ :=
    grant_of_mem_platformBindings hplatform hspeaks
  by_cases hsame : m.principalId = row.principalId → (status = .active ↔ row.status = .active)
  · have hrows : (d.memberUpdated now membershipId status row.principalId).platformBindings =
        d.platformBindings := by rw [memberUpdated_rest]
    rw [platformBindings_congr hrows (tenantAdminGrant_memberUpdated hrow hsame)] at hplatform
    exact Or.inl ⟨k, m, rfl, hm, b, List.mem_append_right _ hplatform, hspeaks⟩
  · obtain ⟨hp, hchanged⟩ := Classical.not_imp.mp hsame
    obtain rfl : k = membershipId := hd.memberUnique hm hrow hp
    obtain rfl := Option.some.inj (hrow.symm.trans hm)
    obtain ⟨hname, hrevoked, hexpires, -⟩ := tenantAdminGrant_iff.mp hgrant
    rw [memberUpdated_rest] at hg
    obtain ⟨hactive, hstanding, huser⟩ := active_of_tenantAdminGrant hd hrow hgrant
    have hinactive : row.status ≠ .active := fun h ↦ hchanged (iff_of_true hactive h)
    exact Or.inr ⟨rfl, hactive, hinactive, hstanding, permissions, id, g, hpermissions,
      hpermission, hg, huser.symm, hname, hrevoked, hcreated, hexpires⟩

theorem updateMember_confines (hd : d.Consistent)
    (h : updateMember now membershipId status d = .ok d')
    (hnot : ¬ Escalates S actor d (.updateMember now membershipId status)) :
    Confines S actor now d d' := by
  obtain ⟨row, hrow, rfl⟩ := updateMember_eq_ok h
  refine ⟨hd.memberUpdated, keepsAccounts_memberUpdated, fun {x t i} ht hpermits ↦ ?_⟩
  obtain ⟨hundenied, hallowed⟩ := permits_iff.mp hpermits
  by_contra hneither
  obtain ⟨hbefore, hactor⟩ := not_or.mp hneither
  -- an application is given the bindings of the member it acts for, a member its platform grant
  cases i with
  | application a =>
      have hallowed := hallowed.resolve_right fun ⟨_, _, hk, _⟩ ↦ by cases hk
      obtain ⟨b, hb, -⟩ := id hallowed
      rcases effective_application_memberUpdated hd hrow hb with
        hsame | ⟨hdelegates, hactive, hinactive, hstanding, hgained⟩
      · rw [hsame] at hundenied hallowed
        exact hbefore (permits_iff.mpr ⟨hundenied, Or.inl hallowed⟩)
      · rw [hgained] at hundenied hallowed
        exact hnot ⟨_, x, t, ht, hbefore, hactor, row, hrow, hactive, hinactive, hstanding, hundenied,
          Or.inl ⟨a, rfl, hdelegates, hallowed⟩⟩
  | member k =>
      rw [effective_member_memberUpdated hd] at hundenied hallowed
      rcases hallowed with hallowed | hinnate
      · exact hbefore (permits_iff.mpr ⟨hundenied, Or.inl hallowed⟩)
      · rcases innate_of_memberUpdated hd hrow hinnate with
          hinnate | ⟨hk, hactive, hinactive, hstanding, hgives⟩
        · exact hbefore (permits_iff.mpr ⟨hundenied, Or.inr hinnate⟩)
        · exact hnot ⟨_, x, t, ht, hbefore, hactor, row, hrow, hactive, hinactive, hstanding,
            hk ▸ hundenied, Or.inr ⟨hk, hgives⟩⟩

end Status

/-! ## Runs -/

theorem administer_confines (hd : d.Consistent) {k : Uuid}
    (hactor : d.principal (.member k) = some ctx.principalId) {c : AdminCmd}
    (hplatform : S.platformBindings c.now ctx.principalId d = [])
    (h : administer S ctx c d = .ok d') (hnot : ¬ Escalates S (.member k) d c) :
    Confines S (.member k) c.now d d' := by
  cases c with
  | addGroupMember now id groupId membershipId =>
      obtain ⟨_, -, h⟩ := Except.bind_eq_ok.mp h
      exact addGroupMember_confines hd h hnot
  | removeGroupMember now groupId membershipId =>
      obtain ⟨_, -, h⟩ := Except.bind_eq_ok.mp h
      exact removeGroupMember_confines hd h hnot
  | deleteGroup now groupId =>
      obtain ⟨_, -, h⟩ := Except.bind_eq_ok.mp h
      exact deleteGroup_confines hd h hnot
  | revokeRoleBinding now id =>
      obtain ⟨_, -, h⟩ := Except.bind_eq_ok.mp h
      exact revokeRoleBinding_confines hd h hnot
  | updateRoleBinding now id data =>
      obtain ⟨_, -, h⟩ := Except.bind_eq_ok.mp h
      exact updateRoleBinding_confines hd hactor hplatform h hnot
  | updateMember now membershipId status =>
      obtain ⟨_, -, h⟩ := Except.bind_eq_ok.mp h
      exact updateMember_confines hd h hnot

/-- What a run of calls of an actor preserves: at `t` nobody is permitted more than it or the
actor was in the directory `d`. -/
structure Contained (S : ManagementService) (ctx : PrincipalContext) (k : Uuid)
    (since t : Timestamp) (x : Place) (d d' : Directory) : Prop where
  consistent : d'.Consistent
  actor : d'.principal (.member k) = some ctx.principalId
  unprivileged : Unprivileged since ctx.principalId d'
  confined : ∀ {i}, Permits S x t d' i → Permits S x t d i ∨ Permits S x t d (.member k)

theorem Contained.step {k : Uuid} {since : Timestamp} {d₀ : Directory} {c : AdminCmd}
    (h : Contained S ctx k since t x d₀ d) (hclock : since ≤ c.now ∧ c.now ≤ t)
    (hnot : ¬ Escalates S (.member k) d c) (hok : administer S ctx c d = .ok d') :
    Contained S ctx k since t x d₀ d' := by
  have hplatform := h.unprivileged.platformBindings (S := S) hclock.1
  have hstep := administer_confines h.consistent h.actor hplatform hok hnot
  refine ⟨hstep.consistent, (hstep.accounts.principal_eq k).trans h.actor,
    h.unprivileged.keeps hstep.accounts, fun {i} hpermits ↦ ?_⟩
  rcases hstep.confined hclock.2 hpermits with hbefore | hbefore
  · exact h.confined hbefore
  · exact (h.confined hbefore).elim Or.inr Or.inr

/-- In a run of accepted calls of which none escalates nobody ends with a permission which neither
it nor the actor had at the start. -/
theorem no_escalation {k : Uuid} {since : Timestamp} (hd : d.Consistent)
    (hactor : d.principal (.member k) = some ctx.principalId)
    (hunprivileged : Unprivileged since ctx.principalId d) {cs : List AdminCmd}
    (hclock : ∀ c ∈ cs, since ≤ c.now ∧ c.now ≤ t)
    (hmeets : Meets (administer S ctx) (fun d c ↦ ¬ Escalates S (.member k) d c) d cs)
    (hpermits : Permits S x t (run (administer S ctx) d cs) i) :
    Permits S x t d i ∨ Permits S x t d (.member k) := by
  have hrun : Contained S ctx k since t x d (run (administer S ctx) d cs) :=
    run_invariant (fun _ _ _ h hc hok ↦ h.step hc.1 hc.2 hok)
      ⟨hd, hactor, hunprivileged, Or.inl⟩ (hmeets.and_valid hclock)
  exact hrun.confined hpermits

namespace Sample

def manager : PrincipalContext where
  toPrincipalFields := forMember 1 100 1
  wellFormed := forMember_wellFormed

/-- A manager of groups and bindings, and a group which may read files. -/
def managing : Directory where
  tenantActive := true
  permissions := ["files.read", "groups.manage", "role_bindings.manage"]
  principals := (∅ : Table Uuid Principal).insert 1 ⟨.user, true⟩ |>.insert 2 ⟨.group, true⟩
  users := (∅ : Table Uuid User).insert 10 ⟨"manager@example.com", .active⟩
  memberships := (∅ : Table Uuid Membership).insert 100 ⟨10, 1, .active, 1, none⟩
  groups := (∅ : Table Uuid Group).insert 200 ⟨2, true⟩
  groupMembers := ∅
  roles := (∅ : Table Uuid Role).insert 300 ⟨"reader", false, ["files.read"]⟩
    |>.insert 301 ⟨"manager", false, ["groups.manage", "role_bindings.manage"]⟩
  roleBindings := (∅ : Table Uuid RoleBinding).insert 400
      ⟨2, 300, .allow, none, none, "readers", 0, 1000, 1, none⟩
    |>.insert 401 ⟨1, 301, .allow, none, none, "manager", 0, 1000, 1, none⟩
  applications := ∅
  owners := ∅
  representatives := ∅
  sessions := ∅
  platformBindings := ∅

theorem consistent_managing : managing.Consistent := by
  refine ⟨fun h ↦ ?_, fun h h' _ ↦ ?_, fun h ↦ ?_, fun h h' _ ↦ ?_, fun h ↦ ?_, fun h ↦ ?_,
    fun h ↦ ?_, fun h ↦ ?_, fun h ↦ ?_⟩
  · obtain ⟨-, rfl⟩ := AList.lookup_single.mp h
    exact ⟨true, rfl⟩
  · rw [(AList.lookup_single.mp h).1, (AList.lookup_single.mp h').1]
  · obtain ⟨-, rfl⟩ := AList.lookup_single.mp h
    exact ⟨true, rfl⟩
  · rw [(AList.lookup_single.mp h).1, (AList.lookup_single.mp h').1]
  all_goals cases h

theorem unprivileged_managing : Unprivileged 0 1 managing := by
  intro k m id g _ _ hg
  cases hg

/-- The manager joins the group. -/
def joining : AdminCmd := .addGroupMember 5 700 200 100

/-- The group loses its binding. -/
def revoking : AdminCmd := .revokeRoleBinding 5 400

theorem not_denied_managing (t : Timestamp) (i : Holder) (b : Binding)
    (hb : b ∈ managing.effective t i) : b.effect = .allow := by
  obtain ⟨p, q, -, -, id, row, role, permission, hrow, -, -, -, -, rfl⟩ :=
    consistent_managing.mem_effective.mp hb
  change ((∅ : Table Uuid RoleBinding).insert 400 _ |>.insert 401 _).lookup id = some row at hrow
  rw [AList.lookup_insert'] at hrow
  split at hrow
  · cases hrow
    rfl
  · obtain ⟨-, rfl⟩ := AList.lookup_single.mp hrow
    rfl

theorem secret_refused : ¬ Permits service secret 6 managing (.member 100) := by
  rintro ⟨p, hp, hallowed⟩
  cases hp
  revert hallowed
  rw [AllowedAt]
  decide

end Sample

theorem no_escalation_sample :
    ¬ Permits Sample.service Sample.secret 6 (run (administer Sample.service Sample.manager)
      Sample.managing [Sample.revoking]) (.member 100) := by
  intro hpermits
  have hnot : ¬ Escalates Sample.service (.member 100) Sample.managing Sample.revoking := by
    rintro ⟨j, y, t, -, -, -, ⟨b, hb, -, hdeny⟩, -⟩
    rw [Sample.not_denied_managing t j b hb.1] at hdeny
    cases hdeny
  have hmeets : Meets (administer Sample.service Sample.manager)
      (fun d c ↦ ¬ Escalates Sample.service (.member 100) d c) Sample.managing [Sample.revoking] :=
    ⟨hnot, trivial⟩
  exact (no_escalation Sample.consistent_managing rfl Sample.unprivileged_managing (by decide)
    hmeets hpermits).elim Sample.secret_refused Sample.secret_refused

/-- A manager who may not read files reads them as a member of a group it has joined. -/
theorem joining_escalates : ¬ ∀ (S : ManagementService) (ctx : PrincipalContext) (k : Uuid)
    (d : Directory) (cs : List AdminCmd) (t : Timestamp) (x : Place) (i : Holder), d.Consistent →
      d.principal (.member k) = some ctx.principalId → Unprivileged 0 ctx.principalId d →
      (∀ c ∈ cs, 0 ≤ c.now ∧ c.now ≤ t) → Permits S x t (run (administer S ctx) d cs) i →
        Permits S x t d i ∨ Permits S x t d (.member k) := by
  intro h
  refine (h Sample.service Sample.manager 100 Sample.managing [Sample.joining] 6 Sample.secret
    (.member 100) Sample.consistent_managing rfl Sample.unprivileged_managing (by decide)
    ⟨1, rfl, ?_⟩).elim Sample.secret_refused Sample.secret_refused
  rw [AllowedAt]
  decide

end S3mp.Authorization
