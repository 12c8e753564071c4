import S3mp.Identity.Invalidation

/-!
# Cached authorization over runs of management transactions

For each transaction, whether every holder whose bindings change has its version
raised.  Along a run which avoids the transactions that overlook an application,
what is cached under a current version is current.
-/

namespace S3mp.Directory

open Relational Authorization Transition

inductive ManagementCmd where
  | createRoleBinding (id : Uuid) (now : Timestamp) (principalId : Uuid) (data : GrantData)
      (createdBy : Uuid)
  | updateRoleBinding (now : Timestamp) (id : Uuid) (data : GrantData)
  | revokeRoleBinding (now : Timestamp) (id : Uuid)
  | updateRole (now : Timestamp) (roleId : Uuid) (name : Option String)
      (permissions : Option (List String))
  | updateMember (now : Timestamp) (membershipId : Uuid) (status : MembershipStatus)
  | deleteGroup (now : Timestamp) (groupId : Uuid)
  | addGroupMember (id : Uuid) (now : Timestamp) (groupId membershipId : Uuid)
  | removeGroupMember (now : Timestamp) (groupId membershipId : Uuid)
  | bindMembership (id applicationId membershipId actorPrincipalId : Uuid)
      (expectedApplicationVersion : Option ℕ)
  | revokeMembershipBinding (now : Timestamp) (applicationId actorPrincipalId : Uuid)

/-- The transaction; the directory stays as it is when nothing is found. -/
def manage : ManagementCmd → Directory → Tx Directory
  | .createRoleBinding id now principalId data createdBy, d =>
    Prod.snd <$> d.createRoleBinding id now principalId data createdBy
  | .updateRoleBinding now id data, d => Prod.snd <$> d.updateRoleBinding now id data
  | .revokeRoleBinding now id, d => Prod.snd <$> d.revokeRoleBinding now id
  | .updateRole now roleId name permissions, d =>
    Prod.snd <$> d.updateRole now roleId name permissions
  | .updateMember now membershipId status, d =>
    Prod.snd <$> d.updateMember now membershipId status
  | .deleteGroup now groupId, d => Prod.snd <$> d.deleteGroup now groupId
  | .addGroupMember id now groupId membershipId, d =>
    Prod.snd <$> d.addGroupMember id now groupId membershipId
  | .removeGroupMember now groupId membershipId, d =>
    Prod.snd <$> d.removeGroupMember now groupId membershipId
  | .bindMembership id applicationId membershipId actorPrincipalId expected, d =>
    d.bindMembership id applicationId membershipId actorPrincipalId expected
  | .revokeMembershipBinding now applicationId actorPrincipalId, d =>
    Prod.snd <$> d.revokeMembershipBinding now applicationId actorPrincipalId

variable {now t : Timestamp} {d d' : Directory}

theorem snd_eq_ok {x : Tx (Bool × Directory)} :
    (Prod.snd <$> x) = Except.ok d' ↔ ∃ found, x = .ok (found, d') := by
  cases x with
  | error e =>
      constructor
      · intro h
        cases h
      · rintro ⟨found, h⟩
        cases h
  | ok out =>
      obtain ⟨found, d₀⟩ := out
      constructor
      · intro h
        cases h
        exact ⟨found, rfl⟩
      · rintro ⟨found', h⟩
        cases h
        rfl

/-- The transaction changes the bindings of an application whose version it does not raise. -/
def Overlooks (t : Timestamp) (d : Directory) : ManagementCmd → Prop
  | .addGroupMember id _ groupId membershipId => ∃ group member,
      d.groups.lookup groupId = some group ∧ d.memberships.lookup membershipId = some member ∧
      d.isGroupMember groupId member.principalId = false ∧ id ∉ d.groupMembers ∧
      group.enabled ∧ (∃ a, d.Represents t a member.principalId) ∧
      ∃ x, d.Attached t group.principalId x
  | .removeGroupMember _ groupId membershipId => ∃ group member,
      d.groups.lookup groupId = some group ∧ d.memberships.lookup membershipId = some member ∧
      d.isGroupMember groupId member.principalId ∧
      group.enabled ∧ (∃ a, d.Represents t a member.principalId) ∧
      ∃ x, d.Attached t group.principalId x
  | .updateMember now membershipId status => ∃ row,
      d.memberships.lookup membershipId = some row ∧ (row.status = .active ↔ status ≠ .active) ∧
      d.standing t row ∧
      (∃ a, d.Delegates membershipId a ∧ ¬ d.contains now membershipId status row.principalId a) ∧
      ∃ q x, d.Reaches row.principalId q ∧ d.Attached t q x
  | _ => False

/-! ## One transaction -/

/-- The tables stay consistent, and no version goes back. -/
structure Advances (d d' : Directory) : Prop where
  consistent : d'.Consistent
  version_le : ∀ i, d.version i ≤ d'.version i

theorem Advances.refl (hd : d.Consistent) : Advances d d :=
  ⟨hd, fun _ ↦ le_rfl⟩

/-- What one accepted transaction does with the cached authorization. -/
structure Settles (t : Timestamp) (d : Directory) (c : ManagementCmd) (d' : Directory) : Prop where
  advances : Advances d d'
  invalidates_iff : Invalidates (effective t) version d d' ↔ ¬ d.Overlooks t c

theorem Settles.unchanged (hd : d.Consistent) {c : ManagementCmd} (h : ¬ d.Overlooks t c) :
    Settles t d c d :=
  ⟨.refl hd, iff_of_true (fun _ hne ↦ absurd rfl hne) h⟩

theorem advances_of_bumps (hd : d.Consistent) {roles : Table Uuid Role}
    {roleBindings : Table Uuid RoleBinding}
    (h : ({ d with roles := roles, roleBindings := roleBindings } : Directory).Bumps d') :
    Advances d d' := by
  refine ⟨h.consistent (hd.withRoles _ _), fun i ↦ ?_⟩
  have hle := h.version_le i
  cases i <;> exact hle

theorem createRoleBinding_settles (hd : d.Consistent) {id principalId createdBy : Uuid}
    {data : GrantData} {found : Bool}
    (h : d.createRoleBinding id now principalId data createdBy = .ok (found, d')) :
    Settles t d (.createRoleBinding id now principalId data createdBy) d' := by
  unfold createRoleBinding at h
  split at h
  · cases h
    exact .unchanged hd not_false
  split at h
  · cases h
    exact .unchanged hd not_false
  split at h
  · cases h
  obtain ⟨rows, hrows, h⟩ := Except.bind_eq_ok.mp h
  obtain ⟨hfresh, rfl⟩ := insertRow_eq_ok.mp hrows
  cases h
  refine ⟨advances_of_bumps hd (bumps_affectedPrincipals _ _ _), iff_of_true ?_ not_false⟩
  refine roleBindings_invalidate hd fun k b hb ↦ ?_
  rw [AList.lookup_insert']
  split
  · rename_i hk
    subst hk
    rw [AList.lookup_eq_none.mpr hfresh]
    refine iff_of_false (fun heq ↦ ?_) (by simp)
    rw [← Option.some.inj heq] at hb
    exact hb rfl
  · rfl

/-- One row is rewritten under its principal, and that principal is bumped. -/
theorem roleBinding_settles (hd : d.Consistent) {id : Uuid} {row : RoleBinding}
    (hrow : d.roleBindings.lookup id = some row) {f : RoleBinding → RoleBinding}
    (hf : ∀ b, (f b).principalId = b.principalId) {c : ManagementCmd} (hc : ¬ d.Overlooks t c) :
    Settles t d c (bumpAffectedPrincipals now
      { d with roleBindings := d.roleBindings.update id f } row.principalId) := by
  refine ⟨advances_of_bumps hd (bumps_affectedPrincipals _ _ _), iff_of_true ?_ hc⟩
  refine roleBindings_invalidate hd fun k b hb ↦ ?_
  rw [AList.lookup_update]
  split
  · rename_i hk
    subst hk
    rw [hrow]
    refine iff_of_false (fun heq ↦ hb ?_) (fun heq ↦ hb ?_)
    · rw [← Option.some.inj heq]
      exact hf row
    · rw [← Option.some.inj heq]
  · rfl

theorem getRoleBinding_eq_some {id : Uuid} {row : RoleBinding}
    (h : d.getRoleBinding id = some row) : d.roleBindings.lookup id = some row ∧
      row.revokedAt = none ∧
      ∃ principal, d.principals.lookup row.principalId = some principal ∧
        principal.type ∈ [.user, .group] := by
  obtain ⟨hrow, hselected⟩ := Option.filter_eq_some_iff.mp h
  rw [Bool.and_eq_true, Option.isNone_iff_eq_none, Option.any_eq_true] at hselected
  obtain ⟨hunrevoked, principal, hprincipal, htype⟩ := hselected
  exact ⟨hrow, hunrevoked, principal, hprincipal, of_decide_eq_true htype⟩

theorem updateRoleBinding_settles (hd : d.Consistent) {k : Uuid} {data : GrantData} {found : Bool}
    (h : d.updateRoleBinding now k data = .ok (found, d')) :
    Settles t d (.updateRoleBinding now k data) d' := by
  unfold updateRoleBinding at h
  split at h
  · cases h
    exact .unchanged hd not_false
  rename_i row hrow
  split at h
  · cases h
    exact .unchanged hd not_false
  split at h
  · cases h
  cases h
  exact roleBinding_settles (c := .updateRoleBinding now k data) (f := .rewritten now data) hd
    (getRoleBinding_eq_some hrow).1 (fun _ ↦ rfl) not_false

theorem revokeRoleBinding_settles (hd : d.Consistent) {k : Uuid} {found : Bool}
    (h : d.revokeRoleBinding now k = .ok (found, d')) :
    Settles t d (.revokeRoleBinding now k) d' := by
  unfold revokeRoleBinding at h
  split at h
  · cases h
    exact .unchanged hd not_false
  rename_i row hrow
  cases h
  exact roleBinding_settles (c := .revokeRoleBinding now k)
    (f := fun b ↦ { b with revokedAt := some now }) hd (getRoleBinding_eq_some hrow).1
    (fun _ ↦ rfl) not_false

theorem updateRole_settles (hd : d.Consistent) {roleId : Uuid} {name : Option String}
    {permissions : Option (List String)} {found : Bool}
    (h : d.updateRole now roleId name permissions = .ok (found, d')) :
    Settles t d (.updateRole now roleId name permissions) d' := by
  unfold updateRole at h
  split at h
  · cases h
    exact .unchanged hd not_false
  split at h
  · cases h
  obtain ⟨_, -, h⟩ := Except.bind_eq_ok.mp h
  cases h
  exact ⟨advances_of_bumps hd (bumps_boundPrincipals _ _ _),
    iff_of_true (role_invalidates hd) not_false⟩

theorem deleteGroup_settles (hd : d.Consistent) {groupId : Uuid} {found : Bool}
    (h : d.deleteGroup now groupId = .ok (found, d')) :
    Settles t d (.deleteGroup now groupId) d' := by
  unfold deleteGroup at h
  split at h
  · cases h
    exact .unchanged hd not_false
  rename_i row hrow
  split at h
  · cases h
  cases h
  have hbumps := bumps_affectedPrincipals now d row.principalId
  refine ⟨⟨(hbumps.consistent hd).withoutGroup (hbumps.groups_eq ▸ hrow), fun i ↦ ?_⟩,
    iff_of_true (deletion_invalidates hd hrow) not_false⟩
  have hle := hbumps.version_le i
  cases i <;> exact hle

/-- Everything a change of one group membership settles. -/
theorem MembershipChange.settles (hd : d.Consistent) {groupId q : Uuid} {group : Group}
    (hgroup : d.groups.lookup groupId = some group) (h : MembershipChange groupId q d d')
    {c : ManagementCmd}
    (hc : d.Overlooks t c ↔ group.enabled ∧ (∃ a, d.Represents t a q) ∧
      ∃ x, d.Attached t group.principalId x) :
    Settles t d c (d'.bumpMembershipVersion now q) := by
  have hbumps := bumps_membershipVersion d' now q
  refine ⟨⟨hbumps.consistent (h.consistent hd hgroup), fun i ↦ ?_⟩, ?_⟩
  · refine le_trans (le_of_eq ?_) (hbumps.version_le i)
    rw [h.rest]
    cases i <;> rfl
  · rw [h.invalidates_iff hd hgroup, hc]

theorem membershipChange_insert (hd : d.Consistent) {id groupId q : Uuid}
    (hfresh : id ∉ d.groupMembers) (hnew : ¬ d.isGroupMember groupId q) :
    MembershipChange groupId q d
      { d with groupMembers := d.groupMembers.insert id ⟨groupId, q⟩ } := by
  have hrows : ∀ {k m}, (d.groupMembers.insert id ⟨groupId, q⟩).lookup k = some m ↔
      k = id ∧ m = ⟨groupId, q⟩ ∨ d.groupMembers.lookup k = some m := by
    intro k m
    rw [AList.lookup_insert']
    split
    · rename_i hk
      subst hk
      simp [AList.lookup_eq_none.mpr hfresh, eq_comm]
    · rename_i hk
      simp [hk]
  have hmember : ∀ {g p}, (({ d with groupMembers := d.groupMembers.insert id ⟨groupId, q⟩ } :
      Directory).isGroupMember g p ↔ (g = groupId ∧ p = q) ∨ d.isGroupMember g p) := by
    intro g p
    rw [isGroupMember_iff, isGroupMember_iff]
    constructor
    · rintro ⟨k, m, hm, rfl, rfl⟩
      rcases hrows.mp hm with ⟨-, rfl⟩ | hm
      · exact Or.inl ⟨rfl, rfl⟩
      · exact Or.inr ⟨k, m, hm, rfl, rfl⟩
    · rintro (⟨rfl, rfl⟩ | ⟨k, m, hm, hg, hp⟩)
      · exact ⟨id, _, hrows.mpr (Or.inl ⟨rfl, rfl⟩), rfl, rfl⟩
      · exact ⟨k, m, hrows.mpr (Or.inr hm), hg, hp⟩
  have habsent : ∀ {k m}, d.groupMembers.lookup k = some m → m.groupId = groupId →
      m.principalId ≠ q := fun hm hg hp ↦ hnew (isGroupMember_iff.mpr ⟨_, _, hm, hg, hp⟩)
  refine ⟨rfl, fun g p hne ↦ ?_, ?_, fun hm ↦ ?_, fun hm hm' hg hp ↦ ?_⟩
  · rw [hmember]
    exact or_iff_right fun ⟨hg, hp⟩ ↦ hne.elim (· hg) (· hp)
  · rw [hmember]
    exact iff_of_true (Or.inl ⟨rfl, rfl⟩) hnew
  · rcases hrows.mp hm with ⟨-, rfl⟩ | hm
    · exact Or.inl rfl
    · exact Or.inr ⟨_, hm⟩
  · rcases hrows.mp hm with ⟨rfl, rfl⟩ | hold
    · rcases hrows.mp hm' with ⟨rfl, -⟩ | hold'
      · rfl
      · exact absurd hp.symm (habsent hold' hg.symm)
    · rcases hrows.mp hm' with ⟨rfl, rfl⟩ | hold'
      · exact absurd hp (habsent hold hg)
      · exact hd.groupMemberUnique hold hold' hg hp

theorem membershipChange_erase (hd : d.Consistent) {id : Uuid} {row : GroupMember}
    (hrow : d.groupMembers.lookup id = some row) :
    MembershipChange row.groupId row.principalId d
      { d with groupMembers := d.groupMembers.erase id } := by
  have hrows : ∀ {k m}, (d.groupMembers.erase id).lookup k = some m ↔
      k ≠ id ∧ d.groupMembers.lookup k = some m := by
    intro k m
    by_cases hk : k = id
    · subst hk
      simp
    · rw [AList.lookup_erase_ne hk]
      simp [hk]
  have hmember : ∀ {g p}, g ≠ row.groupId ∨ p ≠ row.principalId →
      (({ d with groupMembers := d.groupMembers.erase id } : Directory).isGroupMember g p ↔
        d.isGroupMember g p) := by
    intro g p hne
    rw [isGroupMember_iff, isGroupMember_iff]
    constructor
    · rintro ⟨k, m, hm, hg, hp⟩
      exact ⟨k, m, (hrows.mp hm).2, hg, hp⟩
    · rintro ⟨k, m, hm, rfl, rfl⟩
      refine ⟨k, m, hrows.mpr ⟨?_, hm⟩, rfl, rfl⟩
      rintro rfl
      rw [hrow] at hm
      obtain rfl := Option.some.inj hm
      exact hne.elim (· rfl) (· rfl)
  refine ⟨rfl, fun g p hne ↦ hmember hne, iff_of_false ?_ (not_not_intro ?_), fun hm ↦ ?_,
    fun hm hm' ↦ hd.groupMemberUnique (hrows.mp hm).2 (hrows.mp hm').2⟩
  · rw [isGroupMember_iff]
    rintro ⟨k, m, hm, hg, hp⟩
    obtain ⟨hne, hm⟩ := hrows.mp hm
    exact hne (hd.groupMemberUnique hm hrow hg hp)
  · exact isGroupMember_iff.mpr ⟨id, row, hrow, rfl, rfl⟩
  · exact Or.inr ⟨_, (hrows.mp hm).2⟩

theorem addGroupMember_settles (hd : d.Consistent) {id groupId membershipId : Uuid} {found : Bool}
    (h : d.addGroupMember id now groupId membershipId = .ok (found, d')) :
    Settles t d (.addGroupMember id now groupId membershipId) d' := by
  unfold addGroupMember at h
  split at h
  · rename_i group member hgroup hmember
    split at h
    · cases h
    rename_i hnew
    obtain ⟨rows, hrows, h⟩ := Except.bind_eq_ok.mp h
    obtain ⟨hfresh, rfl⟩ := insertRow_eq_ok.mp hrows
    cases h
    have hchange := membershipChange_insert hd hfresh hnew
    refine hchange.settles hd hgroup ?_
    constructor
    · rintro ⟨group', member', hgroup', hmember', -, -, hrest⟩
      rw [hgroup] at hgroup'
      rw [hmember] at hmember'
      obtain rfl := Option.some.inj hgroup'
      obtain rfl := Option.some.inj hmember'
      exact hrest
    · intro hrest
      exact ⟨group, member, hgroup, hmember, Bool.eq_false_iff.mpr hnew, hfresh, hrest⟩
  · rename_i hnone
    cases h
    refine .unchanged hd ?_
    rintro ⟨group, member, hgroup, hmember, -⟩
    exact hnone group member hgroup hmember

theorem removeGroupMember_settles (hd : d.Consistent) {groupId membershipId : Uuid} {found : Bool}
    (h : d.removeGroupMember now groupId membershipId = .ok (found, d')) :
    Settles t d (.removeGroupMember now groupId membershipId) d' := by
  unfold removeGroupMember at h
  split at h
  · rename_i hnone
    cases h
    refine .unchanged hd ?_
    rintro ⟨group, member, -, hmember, -⟩
    rw [hnone] at hmember
    cases hmember
  rename_i member hmember
  split at h
  · rename_i hnone
    cases h
    refine .unchanged hd ?_
    rintro ⟨group, member', -, hmember', hbelongs, -⟩
    rw [hmember] at hmember'
    obtain rfl := Option.some.inj hmember'
    obtain ⟨k, m, hm, hg, hp⟩ := isGroupMember_iff.mp hbelongs
    have hfalse := AList.selectFirst_eq_none.mp hnone k m hm
    simp [hg, hp] at hfalse
  rename_i id row hfound
  cases h
  obtain ⟨hrow, hselected⟩ := AList.lookup_of_selectFirst hfound
  rw [Bool.and_eq_true, decide_eq_true_eq, decide_eq_true_eq] at hselected
  obtain ⟨rfl, hprincipal⟩ := hselected
  obtain ⟨group, hgroup⟩ := hd.groupMember hrow
  have hchange := membershipChange_erase hd hrow
  rw [hprincipal] at hchange
  refine hchange.settles hd hgroup ?_
  constructor
  · rintro ⟨group', member', hgroup', hmember', -, hrest⟩
    rw [hgroup] at hgroup'
    rw [hmember] at hmember'
    obtain rfl := Option.some.inj hgroup'
    obtain rfl := Option.some.inj hmember'
    exact hrest
  · intro hrest
    exact ⟨group, member, hgroup, hmember,
      isGroupMember_iff.mpr ⟨id, row, hrow, rfl, hprincipal⟩, hrest⟩

theorem updateMember_settles (hd : d.Consistent) {membershipId : Uuid} {status : MembershipStatus}
    {found : Bool} (h : d.updateMember now membershipId status = .ok (found, d')) :
    Settles t d (.updateMember now membershipId status) d' := by
  unfold updateMember at h
  split at h
  · rename_i hnone
    cases h
    refine .unchanged hd ?_
    rintro ⟨row, hrow, -⟩
    rw [hnone] at hrow
    cases hrow
  rename_i row hrow
  cases h
  refine ⟨⟨hd.memberUpdated, fun i ↦ version_le_memberUpdated i⟩, ?_⟩
  refine (memberUpdated_invalidates_iff hd hrow).trans (not_congr ?_)
  constructor
  · intro hrest
    exact ⟨row, hrow, hrest⟩
  · rintro ⟨row', hrow', hrest⟩
    rw [hrow] at hrow'
    obtain rfl := Option.some.inj hrow'
    exact hrest

/-- Everything a change of the delegation of one application settles. -/
theorem Redelegated.settles (hd : d.Consistent) {a : Uuid} {app : Application}
    (happ : d.applications.lookup a = some app) (h : Redelegated a d d') {c : ManagementCmd}
    (hc : ¬ d.Overlooks t c) : Settles t d c d' := by
  refine ⟨⟨h.consistent hd, fun i ↦ ?_⟩, iff_of_true (h.invalidates hd happ) hc⟩
  by_cases hi : i = .application a
  · subst hi
    exact (h.raised happ).le
  · exact (h.version_eq i hi).ge

theorem redelegated_update (hd : d.Consistent) {k a : Uuid} {b : ApplicationMembershipBinding}
    (hb : d.representatives.lookup k = some b) (ha : b.applicationId = a)
    {f : ApplicationMembershipBinding → ApplicationMembershipBinding}
    (hf : ∀ b, (f b).applicationId = b.applicationId) :
    Redelegated a d { d with
      representatives := d.representatives.update k f
      applications := d.applications.update a Application.bumped } := by
  have hrows : ∀ {j b'}, (d.representatives.update k f).lookup j = some b' →
      ∃ b₀, d.representatives.lookup j = some b₀ ∧ b'.applicationId = b₀.applicationId := by
    intro j b' hj
    obtain ⟨b₀, hb₀, rfl⟩ := AList.of_lookup_update hj
    refine ⟨b₀, hb₀, ?_⟩
    split
    · exact hf b₀
    · rfl
  refine ⟨rfl, fun j b' hne ↦ ?_, fun hj hj' heq ↦ ?_⟩
  · rw [AList.lookup_update]
    split
    · rename_i hj
      subst hj
      rw [hb]
      refine iff_of_false (fun heq ↦ hne ?_) (fun heq ↦ hne ?_)
      · rw [← Option.some.inj heq, hf, ha]
      · rw [← Option.some.inj heq, ha]
    · rfl
  · obtain ⟨b₀, hb₀, h₀⟩ := hrows hj
    obtain ⟨b₁, hb₁, h₁⟩ := hrows hj'
    exact hd.representativeUnique hb₀ hb₁ (h₀.symm.trans (heq.trans h₁))

theorem redelegated_insert (hd : d.Consistent) {k a : Uuid} {b : ApplicationMembershipBinding}
    (hk : k ∉ d.representatives) (ha : b.applicationId = a)
    (hnew : ∀ j b', d.representatives.lookup j = some b' → b'.applicationId ≠ a) :
    Redelegated a d { d with
      representatives := d.representatives.insert k b
      applications := d.applications.update a Application.bumped } := by
  have hrows : ∀ {j b'}, (d.representatives.insert k b).lookup j = some b' ↔
      j = k ∧ b' = b ∨ d.representatives.lookup j = some b' := by
    intro j b'
    rw [AList.lookup_insert']
    split
    · rename_i hj
      subst hj
      simp [AList.lookup_eq_none.mpr hk, eq_comm]
    · rename_i hj
      simp [hj]
  refine ⟨rfl, fun j b' hne ↦ ?_, fun hj hj' heq ↦ ?_⟩
  · refine hrows.trans (or_iff_right ?_)
    rintro ⟨-, rfl⟩
    exact hne ha
  · rcases hrows.mp hj with ⟨rfl, rfl⟩ | hold
    · rcases hrows.mp hj' with ⟨rfl, -⟩ | hold'
      · rfl
      · exact absurd (heq.symm.trans ha) (hnew _ _ hold')
    · rcases hrows.mp hj' with ⟨rfl, rfl⟩ | hold'
      · exact absurd (heq.trans ha) (hnew _ _ hold)
      · exact hd.representativeUnique hold hold' heq

theorem bindMembership_settles (hd : d.Consistent) {id a membershipId actorPrincipalId : Uuid}
    {expected : Option ℕ}
    (h : d.bindMembership id a membershipId actorPrincipalId expected = .ok d') :
    Settles t d (.bindMembership id a membershipId actorPrincipalId expected) d' := by
  unfold bindMembership at h
  split at h
  · cases h
  rename_i app happ
  split at h
  · cases h
  split at h
  · cases h
  split at h
  · cases h
  obtain ⟨rows, hrows, h⟩ := Except.bind_eq_ok.mp h
  cases h
  have happ := (Option.filter_eq_some_iff.mp happ).1
  unfold delegation at hrows
  split at hrows
  · rename_i hnone
    obtain ⟨hfresh, rfl⟩ := insertRow_eq_ok.mp hrows
    refine Redelegated.settles hd happ (redelegated_insert hd hfresh rfl fun j b hb heq ↦ ?_)
      not_false
    have hfalse := AList.selectFirst_eq_none.mp hnone j b hb
    simp [heq] at hfalse
  · rename_i bound b hfound
    cases hrows
    obtain ⟨hb, ha⟩ := AList.lookup_of_selectFirst hfound
    refine Redelegated.settles hd happ ?_ not_false
    exact redelegated_update hd hb (of_decide_eq_true ha) fun _ ↦ rfl

theorem revokeMembershipBinding_settles (hd : d.Consistent) {a actorPrincipalId : Uuid}
    {found : Bool} (h : d.revokeMembershipBinding now a actorPrincipalId = .ok (found, d')) :
    Settles t d (.revokeMembershipBinding now a actorPrincipalId) d' := by
  unfold revokeMembershipBinding at h
  split at h
  · rename_i bound b app hfound happ
    cases h
    obtain ⟨hb, ha⟩ := AList.lookup_of_selectFirst hfound
    refine Redelegated.settles hd happ ?_ not_false
    exact redelegated_update hd hb (of_decide_eq_true ha) fun _ ↦ rfl
  · cases h
    exact .unchanged hd not_false

theorem manage_settles (t : Timestamp) (hd : d.Consistent) {c : ManagementCmd}
    (h : manage c d = .ok d') : Settles t d c d' := by
  cases c with
  | createRoleBinding id now principalId data createdBy =>
      obtain ⟨found, h⟩ := snd_eq_ok.mp h
      exact createRoleBinding_settles hd h
  | updateRoleBinding now id data =>
      obtain ⟨found, h⟩ := snd_eq_ok.mp h
      exact updateRoleBinding_settles hd h
  | revokeRoleBinding now id =>
      obtain ⟨found, h⟩ := snd_eq_ok.mp h
      exact revokeRoleBinding_settles hd h
  | updateRole now roleId name permissions =>
      obtain ⟨found, h⟩ := snd_eq_ok.mp h
      exact updateRole_settles hd h
  | updateMember now membershipId status =>
      obtain ⟨found, h⟩ := snd_eq_ok.mp h
      exact updateMember_settles hd h
  | deleteGroup now groupId =>
      obtain ⟨found, h⟩ := snd_eq_ok.mp h
      exact deleteGroup_settles hd h
  | addGroupMember id now groupId membershipId =>
      obtain ⟨found, h⟩ := snd_eq_ok.mp h
      exact addGroupMember_settles hd h
  | removeGroupMember now groupId membershipId =>
      obtain ⟨found, h⟩ := snd_eq_ok.mp h
      exact removeGroupMember_settles hd h
  | bindMembership id applicationId membershipId actorPrincipalId expected =>
      exact bindMembership_settles hd h
  | revokeMembershipBinding now applicationId actorPrincipalId =>
      obtain ⟨found, h⟩ := snd_eq_ok.mp h
      exact revokeMembershipBinding_settles hd h

/-- A transaction which overlooks an application is accepted. -/
theorem accepted_of_overlooks {c : ManagementCmd} (h : d.Overlooks t c) :
    ∃ d', manage c d = .ok d' := by
  cases c with
  | addGroupMember id now groupId membershipId =>
      obtain ⟨group, member, hgroup, hmember, hnew, hfresh, -⟩ := h
      rw [manage, addGroupMember, hgroup, hmember]
      simp only [hnew, Bool.false_eq_true, if_false]
      rw [insertRow, if_neg hfresh]
      exact ⟨_, rfl⟩
  | removeGroupMember now groupId membershipId =>
      obtain ⟨group, member, -, hmember, hbelongs, -⟩ := h
      obtain ⟨k, m, hm, hg, hp⟩ := isGroupMember_iff.mp hbelongs
      rw [manage, removeGroupMember, hmember]
      simp only
      split
      · exact ⟨d, rfl⟩
      · exact ⟨_, rfl⟩
  | updateMember now membershipId status =>
      obtain ⟨row, hrow, -⟩ := h
      rw [manage, updateMember, hrow]
      exact ⟨_, rfl⟩
  | _ => exact h.elim

theorem consistent_advance (hd : d.Consistent) (c : ManagementCmd) :
    (advance manage d c).Consistent :=
  advance_preserves hd fun _ h ↦ (manage_settles 0 hd h).advances.consistent

/-- One management transaction invalidates what it changes unless it overlooks an application. -/
theorem advance_invalidates_iff (t : Timestamp) (hd : d.Consistent) (c : ManagementCmd) :
    ¬ d.Overlooks t c ↔ Invalidates (effective t) version d (advance manage d c) := by
  cases h : manage c d with
  | ok d' =>
      rw [advance_of_ok h]
      exact (manage_settles t hd h).invalidates_iff.symm
  | error e =>
      rw [advance_of_error h]
      refine iff_of_true (fun hover ↦ ?_) fun _ hne ↦ absurd rfl hne
      obtain ⟨d', hok⟩ := accepted_of_overlooks hover
      rw [h] at hok
      cases hok

theorem coherent_advance (hd : d.Consistent) {c : ManagementCmd} (hc : ¬ d.Overlooks t c) :
    Coherent (effective t) version d (advance manage d c) :=
  ⟨advance_preserves (I := fun d' ↦ ∀ i, d.version i ≤ d'.version i) (fun _ ↦ le_rfl)
    fun _ h ↦ (manage_settles t hd h).advances.version_le, (advance_invalidates_iff t hd c).mp hc⟩

/-! ## Runs -/

/-- Every transaction of a run invalidates what it changes exactly when none overlooks an
application. -/
theorem versions_follow_bindings_iff (t : Timestamp) (hd : d.Consistent)
    (cs : List ManagementCmd) :
    (∀ pre c post, cs = pre ++ c :: post →
      Invalidates (effective t) version (run manage d pre) (run manage d (pre ++ [c]))) ↔
    Meets manage (fun d c ↦ ¬ d.Overlooks t c) d cs :=
  run_commands_iff (P := fun d _ d' ↦ Invalidates (effective t) version d d')
    (fun _ c hd ↦ consistent_advance hd c) (fun _ c hd ↦ advance_invalidates_iff t hd c) hd

namespace Sample

/-- A member, an application which acts for it, and a group with a role the member lacks. -/
def delegating : Directory where
  tenantActive := true
  permissions := ["files.read"]
  principals := ((∅ : Table Uuid Principal).insert 1 ⟨.user, true⟩ |>.insert 2 ⟨.group, true⟩)
    |>.insert 3 ⟨.application, true⟩
  users := (∅ : Table Uuid User).insert 10 ⟨"member@example.com", .active⟩
  memberships := (∅ : Table Uuid Membership).insert 100 ⟨10, 1, .active, 1, none⟩
  groups := (∅ : Table Uuid Group).insert 200 ⟨2, true⟩
  groupMembers := ∅
  roles := (∅ : Table Uuid Role).insert 300 ⟨"reader", false, ["files.read"]⟩
  roleBindings := (∅ : Table Uuid RoleBinding).insert 400
    ⟨2, 300, .allow, none, none, "readers", 0, 1000, 1, none⟩
  applications := (∅ : Table Uuid Application).insert 500 ⟨3, .active, 1⟩
  owners := ∅
  representatives := (∅ : Table Uuid ApplicationMembershipBinding).insert 600
    ⟨500, 100, 1, .active, none, none⟩
  sessions := ∅
  platformBindings := ∅

theorem consistent_delegating : delegating.Consistent := by
  refine ⟨fun h ↦ ?_, fun h h' _ ↦ ?_, fun h ↦ ?_, fun h h' _ ↦ ?_, fun h ↦ ?_, fun h ↦ ?_,
    fun h ↦ ?_, fun h h' _ ↦ ?_, fun h h' _ ↦ ?_⟩
  · obtain ⟨-, rfl⟩ := AList.lookup_single.mp h
    exact ⟨true, rfl⟩
  · rw [(AList.lookup_single.mp h).1, (AList.lookup_single.mp h').1]
  · obtain ⟨-, rfl⟩ := AList.lookup_single.mp h
    exact ⟨true, rfl⟩
  · rw [(AList.lookup_single.mp h).1, (AList.lookup_single.mp h').1]
  · cases h
  · cases h
  · obtain ⟨-, rfl⟩ := AList.lookup_single.mp h
    exact ⟨true, rfl⟩
  · rw [(AList.lookup_single.mp h).1, (AList.lookup_single.mp h').1]
  · rw [(AList.lookup_single.mp h).1, (AList.lookup_single.mp h').1]

/-- The member joins the group. -/
def joining : ManagementCmd := .addGroupMember 700 5 200 100

/-- The binding of the group is revoked and the application is bound again. -/
def revoking : List ManagementCmd :=
  [.revokeRoleBinding 5 400, .bindMembership 601 500 100 1 none]

end Sample

theorem versions_follow_bindings_sample :
    Invalidates (effective 6) version Sample.delegating
      (run manage Sample.delegating [.revokeRoleBinding 5 400]) :=
  (versions_follow_bindings_iff 6 Sample.consistent_delegating Sample.revoking).mpr
    ⟨not_false, not_false, trivial⟩ [] _ _ rfl

/-- The application gains the bindings of the group under its old version. -/
theorem joining_not_invalidated : ¬ ∀ (t : Timestamp) (d : Directory) (c : ManagementCmd),
    d.Consistent → Invalidates (effective t) version d (advance manage d c) := by
  intro h
  have hraised := h 6 Sample.delegating Sample.joining Sample.consistent_delegating
    (.application 500) fun heq ↦ by
      have hgained : (⟨400, "files.read", .allow, none, 0, 1000, "readers", none⟩ : Binding) ∈
          (advance manage Sample.delegating Sample.joining).effective 6 (.application 500) :=
        ⟨3, rfl, by decide⟩
      rw [← heq] at hgained
      obtain ⟨p, hp, hx⟩ := hgained
      cases hp
      revert hx
      decide
  revert hraised
  decide

/-- What was cached under a version which is still current is current. -/
theorem cached_bindings_current (hd : d.Consistent) {cs : List ManagementCmd}
    (hmeets : Meets manage (fun d c ↦ ¬ d.Overlooks t c) d cs) {i : Holder}
    (hversion : d.version i = (run manage d cs).version i) :
    d.effective t i = (run manage d cs).effective t i :=
  (run_coherent (fun _ c hd ↦ consistent_advance hd c) (fun _ _ hd hc ↦ coherent_advance hd hc) hd
    hmeets).cached hversion

theorem cached_bindings_sample : Sample.delegating.effective 6 (.member 100) =
    (run manage Sample.delegating Sample.revoking).effective 6 (.member 100) := by
  have hmeets : Meets manage (fun d c ↦ ¬ d.Overlooks 6 c) Sample.delegating Sample.revoking :=
    ⟨not_false, not_false, trivial⟩
  exact cached_bindings_current Sample.consistent_delegating hmeets (by decide)

end S3mp.Directory
