import S3mp.Identity.CachedAuthorization

/-!
# What a transaction does to the bindings of a holder

The bindings which count for a holder after a change of a group, of a role
binding or of a membership, in terms of those which counted before.
-/

namespace S3mp.Directory

open Relational Authorization

variable {now t : Timestamp} {d d' : Directory} {i : Holder}

/-! ## Groups -/

/-- The bindings of an enabled group. -/
def groupBindings (t : Timestamp) (group : Group) (d : Directory) : Set Binding :=
  {b | group.enabled ∧ d.Attached t group.principalId b}

namespace MembershipChange

variable {groupId q : Uuid} {group : Group} (h : MembershipChange groupId q d d')
  (hd : d.Consistent) (hgroup : d.groups.lookup groupId = some group)

include h hd hgroup

/-- The change of a membership moves only the bindings of the group, and only for who acts as the
member. -/
theorem mem_effective_iff {b : Binding} (hb : d.Acts t i q → b ∉ d.groupBindings t group) :
    b ∈ d'.effective t i ↔ b ∈ d.effective t i := by
  rw [hd.mem_effective, (h.consistent hd hgroup).mem_effective]
  refine exists_congr fun p ↦ exists_congr fun r ↦ ?_
  rw [h.acts_iff, h.attached_iff]
  refine and_congr_right fun hp ↦ and_congr_left fun hattached ↦ h.reaches_iff hgroup ?_
  rintro rfl henabled rfl
  exact hb hp ⟨henabled, hattached⟩

theorem mem_effective_changed (hq : d.Acts t i q) {b : Binding}
    (hb : b ∈ d.groupBindings t group) :
    b ∈ d'.effective t i ↔ d'.isGroupMember groupId q := by
  have hgroup' : d'.groups.lookup groupId = some group := by
    rw [h.rest]
    exact hgroup
  exact (h.consistent hd hgroup).mem_effective_group hgroup' hb.1 (h.acts_iff.mpr hq)
    (h.attached_iff.mpr hb.2)

/-- Joining a group adds its bindings. -/
theorem effective_joined (hjoined : d'.isGroupMember groupId q) (hq : d.Acts t i q) :
    d'.effective t i = d.effective t i ∪ d.groupBindings t group := by
  ext b
  by_cases hb : b ∈ d.groupBindings t group
  · exact iff_of_true ((h.mem_effective_changed hd hgroup hq hb).mpr hjoined) (Or.inr hb)
  · rw [h.mem_effective_iff hd hgroup fun _ ↦ hb]
    exact (or_iff_left hb).symm

/-- Leaving a group takes its bindings away. -/
theorem effective_left (hleft : ¬ d'.isGroupMember groupId q) (hq : d.Acts t i q) :
    d'.effective t i = d.effective t i \ d.groupBindings t group := by
  ext b
  by_cases hb : b ∈ d.groupBindings t group
  · exact iff_of_false (fun hin ↦ hleft ((h.mem_effective_changed hd hgroup hq hb).mp hin))
      fun hin ↦ hin.2 hb
  · rw [h.mem_effective_iff hd hgroup fun _ ↦ hb]
    exact (and_iff_left hb).symm

theorem effective_other (hq : ¬ d.Acts t i q) : d'.effective t i = d.effective t i := by
  ext b
  exact h.mem_effective_iff hd hgroup fun hacts ↦ absurd hacts hq

end MembershipChange

/-- Deleting a group takes its bindings away. -/
theorem effective_deleted (hd : d.Consistent) {groupId : Uuid} {row : Group}
    (hrow : d.groups.lookup groupId = some row) :
    (d.withoutGroup groupId row.principalId).effective t i =
      d.effective t i \ d.groupBindings t row := by
  ext b
  rw [(hd.withoutGroup hrow).mem_effective, Set.mem_sdiff, hd.mem_effective]
  constructor
  · rintro ⟨p, q, hp, hreaches, hb⟩
    have hp := (acts_withoutGroup hd hrow).mp hp
    obtain ⟨e, he⟩ := hd.acts_user hp
    obtain ⟨e', he'⟩ := hd.group hrow
    have hne : p ≠ row.principalId := by
      rintro rfl
      rw [he] at he'
      cases he'
    obtain ⟨hreaches, hother⟩ := (reaches_withoutGroup hrow hne).mp hreaches
    have hb := (attached_withoutGroup hother).mp hb
    exact ⟨⟨p, q, hp, hreaches, hb⟩, fun hgroup ↦ hother (hb.principal_unique hgroup.2)⟩
  · rintro ⟨⟨p, q, hp, hreaches, hb⟩, hnot⟩
    obtain ⟨e, he⟩ := hd.acts_user hp
    obtain ⟨e', he'⟩ := hd.group hrow
    have hne : p ≠ row.principalId := by
      rintro rfl
      rw [he] at he'
      cases he'
    have hother : q ≠ row.principalId := by
      rintro rfl
      rcases hreaches with heq | ⟨id, g, hg, henabled, -, heq⟩
      · exact hne heq.symm
      · obtain rfl := hd.groupUnique hg hrow heq
        obtain rfl := Option.some.inj (hg.symm.trans hrow)
        exact hnot ⟨henabled, hb⟩
    exact ⟨p, q, (acts_withoutGroup hd hrow).mpr hp,
      (reaches_withoutGroup hrow hne).mpr ⟨hreaches, hother⟩, (attached_withoutGroup hother).mpr hb⟩

/-! ## Role bindings -/

/-- The bindings a row gives a holder, with its role. -/
def rowBindings (t : Timestamp) (i : Holder) (id : Uuid) (row : RoleBinding) (d : Directory) :
    Set Binding :=
  {b | (∃ p, d.Acts t i p ∧ d.Reaches p row.principalId) ∧ row.current t ∧
    ∃ role permission, d.roles.lookup row.roleId = some role ∧ permission ∈ role.grants ∧
      b = row.binding id permission}

/-- One row of a role binding is replaced. -/
theorem effective_rewritten (hd : d.Consistent) {id : Uuid} {row : RoleBinding}
    {f : RoleBinding → RoleBinding} (hrow : d.roleBindings.lookup id = some row) :
    ({ d with roleBindings := d.roleBindings.update id f } : Directory).effective t i =
      (d.effective t i \ {b | b.id = id}) ∪ d.rowBindings t i id (f row) := by
  have hd' : ({ d with roleBindings := d.roleBindings.update id f } : Directory).Consistent :=
    hd.withRoles _ _
  have hacts : ∀ p, ({ d with roleBindings := d.roleBindings.update id f } : Directory).Acts t i p ↔
      d.Acts t i p := fun p ↦ by cases i <;> rfl
  ext b
  rw [hd'.mem_effective, Set.mem_union, Set.mem_sdiff, hd.mem_effective]
  constructor
  · rintro ⟨p, q, hp, hreaches, k, b', role, permission, hb', rfl, hcurrent, hrole, hgrant, rfl⟩
    have hp := (hacts p).mp hp
    change (d.roleBindings.update id f).lookup k = some b' at hb'
    by_cases hk : k = id
    · subst hk
      rw [AList.lookup_update_self, hrow] at hb'
      cases hb'
      exact Or.inr ⟨⟨p, hp, hreaches⟩, hcurrent, role, permission, hrole, hgrant, rfl⟩
    · rw [AList.lookup_update_of_ne hk] at hb'
      exact Or.inl ⟨⟨p, _, hp, hreaches, k, b', role, permission, hb', rfl, hcurrent, hrole, hgrant,
        rfl⟩, hk⟩
  · rintro (⟨⟨p, q, hp, hreaches, k, b', role, permission, hb', rfl, hcurrent, hrole, hgrant, rfl⟩,
      hk⟩ | ⟨⟨p, hp, hreaches⟩, hcurrent, role, permission, hrole, hgrant, rfl⟩)
    · refine ⟨p, _, (hacts p).mpr hp, hreaches, k, b', role, permission, ?_, rfl, hcurrent, hrole,
        hgrant, rfl⟩
      have hother : k ≠ id := hk
      change (d.roleBindings.update id f).lookup k = some b'
      rw [AList.lookup_update_of_ne hother, hb']
    · refine ⟨p, _, (hacts p).mpr hp, hreaches, id, f row, role, permission, ?_, rfl, hcurrent,
        hrole, hgrant, rfl⟩
      change (d.roleBindings.update id f).lookup id = some (f row)
      rw [AList.lookup_update_self, hrow, Option.map_some]

/-- A revoked row gives nothing. -/
theorem rowBindings_revoked {id : Uuid} {row : RoleBinding} :
    d.rowBindings t i id { row with revokedAt := some now } = ∅ := by
  refine Set.eq_empty_of_forall_notMem ?_
  rintro b ⟨-, hcurrent, -⟩
  simp [RoleBinding.current] at hcurrent

/-! ## The status of a membership -/

section Status

variable {membershipId : Uuid} {status : MembershipStatus} {row : Membership}

theorem effective_member_memberUpdated (hd : d.Consistent) {k p : Uuid} :
    (d.memberUpdated now membershipId status p).effective t (.member k) =
      d.effective t (.member k) :=
  effective_memberUpdated hd fun _ ↦ acts_member_memberUpdated

/-- After a change of status an application which acts for somebody did so before, or it acts for
the member that has become active. -/
theorem represents_of_memberUpdated
    (hrow : d.memberships.lookup membershipId = some row) {a r : Uuid}
    (h : (d.memberUpdated now membershipId status row.principalId).Represents t a r) :
    d.Represents t a r ∨ (d.Delegates membershipId a ∧ status = .active ∧ row.status ≠ .active ∧
      d.standing t row ∧ row.principalId = r) := by
  obtain ⟨app', k, b, m', happ', hactive, hb, hsame, hstatus, hm', hmember, hstanding, rfl⟩ := h
  have happ : d.applications.lookup a = some app' := by
    rw [lookup_application_memberUpdated] at happ'
    obtain ⟨app, happ, heq⟩ := Option.map_eq_some_iff.mp happ'
    rw [happ]
    split at heq
    · rw [← heq] at hactive
      cases hactive
    · rw [heq]
  rw [memberUpdated_rest] at hb
  rw [memberships_memberUpdated] at hm'
  obtain ⟨m, hm, rfl⟩ := AList.of_lookup_update hm'
  by_cases hk : b.membershipId = membershipId
  · rw [if_pos hk] at hmember hstanding ⊢
    rw [hk, hrow] at hm
    obtain rfl := Option.some.inj hm
    rw [standing_memberUpdated rfl rfl rfl] at hstanding
    by_cases hbefore : row.status = .active
    · exact Or.inl ⟨app', k, b, row, happ, hactive, hb, hsame, hstatus, hk ▸ hrow, hbefore,
        hstanding, rfl⟩
    · exact Or.inr ⟨⟨app', k, b, happ, hactive, hb, hsame, hstatus, hk⟩, hmember, hbefore, hstanding,
        rfl⟩
  · rw [if_neg hk] at hmember hstanding ⊢
    rw [standing_memberUpdated rfl rfl rfl] at hstanding
    exact Or.inl ⟨app', k, b, m, happ, hactive, hb, hsame, hstatus, hm, hmember, hstanding, rfl⟩

/-- An application has the bindings it had, or those of the member that has become active. -/
theorem effective_application_memberUpdated (hd : d.Consistent)
    (hrow : d.memberships.lookup membershipId = some row) {a : Uuid} {b : Binding}
    (hb : b ∈ (d.memberUpdated now membershipId status row.principalId).effective t
      (.application a)) :
    (d.memberUpdated now membershipId status row.principalId).effective t (.application a) =
        d.effective t (.application a) ∨
      (d.Delegates membershipId a ∧ status = .active ∧ row.status ≠ .active ∧ d.standing t row ∧
        (d.memberUpdated now membershipId status row.principalId).effective t (.application a) =
          d.effective t (.member membershipId)) := by
  have hd' : (d.memberUpdated now membershipId status row.principalId).Consistent :=
    hd.memberUpdated
  obtain ⟨r, q, hr, hreaches, hattached⟩ := hd'.mem_effective.mp hb
  have hsame : ∀ {j}, d.Acts t j r →
      (d.memberUpdated now membershipId status row.principalId).effective t (.application a) =
        d.effective t j := by
    intro j hj
    ext b'
    rw [hd'.mem_effective_acting (h := .application a) hr, hd.mem_effective_acting hj,
      memberUpdated_rest]
    rfl
  rcases represents_of_memberUpdated hrow hr with
    hbefore | ⟨hdelegates, hactive, hinactive, hstanding, rfl⟩
  · exact Or.inl (hsame (j := .application a) hbefore)
  · refine Or.inr ⟨hdelegates, hactive, hinactive, hstanding, hsame (j := .member membershipId) ?_⟩
    rw [Acts, principal, hrow, Option.map_some]

end Status

end S3mp.Directory
