import S3mp.Identity.Bumps
import S3mp.Transition.Versioned

/-!
# Which changes of bindings invalidate cached authorization

Each management transaction is compared with the versions it raises.  Role
bindings, roles, the deletion of a group and the delegation of an application
raise every holder whose bindings they change.  A membership which enters or
leaves a group, or changes its status, raises itself but not the applications
which act for it.
-/

namespace S3mp.Directory

open Relational Authorization Transition

variable {now t : Timestamp} {d d' d₁ d₂ : Directory}

/-! ## Roles and role bindings -/

/-- A change of roles and role bindings, followed by bumps which reach every holder for whom an
attached binding changes. -/
theorem invalidates_of_attached (hd : d.Consistent)
    (hchanged : d₁ = { d with roles := d₁.roles, roleBindings := d₁.roleBindings })
    (hbumps : d₁.Bumps d₂)
    (hraise : ∀ q x, ¬ (d₁.Attached t q x ↔ d.Attached t q x) → ∀ i p, d₁.Acts t i p →
      d₁.Reaches p q → d₁.version i < d₂.version i) :
    Invalidates (effective t) version d d₂ := by
  have hd₁ : d₁.Consistent := by
    rw [hchanged]
    exact hd.withRoles _ _
  have hacts : ∀ i p, d₁.Acts t i p ↔ d.Acts t i p := by
    rw [hchanged]
    exact fun i p ↦ by cases i <;> rfl
  have hreaches : ∀ p q, d₁.Reaches p q ↔ d.Reaches p q := by
    rw [hchanged]
    exact fun p q ↦ Iff.rfl
  have hversion : ∀ i, d₁.version i = d.version i := by
    rw [hchanged]
    exact fun i ↦ by cases i <;> rfl
  intro i hne
  by_contra hnot
  apply hne
  rw [hbumps.effective_eq hd₁]
  ext x
  rw [hd.mem_effective, hd₁.mem_effective]
  refine exists_congr fun p ↦ exists_congr fun q ↦ ?_
  rw [← hacts, ← hreaches]
  refine and_congr_right fun hp ↦ and_congr_right fun hq ↦ ?_
  by_contra hattached
  exact hnot (hversion i ▸ hraise q x (fun h ↦ hattached h.symm) i p hp hq)

/-- The rows of one principal change, and that principal is bumped. -/
theorem roleBindings_invalidate (hd : d.Consistent) {q : Uuid} {rows : Table Uuid RoleBinding}
    (hother : ∀ k b, b.principalId ≠ q →
      (rows.lookup k = some b ↔ d.roleBindings.lookup k = some b)) :
    Invalidates (effective t) version d
      (bumpAffectedPrincipals now { d with roleBindings := rows } q) := by
  refine invalidates_of_attached hd rfl (bumps_affectedPrincipals now _ q) ?_
  intro q' x hdiffer i p hacts hreaches
  have hq : q' = q := by
    by_contra hne
    apply hdiffer
    refine exists_congr fun k ↦ exists_congr fun b ↦ exists_congr fun role ↦
      exists_congr fun permission ↦ ?_
    constructor
    · rintro ⟨hrow, rfl, hrest⟩
      exact ⟨(hother k b hne).mp hrow, rfl, hrest⟩
    · rintro ⟨hrow, rfl, hrest⟩
      exact ⟨(hother k b hne).mpr hrow, rfl, hrest⟩
  subst hq
  exact version_affected_raised (t := t) (hd.withRoles _ _) hacts hreaches

/-- The role changes, and every principal bound to it is bumped. -/
theorem role_invalidates (hd : d.Consistent) {roleId : Uuid} {f : Role → Role} :
    Invalidates (effective t) version d
      (bumpBoundPrincipals now roleId { d with roles := d.roles.update roleId f }) := by
  refine invalidates_of_attached hd rfl (bumps_boundPrincipals now _ roleId) ?_
  intro q x hdiffer i p hacts hreaches
  have hbound : ∃ k b, d.roleBindings.lookup k = some b ∧ b.principalId = q ∧ b.roleId = roleId ∧
      b.revokedAt = none := by
    by_contra hnone
    apply hdiffer
    refine exists_congr fun k ↦ exists_congr fun b ↦ exists_congr fun role ↦
      exists_congr fun permission ↦ and_congr_right fun hrow ↦ and_congr_right fun hprincipal ↦
        and_congr_right fun hcurrent ↦ and_congr_left fun _ ↦ ?_
    have hne : b.roleId ≠ roleId := by
      intro hrole
      have hunrevoked : b.revokedAt.isNone := by
        simp only [RoleBinding.current, Bool.and_eq_true] at hcurrent
        exact hcurrent.1.1
      exact hnone ⟨k, b, hrow, hprincipal, hrole, Option.isNone_iff_eq_none.mp hunrevoked⟩
    exact iff_of_eq (congrArg (· = some role) (AList.lookup_update_of_ne hne f d.roles))
  obtain ⟨k, b, hrow, rfl, hrole, hunrevoked⟩ := hbound
  refine foldl_raises (bumps_affectedPrincipals now) (a := b.principalId) ?_ fun d' h ↦ ?_
  · exact List.mem_map.mpr ⟨(k, b), AList.mem_select_iff.mpr ⟨hrow, by simp [hrole, hunrevoked]⟩, rfl⟩
  · exact version_affected_raised (t := t) (h.consistent (hd.withRoles _ _)) (h.acts_iff.mpr hacts)
      (h.reaches_iff.mpr hreaches)

/-! ## Deletion of a group -/

section Deletion

variable (hd : d.Consistent) {groupId : Uuid} {row : Group}
  (hrow : d.groups.lookup groupId = some row)

theorem lookup_principal_withoutGroup {p q : Uuid} (h : p ≠ q) :
    (d.withoutGroup groupId q).principals.lookup p = d.principals.lookup p :=
  AList.lookup_erase_ne h

include hrow

theorem lookup_group_withoutGroup {k : Uuid} {g : Group} :
    (d.withoutGroup groupId row.principalId).groups.lookup k = some g ↔
      d.groups.lookup k = some g ∧ g.principalId ≠ row.principalId := by
  rw [withoutGroup, AList.lookup_deleteWhere, Option.filter_eq_some_iff]
  refine and_congr_right fun hg ↦ ?_
  simp only [Bool.not_or, Bool.and_eq_true, Bool.not_eq_true', decide_eq_false_iff_not]
  refine and_iff_right_of_imp fun hne heq ↦ hne ?_
  subst heq
  rw [Option.some.inj (hg.symm.trans hrow)]

include hd

theorem Consistent.member_ne_group {k : Uuid} {m : Membership}
    (hm : d.memberships.lookup k = some m) : m.principalId ≠ row.principalId := by
  obtain ⟨e, he⟩ := hd.group hrow
  obtain ⟨e', he'⟩ := hd.member hm
  intro heq
  rw [heq, he] at he'
  cases he'

theorem Consistent.application_ne_group {k : Uuid} {a : Application}
    (ha : d.applications.lookup k = some a) : a.principalId ≠ row.principalId := by
  obtain ⟨e, he⟩ := hd.group hrow
  obtain ⟨e', he'⟩ := hd.application ha
  intro heq
  rw [heq, he] at he'
  cases he'

theorem Consistent.withoutGroup : (d.withoutGroup groupId row.principalId).Consistent := by
  have hmember : ∀ {k m},
      (d.withoutGroup groupId row.principalId).groupMembers.lookup k = some m →
        d.groupMembers.lookup k = some m ∧ m.groupId ≠ groupId := by
    intro k m hm
    rw [Directory.withoutGroup, AList.lookup_deleteWhere, Option.filter_eq_some_iff] at hm
    exact ⟨hm.1, fun heq ↦ by simp [heq] at hm⟩
  refine ⟨fun {k m} hm ↦ ?_, hd.memberUnique, fun {k g} hg ↦ ?_, fun hg hg' ↦ ?_,
    fun {k m} hm ↦ ?_, fun hm hm' ↦ ?_, fun {k a} ha ↦ ?_, hd.applicationUnique,
    hd.representativeUnique⟩
  · rw [lookup_principal_withoutGroup (hd.member_ne_group hrow hm)]
    exact hd.member hm
  · obtain ⟨hg, hne⟩ := (lookup_group_withoutGroup hrow).mp hg
    rw [lookup_principal_withoutGroup hne]
    exact hd.group hg
  · exact hd.groupUnique ((lookup_group_withoutGroup hrow).mp hg).1
      ((lookup_group_withoutGroup hrow).mp hg').1
  · obtain ⟨hm, hother⟩ := hmember hm
    obtain ⟨g, hg⟩ := hd.groupMember hm
    refine ⟨g, (lookup_group_withoutGroup hrow).mpr ⟨hg, fun heq ↦ hother ?_⟩⟩
    exact hd.groupUnique hg hrow heq
  · exact hd.groupMemberUnique (hmember hm).1 (hmember hm').1
  · rw [lookup_principal_withoutGroup (hd.application_ne_group hrow ha)]
    exact hd.application ha

theorem acts_withoutGroup {i : Holder} {p : Uuid} :
    (d.withoutGroup groupId row.principalId).Acts t i p ↔ d.Acts t i p := by
  have hstanding : ∀ {k m}, d.memberships.lookup k = some m →
      (d.withoutGroup groupId row.principalId).standing t m = d.standing t m := by
    intro k m hm
    rw [standing, lookup_principal_withoutGroup (hd.member_ne_group hrow hm)]
    rfl
  cases i with
  | member k => exact Iff.rfl
  | application a =>
      constructor
      · rintro ⟨app, k, b, m, happ, hactive, hb, hsame, hstatus, hm, hmember, hstands, rfl⟩
        exact ⟨app, k, b, m, happ, hactive, hb, hsame, hstatus, hm, hmember,
          hstanding hm ▸ hstands, rfl⟩
      · rintro ⟨app, k, b, m, happ, hactive, hb, hsame, hstatus, hm, hmember, hstands, rfl⟩
        exact ⟨app, k, b, m, happ, hactive, hb, hsame, hstatus, hm, hmember,
          (hstanding hm).trans hstands, rfl⟩

omit hd in
theorem isGroupMember_withoutGroup {k p : Uuid} {g : Group} (hp : p ≠ row.principalId)
    (hg : d.groups.lookup k = some g) (hne : g.principalId ≠ row.principalId) :
    (d.withoutGroup groupId row.principalId).isGroupMember k p ↔ d.isGroupMember k p := by
  rw [isGroupMember_iff, isGroupMember_iff]
  refine exists_congr fun j ↦ exists_congr fun m ↦ ?_
  rw [withoutGroup, AList.lookup_deleteWhere, Option.filter_eq_some_iff, and_assoc]
  refine and_congr_right fun _ ↦ and_iff_right_of_imp ?_
  rintro ⟨rfl, rfl⟩
  have hk : m.groupId ≠ groupId := by
    intro heq
    rw [heq, hrow] at hg
    exact hne (Option.some.inj hg ▸ rfl)
  simp [hk, hp]

omit hd in
theorem reaches_withoutGroup {p q : Uuid} (hp : p ≠ row.principalId) :
    (d.withoutGroup groupId row.principalId).Reaches p q ↔
      d.Reaches p q ∧ q ≠ row.principalId := by
  constructor
  · rintro (rfl | ⟨k, g, hg, henabled, hm, rfl⟩)
    · exact ⟨Or.inl rfl, hp⟩
    · obtain ⟨hg, hne⟩ := (lookup_group_withoutGroup hrow).mp hg
      have hmember := (isGroupMember_withoutGroup hrow hp hg hne).mp hm
      exact ⟨Or.inr ⟨k, g, hg, henabled, hmember, rfl⟩, hne⟩
  · rintro ⟨rfl | ⟨k, g, hg, henabled, hm, rfl⟩, hne⟩
    · exact Or.inl rfl
    · exact Or.inr ⟨k, g, (lookup_group_withoutGroup hrow).mpr ⟨hg, hne⟩, henabled,
        (isGroupMember_withoutGroup hrow hp hg hne).mpr hm, rfl⟩

omit hd hrow in
theorem attached_withoutGroup {p q : Uuid} {x : Binding} (hq : q ≠ p) :
    (d.withoutGroup groupId p).Attached t q x ↔ d.Attached t q x := by
  refine exists_congr fun k ↦ exists_congr fun b ↦ exists_congr fun role ↦
    exists_congr fun permission ↦ ?_
  rw [withoutGroup, AList.lookup_deleteWhere, Option.filter_eq_some_iff, and_assoc]
  refine and_congr_right fun _ ↦ and_iff_right_of_imp ?_
  rintro ⟨rfl, -⟩
  simp [hq]

/-- Whoever does not reach the group keeps its bindings. -/
theorem effective_withoutGroup {i : Holder}
    (hunreached : ∀ p, d.Acts t i p → ¬ d.Reaches p row.principalId) :
    (d.withoutGroup groupId row.principalId).effective t i = d.effective t i := by
  ext x
  rw [(hd.withoutGroup hrow).mem_effective, hd.mem_effective]
  refine exists_congr fun p ↦ exists_congr fun q ↦ ?_
  rw [acts_withoutGroup hd hrow]
  refine and_congr_right fun hp ↦ ?_
  have hnotgroup : p ≠ row.principalId := fun heq ↦ hunreached p hp (Or.inl heq.symm)
  rw [reaches_withoutGroup hrow hnotgroup]
  constructor
  · rintro ⟨⟨hreaches, hne⟩, hx⟩
    exact ⟨hreaches, (attached_withoutGroup hne).mp hx⟩
  · rintro ⟨hreaches, hx⟩
    have hne : q ≠ row.principalId := fun heq ↦ hunreached p hp (heq ▸ hreaches)
    exact ⟨⟨hreaches, hne⟩, (attached_withoutGroup hne).mpr hx⟩

/-- Whoever reaches the group is bumped before it is deleted. -/
theorem deletion_invalidates :
    Invalidates (effective t) version d
      ((bumpAffectedPrincipals now d row.principalId).withoutGroup groupId row.principalId) := by
  have hbumps := bumps_affectedPrincipals now d row.principalId
  have hgroup : (bumpAffectedPrincipals now d row.principalId).groups.lookup groupId = some row :=
    hbumps.groups_eq ▸ hrow
  intro i hne
  by_contra hnot
  apply hne
  rw [effective_withoutGroup (hbumps.consistent hd) hgroup, hbumps.effective_eq hd]
  intro p hp hreaches
  have hraised : d.version i < (bumpAffectedPrincipals now d row.principalId).version i :=
    version_affected_raised hd (hbumps.acts_iff.mp hp) (hbumps.reaches_iff.mp hreaches)
  exact hnot (hraised.trans_eq (by cases i <;> rfl))

end Deletion

/-! ## Members of groups -/

section GroupMembers

variable {groupId q : Uuid} {group : Group}

/-- Membership in one group changes for one principal. -/
structure MembershipChange (groupId q : Uuid) (d d' : Directory) : Prop where
  rest : d' = { d with groupMembers := d'.groupMembers }
  other : ∀ g p, g ≠ groupId ∨ p ≠ q → (d'.isGroupMember g p ↔ d.isGroupMember g p)
  changed : d'.isGroupMember groupId q ↔ ¬ d.isGroupMember groupId q
  groupMember : ∀ {k m}, d'.groupMembers.lookup k = some m →
    m.groupId = groupId ∨ ∃ k', d.groupMembers.lookup k' = some m
  unique : ∀ {k k' m m'}, d'.groupMembers.lookup k = some m →
    d'.groupMembers.lookup k' = some m' → m.groupId = m'.groupId →
      m.principalId = m'.principalId → k = k'

namespace MembershipChange

variable (h : MembershipChange groupId q d d')

include h

theorem consistent (hd : d.Consistent) (hgroup : d.groups.lookup groupId = some group) :
    d'.Consistent := by
  have hgroups : d'.groups = d.groups := by rw [h.rest]
  have hmember : ∀ {k m}, d'.groupMembers.lookup k = some m →
      ∃ g, d'.groups.lookup m.groupId = some g := by
    intro k m hm
    rw [hgroups]
    rcases h.groupMember hm with heq | ⟨k', hm⟩
    · exact ⟨group, heq ▸ hgroup⟩
    · exact hd.groupMember hm
  refine ⟨?_, ?_, ?_, ?_, hmember, h.unique, ?_, ?_, ?_⟩
  · rw [h.rest]
    exact hd.member
  · rw [h.rest]
    exact hd.memberUnique
  · rw [h.rest]
    exact hd.group
  · rw [h.rest]
    exact hd.groupUnique
  · rw [h.rest]
    exact hd.application
  · rw [h.rest]
    exact hd.applicationUnique
  · rw [h.rest]
    exact hd.representativeUnique

theorem acts_iff {i : Holder} {p : Uuid} : d'.Acts t i p ↔ d.Acts t i p := by
  rw [h.rest]
  cases i <;> rfl

theorem attached_iff {p : Uuid} {x : Binding} : d'.Attached t p x ↔ d.Attached t p x := by
  rw [h.rest]
  rfl

theorem reaches_iff (hgroup : d.groups.lookup groupId = some group) {p r : Uuid}
    (hother : p = q → group.enabled → r ≠ group.principalId) :
    d'.Reaches p r ↔ d.Reaches p r := by
  have hgroups : d'.groups = d.groups := by rw [h.rest]
  refine or_congr_right (exists_congr fun id ↦ exists_congr fun g ↦ ?_)
  rw [hgroups]
  refine and_congr_right fun hg ↦ and_congr_right fun henabled ↦ and_congr_left fun heq ↦ ?_
  refine h.other id p ?_
  by_contra hsame
  rw [not_or, not_not, not_not] at hsame
  obtain ⟨rfl, rfl⟩ := hsame
  rw [hgroup] at hg
  obtain rfl := Option.some.inj hg
  exact hother rfl henabled heq.symm

/-- Only who acts as the member notices the change, and only through bindings of an enabled
group. -/
theorem of_effective_ne (hd : d.Consistent) (hgroup : d.groups.lookup groupId = some group)
    {i : Holder} (hne : d.effective t i ≠ d'.effective t i) :
    d.Acts t i q ∧ group.enabled ∧ ∃ x, d.Attached t group.principalId x := by
  by_contra hnot
  apply hne
  ext x
  rw [hd.mem_effective, (h.consistent hd hgroup).mem_effective]
  refine exists_congr fun p ↦ exists_congr fun r ↦ ?_
  rw [h.acts_iff, h.attached_iff]
  refine and_congr_right fun hp ↦ and_congr_left fun hx ↦ (h.reaches_iff hgroup ?_).symm
  rintro rfl henabled rfl
  exact hnot ⟨hp, henabled, x, hx⟩

theorem invalidates_iff (hd : d.Consistent) (hgroup : d.groups.lookup groupId = some group) :
    Invalidates (effective t) version d (d'.bumpMembershipVersion now q) ↔
      ¬ (group.enabled ∧ (∃ a, d.Represents t a q) ∧ ∃ x, d.Attached t group.principalId x) := by
  have hd' := h.consistent hd hgroup
  have hbumps := bumps_membershipVersion d' now q
  have hversion : ∀ i, d'.version i = d.version i := by
    rw [h.rest]
    exact fun i ↦ by cases i <;> rfl
  constructor
  · rintro hinvalidates ⟨henabled, ⟨a, ha⟩, x, hx⟩
    have heq : d.effective t (.application a) = d'.effective t (.application a) := by
      by_contra hne
      rw [← hbumps.effective_eq hd'] at hne
      have hraised := hinvalidates _ hne
      rw [← hversion] at hraised
      exact lt_irrefl _ hraised
    have hgroup' : d'.groups.lookup groupId = some group := by
      rw [h.rest]
      exact hgroup
    have hbefore := hd.mem_effective_group (h := .application a) hgroup henabled ha hx
    have hafter := hd'.mem_effective_group hgroup' henabled
      ((h.acts_iff (i := .application a)).mpr ha) (h.attached_iff.mpr hx)
    rw [← heq, hbefore, h.changed] at hafter
    exact (not_iff_self hafter.symm)
  · intro hnot i hne
    rw [hbumps.effective_eq hd'] at hne
    obtain ⟨hacts, henabled, x, hx⟩ := h.of_effective_ne hd hgroup hne
    cases i with
    | member k =>
        obtain ⟨m, hm, rfl⟩ := Option.map_eq_some_iff.mp (h.acts_iff.mpr hacts)
        rw [← hversion]
        exact version_member_raised now hm
    | application a => exact absurd ⟨henabled, ⟨a, hacts⟩, x, hx⟩ hnot

end MembershipChange

end GroupMembers

/-! ## The status of a membership -/

section Status

/-- The application is active and its active binding is to this membership. -/
def Delegates (membershipId applicationId : Uuid) (d : Directory) : Prop :=
  ∃ a k b, d.applications.lookup applicationId = some a ∧ a.status = .active ∧
    d.representatives.lookup k = some b ∧ b.applicationId = applicationId ∧ b.status = .active ∧
    b.membershipId = membershipId

/-- Some owner is an active member through another membership than this one. -/
def hasOtherActiveOwner (now : Timestamp) (membershipId applicationId : Uuid) (d : Directory) :
    Bool :=
  d.owners.anyRow fun _ o ↦ o.applicationId = applicationId &&
    d.memberships.anyRow fun k m ↦ k ≠ membershipId && (m.principalId = o.ownerPrincipalId &&
      m.status = .active && m.expiresAt.all (now < ·))

/-- The change of status takes the last active owner from an application of the member. -/
def contains (now : Timestamp) (membershipId : Uuid) (status : MembershipStatus)
    (principalId applicationId : Uuid) (d : Directory) : Bool :=
  status ≠ .active && d.owns principalId applicationId &&
    !d.hasOtherActiveOwner now membershipId applicationId

/-- The directory after `update_member`. -/
def memberUpdated (now : Timestamp) (membershipId : Uuid) (status : MembershipStatus)
    (principalId : Uuid) (d : Directory) : Directory :=
  let changed := revokeSessions now (fun s ↦ s.membershipId = membershipId)
    (d.statusChanged membershipId status)
  if status ≠ .active then changed.containOwnerless now principalId else changed

variable {membershipId : Uuid} {status : MembershipStatus} {row : Membership} {p : Uuid}

theorem anyRow_congr {α κ : Type} [DecidableEq κ] {f g : κ → α → Bool} {t t' : Table κ α}
    (h : ∀ k, (∃ v, t.lookup k = some v ∧ f k v) ↔ ∃ v, t'.lookup k = some v ∧ g k v) :
    t.anyRow f = t'.anyRow g := by
  rw [Bool.eq_iff_iff, AList.anyRow_eq_true, AList.anyRow_eq_true]
  exact exists_congr h

theorem hasActiveOwner_statusChanged (hstatus : status ≠ .active) {a : Uuid} :
    (d.statusChanged membershipId status).hasActiveOwner now a =
      d.hasOtherActiveOwner now membershipId a := by
  refine anyRow_congr fun k ↦ exists_congr fun o ↦ and_congr_right fun _ ↦ ?_
  rw [Bool.and_eq_true, Bool.and_eq_true]
  refine and_congr_right fun _ ↦ iff_of_eq (congrArg (· = true) ?_)
  refine anyRow_congr fun k ↦ ?_
  rw [statusChanged, AList.lookup_update]
  split
  · rename_i hk
    subst hk
    refine iff_of_false ?_ ?_
    · rintro ⟨v, hv, hv'⟩
      obtain ⟨m, -, rfl⟩ := Option.map_eq_some_iff.mp hv
      simp [hstatus] at hv'
    · rintro ⟨v, -, hv'⟩
      simp at hv'
  · rename_i hk
    simp [hk]

theorem memberUpdated_rest :
    d.memberUpdated now membershipId status p = { d with
      memberships := (d.statusChanged membershipId status).memberships
      applications := (d.memberUpdated now membershipId status p).applications
      sessions := (d.memberUpdated now membershipId status p).sessions } := by
  unfold memberUpdated
  split
  · rfl
  · rfl

theorem lookup_application_memberUpdated {a : Uuid} :
    (d.memberUpdated now membershipId status p).applications.lookup a =
      (d.applications.lookup a).map fun app ↦
        if d.contains now membershipId status p a && app.status = .active then
          { app.bumped with status := .pendingTakeover }
        else app := by
  unfold memberUpdated contains
  split
  · rename_i hstatus
    rw [containOwnerless, AList.lookup_updateWhere]
    have howner : (revokeSessions now (fun s ↦ s.membershipId = membershipId)
        (d.statusChanged membershipId status)).hasActiveOwner now a =
          d.hasOtherActiveOwner now membershipId a :=
      hasActiveOwner_statusChanged hstatus
    rw [howner]
    simp only [hstatus, ne_eq, not_false_eq_true, decide_true, Bool.true_and]
    rfl
  · rename_i hstatus
    rw [not_not] at hstatus
    simp only [hstatus, ne_eq, not_true_eq_false, decide_false, Bool.false_and, Bool.false_eq_true,
      if_false]
    exact (Option.map_id_apply).symm

theorem memberships_memberUpdated :
    (d.memberUpdated now membershipId status p).memberships =
      d.memberships.update membershipId fun m ↦ { m.bumped with status := status } := by
  rw [memberUpdated_rest]
  rfl

theorem standing_memberUpdated {m m' : Membership} (hprincipal : m'.principalId = m.principalId)
    (huser : m'.userId = m.userId) (hexpires : m'.expiresAt = m.expiresAt) :
    (d.memberUpdated now membershipId status p).standing t m' = d.standing t m := by
  rw [memberUpdated_rest, standing, hprincipal, huser, hexpires]
  rfl

theorem Consistent.memberUpdated (hd : d.Consistent) :
    (d.memberUpdated now membershipId status p).Consistent := by
  have hprincipals : (d.memberUpdated now membershipId status p).principals = d.principals := by
    rw [memberUpdated_rest]
  have happlication : ∀ {a app'},
      (d.memberUpdated now membershipId status p).applications.lookup a = some app' →
        ∃ app, d.applications.lookup a = some app ∧ app'.principalId = app.principalId := by
    intro a app' happ
    rw [lookup_application_memberUpdated] at happ
    obtain ⟨app, hrow, rfl⟩ := Option.map_eq_some_iff.mp happ
    refine ⟨app, hrow, ?_⟩
    split
    · rfl
    · rfl
  have hmembership : ∀ {k m'},
      (d.memberUpdated now membershipId status p).memberships.lookup k = some m' →
        ∃ m, d.memberships.lookup k = some m ∧ m'.principalId = m.principalId := by
    intro k m' hm
    rw [memberships_memberUpdated] at hm
    obtain ⟨m, hrow, rfl⟩ := AList.of_lookup_update hm
    refine ⟨m, hrow, ?_⟩
    split
    · rfl
    · rfl
  refine ⟨fun {k m} hm ↦ ?_, fun hm hm' heq ↦ ?_, ?_, ?_, ?_, ?_, fun {k a} ha ↦ ?_,
    fun ha hb heq ↦ ?_, ?_⟩
  · obtain ⟨m₀, hrow, heq⟩ := hmembership hm
    rw [hprincipals, heq]
    exact hd.member hrow
  · obtain ⟨m₀, hrow, hsame⟩ := hmembership hm
    obtain ⟨m₁, hrow', hsame'⟩ := hmembership hm'
    exact hd.memberUnique hrow hrow' (hsame.symm.trans (heq.trans hsame'))
  · rw [memberUpdated_rest]
    exact hd.group
  · rw [memberUpdated_rest]
    exact hd.groupUnique
  · rw [memberUpdated_rest]
    exact hd.groupMember
  · rw [memberUpdated_rest]
    exact hd.groupMemberUnique
  · obtain ⟨app, hrow, heq⟩ := happlication ha
    rw [hprincipals, heq]
    exact hd.application hrow
  · obtain ⟨app, hrow, ha'⟩ := happlication ha
    obtain ⟨app', hrow', hb'⟩ := happlication hb
    exact hd.applicationUnique hrow hrow' (ha'.symm.trans (heq.trans hb'))
  · rw [memberUpdated_rest]
    exact hd.representativeUnique

theorem version_le_memberUpdated (i : Holder) :
    d.version i ≤ (d.memberUpdated now membershipId status p).version i := by
  cases i with
  | member k =>
      rw [version, version, memberships_memberUpdated, AList.lookup_update]
      split
      · rename_i hk
        subst hk
        cases d.memberships.lookup k with
        | none => exact le_rfl
        | some m => exact Nat.le_succ m.authorizationVersion
      · exact le_rfl
  | application a =>
      rw [version, version, lookup_application_memberUpdated]
      cases d.applications.lookup a with
      | none => exact le_rfl
      | some app =>
          rw [Option.map_some]
          split
          · exact Nat.le_succ app.authorizationVersion
          · exact le_rfl

/-- An application which delegates to the membership acts for nobody else. -/
theorem Consistent.represents_iff (hd : d.Consistent) {a : Uuid}
    (hdelegates : d.Delegates membershipId a) (hrow : d.memberships.lookup membershipId = some row) :
    d.Represents t a p ↔ row.status = .active ∧ d.standing t row ∧ row.principalId = p := by
  obtain ⟨app, k, b, happ, hactive, hb, hsame, hstatus, hmembership⟩ := hdelegates
  constructor
  · rintro ⟨app', k', b', m, -, -, hb', hsame', -, hm, hmember, hstanding, hp⟩
    obtain rfl := hd.representativeUnique hb hb' (hsame.trans hsame'.symm)
    rw [hb] at hb'
    obtain rfl := Option.some.inj hb'
    rw [hmembership, hrow] at hm
    obtain rfl := Option.some.inj hm
    exact ⟨hmember, hstanding, hp⟩
  · rintro ⟨hmember, hstanding, hp⟩
    exact ⟨app, k, b, row, happ, hactive, hb, hsame, hstatus, hmembership.symm ▸ hrow, hmember,
      hstanding, hp⟩

theorem Consistent.mem_effective_delegated (hd : d.Consistent) {a : Uuid}
    (hdelegates : d.Delegates membershipId a) (hrow : d.memberships.lookup membershipId = some row)
    (hstanding : d.standing t row) {q : Uuid} (hq : d.Reaches row.principalId q) {x : Binding}
    (hx : d.Attached t q x) :
    x ∈ d.effective t (.application a) ↔ row.status = .active := by
  rw [hd.mem_effective]
  constructor
  · rintro ⟨p, q', hp, -, -⟩
    exact ((hd.represents_iff hdelegates hrow).mp hp).1
  · intro hmember
    exact ⟨row.principalId, q, (hd.represents_iff hdelegates hrow).mpr ⟨hmember, hstanding, rfl⟩,
      hq, hx⟩

theorem lookup_membership_memberUpdated (hrow : d.memberships.lookup membershipId = some row) :
    (d.memberUpdated now membershipId status p).memberships.lookup membershipId =
      some { row.bumped with status := status } := by
  rw [memberships_memberUpdated, AList.lookup_update_self, hrow]
  rfl

theorem delegates_memberUpdated {a : Uuid} (hdelegates : d.Delegates membershipId a)
    (hcontains : ¬ d.contains now membershipId status p a) :
    (d.memberUpdated now membershipId status p).Delegates membershipId a := by
  obtain ⟨app, k, b, happ, hactive, hb, hrest⟩ := hdelegates
  refine ⟨app, k, b, ?_, hactive, ?_, hrest⟩
  · rw [lookup_application_memberUpdated, happ]
    simp [hcontains]
  · rw [memberUpdated_rest]
    exact hb

theorem effective_memberUpdated (hd : d.Consistent) {i : Holder}
    (hacts : ∀ r, (d.memberUpdated now membershipId status p).Acts t i r ↔ d.Acts t i r) :
    (d.memberUpdated now membershipId status p).effective t i = d.effective t i := by
  ext x
  rw [hd.memberUpdated.mem_effective, hd.mem_effective]
  refine exists_congr fun r ↦ exists_congr fun q ↦ ?_
  rw [hacts, memberUpdated_rest]
  rfl

theorem acts_member_memberUpdated {k r : Uuid} :
    (d.memberUpdated now membershipId status p).Acts t (.member k) r ↔ d.Acts t (.member k) r := by
  rw [Acts, Acts, principal, principal, memberships_memberUpdated, AList.lookup_update]
  split
  · rename_i hk
    subst hk
    rw [Option.map_map]
    rfl
  · rfl

/-- What an application which does not delegate to the membership acts as does not change. -/
theorem represents_memberUpdated {a r : Uuid} (hdelegates : ¬ d.Delegates membershipId a)
    (hkept : ∀ app, app.status = .active →
      ((d.memberUpdated now membershipId status p).applications.lookup a = some app ↔
        d.applications.lookup a = some app)) :
    (d.memberUpdated now membershipId status p).Represents t a r ↔ d.Represents t a r := by
  refine exists_congr fun app ↦ exists_congr fun k ↦ exists_congr fun b ↦ exists_congr fun m ↦ ?_
  rw [and_left_comm, and_left_comm (a := AList.lookup a d.applications = some app)]
  refine and_congr_right fun hactive ↦ ?_
  rw [hkept app hactive]
  refine and_congr_right fun happ ↦ ?_
  have hrepresentatives : (d.memberUpdated now membershipId status p).representatives =
      d.representatives := by rw [memberUpdated_rest]
  rw [hrepresentatives]
  refine and_congr_right fun hb ↦ and_congr_right fun hsame ↦ and_congr_right fun hstatus ↦ ?_
  have hne : b.membershipId ≠ membershipId := fun heq ↦
    hdelegates ⟨app, k, b, happ, hactive, hb, hsame, hstatus, heq⟩
  rw [memberships_memberUpdated, AList.lookup_update_of_ne hne,
    standing_memberUpdated rfl rfl rfl]

theorem memberUpdated_invalidates_iff (hd : d.Consistent)
    (hrow : d.memberships.lookup membershipId = some row) :
    Invalidates (effective t) version d
        (d.memberUpdated now membershipId status row.principalId) ↔
      ¬ ((row.status = .active ↔ status ≠ .active) ∧ d.standing t row ∧
        (∃ a, d.Delegates membershipId a ∧
          ¬ d.contains now membershipId status row.principalId a) ∧
        ∃ q x, d.Reaches row.principalId q ∧ d.Attached t q x) := by
  set d' := d.memberUpdated now membershipId status row.principalId with hd'
  have hc : d'.Consistent := hd.memberUpdated
  have hrow' : d'.memberships.lookup membershipId = some { row.bumped with status := status } :=
    lookup_membership_memberUpdated hrow
  have hstands : d'.standing t { row.bumped with status := status } = d.standing t row :=
    standing_memberUpdated rfl rfl rfl
  have hreaches : ∀ q, d'.Reaches row.principalId q ↔ d.Reaches row.principalId q := by
    rw [hd', memberUpdated_rest]
    exact fun _ ↦ Iff.rfl
  have hattached : ∀ q x, d'.Attached t q x ↔ d.Attached t q x := by
    rw [hd', memberUpdated_rest]
    exact fun _ _ ↦ Iff.rfl
  constructor
  · rintro hinvalidates ⟨hflip, hstanding, ⟨a, hdelegates, hcontains⟩, q, x, hq, hx⟩
    have hversion : d'.version (.application a) = d.version (.application a) := by
      rw [version, version, lookup_application_memberUpdated]
      simp [hcontains]
    have heq : d.effective t (.application a) = d'.effective t (.application a) := by
      by_contra hne
      exact (hinvalidates _ hne).ne hversion.symm
    have hbefore := hd.mem_effective_delegated hdelegates hrow hstanding hq hx
    have hafter := hc.mem_effective_delegated (delegates_memberUpdated hdelegates hcontains) hrow'
      (hstands.trans hstanding) ((hreaches q).mpr hq) ((hattached q x).mpr hx)
    rw [← heq, hbefore, hflip] at hafter
    exact not_iff_self hafter
  · intro hnot i hne
    cases i with
    | member k =>
        exact absurd (effective_memberUpdated hd fun _ ↦ acts_member_memberUpdated).symm hne
    | application a =>
        by_cases hraised : ∃ app, d.applications.lookup a = some app ∧ app.status = .active ∧
            d.contains now membershipId status row.principalId a
        · obtain ⟨app, happ, hactive, hcontains⟩ := hraised
          rw [version, version, lookup_application_memberUpdated, happ]
          simp [hcontains, hactive, Application.bumped]
        exfalso
        apply hne
        have hkept : ∀ app, app.status = .active →
            (d'.applications.lookup a = some app ↔ d.applications.lookup a = some app) := by
          intro app hactive
          rw [lookup_application_memberUpdated]
          cases happ : d.applications.lookup a with
          | none => rfl
          | some app' =>
              rw [Option.map_some]
              split
              · rename_i hcond
                rw [Bool.and_eq_true, decide_eq_true_eq] at hcond
                exact absurd ⟨app', happ, hcond.2, hcond.1⟩ hraised
              · rfl
        by_cases hdelegates : d.Delegates membershipId a
        · obtain ⟨app, -, -, happ, hactive, -⟩ := id hdelegates
          have hcontains : ¬ d.contains now membershipId status row.principalId a :=
            fun h ↦ hraised ⟨app, happ, hactive, h⟩
          have hbefore := fun r ↦ hd.represents_iff (t := t) (p := r) hdelegates hrow
          have hafter := fun r ↦ hc.represents_iff (t := t) (p := r)
            (delegates_memberUpdated hdelegates hcontains) hrow'
          simp only [hstands] at hafter
          ext x
          rw [hd.mem_effective, hc.mem_effective]
          refine exists_congr fun r ↦ exists_congr fun q ↦ ?_
          rw [Acts, Acts, hbefore, hafter]
          rw [hattached]
          constructor
          · rintro ⟨⟨hmember, hstanding, rfl⟩, hq, hx⟩
            refine ⟨⟨?_, hstanding, rfl⟩, (hreaches q).mpr hq, hx⟩
            by_contra hinactive
            exact hnot ⟨iff_of_true hmember hinactive, hstanding, ⟨a, hdelegates, hcontains⟩, q, x,
              hq, hx⟩
          · rintro ⟨⟨hmember, hstanding, rfl⟩, hq, hx⟩
            have hq := (hreaches q).mp hq
            refine ⟨⟨?_, hstanding, rfl⟩, hq, hx⟩
            by_contra hinactive
            exact hnot ⟨iff_of_false hinactive (not_not_intro hmember), hstanding,
              ⟨a, hdelegates, hcontains⟩, q, x, hq, hx⟩
        · exact (effective_memberUpdated (i := .application a) hd fun r ↦
            represents_memberUpdated hdelegates hkept).symm

end Status

/-! ## The delegation of an application -/

section Delegation

/-- The bindings of one application change, and that application is bumped. -/
structure Redelegated (a : Uuid) (d d' : Directory) : Prop where
  rest : d' = { d with
    representatives := d'.representatives
    applications := d.applications.update a Application.bumped }
  other : ∀ k b, b.applicationId ≠ a →
    (d'.representatives.lookup k = some b ↔ d.representatives.lookup k = some b)
  unique : ∀ {k k' b b'}, d'.representatives.lookup k = some b →
    d'.representatives.lookup k' = some b' → b.applicationId = b'.applicationId → k = k'

variable {a : Uuid} (h : Redelegated a d d')

include h

theorem Redelegated.application_eq_some {k : Uuid} {app' : Application}
    (ha : d'.applications.lookup k = some app') :
    ∃ app, d.applications.lookup k = some app ∧ app'.principalId = app.principalId := by
  rw [h.rest] at ha
  obtain ⟨app, hrow, rfl⟩ := AList.of_lookup_update ha
  refine ⟨app, hrow, ?_⟩
  split
  · rfl
  · rfl

theorem Redelegated.consistent (hd : d.Consistent) : d'.Consistent := by
  have hprincipals : d'.principals = d.principals := by rw [h.rest]
  refine ⟨?_, ?_, ?_, ?_, ?_, ?_, fun {k a} ha ↦ ?_, fun ha hb heq ↦ ?_, h.unique⟩
  · rw [h.rest]
    exact hd.member
  · rw [h.rest]
    exact hd.memberUnique
  · rw [h.rest]
    exact hd.group
  · rw [h.rest]
    exact hd.groupUnique
  · rw [h.rest]
    exact hd.groupMember
  · rw [h.rest]
    exact hd.groupMemberUnique
  · obtain ⟨app, hrow, heq⟩ := h.application_eq_some ha
    rw [hprincipals, heq]
    exact hd.application hrow
  · obtain ⟨app, hrow, ha'⟩ := h.application_eq_some ha
    obtain ⟨app', hrow', hb'⟩ := h.application_eq_some hb
    exact hd.applicationUnique hrow hrow' (ha'.symm.trans (heq.trans hb'))

theorem Redelegated.version_eq (i : Holder) (hi : i ≠ .application a) :
    d'.version i = d.version i := by
  rw [h.rest]
  cases i with
  | member k => rfl
  | application k =>
      have hne : k ≠ a := fun heq ↦ hi (heq ▸ rfl)
      rw [version, version, AList.lookup_update_of_ne hne]

theorem Redelegated.raised {app : Application} (happ : d.applications.lookup a = some app) :
    d.version (.application a) < d'.version (.application a) := by
  rw [h.rest, version, version, AList.lookup_update_self, happ]
  exact Nat.lt_succ_self _

theorem Redelegated.acts_iff {i : Holder} (hi : i ≠ .application a) {p : Uuid} :
    d'.Acts t i p ↔ d.Acts t i p := by
  cases i with
  | member k =>
      rw [h.rest]
      rfl
  | application k =>
      have hne : k ≠ a := fun heq ↦ hi (heq ▸ rfl)
      have happlications : d'.applications.lookup k = d.applications.lookup k := by
        rw [h.rest, AList.lookup_update_of_ne hne]
      have hmemberships : d'.memberships = d.memberships := by rw [h.rest]
      have hstanding : ∀ m, d'.standing t m = d.standing t m := by
        rw [h.rest]
        exact fun _ ↦ rfl
      refine exists_congr fun app ↦ exists_congr fun j ↦ exists_congr fun b ↦
        exists_congr fun m ↦ ?_
      rw [happlications, hmemberships, hstanding]
      refine and_congr_right fun _ ↦ and_congr_right fun _ ↦ ?_
      constructor
      · rintro ⟨hb, rfl, hrest⟩
        exact ⟨(h.other j b hne).mp hb, rfl, hrest⟩
      · rintro ⟨hb, rfl, hrest⟩
        exact ⟨(h.other j b hne).mpr hb, rfl, hrest⟩

theorem Redelegated.invalidates (hd : d.Consistent) {app : Application}
    (happ : d.applications.lookup a = some app) : Invalidates (effective t) version d d' := by
  intro i hne
  by_cases hi : i = .application a
  · subst hi
    exact h.raised happ
  · exfalso
    apply hne
    ext x
    rw [hd.mem_effective, (h.consistent hd).mem_effective]
    refine exists_congr fun p ↦ exists_congr fun q ↦ ?_
    rw [h.acts_iff hi]
    refine and_congr_right fun _ ↦ ?_
    rw [h.rest]
    rfl

end Delegation

end S3mp.Directory
