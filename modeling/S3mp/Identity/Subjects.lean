import S3mp.Identity.DirectoryStore

/-!
# Whose bindings count for whom

A membership and an application hold cached authorization under a version of
their own.  In a consistent directory the bindings which count for a holder are
those attached to a principal it acts as, or to an enabled group of that
principal.
-/

namespace S3mp.Directory

open Relational Authorization

/-- What the keys of the tables and the operations which create rows guarantee. -/
structure Consistent (d : Directory) : Prop where
  member : ∀ {k m}, d.memberships.lookup k = some m →
    ∃ e, d.principals.lookup m.principalId = some ⟨.user, e⟩
  memberUnique : ∀ {k k' m m'}, d.memberships.lookup k = some m →
    d.memberships.lookup k' = some m' → m.principalId = m'.principalId → k = k'
  group : ∀ {k g}, d.groups.lookup k = some g →
    ∃ e, d.principals.lookup g.principalId = some ⟨.group, e⟩
  groupUnique : ∀ {k k' g g'}, d.groups.lookup k = some g → d.groups.lookup k' = some g' →
    g.principalId = g'.principalId → k = k'
  groupMember : ∀ {k m}, d.groupMembers.lookup k = some m → ∃ g, d.groups.lookup m.groupId = some g
  groupMemberUnique : ∀ {k k' m m'}, d.groupMembers.lookup k = some m →
    d.groupMembers.lookup k' = some m' → m.groupId = m'.groupId →
      m.principalId = m'.principalId → k = k'
  application : ∀ {k a}, d.applications.lookup k = some a →
    ∃ e, d.principals.lookup a.principalId = some ⟨.application, e⟩
  applicationUnique : ∀ {k k' a a'}, d.applications.lookup k = some a →
    d.applications.lookup k' = some a' → a.principalId = a'.principalId → k = k'
  representativeUnique : ∀ {k k' b b'}, d.representatives.lookup k = some b →
    d.representatives.lookup k' = some b' → b.applicationId = b'.applicationId → k = k'

/-- A subject whose authorization is cached. -/
inductive Holder where
  | member (membershipId : Uuid)
  | application (applicationId : Uuid)
  deriving DecidableEq, Repr

def principal (d : Directory) : Holder → Option Uuid
  | .member k => (d.memberships.lookup k).map (·.principalId)
  | .application a => (d.applications.lookup a).map (·.principalId)

def version (d : Directory) : Holder → ℕ
  | .member k => (d.memberships.lookup k).elim 0 (·.authorizationVersion)
  | .application a => (d.applications.lookup a).elim 0 (·.authorizationVersion)

def effective (now : Timestamp) (d : Directory) (h : Holder) : Set Binding :=
  {x | ∃ p, d.principal h = some p ∧ x ∈ d.bindingsForPrincipal now p}

/-- The application acts for an active membership of the principal. -/
def Represents (now : Timestamp) (applicationId principalId : Uuid) (d : Directory) : Prop :=
  ∃ a k b m, d.applications.lookup applicationId = some a ∧ a.status = .active ∧
    d.representatives.lookup k = some b ∧ b.applicationId = applicationId ∧ b.status = .active ∧
    d.memberships.lookup b.membershipId = some m ∧ m.status = .active ∧ d.standing now m ∧
    m.principalId = principalId

def Acts (now : Timestamp) (d : Directory) : Holder → Uuid → Prop
  | .member k, p => d.principal (.member k) = some p
  | .application a, p => d.Represents now a p

/-- The principal itself or an enabled group it belongs to. -/
def Reaches (p q : Uuid) (d : Directory) : Prop :=
  q = p ∨ ∃ id g, d.groups.lookup id = some g ∧ g.enabled ∧ d.isGroupMember id p ∧
    g.principalId = q

variable {now : Timestamp} {d d' d'' : Directory}

theorem isGroupMember_iff {groupId p : Uuid} :
    d.isGroupMember groupId p ↔
      ∃ k m, d.groupMembers.lookup k = some m ∧ m.groupId = groupId ∧ m.principalId = p := by
  simp [isGroupMember, AList.anyRow_eq_true]

theorem represents_eq_true {p : Uuid} {b : ApplicationMembershipBinding} :
    b.represents now p d ↔
      (∃ a, d.applications.lookup b.applicationId = some a ∧ a.principalId = p ∧
        a.status = .active) ∧ b.status = .active ∧
      ∃ m, d.memberships.lookup b.membershipId = some m ∧ m.status = .active ∧
        d.standing now m := by
  simp [ApplicationMembershipBinding.represents, Option.any_eq_true, and_assoc]

namespace Consistent

variable (hd : d.Consistent)

include hd

theorem representative_iff {a : Uuid} {app : Application}
    (ha : d.applications.lookup a = some app) {q : Uuid} :
    d.representativePrincipal now app.principalId = some q ↔ d.Represents now a q := by
  rw [representativePrincipal, Option.bind_eq_some_iff]
  constructor
  · rintro ⟨⟨k, b⟩, hfound, hq⟩
    obtain ⟨m, hm, rfl⟩ := Option.map_eq_some_iff.mp hq
    obtain ⟨hb, hselected⟩ := AList.lookup_of_selectFirst hfound
    obtain ⟨⟨app', happ', hprincipal, hactive⟩, hstatus, m', hm', hmember, hstanding⟩ :=
      represents_eq_true.mp hselected
    have hsame : b.applicationId = a := hd.applicationUnique happ' ha hprincipal
    rw [hm] at hm'
    obtain rfl := Option.some.inj hm'
    exact ⟨app', k, b, m, hsame ▸ happ', hactive, hb, hsame, hstatus, hm, hmember, hstanding, rfl⟩
  · rintro ⟨app', k, b, m, happ', hactive, hb, rfl, hstatus, hm, hmember, hstanding, rfl⟩
    rw [ha] at happ'
    obtain rfl := Option.some.inj happ'
    cases hfound : d.representatives.selectFirst fun _ b ↦
        b.represents now app.principalId d with
    | none =>
        have hnone := AList.selectFirst_eq_none.mp hfound k b hb
        rw [represents_eq_true.mpr ⟨⟨app, ha, rfl, hactive⟩, hstatus, m, hm, hmember,
          hstanding⟩] at hnone
        cases hnone
    | some found =>
        obtain ⟨k', b'⟩ := found
        obtain ⟨hb', hselected⟩ := AList.lookup_of_selectFirst hfound
        obtain ⟨⟨app', happ', hprincipal, -⟩, -⟩ := represents_eq_true.mp hselected
        have hsame := hd.applicationUnique happ' ha hprincipal
        obtain rfl := hd.representativeUnique hb' hb hsame
        rw [hb] at hb'
        obtain rfl := Option.some.inj hb'
        exact ⟨(k', b), rfl, by rw [hm, Option.map_some]⟩

theorem represents_unique {a p q : Uuid} (hp : d.Represents now a p) (hq : d.Represents now a q) :
    p = q := by
  obtain ⟨app, -, -, -, happ, -⟩ := id hp
  exact Option.some.inj (((hd.representative_iff happ).mpr hp).symm.trans
    ((hd.representative_iff happ).mpr hq))

/-- A member acts as itself: no application has its principal. -/
theorem acting_member {k : Uuid} {m : Membership} (hm : d.memberships.lookup k = some m) :
    d.actingPrincipals now m.principalId = [m.principalId] := by
  obtain ⟨e, he⟩ := hd.member hm
  have hnone : d.representativePrincipal now m.principalId = none := by
    rw [representativePrincipal, Option.bind_eq_none_iff]
    rintro ⟨k', b⟩ hfound
    obtain ⟨hb, hselected⟩ := AList.lookup_of_selectFirst hfound
    obtain ⟨⟨app, happ, hprincipal, -⟩, -⟩ := represents_eq_true.mp hselected
    obtain ⟨e', he'⟩ := hd.application happ
    rw [hprincipal, he] at he'
    cases he'
  rw [actingPrincipals, hnone, he]
  rfl

theorem acting_application {a : Uuid} {app : Application}
    (ha : d.applications.lookup a = some app) :
    d.actingPrincipals now app.principalId =
      (d.representativePrincipal now app.principalId).toList := by
  obtain ⟨e, he⟩ := hd.application ha
  rw [actingPrincipals, he]
  rfl

theorem mem_acting_iff {h : Holder} {p : Uuid} :
    (∃ p', d.principal h = some p' ∧ p ∈ d.actingPrincipals now p') ↔ d.Acts now h p := by
  cases h with
  | member k =>
      constructor
      · rintro ⟨p', hp', hmem⟩
        obtain ⟨m, hm, rfl⟩ := Option.map_eq_some_iff.mp hp'
        rw [hd.acting_member hm, List.mem_singleton] at hmem
        exact hmem ▸ hp'
      · intro hp
        obtain ⟨m, hm, rfl⟩ := Option.map_eq_some_iff.mp hp
        exact ⟨_, hp, by rw [hd.acting_member hm]; exact List.mem_singleton_self _⟩
  | application a =>
      constructor
      · rintro ⟨p', hp', hmem⟩
        obtain ⟨app, happ, rfl⟩ := Option.map_eq_some_iff.mp hp'
        rw [hd.acting_application happ, Option.mem_toList] at hmem
        exact (hd.representative_iff happ).mp hmem
      · intro hp
        obtain ⟨app, -, -, -, happ, -⟩ := id hp
        refine ⟨app.principalId, by rw [principal, happ, Option.map_some], ?_⟩
        rw [hd.acting_application happ, Option.mem_toList]
        exact (hd.representative_iff happ).mpr hp

theorem mem_subjects_iff {h : Holder} {q : Uuid} :
    (∃ p', d.principal h = some p' ∧ q ∈ d.subjectPrincipals now p') ↔
      ∃ p, d.Acts now h p ∧ d.Reaches p q := by
  constructor
  · rintro ⟨p', hp', hq⟩
    rcases mem_subjectPrincipals.mp hq with hq | ⟨id, g, hg, henabled, ⟨p, hp, hmember⟩, rfl⟩
    · exact ⟨q, hd.mem_acting_iff.mp ⟨p', hp', hq⟩, Or.inl rfl⟩
    · exact ⟨p, hd.mem_acting_iff.mp ⟨p', hp', hp⟩, Or.inr ⟨id, g, hg, henabled, hmember, rfl⟩⟩
  · rintro ⟨p, hacts, hreaches⟩
    obtain ⟨p', hp', hp⟩ := hd.mem_acting_iff.mpr hacts
    refine ⟨p', hp', mem_subjectPrincipals.mpr ?_⟩
    rcases hreaches with rfl | ⟨id, g, hg, henabled, hmember, rfl⟩
    · exact Or.inl hp
    · exact Or.inr ⟨id, g, hg, henabled, ⟨p, hp, hmember⟩, rfl⟩

/-- The bindings of a holder, in terms of the principals it acts as. -/
theorem mem_effective {h : Holder} {x : Binding} :
    x ∈ d.effective now h ↔
      ∃ p q, d.Acts now h p ∧ d.Reaches p q ∧ d.Attached now q x := by
  constructor
  · rintro ⟨p', hp', hx⟩
    obtain ⟨q, hq, hattached⟩ := mem_bindingsForPrincipal.mp hx
    obtain ⟨p, hacts, hreaches⟩ := hd.mem_subjects_iff.mp ⟨p', hp', hq⟩
    exact ⟨p, q, hacts, hreaches, hattached⟩
  · rintro ⟨p, q, hacts, hreaches, hattached⟩
    obtain ⟨p', hp', hq⟩ := hd.mem_subjects_iff.mpr ⟨p, hacts, hreaches⟩
    exact ⟨p', hp', mem_bindingsForPrincipal.mpr ⟨q, hq, hattached⟩⟩

omit hd in
theorem withRoles (hd : d.Consistent) (roles : Table Uuid Role)
    (roleBindings : Table Uuid RoleBinding) :
    ({ d with roles := roles, roleBindings := roleBindings } : Directory).Consistent :=
  ⟨hd.member, hd.memberUnique, hd.group, hd.groupUnique, hd.groupMember, hd.groupMemberUnique, hd.application,
    hd.applicationUnique, hd.representativeUnique⟩

/-- Whoever acts as a principal acts as a member. -/
theorem acts_user {h : Holder} {p : Uuid} (hacts : d.Acts now h p) :
    ∃ e, d.principals.lookup p = some ⟨.user, e⟩ := by
  cases h with
  | member k =>
      obtain ⟨m, hm, rfl⟩ := Option.map_eq_some_iff.mp hacts
      exact hd.member hm
  | application a =>
      obtain ⟨_, _, _, m, -, -, -, -, -, hm, -, -, rfl⟩ := hacts
      exact hd.member hm

theorem acts_unique {h : Holder} {p q : Uuid} (hp : d.Acts now h p) (hq : d.Acts now h q) :
    p = q := by
  cases h with
  | member k => exact Option.some.inj (hp.symm.trans hq)
  | application a => exact hd.represents_unique hp hq

/-- The bindings of who acts as a principal are those the principal reaches. -/
theorem mem_effective_acting {h : Holder} {r : Uuid} (hr : d.Acts now h r) {x : Binding} :
    x ∈ d.effective now h ↔ ∃ q, d.Reaches r q ∧ d.Attached now q x := by
  rw [hd.mem_effective]
  constructor
  · rintro ⟨p, q, hp, hrest⟩
    obtain rfl := hd.acts_unique hr hp
    exact ⟨q, hrest⟩
  · rintro ⟨q, hrest⟩
    exact ⟨r, q, hr, hrest⟩

/-- A binding of an enabled group counts for whoever acts as one of its members. -/
theorem mem_effective_group {h : Holder} {groupId q : Uuid} {group : Group}
    (hgroup : d.groups.lookup groupId = some group) (henabled : group.enabled)
    (hq : d.Acts now h q) {x : Binding} (hx : d.Attached now group.principalId x) :
    x ∈ d.effective now h ↔ d.isGroupMember groupId q := by
  rw [hd.mem_effective_acting hq]
  constructor
  · rintro ⟨r, hreaches, hx'⟩
    obtain rfl := hx.principal_unique hx'
    rcases hreaches with heq | ⟨id, g, hg, -, hmember, heq⟩
    · obtain ⟨e, he⟩ := hd.group hgroup
      obtain ⟨e', he'⟩ := hd.acts_user hq
      rw [← heq, he] at he'
      cases he'
    · obtain rfl := hd.groupUnique hg hgroup heq
      exact hmember
  · intro hmember
    exact ⟨group.principalId, Or.inr ⟨groupId, group, hgroup, henabled, hmember, rfl⟩, hx⟩

end Consistent

end S3mp.Directory
