import S3mp.Identity.Subjects

/-!
# What a version bump changes

A bump touches versions and sessions only, so it moves no binding.  Whoever acts
as an affected principal, directly or through a group, has its version raised.
-/

namespace S3mp.Directory

open Relational Authorization

def Membership.advanced (n : ℕ) (m : Membership) : Membership :=
  { m with authorizationVersion := m.authorizationVersion + n }

def Application.advanced (n : ℕ) (a : Application) : Application :=
  { a with authorizationVersion := a.authorizationVersion + n }

/-- Versions have moved forward and sessions may have been revoked. -/
structure Bumps (d d' : Directory) : Prop where
  rest : d' = { d with
    memberships := d'.memberships
    applications := d'.applications
    sessions := d'.sessions }
  membership : ∀ k, ∃ n, d'.memberships.lookup k = (d.memberships.lookup k).map (.advanced n)
  application : ∀ k, ∃ n, d'.applications.lookup k = (d.applications.lookup k).map (.advanced n)

variable {now t : Timestamp} {d d' d'' : Directory}

namespace Bumps

theorem refl (d : Directory) : d.Bumps d := by
  refine ⟨rfl, fun k ↦ ⟨0, ?_⟩, fun k ↦ ⟨0, ?_⟩⟩
  · exact (Option.map_id_apply (x := d.memberships.lookup k)).symm
  · exact (Option.map_id_apply (x := d.applications.lookup k)).symm

theorem trans (h : d.Bumps d') (h' : d'.Bumps d'') : d.Bumps d'' := by
  refine ⟨?_, fun k ↦ ?_, fun k ↦ ?_⟩
  · rw [h'.rest, h.rest]
  · obtain ⟨n, hn⟩ := h.membership k
    obtain ⟨n', hn'⟩ := h'.membership k
    refine ⟨n + n', ?_⟩
    rw [hn', hn, Option.map_map]
    congr 1
    funext m
    simp [Membership.advanced, Nat.add_assoc]
  · obtain ⟨n, hn⟩ := h.application k
    obtain ⟨n', hn'⟩ := h'.application k
    refine ⟨n + n', ?_⟩
    rw [hn', hn, Option.map_map]
    congr 1
    funext a
    simp [Application.advanced, Nat.add_assoc]

variable (h : d.Bumps d')

include h

theorem principals_eq : d'.principals = d.principals := by rw [h.rest]

theorem groups_eq : d'.groups = d.groups := by rw [h.rest]

theorem groupMembers_eq : d'.groupMembers = d.groupMembers := by rw [h.rest]

theorem roles_eq : d'.roles = d.roles := by rw [h.rest]

theorem roleBindings_eq : d'.roleBindings = d.roleBindings := by rw [h.rest]

theorem representatives_eq : d'.representatives = d.representatives := by rw [h.rest]

theorem membership_eq_some {k : Uuid} {m' : Membership}
    (hm : d'.memberships.lookup k = some m') :
    ∃ m n, d.memberships.lookup k = some m ∧ m' = m.advanced n := by
  obtain ⟨n, hn⟩ := h.membership k
  obtain ⟨m, hrow, rfl⟩ := Option.map_eq_some_iff.mp (hn.symm.trans hm)
  exact ⟨m, n, hrow, rfl⟩

theorem application_eq_some {k : Uuid} {a' : Application}
    (ha : d'.applications.lookup k = some a') :
    ∃ a n, d.applications.lookup k = some a ∧ a' = a.advanced n := by
  obtain ⟨n, hn⟩ := h.application k
  obtain ⟨a, hrow, rfl⟩ := Option.map_eq_some_iff.mp (hn.symm.trans ha)
  exact ⟨a, n, hrow, rfl⟩

theorem consistent (hd : d.Consistent) : d'.Consistent := by
  constructor
  · intro k m' hm
    obtain ⟨m, n, hrow, rfl⟩ := h.membership_eq_some hm
    have hprincipal := hd.member hrow
    rwa [← h.principals_eq] at hprincipal
  · intro k k' m m' hm hm' heq
    obtain ⟨m, n, hrow, rfl⟩ := h.membership_eq_some hm
    obtain ⟨m', n', hrow', rfl⟩ := h.membership_eq_some hm'
    exact hd.memberUnique hrow hrow' heq
  · intro k g hg
    rw [h.groups_eq] at hg
    rw [h.principals_eq]
    exact hd.group hg
  · intro k k' g g' hg hg'
    rw [h.groups_eq] at hg hg'
    exact hd.groupUnique hg hg'
  · intro k m hm
    rw [h.groupMembers_eq] at hm
    rw [h.groups_eq]
    exact hd.groupMember hm
  · intro k k' m m' hm hm'
    rw [h.groupMembers_eq] at hm hm'
    exact hd.groupMemberUnique hm hm'
  · intro k a' ha
    obtain ⟨a, n, hrow, rfl⟩ := h.application_eq_some ha
    have hprincipal := hd.application hrow
    rwa [← h.principals_eq] at hprincipal
  · intro k k' a b ha hb heq
    obtain ⟨a, n, hrow, rfl⟩ := h.application_eq_some ha
    obtain ⟨b, n', hrow', rfl⟩ := h.application_eq_some hb
    exact hd.applicationUnique hrow hrow' heq
  · intro k k' b b' hb hb'
    rw [h.representatives_eq] at hb hb'
    exact hd.representativeUnique hb hb'

theorem version_le (i : Holder) : d.version i ≤ d'.version i := by
  cases i with
  | member k =>
      obtain ⟨n, hn⟩ := h.membership k
      rw [version, version, hn]
      cases d.memberships.lookup k with
      | none => exact le_rfl
      | some m => exact Nat.le_add_right _ n
  | application k =>
      obtain ⟨n, hn⟩ := h.application k
      rw [version, version, hn]
      cases d.applications.lookup k with
      | none => exact le_rfl
      | some a => exact Nat.le_add_right _ n

theorem standing_eq (m : Membership) (n : ℕ) : d'.standing now (m.advanced n) = d.standing now m := by
  rw [h.rest]
  rfl

theorem represents_iff {a p : Uuid} : d'.Represents now a p ↔ d.Represents now a p := by
  constructor
  · rintro ⟨app, k, b, m, happ, hactive, hb, hsame, hstatus, hm, hmember, hstanding, rfl⟩
    obtain ⟨app, n, happ', rfl⟩ := h.application_eq_some happ
    obtain ⟨m, n', hm', rfl⟩ := h.membership_eq_some hm
    rw [h.representatives_eq] at hb
    rw [h.standing_eq] at hstanding
    exact ⟨app, k, b, m, happ', hactive, hb, hsame, hstatus, hm', hmember, hstanding, rfl⟩
  · rintro ⟨app, k, b, m, happ, hactive, hb, hsame, hstatus, hm, hmember, hstanding, rfl⟩
    obtain ⟨n, hn⟩ := h.application a
    obtain ⟨n', hn'⟩ := h.membership b.membershipId
    rw [happ, Option.map_some] at hn
    rw [hm, Option.map_some] at hn'
    exact ⟨app.advanced n, k, b, m.advanced n', hn, hactive, h.representatives_eq ▸ hb, hsame,
      hstatus, hn', hmember, (h.standing_eq m n').trans hstanding, rfl⟩

theorem acts_iff {i : Holder} {p : Uuid} : d'.Acts now i p ↔ d.Acts now i p := by
  cases i with
  | member k =>
      obtain ⟨n, hn⟩ := h.membership k
      rw [Acts, Acts, principal, principal, hn, Option.map_map]
      rfl
  | application a => exact h.represents_iff

theorem reaches_iff {p q : Uuid} : d'.Reaches p q ↔ d.Reaches p q := by
  rw [h.rest]
  rfl

theorem attached_iff {q : Uuid} {x : Binding} : d'.Attached now q x ↔ d.Attached now q x := by
  rw [h.rest]
  rfl

/-- A bump moves no binding. -/
theorem effective_eq (hd : d.Consistent) (i : Holder) : d'.effective now i = d.effective now i := by
  ext x
  rw [(h.consistent hd).mem_effective, hd.mem_effective]
  simp only [h.acts_iff, h.reaches_iff, h.attached_iff]

end Bumps

/-! ## The bumps of the store -/

theorem lookup_bumped {α κ : Type} [DecidableEq κ] {t : Table κ α} {p : κ → α → Bool}
    {f : ℕ → α → α} (hzero : ∀ x, f 0 x = x) (k : κ) :
    ∃ n, (t.updateWhere p (f 1)).lookup k = (t.lookup k).map (f n) := by
  rw [AList.lookup_updateWhere]
  cases t.lookup k with
  | none => exact ⟨0, rfl⟩
  | some x =>
      by_cases hp : p k x
      · exact ⟨1, by simp [hp]⟩
      · exact ⟨0, by simp [hp, hzero]⟩

theorem bumps_membershipVersion (d : Directory) (now : Timestamp) (p : Uuid) :
    d.Bumps (d.bumpMembershipVersion now p) :=
  ⟨rfl, fun k ↦ lookup_bumped (f := Membership.advanced) (fun _ ↦ rfl) k,
    fun _ ↦ ⟨0, (Option.map_id_apply).symm⟩⟩

theorem bumps_applications (d : Directory) (p : Uuid → Application → Bool) :
    d.Bumps { d with applications := d.applications.updateWhere p Application.bumped } :=
  ⟨rfl, fun _ ↦ ⟨0, (Option.map_id_apply).symm⟩,
    fun k ↦ lookup_bumped (f := Application.advanced) (fun _ ↦ rfl) k⟩

theorem bumps_subject (now : Timestamp) (d : Directory) (p : Uuid) :
    d.Bumps (bumpSubject now d p) :=
  ((bumps_membershipVersion d now p).trans (bumps_applications _ _)).trans (bumps_applications _ _)

theorem bumps_foldl {α : Type} {f : Directory → α → Directory} (hf : ∀ d a, Bumps d (f d a))
    (as : List α) (d : Directory) : d.Bumps (as.foldl f d) := by
  induction as generalizing d with
  | nil => exact Bumps.refl d
  | cons a as ih => exact (hf d a).trans (ih (f d a))

theorem bumps_affectedPrincipals (now : Timestamp) (d : Directory) (q : Uuid) :
    d.Bumps (bumpAffectedPrincipals now d q) :=
  bumps_foldl (bumps_subject now) _ d

theorem bumps_boundPrincipals (now : Timestamp) (d : Directory) (roleId : Uuid) :
    d.Bumps (d.bumpBoundPrincipals now roleId) :=
  bumps_foldl (bumps_affectedPrincipals now) _ d

/-- A loop of bumps raises what one of its turns raises. -/
theorem foldl_raises {α : Type} {f : Directory → α → Directory} (hf : ∀ d a, Bumps d (f d a))
    {i : Holder} {a : α} {as : List α} (ha : a ∈ as) {d : Directory}
    (hraise : ∀ d', d.Bumps d' → d'.version i < (f d' a).version i) :
    d.version i < (as.foldl f d).version i := by
  induction as generalizing d with
  | nil => cases ha
  | cons b as ih =>
      rcases List.mem_cons.mp ha with rfl | hmem
      · exact (hraise d (Bumps.refl d)).trans_le ((bumps_foldl hf as _).version_le i)
      · exact ((hf d b).version_le i).trans_lt
          (ih hmem fun d' h ↦ hraise d' ((hf d b).trans h))

theorem version_member_raised (now : Timestamp) {k : Uuid} {m : Membership}
    (hm : d.memberships.lookup k = some m) :
    d.version (.member k) < (d.bumpMembershipVersion now m.principalId).version (.member k) := by
  rw [version, version, bumpMembershipVersion, revokeSessions, AList.lookup_updateWhere, hm]
  simp [Membership.bumped]

theorem version_application_raised {a : Uuid} {app : Application}
    (ha : d.applications.lookup a = some app) {p : Uuid → Application → Bool} (hp : p a app) :
    d.version (.application a) <
      ({ d with applications := d.applications.updateWhere p Application.bumped } :
        Directory).version (.application a) := by
  rw [version, version, AList.lookup_updateWhere, ha]
  simp [Application.bumped, hp]

/-- Whoever acts as the principal is raised. -/
theorem version_acting_raised {i : Holder} {p : Uuid} (hacts : d.Acts t i p) :
    d.version i < (bumpSubject now d p).version i := by
  cases i with
  | member k =>
      obtain ⟨m, hm, rfl⟩ := Option.map_eq_some_iff.mp hacts
      refine (version_member_raised now hm).trans_le ?_
      exact ((bumps_applications _ _).trans (bumps_applications _ _)).version_le _
  | application a =>
      obtain ⟨app, k, b, m, happ, -, hb, hsame, hstatus, hm, -, -, rfl⟩ := hacts
      have hbound : (d.bumpMembershipVersion now m.principalId).boundThrough m.principalId a := by
        refine AList.anyRow_eq_true.mpr ⟨k, b, hb, ?_⟩
        have hrow : (d.bumpMembershipVersion now m.principalId).memberships.lookup b.membershipId =
            some m.bumped := by
          rw [bumpMembershipVersion, revokeSessions, AList.lookup_updateWhere, hm]
          simp
        simp [hsame, hstatus, hrow, Membership.bumped]
      have hraised := version_application_raised (d := d.bumpMembershipVersion now m.principalId)
        (p := fun id _ ↦ (d.bumpMembershipVersion now m.principalId).boundThrough m.principalId id)
        happ hbound
      exact hraised.trans_le ((bumps_applications _ _).version_le _)

/-- Whoever acts as an affected principal, or as a member of an affected group, is raised. -/
theorem version_affected_raised (hd : d.Consistent) {i : Holder} {p q : Uuid}
    (hacts : d.Acts t i p) (hreaches : d.Reaches p q) :
    d.version i < (bumpAffectedPrincipals now d q).version i := by
  have hmem : p ∈ d.affectedPrincipals q := by
    obtain ⟨e, he⟩ := hd.acts_user hacts
    rcases hreaches with rfl | ⟨id, g, hg, -, hmember, rfl⟩
    · rw [affectedPrincipals, he]
      exact List.mem_singleton_self q
    · obtain ⟨e', he'⟩ := hd.group hg
      obtain ⟨k, m, hm, hgroup, hprincipal⟩ := isGroupMember_iff.mp hmember
      simp only [affectedPrincipals, he', ne_eq, not_true_eq_false, if_false]
      split
      · rename_i hnone
        have hfalse := AList.selectFirst_eq_none.mp hnone id g hg
        simp at hfalse
      · rename_i id' g' hfound
        obtain ⟨hg', hsame⟩ := AList.lookup_of_selectFirst hfound
        obtain rfl := hd.groupUnique hg' hg (by simpa using hsame)
        exact List.mem_map.mpr ⟨(k, m), AList.mem_select_iff.mpr ⟨hm, by simpa using hgroup⟩,
          hprincipal⟩
  exact foldl_raises (bumps_subject now) hmem fun d' h ↦
    version_acting_raised (t := t) (h.acts_iff.mpr hacts)

end S3mp.Directory
