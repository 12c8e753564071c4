import S3mp.Accounts.AccountStore
import S3mp.Files.DelayedSubject

/-!
# Three readings of a session

A session is resolved from its rows, judged by the domain rule, and its subject is
validated again when delayed work is done.  The resolution does not look at the
account.
-/

namespace S3mp.Registry

open Relational Files
open Directory (UserStatus MembershipStatus)

/-! ## The domain rule -/

/-- `is_session_usable`, of a session and the membership with the identifier. -/
def isSessionUsable (now : Timestamp) (s : Session) (membershipId : Uuid) (m : Membership)
    (userStatus : UserStatus) : Bool :=
  s.tenantId = m.tenantId && s.membershipId = membershipId && s.principalId = m.principalId &&
    s.authorizationVersion = m.authorizationVersion && s.revokedAt.isNone && now < s.expiresAt &&
    m.status = .active && m.expiresAt.all (now < ·) && userStatus = .active

/-! ## The reads of delayed work -/

/-- The row of the join; a membership has its principal, its account and its tenant. -/
def getMembershipState (tenantId membershipId : Uuid) (r : Registry) : Option MembershipState := do
  let m ← r.memberships.lookup membershipId
  let p ← r.principals.lookup m.principalId
  let u ← r.users.lookup m.userId
  let t ← r.tenants.lookup m.tenantId
  if m.tenantId = tenantId ∧ p.tenantId = m.tenantId then
    some {
      principalId := m.principalId
      active := m.status = .active
      authorizationVersion := m.authorizationVersion
      expiresAt := m.expiresAt
      tenantActive := t.status = .active
      principalEnabled := p.enabled
      userActive := u.status = .active }
  else none

def getPrincipal (tenantId principalId : Uuid) (r : Registry) : Option PrincipalState :=
  ((r.principals.lookup principalId).filter fun p ↦ p.tenantId = tenantId).map fun p ↦ ⟨p.enabled⟩

/-- The reads of the identity store; the others are answered by `others`. -/
def readSubject (now : Timestamp) (tenantId : Uuid) (r : Registry)
    (others : (q : SubjectRead) → q.Value) : (q : SubjectRead) → q.Value
  | .now => now
  | .getPrincipal principalId => getPrincipal tenantId principalId r
  | .getMembershipState membershipId => getMembershipState tenantId membershipId r
  | q => others q

/-- Whether delayed work of the subject of the session would be done. -/
def subjectValid (now : Timestamp) (s : Session) (evidence : SubjectEvidence)
    (requiredPermission : Option String) (others : (q : SubjectRead) → q.Value) (r : Registry) :
    Bool :=
  (validateDelayedSubject (m := Id) (readSubject now s.tenantId r others) s.principalId
    (some s.membershipId) s.authorizationVersion evidence requiredPermission).isSome

/-! ## The three on the same rows -/

/-- The rows of a session whose identifiers are consistent. -/
structure SessionRows (r : Registry) (s : Session) (m : Membership) (p : Principal) (u : User)
    (t : Tenant) : Prop where
  membership : r.memberships.lookup s.membershipId = some m
  principal : r.principals.lookup s.principalId = some p
  user : r.users.lookup m.userId = some u
  tenant : r.tenants.lookup s.tenantId = some t
  tenantId : m.tenantId = s.tenantId
  principalId : m.principalId = s.principalId
  principalTenant : p.tenantId = s.tenantId

/-- What the membership, its tenant and its principal say of the session, the account apart. -/
structure Admits (now : Timestamp) (s : Session) (m : Membership) (p : Principal) (t : Tenant) :
    Prop where
  membership : m.status = .active
  tenant : t.status = .active
  expiry : m.expiresAt.all (now < ·) = true
  version : s.authorizationVersion = m.authorizationVersion
  principal : p.enabled = true

variable {r : Registry} {s : Session} {m : Membership} {p : Principal} {u : User} {t : Tenant}
  {now : Timestamp} {digest : String} {id : Uuid}

theorem accepted_iff (h : SessionRows r s m p u t) (hunrevoked : s.revokedAt = none)
    (hunexpired : now < s.expiresAt) : s.accepted now r = true ↔ Admits now s m p t := by
  have htenant : r.tenantActive s.tenantId = decide (t.status = .active) := by
    rw [tenantActive, h.tenant]
    rfl
  unfold Session.accepted
  rw [h.membership, h.principal, htenant, hunrevoked]
  simp only [Option.isNone_none, hunexpired, decide_true, Bool.and_true, Bool.true_and,
    Option.any_some, h.tenantId, h.principalTenant, Bool.and_eq_true, decide_eq_true_eq]
  constructor
  · rintro ⟨⟨⟨⟨hmembership, htenant⟩, hexpiry⟩, hversion⟩, hprincipal⟩
    exact ⟨hmembership, htenant, hexpiry, hversion, hprincipal⟩
  · rintro ⟨hmembership, htenant, hexpiry, hversion, hprincipal⟩
    exact ⟨⟨⟨⟨hmembership, htenant⟩, hexpiry⟩, hversion⟩, hprincipal⟩

theorem resolveSession_iff (h : SessionRows r s m p u t)
    (hfound : (r.sessions.selectFirst fun _ s' ↦ s'.tokenDigest = digest) = some (id, s))
    (hunrevoked : s.revokedAt = none) (hunexpired : now < s.expiresAt) :
    (resolveSession now digest r).isSome ↔ Admits now s m p t := by
  rw [← accepted_iff h hunrevoked hunexpired, resolveSession, hfound, Option.bind_some]
  dsimp only
  split
  · rename_i haccepted
    exact iff_of_true rfl haccepted
  · rename_i hrefused
    exact iff_of_false (by simp) hrefused

theorem getPrincipal_eq (h : SessionRows r s m p u t) :
    getPrincipal s.tenantId s.principalId r = some ⟨p.enabled⟩ := by
  rw [getPrincipal, h.principal, Option.filter_some, if_pos (decide_eq_true h.principalTenant)]
  rfl

theorem getMembershipState_eq (h : SessionRows r s m p u t) :
    getMembershipState s.tenantId s.membershipId r = some ⟨s.principalId, m.status = .active,
      m.authorizationVersion, m.expiresAt, t.status = .active, p.enabled, u.status = .active⟩ := by
  have hprincipal : r.principals.lookup m.principalId = some p := h.principalId ▸ h.principal
  have htenant : r.tenants.lookup m.tenantId = some t := h.tenantId ▸ h.tenant
  unfold getMembershipState
  rw [h.membership]
  simp only [Option.bind_eq_bind, Option.bind_some, hprincipal, h.user, htenant]
  rw [if_pos ⟨h.tenantId, h.principalTenant.trans h.tenantId.symm⟩, h.principalId]

theorem subjectValid_iff (h : SessionRows r s m p u t) {evidence : SubjectEvidence}
    (hhuman : evidence.subjectKind = .human) (requiredPermission : Option String)
    (others : (q : SubjectRead) → q.Value) :
    subjectValid now s evidence requiredPermission others r = true ↔
      Admits now s m p t ∧ u.status = .active := by
  have hread : subjectValid now s evidence requiredPermission others r =
      (p.enabled && MembershipState.validFor s.principalId s.authorizationVersion now
        ⟨s.principalId, m.status = .active, m.authorizationVersion, m.expiresAt, t.status = .active,
          p.enabled, u.status = .active⟩) := by
    simp only [subjectValid, validateDelayedSubject, validateMember, bind, pure, readSubject,
      getPrincipal_eq h, getMembershipState_eq h, hhuman, Option.any_some]
    cases henabled : p.enabled with
    | false => rfl
    | true =>
        rw [Bool.true_and, if_neg (by simp)]
        split
        · rename_i hvalid
          exact hvalid.symm
        · rename_i hinvalid
          exact (Bool.eq_false_iff.mpr hinvalid).symm
  rw [hread]
  simp only [MembershipState.validFor, MembershipState.current, Bool.and_eq_true,
    decide_eq_true_eq]
  constructor
  · rintro ⟨-, ⟨⟨⟨⟨⟨hmembership, htenant⟩, hprincipal⟩, huser⟩, hexpiry⟩, -⟩, hversion⟩
    exact ⟨⟨hmembership, htenant, hexpiry, hversion.symm, hprincipal⟩, huser⟩
  · rintro ⟨hadmits, huser⟩
    exact ⟨hadmits.principal, ⟨⟨⟨⟨⟨hadmits.membership, hadmits.tenant⟩, hadmits.principal⟩, huser⟩,
      hadmits.expiry⟩, trivial⟩, hadmits.version.symm⟩

theorem isSessionUsable_iff (h : SessionRows r s m p u t) (hunrevoked : s.revokedAt = none)
    (hunexpired : now < s.expiresAt) (htenant : t.status = .active)
    (hprincipal : p.enabled = true) :
    isSessionUsable now s s.membershipId m u.status = true ↔
      Admits now s m p t ∧ u.status = .active := by
  unfold isSessionUsable
  rw [h.tenantId, h.principalId, hunrevoked]
  simp only [decide_true, Bool.true_and, Option.isNone_none, hunexpired, Bool.and_true,
    Bool.and_eq_true, decide_eq_true_eq]
  constructor
  · rintro ⟨⟨⟨hversion, hmembership⟩, hexpiry⟩, huser⟩
    exact ⟨⟨hmembership, htenant, hexpiry, hversion, hprincipal⟩, huser⟩
  · rintro ⟨hadmits, huser⟩
    exact ⟨⟨⟨hadmits.version, hadmits.membership⟩, hadmits.expiry⟩, huser⟩

/-- The resolution agrees with the validation, and with the domain rule where tenant and principal
are active, exactly if the account is active or the session is refused for something else. -/
theorem sessions_agree_iff (r : Registry) (s : Session) (m : Membership) (p : Principal) (u : User)
    (t : Tenant) (now : Timestamp) (digest : String) (id : Uuid) (evidence : SubjectEvidence)
    (requiredPermission : Option String) (others : (q : SubjectRead) → q.Value)
    (h : SessionRows r s m p u t)
    (hfound : (r.sessions.selectFirst fun _ s' ↦ s'.tokenDigest = digest) = some (id, s))
    (hunrevoked : s.revokedAt = none) (hunexpired : now < s.expiresAt)
    (hhuman : evidence.subjectKind = .human) :
    (((resolveSession now digest r).isSome ↔
          subjectValid now s evidence requiredPermission others r = true) ∧
        (t.status = .active → p.enabled = true → ((resolveSession now digest r).isSome ↔
          isSessionUsable now s s.membershipId m u.status = true))) ↔
      (u.status = .active ∨ ¬ Admits now s m p t) := by
  rw [resolveSession_iff h hfound hunrevoked hunexpired, subjectValid_iff h hhuman]
  constructor
  · rintro ⟨hvalid, -⟩
    by_cases hadmits : Admits now s m p t
    · exact Or.inl (hvalid.mp hadmits).2
    · exact Or.inr hadmits
  · intro hcondition
    have hagree : Admits now s m p t ↔ Admits now s m p t ∧ u.status = .active :=
      ⟨fun hadmits ↦ ⟨hadmits, hcondition.resolve_right (not_not.mpr hadmits)⟩, And.left⟩
    refine ⟨hagree, fun htenant hprincipal ↦ ?_⟩
    rw [isSessionUsable_iff h hunrevoked hunexpired htenant hprincipal]
    exact hagree

namespace Sample

def session : Session :=
  ⟨1, 100, 7, "token", 1, 500, none⟩

def account (status : UserStatus) : User :=
  ⟨"ann@example.com", "ann@example.com", some "a1", some "a1", "Ann", status, some "scrypt"⟩

/-- A tenant with one member, whose account has the status. -/
def signedIn (status : UserStatus) : Registry :=
  { empty with
    tenants := (∅ : Table Uuid Tenant).insert 1 ⟨"acme", "Acme", .active⟩
    users := (∅ : Table Uuid User).insert 10 (account status)
    principals := (∅ : Table Uuid Principal).insert 7 ⟨1, .user, true⟩
    memberships := (∅ : Table Uuid Membership).insert 100 ⟨1, 10, 7, .active, 1, none⟩
    sessions := (∅ : Table Uuid Session).insert 30 session }

theorem rows_signedIn (status : UserStatus) : SessionRows (signedIn status) session
    ⟨1, 10, 7, .active, 1, none⟩ ⟨1, .user, true⟩ (account status) ⟨"acme", "Acme", .active⟩ :=
  ⟨rfl, rfl, rfl, rfl, rfl, rfl, rfl⟩

def byMember : SubjectEvidence := ⟨.human, none, none, none⟩

def unanswered : (q : SubjectRead) → q.Value
  | .now => 0
  | .getPrincipal _ => none
  | .getMembershipState _ => none
  | .getKeyState _ => none
  | .getMembershipBinding _ => none
  | .getSpace _ => none
  | .bindingsFor .. => []

end Sample

theorem sessions_agree_iff_sample :
    (((resolveSession 5 "token" (Sample.signedIn .active)).isSome ↔
          subjectValid 5 Sample.session Sample.byMember none Sample.unanswered
            (Sample.signedIn .active) = true) ∧
        (Platform.TenantLifecycleStatus.active = .active → true = true →
          ((resolveSession 5 "token" (Sample.signedIn .active)).isSome ↔
            isSessionUsable 5 Sample.session 100 ⟨1, 10, 7, .active, 1, none⟩ .active = true))) ↔
      (UserStatus.active = .active ∨ ¬ Admits 5 Sample.session ⟨1, 10, 7, .active, 1, none⟩
        ⟨1, .user, true⟩ ⟨"acme", "Acme", .active⟩) :=
  sessions_agree_iff (Sample.signedIn .active) Sample.session ⟨1, 10, 7, .active, 1, none⟩
    ⟨1, .user, true⟩ (Sample.account .active) ⟨"acme", "Acme", .active⟩ 5 "token" 30 Sample.byMember
    none Sample.unanswered (Sample.rows_signedIn .active) rfl rfl (by decide) rfl

/-- The session of a disabled account is resolved. -/
theorem disabled_account_resolved : ¬ ∀ (r : Registry) (s : Session) (m : Membership)
    (p : Principal) (u : User) (t : Tenant) (now : Timestamp) (digest : String) (id : Uuid)
    (evidence : SubjectEvidence) (requiredPermission : Option String)
    (others : (q : SubjectRead) → q.Value), SessionRows r s m p u t →
    (r.sessions.selectFirst fun _ s' ↦ s'.tokenDigest = digest) = some (id, s) →
    s.revokedAt = none → now < s.expiresAt → evidence.subjectKind = .human →
      ((resolveSession now digest r).isSome ↔
        subjectValid now s evidence requiredPermission others r = true) := by
  intro h
  have hagree := h (Sample.signedIn .disabled) Sample.session ⟨1, 10, 7, .active, 1, none⟩
    ⟨1, .user, true⟩ (Sample.account .disabled) ⟨"acme", "Acme", .active⟩ 5 "token" 30
    Sample.byMember none Sample.unanswered (Sample.rows_signedIn .disabled) rfl rfl (by decide) rfl
  exact absurd (hagree.mp (by decide)) (by decide)

end S3mp.Registry
