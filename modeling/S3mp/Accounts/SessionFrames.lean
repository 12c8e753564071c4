import S3mp.Accounts.Growth

/-!
# What account transactions leave of the sessions

Most account transactions write no session: memberships keep their account, their
versions do not fall, and sessions are at most revoked.  A deletion and a password
reset revoke every session of the account, and two transactions insert one.
-/

namespace S3mp.Registry

open Relational Transition
open Directory (MembershipStatus)

variable {text : CaseMaps} {r r' : Registry}

/-- Memberships keep their account and their version does not fall; sessions are only revoked. -/
structure SessionFrame (r r' : Registry) : Prop where
  memberships : ∀ {k m}, r.memberships.lookup k = some m → ∃ m', r'.memberships.lookup k = some m' ∧
    m'.userId = m.userId ∧ m.authorizationVersion ≤ m'.authorizationVersion
  rows : ∀ {k}, k ∈ r'.accountSessions ↔ k ∈ r.accountSessions
  accountSessions : ∀ {k s'}, r'.accountSessions.lookup k = some s' →
    ∃ s, r.accountSessions.lookup k = some s ∧ s'.userId = s.userId ∧
      (s.revokedAt.isSome → s'.revokedAt.isSome)
  sessions : ∀ {k s'}, r'.sessions.lookup k = some s' →
    ∃ s, r.sessions.lookup k = some s ∧ s'.membershipId = s.membershipId ∧
      s'.authorizationVersion = s.authorizationVersion ∧
        (s.revokedAt.isSome → s'.revokedAt.isSome)

theorem SessionFrame.trans {r'' : Registry} (h : SessionFrame r r') (h' : SessionFrame r' r'') :
    SessionFrame r r'' := by
  refine ⟨fun hk ↦ ?_, h'.rows.trans h.rows, fun hk ↦ ?_, fun hk ↦ ?_⟩
  · obtain ⟨m', hm', huser, hversion⟩ := h.memberships hk
    obtain ⟨m'', hm'', huser', hversion'⟩ := h'.memberships hm'
    exact ⟨m'', hm'', huser'.trans huser, hversion.trans hversion'⟩
  · obtain ⟨s', hs', huser', hrevoked'⟩ := h'.accountSessions hk
    obtain ⟨s, hs, huser, hrevoked⟩ := h.accountSessions hs'
    exact ⟨s, hs, huser'.trans huser, fun hr ↦ hrevoked' (hrevoked hr)⟩
  · obtain ⟨s', hs', hid', hversion', hrevoked'⟩ := h'.sessions hk
    obtain ⟨s, hs, hid, hversion, hrevoked⟩ := h.sessions hs'
    exact ⟨s, hs, hid'.trans hid, hversion'.trans hversion, fun hr ↦ hrevoked' (hrevoked hr)⟩

theorem sessionFrame_of_memberships
    (hm : ∀ {k m}, r.memberships.lookup k = some m → ∃ m', r'.memberships.lookup k = some m' ∧
      m'.userId = m.userId ∧ m.authorizationVersion ≤ m'.authorizationVersion)
    (ha : r'.accountSessions = r.accountSessions) (hs : r'.sessions = r.sessions) :
    SessionFrame r r' := by
  refine ⟨hm, by rw [ha], fun {k s'} hk ↦ ?_, fun {k s'} hk ↦ ?_⟩
  · rw [ha] at hk
    exact ⟨s', hk, rfl, id⟩
  · rw [hs] at hk
    exact ⟨s', hk, rfl, rfl, id⟩

theorem sessionFrame_of_eq (hm : r'.memberships = r.memberships)
    (ha : r'.accountSessions = r.accountSessions) (hs : r'.sessions = r.sessions) :
    SessionFrame r r' :=
  sessionFrame_of_memberships (fun hk ↦ ⟨_, hm ▸ hk, rfl, le_rfl⟩) ha hs

theorem SessionFrame.refl (r : Registry) : SessionFrame r r := sessionFrame_of_eq rfl rfl rfl

theorem sessionFrame_ended {p : Uuid → Membership → Bool} {status : MembershipStatus}
    (hm : r'.memberships = r.memberships.updateWhere p (Membership.ended status))
    (ha : r'.accountSessions = r.accountSessions) (hs : r'.sessions = r.sessions) :
    SessionFrame r r' := by
  refine sessionFrame_of_memberships
    (fun {k m} hk ↦ ⟨if p k m then m.ended status else m, ?_, ?_, ?_⟩) ha hs
  · rw [hm, AList.lookup_updateWhere, hk, Option.map_some]
  · split <;> rfl
  · split
    · exact Nat.le_succ _
    · exact le_rfl

theorem sessionFrame_revokeAccountSessions (now : Timestamp) (p : Uuid → AccountSession → Bool)
    (r : Registry) : SessionFrame r (r.revokeAccountSessions now p) := by
  refine ⟨fun hk ↦ ⟨_, hk, rfl, le_rfl⟩, AList.mem_updateWhere, fun {k s'} hk ↦ ?_,
    fun hk ↦ ⟨_, hk, rfl, rfl, id⟩⟩
  change (r.accountSessions.updateWhere _ _).lookup k = some s' at hk
  rw [AList.lookup_updateWhere] at hk
  obtain ⟨s, hs, rfl⟩ := Option.map_eq_some_iff.mp hk
  refine ⟨s, hs, ?_, fun hr ↦ ?_⟩
  · split <;> rfl
  · split
    · rfl
    · exact hr

theorem sessionFrame_revokeSessions (now : Timestamp) (p : Session → Bool) (r : Registry) :
    SessionFrame r (r.revokeSessions now p) := by
  refine ⟨fun hk ↦ ⟨_, hk, rfl, le_rfl⟩, Iff.rfl, fun hk ↦ ⟨_, hk, rfl, id⟩, fun {k s'} hk ↦ ?_⟩
  change (r.sessions.updateWhere _ _).lookup k = some s' at hk
  rw [AList.lookup_updateWhere] at hk
  obtain ⟨s, hs, rfl⟩ := Option.map_eq_some_iff.mp hk
  refine ⟨s, hs, ?_, ?_, fun hr ↦ ?_⟩
  · split <;> rfl
  · split <;> rfl
  · split
    · rfl
    · exact hr

theorem Plain.sessionFrame (h : Plain r r') : SessionFrame r r' :=
  sessionFrame_of_memberships (fun hk ↦ ⟨_, h.kept hk, rfl, le_rfl⟩) h.accountSessions h.sessions

theorem sessionFrame_updateMember (now : Timestamp) (tenantId membershipId : Uuid)
    (status : MembershipStatus) (reason : String) (changedBy : Uuid) (r : Registry) :
    SessionFrame r (updateMember now tenantId membershipId status reason changedBy r).2 := by
  unfold updateMember
  split
  · exact .refl r
  · rename_i row _
    split
    · exact .refl r
    · set recorded := (r.withStatus membershipId status).recordStatus
        ⟨tenantId, membershipId, some row.status, status, reason, changedBy⟩
      have hstatus : SessionFrame r recorded :=
        sessionFrame_ended (p := fun k _ ↦ k = membershipId) rfl rfl rfl
      have hrevoked := hstatus.trans (sessionFrame_revokeSessions now
        (fun s ↦ s.tenantId = tenantId && s.membershipId = membershipId) recorded)
      dsimp only
      split
      · exact hrevoked.trans (sessionFrame_of_eq rfl rfl rfl)
      · exact hrevoked

theorem sessionFrame_revokedSupport (now : Timestamp) (requestId : Uuid)
    (request : SupportAccessRequest) (r : Registry) :
    SessionFrame r (r.revokedSupport now requestId request) := by
  set suspended : Registry := { r with
    supportRequests := r.supportRequests.update requestId fun q ↦ { q with revokedAt := some now }
    roleBindings := r.roleBindings.updateWhere (fun id _ ↦ request.roleBindingId = some id) fun b ↦
      { b with revokedAt := some now }
    memberships := r.memberships.updateWhere (fun id _ ↦ request.membershipId = some id)
      (Membership.ended .suspended) }
  have hsuspended : SessionFrame r suspended :=
    sessionFrame_ended (revokedSupport_memberships now requestId request r) rfl rfl
  exact hsuspended.trans (sessionFrame_revokeSessions now
    (fun s ↦ request.membershipId = some s.membershipId) suspended)

/-- No command which does not concern accounts writes a session. -/
theorem sessionFrame_of_exec {c : RegistryCmd} (haccount : ¬ ConcernsAccount c)
    (h : exec text c r = .ok r') : SessionFrame r r' := by
  by_cases hsupport : ConcernsSupport c
  · cases c with
    | requestSupportAccess =>
        obtain ⟨-, -, -, rfl⟩ := requestSupportAccess_eq_ok.mp h
        exact sessionFrame_of_eq rfl rfl rfl
    | approveSupportAccess =>
        obtain ⟨⟨found, r₁⟩, happrove, rfl⟩ := Except.map_eq_ok.mp h
        rcases approveSupportAccess_cases happrove with rfl | ⟨request, r₂, happroval, rfl⟩
        · exact .refl _
        · exact happroval.plain.sessionFrame.trans (sessionFrame_of_eq rfl rfl rfl)
    | revokeSupportAccess now requestId =>
        cases h
        unfold revokeSupportAccess
        split
        · exact .refl r
        · split
          · exact .refl r
          · exact sessionFrame_revokedSupport now requestId _ r
    | _ => exact hsupport.elim
  · by_cases hc : ChangesStatus c
    · cases c with
      | acceptTenantInvitation now userId membershipId =>
          cases h
          unfold acceptTenantInvitation
          split
          · exact .refl r
          · split_ifs
            · exact .refl r
            · exact .refl r
            · exact .refl r
            · exact .refl r
            · exact sessionFrame_ended (p := fun k _ ↦ k = membershipId) rfl rfl rfl
      | updateMember now tenantId membershipId status reason changedBy =>
          cases h
          exact sessionFrame_updateMember now tenantId membershipId status reason changedBy r
      | deletePlatformTenant now tenantId =>
          cases h
          rw [deletePlatformTenant_eq]
          split
          · have hstatus : SessionFrame r (r.setTenantStatus tenantId .deleted) :=
              sessionFrame_of_eq rfl rfl rfl
            exact (hstatus.trans (sessionFrame_revokeSessions now
              (fun s ↦ s.tenantId = tenantId) _)).trans
                (sessionFrame_ended (deletedTenant_memberships now tenantId r) rfl rfl)
          · exact .refl r
      | deletePlatformAccount => exact absurd trivial haccount
      | revokeSupportAccess => exact absurd trivial hsupport
      | _ => exact hc.elim
    · exact (plain_of_exec hc hsupport haccount h).sessionFrame

/-! ## Revocation -/

/-- The account session and every tenant session of the account are revoked. -/
structure Closed (r : Registry) (a userId : Uuid) : Prop where
  account : ∀ {s}, r.accountSessions.lookup a = some s → s.revokedAt.isSome
  tenant : ∀ {id s m}, r.sessions.lookup id = some s →
    r.memberships.lookup s.membershipId = some m → m.userId = userId → s.revokedAt.isSome

theorem revoked_of_revokeAccountSessions {now : Timestamp} {p : Uuid → AccountSession → Bool}
    {a : Uuid} {s : AccountSession}
    (hs : (r.revokeAccountSessions now p).accountSessions.lookup a = some s)
    (hp : ∀ s, r.accountSessions.lookup a = some s → p a s) : s.revokedAt.isSome := by
  change (r.accountSessions.updateWhere _ _).lookup a = some s at hs
  rw [AList.lookup_updateWhere] at hs
  obtain ⟨s₀, hs₀, rfl⟩ := Option.map_eq_some_iff.mp hs
  by_cases hnone : s₀.revokedAt.isNone
  · rw [if_pos (by rw [hp s₀ hs₀, hnone, Bool.and_self])]
    rfl
  · rw [if_neg (by simp [hnone])]
    exact Option.isSome_iff_ne_none.mpr (mt Option.isNone_iff_eq_none.mpr hnone)

theorem revoked_of_revokeTenantSessions {now : Timestamp} {userId id : Uuid} {s : Session}
    {m : Membership} (hs : (r.revokeTenantSessions now userId).sessions.lookup id = some s)
    (hm : r.memberships.lookup s.membershipId = some m) (huser : m.userId = userId) :
    s.revokedAt.isSome := by
  change (r.sessions.updateWhere _ _).lookup id = some s at hs
  rw [AList.lookup_updateWhere] at hs
  obtain ⟨s₀, hs₀, rfl⟩ := Option.map_eq_some_iff.mp hs
  by_cases hopen : (s₀.ofUser userId r && s₀.revokedAt.isNone) = true
  · rw [if_pos hopen]
    rfl
  · rw [if_neg hopen] at hm ⊢
    have hof : s₀.ofUser userId r = true := by
      rw [Session.ofUser, hm, Option.any_some]
      exact decide_eq_true huser
    rw [hof, Bool.true_and] at hopen
    exact Option.isSome_iff_ne_none.mpr (mt Option.isNone_iff_eq_none.mpr hopen)

theorem sessionFrame_revokeAllSessions (now : Timestamp) (userId : Uuid) (r : Registry) :
    SessionFrame r (r.revokeAllSessions now userId) :=
  (sessionFrame_revokeAccountSessions now _ r).trans (sessionFrame_revokeSessions now _ _)

theorem closed_revokeAllSessions {now : Timestamp} {userId a : Uuid}
    (ha : ∀ s, r.accountSessions.lookup a = some s → s.userId = userId) :
    Closed (r.revokeAllSessions now userId) a userId :=
  ⟨fun hs ↦ revoked_of_revokeAccountSessions (p := fun _ s ↦ s.userId = userId) hs
    fun s hs ↦ decide_eq_true (ha s hs),
    fun hs hm huser ↦ revoked_of_revokeTenantSessions hs hm huser⟩

theorem sessionFrame_deletedAccount (now : Timestamp) (userId : Uuid) (r : Registry) :
    SessionFrame r (r.deletedAccount now userId) := by
  have husers : SessionFrame r
      { r with users := r.users.update userId fun u ↦ { u with status := .deleted } } :=
    sessionFrame_of_eq rfl rfl rfl
  exact (husers.trans (sessionFrame_revokeAllSessions now userId _)).trans
    (sessionFrame_ended (deletedAccount_memberships now userId r) rfl rfl)

theorem closed_deletedAccount {now : Timestamp} {userId a : Uuid}
    (ha : ∀ s, r.accountSessions.lookup a = some s → s.userId = userId) :
    Closed (r.deletedAccount now userId) a userId := by
  have hclosed : Closed (r.revokeAllSessions now userId) a userId := closed_revokeAllSessions ha
  refine ⟨fun hs ↦ hclosed.account hs, fun {id s m} hs hm huser ↦ ?_⟩
  rw [deletedAccount_memberships, AList.lookup_updateWhere] at hm
  obtain ⟨m₀, hm₀, rfl⟩ := Option.map_eq_some_iff.mp hm
  refine hclosed.tenant (m := m₀) hs hm₀ (Eq.trans ?_ huser)
  split <;> rfl

theorem sessionFrame_restorePlatformAccount {userId : Uuid} {found : Bool}
    (h : restorePlatformAccount userId r = .ok (found, r')) : SessionFrame r r' := by
  unfold restorePlatformAccount at h
  split at h
  · cases h
    exact .refl r
  · split_ifs at h
    · cases h
      exact .refl r
    · cases h
      exact sessionFrame_of_eq rfl rfl rfl

theorem sessionFrame_revokeAccountSession (now : Timestamp) (sessionId : Uuid) (r : Registry) :
    SessionFrame r (r.revokeAccountSession now sessionId) := by
  have htickets : SessionFrame r { r with
      serviceTickets := r.serviceTickets.deleteWhere fun _ t ↦ t.accountSessionId = sessionId } :=
    sessionFrame_of_eq rfl rfl rfl
  exact htickets.trans (sessionFrame_revokeAccountSessions now _ _)

/-! ## Insertion -/

theorem createAccountSession_ok {token : SessionToken} {userId : Uuid} {ticket : Option String}
    (h : createAccountSession token userId ticket r = .ok r') :
    token.id ∉ r.accountSessions ∧
      r'.accountSessions = r.accountSessions.insert token.id
        ⟨userId, token.digest, token.expiresAt, none⟩ ∧
      r'.sessions = r.sessions ∧ r'.memberships = r.memberships ∧ r'.users = r.users ∧
        r'.externalIdentities = r.externalIdentities := by
  unfold createAccountSession at h
  split at h
  · simp at h
  · split at h
    · simp at h
    · obtain ⟨sessions, hinsert, hrest⟩ := Except.bind_eq_ok.mp h
      obtain ⟨hfresh, rfl⟩ := insertRow_eq_ok.mp hinsert
      cases ticket with
      | none =>
          cases hrest
          exact ⟨hfresh, rfl, rfl, rfl, rfl, rfl⟩
      | some digest =>
          dsimp only at hrest
          split at hrest
          · simp at hrest
          · cases hrest
            exact ⟨hfresh, rfl, rfl, rfl, rfl, rfl⟩

theorem insertTenantSession_ok {token : SessionToken} {membershipId : Uuid} {m : Membership}
    (h : insertTenantSession token membershipId m r = .ok r') :
    token.id ∉ r.sessions ∧
      r' = { r with
        sessions := r.sessions.insert token.id
          ⟨m.tenantId, membershipId, m.principalId, token.digest, m.authorizationVersion,
            token.expiresAt, none⟩ } := by
  unfold insertTenantSession at h
  split at h
  · simp at h
  · obtain ⟨sessions, hinsert, hr⟩ := Except.bind_eq_ok.mp h
    obtain ⟨hfresh, rfl⟩ := insertRow_eq_ok.mp hinsert
    cases hr
    exact ⟨hfresh, rfl⟩

end S3mp.Registry
