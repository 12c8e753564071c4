import S3mp.Accounts.Growth

/-!
# Support access

A support request grants a member of a tenant, a role binding and, through them,
sessions.  They are effective only while the request is approved by somebody
else, not revoked and not past its expiry, and stay without effect once it has
ended, as long as nobody makes the membership of a revoked request active again.
-/

namespace S3mp.Registry

open Relational Transition
open Directory (MembershipStatus)

variable {text : CaseMaps} {r r' : Registry} {c : RegistryCmd}

/-! ## What is effective -/

def Membership.effective (t : Timestamp) (m : Membership) : Bool :=
  m.status = .active && m.expiresAt.all (t < ·)

def RoleBinding.effective (t : Timestamp) (b : RoleBinding) : Bool :=
  b.revokedAt.isNone && b.startsAt ≤ t && t < b.expiresAt

/-- Something the request has created is effective: its membership, its binding or a session of
the membership. -/
def GrantEffective (t : Timestamp) (r : Registry) (q : SupportAccessRequest) : Prop :=
  (∃ k m, q.membershipId = some k ∧ r.memberships.lookup k = some m ∧ m.effective t) ∨
    (∃ k b, q.roleBindingId = some k ∧ r.roleBindings.lookup k = some b ∧ b.effective t) ∨
    ∃ digest id ctx, resolveSession t digest r = some (id, ctx) ∧
      q.membershipId = some ctx.membershipId

/-- The request is approved by somebody else and neither revoked nor expired. -/
structure Granted (t : Timestamp) (q : SupportAccessRequest) : Prop where
  approved : q.approvedAt.isSome
  twoPerson : ∃ approverId, q.approvedByUserId = some approverId ∧ approverId ≠ q.requesterUserId
  unrevoked : q.revokedAt = none
  unexpired : t < q.expiresAt

def Bounded (t : Timestamp) (r : Registry) : Prop :=
  ∀ id q, r.supportRequests.lookup id = some q → GrantEffective t r q → Granted t q

/-- The rows an approved request refers to, and what its revocation has done to them. -/
structure Supports (r : Registry) (q : SupportAccessRequest) : Prop where
  unapproved : q.approvedAt = none → q.membershipId = none ∧ q.roleBindingId = none
  twoPerson : q.approvedAt.isSome →
    ∃ approverId, q.approvedByUserId = some approverId ∧ approverId ≠ q.requesterUserId
  membership : ∀ {k}, q.membershipId = some k → ∃ m, r.memberships.lookup k = some m ∧
    m.expiresAt = some q.expiresAt ∧ (q.revokedAt.isSome → m.status ≠ .active)
  binding : ∀ {k}, q.roleBindingId = some k → ∃ b, r.roleBindings.lookup k = some b ∧
    b.expiresAt = q.expiresAt ∧ (q.revokedAt.isSome → b.revokedAt.isSome)

def SupportConsistent (r : Registry) : Prop :=
  ∀ id q, r.supportRequests.lookup id = some q → Supports r q

theorem SupportConsistent.supports {id : Uuid} {q : SupportAccessRequest}
    (h : r.SupportConsistent) (hq : r.supportRequests.lookup id = some q) : Supports r q :=
  h id q hq

theorem Supports.granted {q : SupportAccessRequest} {t : Timestamp} (h : Supports r q)
    (happroved : q.approvedAt.isSome) (hrevoked : ¬ q.revokedAt.isSome) (hexpires : t < q.expiresAt) :
    Granted t q :=
  ⟨happroved, h.twoPerson happroved, Option.not_isSome_iff_eq_none.mp hrevoked, hexpires⟩

/-- The membership belongs to a revoked request. -/
def RevokedSupport (k : Uuid) (r : Registry) : Prop :=
  ∃ id q, r.supportRequests.lookup id = some q ∧ q.membershipId = some k ∧ q.revokedAt.isSome

/-- The command does not make the membership of a revoked request active again. -/
def KeepsSupportEnded (r : Registry) : RegistryCmd → Prop
  | .updateMember _ _ membershipId status _ _ => status = .active → ¬ RevokedSupport membershipId r
  | .acceptTenantInvitation _ _ membershipId => ¬ RevokedSupport membershipId r
  | _ => True

/-- What a step leaves of the rows which requests refer to. -/
structure KeepsGrants (r r' : Registry) : Prop where
  memberships : ∀ {k m}, r.memberships.lookup k = some m → ∃ m', r'.memberships.lookup k = some m' ∧
    m'.expiresAt = m.expiresAt ∧ (RevokedSupport k r → m.status ≠ .active → m'.status ≠ .active)
  bindings : ∀ {k b}, r.roleBindings.lookup k = some b → ∃ b', r'.roleBindings.lookup k = some b' ∧
    b'.expiresAt = b.expiresAt ∧ (b.revokedAt.isSome → b'.revokedAt.isSome)

theorem MembersGrow.keepsGrants (h : MembersGrow r r') : KeepsGrants r r' :=
  ⟨fun hm ↦ ⟨_, h.kept hm, rfl, fun _ hstatus ↦ hstatus⟩,
    fun hb ↦ ⟨_, h.bindings hb, rfl, fun hrevoked ↦ hrevoked⟩⟩

theorem Supports.kept {id : Uuid} {q : SupportAccessRequest}
    (hq : r.supportRequests.lookup id = some q) (h : Supports r q) (hkeeps : KeepsGrants r r') :
    Supports r' q := by
  refine ⟨h.unapproved, h.twoPerson, fun {k} hk ↦ ?_, fun {k} hk ↦ ?_⟩
  · obtain ⟨m, hm, hexpires, hrevoked⟩ := h.membership hk
    obtain ⟨m', hm', hexpires', hstatus⟩ := hkeeps.memberships hm
    exact ⟨m', hm', hexpires'.trans hexpires, fun hr ↦ hstatus ⟨id, q, hq, hk, hr⟩ (hrevoked hr)⟩
  · obtain ⟨b, hb, hexpires, hrevoked⟩ := h.binding hk
    obtain ⟨b', hb', hexpires', hpersists⟩ := hkeeps.bindings hb
    exact ⟨b', hb', hexpires'.trans hexpires, fun hr ↦ hpersists (hrevoked hr)⟩

theorem SupportConsistent.kept (h : r.SupportConsistent) (hkeeps : KeepsGrants r r')
    (hq : r'.supportRequests = r.supportRequests) : r'.SupportConsistent := by
  intro id q hlookup
  rw [hq] at hlookup
  exact (h.supports hlookup).kept hlookup hkeeps

/-- A new status which is not `active` keeps the grants; `active` does for a membership of no
revoked request. -/
theorem keepsGrants_status {p : Uuid → Membership → Bool} {status : MembershipStatus}
    (hm : r'.memberships = r.memberships.updateWhere p (Membership.ended status))
    (hstatus : ∀ {k m}, r.memberships.lookup k = some m → p k m → RevokedSupport k r →
      status ≠ .active)
    (hb : ∀ {k b}, r.roleBindings.lookup k = some b → ∃ b', r'.roleBindings.lookup k = some b' ∧
      b'.expiresAt = b.expiresAt ∧ (b.revokedAt.isSome → b'.revokedAt.isSome)) :
    KeepsGrants r r' := by
  refine ⟨fun {k m} hk ↦ ⟨if p k m then m.ended status else m, ?_, ?_, fun hr hne ↦ ?_⟩, hb⟩
  · rw [hm, AList.lookup_updateWhere, hk, Option.map_some]
  · split <;> rfl
  · split
    · exact hstatus hk ‹_› hr
    · exact hne

theorem bindings_same (hb : r'.roleBindings = r.roleBindings) {k : Uuid} {b : RoleBinding}
    (h : r.roleBindings.lookup k = some b) : ∃ b', r'.roleBindings.lookup k = some b' ∧
      b'.expiresAt = b.expiresAt ∧ (b.revokedAt.isSome → b'.revokedAt.isSome) :=
  ⟨b, hb ▸ h, rfl, fun hr ↦ hr⟩

theorem bindings_revoked {now : Timestamp} {p : Uuid → RoleBinding → Bool}
    (hb : r'.roleBindings = r.roleBindings.updateWhere p fun b ↦ { b with revokedAt := some now })
    {k : Uuid} {b : RoleBinding} (h : r.roleBindings.lookup k = some b) :
    ∃ b', r'.roleBindings.lookup k = some b' ∧ b'.expiresAt = b.expiresAt ∧
      (b.revokedAt.isSome → b'.revokedAt.isSome) := by
  refine ⟨if p k b then { b with revokedAt := some now } else b, ?_, ?_, fun hr ↦ ?_⟩
  · rw [hb, AList.lookup_updateWhere, h, Option.map_some]
  · split <;> rfl
  · split
    · rfl
    · exact hr

theorem keepsGrants_refl (r : Registry) : KeepsGrants r r :=
  (Quiet.refl r).toMembersGrow.keepsGrants

theorem updateMember_requests (now : Timestamp) (tenantId membershipId : Uuid)
    (status : MembershipStatus) (reason : String) (changedBy : Uuid) (r : Registry) :
    (updateMember now tenantId membershipId status reason changedBy r).2.supportRequests =
        r.supportRequests ∧
      (updateMember now tenantId membershipId status reason changedBy r).2.roleBindings =
        r.roleBindings := by
  unfold updateMember
  split
  · exact ⟨rfl, rfl⟩
  · split
    · exact ⟨rfl, rfl⟩
    · dsimp only
      split
      · exact ⟨rfl, rfl⟩
      · exact ⟨rfl, rfl⟩

theorem updateMember_cases (now : Timestamp) (tenantId membershipId : Uuid)
    (status : MembershipStatus) (reason : String) (changedBy : Uuid) (r : Registry) :
    (updateMember now tenantId membershipId status reason changedBy r).2 = r ∨
      (updateMember now tenantId membershipId status reason changedBy r).2.memberships =
        r.memberships.update membershipId (Membership.ended status) := by
  unfold updateMember
  split
  · exact Or.inl rfl
  · split
    · exact Or.inl rfl
    · dsimp only
      split
      · exact Or.inr rfl
      · exact Or.inr rfl

/-- The rows requests refer to survive every command which respects the end of a request, and
only support commands change a request. -/
theorem keepsGrants_of_status (hc : ChangesStatus c) (hkeeps : KeepsSupportEnded r c)
    (h : exec text c r = .ok r') : KeepsGrants r r' := by
  cases c with
  | acceptTenantInvitation now userId membershipId =>
      cases h
      unfold acceptTenantInvitation
      split
      · exact keepsGrants_refl r
      · split_ifs
        · exact keepsGrants_refl r
        · exact keepsGrants_refl r
        · exact keepsGrants_refl r
        · exact keepsGrants_refl r
        · refine keepsGrants_status (p := fun k _ ↦ k = membershipId) rfl (fun _ hp hr ↦ ?_)
            (bindings_same rfl)
          exact absurd (of_decide_eq_true hp ▸ hr) hkeeps
  | updateMember now tenantId membershipId status reason changedBy =>
      cases h
      rcases updateMember_cases now tenantId membershipId status reason changedBy r with heq | hm
      · rw [heq]
        exact keepsGrants_refl r
      · refine keepsGrants_status (p := fun k _ ↦ k = membershipId) hm (fun _ hp hr hactive ↦ ?_)
          (bindings_same (updateMember_requests now tenantId membershipId status reason changedBy r).2)
        exact hkeeps hactive (of_decide_eq_true hp ▸ hr)
  | deletePlatformAccount now userId =>
      cases h
      rw [deletePlatformAccount_eq]
      split
      · exact keepsGrants_status (deletedAccount_memberships now userId r)
          (fun _ _ _ ↦ by decide) (bindings_same rfl)
      · exact keepsGrants_refl r
  | deletePlatformTenant now tenantId =>
      cases h
      rw [deletePlatformTenant_eq]
      split
      · exact keepsGrants_status (deletedTenant_memberships now tenantId r)
          (fun _ _ _ ↦ by decide) (bindings_revoked (deletedTenant_roleBindings now tenantId r))
      · exact keepsGrants_refl r
  | revokeSupportAccess now requestId =>
      cases h
      unfold revokeSupportAccess
      split
      · exact keepsGrants_refl r
      · split
        · exact keepsGrants_refl r
        · exact keepsGrants_status (revokedSupport_memberships now requestId _ r)
            (fun _ _ _ ↦ by decide) (bindings_revoked (revokedSupport_roleBindings now requestId _ r))
  | _ => exact hc.elim

theorem requests_of_status (hc : ChangesStatus c) (hsupport : ¬ ConcernsSupport c)
    (h : exec text c r = .ok r') : r'.supportRequests = r.supportRequests := by
  cases c with
  | acceptTenantInvitation now userId membershipId =>
      cases h
      unfold acceptTenantInvitation
      split
      · rfl
      · split_ifs <;> rfl
  | updateMember now tenantId membershipId status reason changedBy =>
      cases h
      exact (updateMember_requests now tenantId membershipId status reason changedBy r).1
  | deletePlatformAccount now userId =>
      cases h
      rw [deletePlatformAccount_eq]
      split <;> rfl
  | deletePlatformTenant now tenantId =>
      cases h
      rw [deletePlatformTenant_eq]
      split <;> rfl
  | revokeSupportAccess => exact absurd trivial hsupport
  | _ => exact hc.elim

/-- The lookup of a request after the revocation of one. -/
theorem lookup_revokedSupport {now : Timestamp} {requestId id : Uuid}
    {request q : SupportAccessRequest} (hid : r.supportRequests.lookup requestId = some request)
    (hq : (r.revokedSupport now requestId request).supportRequests.lookup id = some q) :
    (id = requestId ∧ q = { request with revokedAt := some now }) ∨
      (id ≠ requestId ∧ r.supportRequests.lookup id = some q) := by
  change (r.supportRequests.update requestId _).lookup id = some q at hq
  rw [AList.lookup_update] at hq
  split at hq
  · rename_i heq
    rw [hid, Option.map_some] at hq
    exact Or.inl ⟨heq, (Option.some.inj hq).symm⟩
  · exact Or.inr ⟨‹_›, hq⟩

theorem SupportConsistent.revoked {now : Timestamp} {requestId : Uuid}
    {request : SupportAccessRequest} (hs : r.SupportConsistent)
    (hid : r.supportRequests.lookup requestId = some request) :
    (r.revokedSupport now requestId request).SupportConsistent := by
  have hkeeps : KeepsGrants r (r.revokedSupport now requestId request) :=
    keepsGrants_status (revokedSupport_memberships now requestId request r)
      (fun _ _ _ ↦ by decide) (bindings_revoked (revokedSupport_roleBindings now requestId request r))
  intro id q hq
  rcases lookup_revokedSupport hid hq with ⟨rfl, rfl⟩ | ⟨-, hq⟩
  · have h := (hs.supports hid).kept hid hkeeps
    refine ⟨h.unapproved, h.twoPerson, fun {k} hk ↦ ?_, fun {k} hk ↦ ?_⟩
    · obtain ⟨m, hm, hexpires, -⟩ := (hs.supports hid).membership hk
      refine ⟨m.ended .suspended, ?_, hexpires,
        fun _ ↦ show MembershipStatus.suspended ≠ .active by decide⟩
      rw [revokedSupport_memberships, AList.lookup_updateWhere, hm, Option.map_some,
        if_pos (decide_eq_true hk)]
    · obtain ⟨b, hb, hexpires, -⟩ := (hs.supports hid).binding hk
      refine ⟨{ b with revokedAt := some now }, ?_, hexpires, fun _ ↦ rfl⟩
      change (r.roleBindings.updateWhere _ _).lookup k = _
      rw [AList.lookup_updateWhere, hb, Option.map_some, if_pos (decide_eq_true hk)]
  · exact (hs.supports hq).kept hq hkeeps

theorem SupportConsistent.requested {id : Uuid} {q : SupportAccessRequest}
    (hs : r.SupportConsistent) (happroved : q.approvedAt = none)
    (hmember : q.membershipId = none) (hbinding : q.roleBindingId = none) :
    SupportConsistent { r with supportRequests := r.supportRequests.insert id q } := by
  intro id' q' hq'
  change (r.supportRequests.insert id q).lookup id' = some q' at hq'
  rw [AList.lookup_insert'] at hq'
  split at hq'
  · obtain rfl := Option.some.inj hq'
    refine ⟨fun _ ↦ ⟨hmember, hbinding⟩, fun h ↦ ?_, fun {k} hk ↦ ?_, fun {k} hk ↦ ?_⟩
    · rw [happroved] at h
      cases h
    · rw [hmember] at hk
      cases hk
    · rw [hbinding] at hk
      cases hk
  · exact (hs.supports hq').kept hq' ⟨fun hm ↦ ⟨_, hm, rfl, fun _ hne ↦ hne⟩, bindings_same rfl⟩

theorem SupportConsistent.approved {ids : SupportIds} {now : Timestamp}
    {approverId requestId : Uuid} {request : SupportAccessRequest} {r₁ : Registry}
    (hs : r.SupportConsistent) (h : Approval ids now approverId requestId request r r₁) :
    (approvedRequests ids now approverId requestId r₁).SupportConsistent := by
  have hkeeps : KeepsGrants r (approvedRequests ids now approverId requestId r₁) :=
    (h.plain.toMembersGrow.trans membersGrow_approvedRequests).keepsGrants
  intro id q hq
  change (r₁.supportRequests.update requestId _).lookup id = some q at hq
  rw [h.plain.requests, AList.lookup_update] at hq
  split at hq
  · rw [h.found, Option.map_some] at hq
    obtain rfl := Option.some.inj hq
    refine ⟨fun hnone ↦ ?_, fun _ ↦ ⟨approverId, rfl, h.other.symm⟩, fun {k} hk ↦ ?_,
      fun {k} hk ↦ ?_⟩
    · cases hnone
    · cases hk
      refine ⟨_, h.membership, rfl, fun hr ↦ ?_⟩
      rw [SupportAccessRequest.approve, h.unrevoked] at hr
      cases hr
    · cases hk
      obtain ⟨roleId, hb⟩ := h.binding
      refine ⟨_, hb, rfl, fun hr ↦ ?_⟩
      rw [SupportAccessRequest.approve, h.unrevoked] at hr
      cases hr
  · exact (hs.supports hq).kept hq hkeeps

theorem SupportConsistent.step (hs : r.SupportConsistent) (hkeeps : KeepsSupportEnded r c)
    (h : exec text c r = .ok r') : r'.SupportConsistent := by
  by_cases hsupport : ConcernsSupport c
  · cases c with
    | requestSupportAccess =>
        obtain ⟨-, -, -, rfl⟩ := requestSupportAccess_eq_ok.mp h
        exact hs.requested rfl rfl rfl
    | approveSupportAccess =>
        obtain ⟨⟨found, r₁⟩, happrove, rfl⟩ := Except.map_eq_ok.mp h
        rcases approveSupportAccess_cases happrove with rfl | ⟨request, r₂, happroval, rfl⟩
        · exact hs
        · exact hs.approved happroval
    | revokeSupportAccess now requestId =>
        cases h
        unfold revokeSupportAccess
        split
        · exact hs
        · rename_i request hid
          split
          · exact hs
          · exact hs.revoked hid
    | _ => exact hsupport.elim
  · by_cases hc : ChangesStatus c
    · exact hs.kept (keepsGrants_of_status hc hkeeps h) (requests_of_status hc hsupport h)
    · have hquiet := quiet_of_exec hc hsupport h
      exact hs.kept hquiet.toMembersGrow.keepsGrants hquiet.requests

/-! ## Requests which have ended -/

def SupportAccessRequest.Ended (t : Timestamp) (q : SupportAccessRequest) : Prop :=
  q.revokedAt.isSome ∨ q.expiresAt ≤ t

/-- The later row of a request refers to what the earlier one has created. -/
structure Continues (q q' : SupportAccessRequest) : Prop where
  expiresAt : q'.expiresAt = q.expiresAt
  membership : ∀ {k}, q.membershipId = some k → q'.membershipId = some k
  binding : ∀ {k}, q.roleBindingId = some k → q'.roleBindingId = some k
  revoked : q.revokedAt.isSome → q'.revokedAt.isSome

theorem Continues.refl (q : SupportAccessRequest) : Continues q q :=
  ⟨rfl, fun h ↦ h, fun h ↦ h, fun h ↦ h⟩

theorem Continues.trans {q q' q'' : SupportAccessRequest} (h : Continues q q')
    (h' : Continues q' q'') : Continues q q'' :=
  ⟨h'.expiresAt.trans h.expiresAt, fun hk ↦ h'.membership (h.membership hk),
    fun hk ↦ h'.binding (h.binding hk), fun hr ↦ h'.revoked (h.revoked hr)⟩

theorem Continues.ended {q q' : SupportAccessRequest} {t t' : Timestamp} (h : Continues q q')
    (hended : q.Ended t) (ht : t ≤ t') : q'.Ended t' := by
  rcases hended with hr | hexpires
  · exact Or.inl (h.revoked hr)
  · refine Or.inr ?_
    rw [h.expiresAt]
    exact hexpires.trans ht

namespace Sample

/-- A tenant and two platform accounts which are not its members. -/
def platform : Registry :=
  { empty with
    tenants := (∅ : Table Uuid Tenant).insert 1 ⟨"acme", "Acme", .active⟩
    users := (∅ : Table Uuid User).insert 20
        ⟨"sue@example.com", "sue@example.com", some "s1", some "s1", "Sue", .active, none⟩
      |>.insert 30
        ⟨"amy@example.com", "amy@example.com", some "a2", some "a2", "Amy", .active, none⟩ }

end Sample

end S3mp.Registry
