import S3mp.Accounts.Commands

/-!
# Transactions which only add rows

Most account transactions leave every account, membership, binding, session and
support request as it is and at most add accounts and members.  The others are
named: they change the status of a membership, work on a support request or on
the sessions and the standing of an account.
-/

namespace S3mp.Registry

open Relational Transition
open Directory (MembershipStatus)

variable {text : CaseMaps} {r r' : Registry} {c : RegistryCmd}

/-- Memberships and bindings are only created, memberships as invited or active ones. -/
structure MembersGrow (r r' : Registry) : Prop where
  kept : ∀ {k m}, r.memberships.lookup k = some m → r'.memberships.lookup k = some m
  created : ∀ {k m}, r'.memberships.lookup k = some m → k ∉ r.memberships →
    m.status ∈ [MembershipStatus.invited, .active]
  history : r'.history = r.history
  bindings : ∀ {k b}, r.roleBindings.lookup k = some b → r'.roleBindings.lookup k = some b

/-- The support requests stay as they are. -/
structure Quiet (r r' : Registry) : Prop extends MembersGrow r r' where
  requests : r'.supportRequests = r.supportRequests

/-- Accounts are only created, and sessions stay as they are. -/
structure Plain (r r' : Registry) : Prop extends Quiet r r' where
  users : ∀ {k u}, r.users.lookup k = some u → r'.users.lookup k = some u
  accountSessions : r'.accountSessions = r.accountSessions
  serviceTickets : r'.serviceTickets = r.serviceTickets
  sessions : r'.sessions = r.sessions

theorem membersGrow_of_eq (hm : r'.memberships = r.memberships) (hh : r'.history = r.history)
    (hb : r'.roleBindings = r.roleBindings) : MembersGrow r r' := by
  refine ⟨fun h ↦ hm ▸ h, fun h hk ↦ ?_, hh, fun h ↦ hb ▸ h⟩
  rw [hm] at h
  exact absurd (AList.mem_of_lookup h) hk

theorem quiet_of_eq (hm : r'.memberships = r.memberships) (hh : r'.history = r.history)
    (hb : r'.roleBindings = r.roleBindings) (hq : r'.supportRequests = r.supportRequests) :
    Quiet r r' :=
  ⟨membersGrow_of_eq hm hh hb, hq⟩

theorem MembersGrow.trans {r'' : Registry} (h : MembersGrow r r') (h' : MembersGrow r' r'') :
    MembersGrow r r'' := by
  refine ⟨fun hk ↦ h'.kept (h.kept hk), fun {k m} hm hk ↦ ?_, h'.history.trans h.history,
    fun hk ↦ h'.bindings (h.bindings hk)⟩
  by_cases hmem : k ∈ r'.memberships
  · obtain ⟨m', hm'⟩ := AList.exists_lookup_of_mem hmem
    obtain rfl : m' = m := Option.some.inj ((h'.kept hm').symm.trans hm)
    exact h.created hm' hk
  · exact h'.created hm hmem

theorem Quiet.refl (r : Registry) : Quiet r r := quiet_of_eq rfl rfl rfl rfl

theorem Quiet.trans {r'' : Registry} (h : Quiet r r') (h' : Quiet r' r'') : Quiet r r'' :=
  ⟨h.toMembersGrow.trans h'.toMembersGrow, h'.requests.trans h.requests⟩

/-- The tables of which a plain transaction changes at most three. -/
def rest (r : Registry) :=
  (r.memberships, r.history, r.roleBindings, r.supportRequests, r.users, r.accountSessions,
    r.serviceTickets, r.sessions)

theorem plain_of_eq (h : r'.rest = r.rest) : Plain r r' := by
  simp only [rest, Prod.mk.injEq] at h
  obtain ⟨hm, hh, hb, hq, hu, ha, ht, hs⟩ := h
  exact ⟨quiet_of_eq hm hh hb hq, fun hk ↦ hu ▸ hk, ha, ht, hs⟩

theorem Plain.refl (r : Registry) : Plain r r := plain_of_eq rfl

theorem Plain.trans {r'' : Registry} (h : Plain r r') (h' : Plain r' r'') : Plain r r'' :=
  ⟨h.toQuiet.trans h'.toQuiet, fun hk ↦ h'.users (h.users hk),
    h'.accountSessions.trans h.accountSessions, h'.serviceTickets.trans h.serviceTickets,
    h'.sessions.trans h.sessions⟩

theorem plain_insertUser {id : Uuid} {u : User} (h : insertUser id u r = .ok r') :
    Plain r r' := by
  obtain ⟨-, hfresh, rfl⟩ := insertUser_eq_ok.mp h
  refine ⟨quiet_of_eq rfl rfl rfl rfl, fun {k u} hk ↦ ?_, rfl, rfl, rfl⟩
  have hne : k ≠ id := fun heq ↦ hfresh (heq ▸ AList.mem_of_lookup hk)
  exact (AList.lookup_insert_ne hne).trans hk

theorem plain_insertMember {ids : MemberIds} {tenantId userId : Uuid}
    {status : MembershipStatus} {expiresAt : Option Timestamp}
    (hstatus : status ∈ [MembershipStatus.invited, .active])
    (h : insertMember ids tenantId userId status expiresAt r = .ok r') : Plain r r' := by
  obtain ⟨-, -, hfresh, rfl⟩ := insertMember_eq_ok.mp h
  refine ⟨⟨⟨fun {k m} hk ↦ ?_, fun {k m} hm hk ↦ ?_, rfl, fun hk ↦ hk⟩, rfl⟩, fun hk ↦ hk, rfl,
    rfl, rfl⟩
  · have hne : k ≠ ids.membershipId := fun heq ↦ hfresh (heq ▸ AList.mem_of_lookup hk)
    exact (AList.lookup_insert_ne hne).trans hk
  · rw [AList.lookup_insert'] at hm
    split at hm
    · obtain rfl := Option.some.inj hm
      exact hstatus
    · exact absurd (AList.mem_of_lookup hm) hk

theorem plain_insertBinding {id : Uuid} {b : RoleBinding}
    (h : insertBinding id b r = .ok r') : Plain r r' := by
  obtain ⟨hfresh, rfl⟩ := insertBinding_eq_ok.mp h
  refine ⟨⟨⟨fun hk ↦ hk, fun hm hk ↦ absurd (AList.mem_of_lookup hm) hk, rfl, fun {k b} hk ↦ ?_⟩,
    rfl⟩, fun hk ↦ hk, rfl, rfl, rfl⟩
  have hne : k ≠ id := fun heq ↦ hfresh (heq ▸ AList.mem_of_lookup hk)
  exact (AList.lookup_insert_ne hne).trans hk

theorem plain_ensureRole {id tenantId roleId : Uuid} {name : String}
    {permissions : List String} (h : ensureRole id tenantId name permissions r = .ok (roleId, r')) :
    Plain r r' := by
  unfold ensureRole at h
  split at h
  · cases h
    exact plain_of_eq rfl
  · obtain ⟨roles, -, hr⟩ := Except.bind_eq_ok.mp h
    cases hr
    exact plain_of_eq rfl

theorem plain_register {id : Uuid} {email employeeNumber displayName passwordHash : String}
    (h : register text id email employeeNumber displayName passwordHash r = .ok r') :
    Plain r r' := by
  unfold register at h
  dsimp only at h
  split at h
  · simp at h
  · split at h
    · simp at h
    · unfold createAccount at h
      split at h
      · simp at h
      · exact plain_insertUser h

theorem plain_importAccounts {rows : List ImportRow}
    (h : importAccounts text rows r = .ok r') : Plain r r' := by
  unfold importAccounts at h
  split at h
  · simp at h
  · refine Tx.foldlM_relates Plain.refl Plain.trans (fun {s s' a} hturn ↦ ?_) h
    unfold importCandidateRow at hturn
    split at hturn
    · cases hturn
      exact .refl s
    · exact plain_insertUser hturn

theorem plain_link {linkId userId : Uuid} {issuer subject : String} {answer : Option Uuid}
    (h : linkExternalIdentity linkId issuer subject userId r = .ok (answer, r')) :
    Plain r r' := by
  obtain ⟨links, -, hr⟩ := Except.bind_eq_ok.mp h
  cases hr
  exact plain_of_eq rfl

theorem plain_resolveExternal {ids : ExternalIds} {passwordHash issuer : String}
    {identity : CasIdentity} {answer : Option Uuid}
    (h : resolveOrLinkExternalIdentity text ids passwordHash issuer identity r =
      .ok (answer, r')) : Plain r r' := by
  unfold resolveOrLinkExternalIdentity at h
  split at h
  · cases h
    exact .refl r
  · split at h
    · exact plain_link h
    · split at h
      · obtain ⟨r₁, hinsert, hlink⟩ := Except.bind_eq_ok.mp h
        exact (plain_insertUser hinsert).trans (plain_link hlink)
      · cases h
        exact .refl r

theorem plain_createPlatformAdmin {ids : BootstrapIds}
    {email employeeNumber displayName passwordHash : String}
    (h : createPlatformAdmin text ids email employeeNumber displayName passwordHash r = .ok r') :
    Plain r r' := by
  unfold createPlatformAdmin at h
  split at h
  · cases h
  · obtain ⟨r₁, hinsert, hrest⟩ := Except.bind_eq_ok.mp h
    obtain ⟨bindings, -, hr⟩ := Except.bind_eq_ok.mp hrest
    cases hr
    exact (plain_insertUser hinsert).trans (plain_of_eq rfl)

theorem quiet_createAccountSession {token : SessionToken} {userId : Uuid}
    {ticket : Option String} (h : createAccountSession token userId ticket r = .ok r') :
    Quiet r r' := by
  unfold createAccountSession at h
  split at h
  · simp at h
  · split at h
    · simp at h
    · obtain ⟨sessions, -, hrest⟩ := Except.bind_eq_ok.mp h
      cases ticket with
      | none =>
          cases hrest
          exact quiet_of_eq rfl rfl rfl rfl
      | some digest =>
          dsimp only at hrest
          split at hrest
          · simp at hrest
          · cases hrest
            exact quiet_of_eq rfl rfl rfl rfl

theorem quiet_insertTenantSession {token : SessionToken} {membershipId : Uuid}
    {m : Membership} (h : insertTenantSession token membershipId m r = .ok r') :
    Quiet r r' := by
  unfold insertTenantSession at h
  split at h
  · simp at h
  · obtain ⟨sessions, -, hr⟩ := Except.bind_eq_ok.mp h
    cases hr
    exact quiet_of_eq rfl rfl rfl rfl

theorem plain_invitedUser {id userId : Uuid} {email : String} {displayName : Option String}
    (h : invitedUser text id email displayName r = .ok (userId, r')) : Plain r r' := by
  unfold invitedUser at h
  dsimp only at h
  split at h
  · cases h
    exact .refl r
  · obtain ⟨r₁, hinsert, hr⟩ := Except.bind_eq_ok.mp h
    cases hr
    exact plain_insertUser hinsert

theorem plain_createMember {userId : Uuid} {ids : MemberIds} {now : Timestamp}
    {tenantId : Uuid} {email : String} {displayName : Option String} {roleId createdBy : Uuid}
    {expiresAt : Timestamp}
    (h : createMember text userId ids now tenantId email displayName roleId createdBy expiresAt r =
      .ok r') : Plain r r' := by
  obtain ⟨⟨invitedId, r₁⟩, hinvited, hrest⟩ := Except.bind_eq_ok.mp h
  dsimp only at hrest
  split at hrest
  · cases hrest
  · obtain ⟨r₂, hmember, hbinding⟩ := Except.bind_eq_ok.mp hrest
    split at hbinding
    · cases hbinding
    · exact (plain_invitedUser hinvited).trans
        ((plain_insertMember (by decide) hmember).trans (plain_insertBinding hbinding))

theorem plain_createPlatformTenant {ids : TenantIds} {slug name : String} {adminId : Uuid}
    (h : createPlatformTenant ids slug name adminId r = .ok r') : Plain r r' := by
  unfold createPlatformTenant at h
  split at h
  · cases h
  · split at h
    · cases h
    · obtain ⟨tenants, -, hrest⟩ := Except.bind_eq_ok.mp h
      obtain ⟨r₁, hmember, hrole⟩ := Except.bind_eq_ok.mp hrest
      obtain ⟨⟨roleId, r₂⟩, hensure, hr⟩ := Except.bind_eq_ok.mp hrole
      cases hr
      have hfirst : Plain r { r with tenants := tenants } := plain_of_eq rfl
      exact hfirst.trans
        ((plain_insertMember (by decide) hmember).trans (plain_ensureRole hensure))

/-- The command may change the status of a membership which exists. -/
def ChangesStatus : RegistryCmd → Prop
  | .acceptTenantInvitation .. | .updateMember .. | .deletePlatformAccount ..
  | .deletePlatformTenant .. | .revokeSupportAccess .. => True
  | _ => False

theorem deletePlatformTenant_eq (now : Timestamp) (tenantId : Uuid) (r : Registry) :
    (deletePlatformTenant now tenantId r).2 =
      if (r.tenants.lookup tenantId).any (·.status ≠ .deleted) then r.deletedTenant now tenantId
      else r := by
  unfold deletePlatformTenant
  cases r.tenants.lookup tenantId with
  | none => rfl
  | some t =>
      by_cases h : t.status = .deleted
      · simp [h]
      · simp [h]

theorem deletePlatformAccount_eq (now : Timestamp) (userId : Uuid) (r : Registry) :
    (deletePlatformAccount now userId r).2 =
      if (r.users.lookup userId).any (·.status ≠ .deleted) then r.deletedAccount now userId
      else r := by
  unfold deletePlatformAccount
  cases r.users.lookup userId with
  | none => rfl
  | some u =>
      by_cases h : u.status = .deleted
      · simp [h]
      · simp [h]

/-- The command works on a support request. -/
def ConcernsSupport : RegistryCmd → Prop
  | .requestSupportAccess .. | .approveSupportAccess .. | .revokeSupportAccess .. => True
  | _ => False

/-! ## New support requests -/

theorem requestSupportAccess_eq_ok {id : Uuid} {now : Timestamp} {requesterId tenantId : Uuid}
    {reason : String} {expiresAt : Timestamp} :
    requestSupportAccess id now requesterId tenantId reason expiresAt r = .ok r' ↔
      now < expiresAt ∧ tenantId ∈ r.tenants ∧ id ∉ r.supportRequests ∧
        r' = { r with
          supportRequests := r.supportRequests.insert id
            ⟨requesterId, tenantId, reason, expiresAt, none, none, none, none, none⟩ } := by
  unfold requestSupportAccess
  split
  · rename_i hnow
    simp [hnow.not_gt]
  · rename_i hnow
    split
    · rename_i htenant
      simp [htenant]
    · rename_i htenant
      simp only [Except.bind_eq_ok, insertRow_eq_ok, Except.pure_eq_ok]
      constructor
      · rintro ⟨_, ⟨hid, rfl⟩, rfl⟩
        exact ⟨not_le.mp hnow, not_not.mp htenant, hid, rfl⟩
      · rintro ⟨-, -, hid, rfl⟩
        exact ⟨_, ⟨hid, rfl⟩, rfl⟩

/-- An approved request, and the registry with its member, role and binding in front of which it
is marked as approved. -/
structure Approval (ids : SupportIds) (now : Timestamp) (approverId requestId : Uuid)
    (request : SupportAccessRequest) (r r₁ : Registry) : Prop where
  found : r.supportRequests.lookup requestId = some request
  other : request.requesterUserId ≠ approverId
  unapproved : request.approvedAt = none
  unrevoked : request.revokedAt = none
  unexpired : now < request.expiresAt
  active : (r.users.lookup request.requesterUserId).any (·.status = .active)
  stranger : r.hasMembership request.tenantId request.requesterUserId = false
  plain : Plain r r₁
  fresh : ids.member.membershipId ∉ r.memberships
  freshBinding : ids.member.bindingId ∉ r.roleBindings
  membership : r₁.memberships.lookup ids.member.membershipId =
    some ⟨request.tenantId, request.requesterUserId, ids.member.principalId, .active, 1,
      some request.expiresAt⟩
  binding : ∃ roleId, r₁.roleBindings.lookup ids.member.bindingId =
    some (supportBinding now ids.member.principalId roleId request)

/-- The request with the marks of its approval. -/
def approvedRequests (ids : SupportIds) (now : Timestamp) (approverId requestId : Uuid)
    (r : Registry) : Registry :=
  { r with
    supportRequests := r.supportRequests.update requestId
      (SupportAccessRequest.approve now approverId ids.member.membershipId ids.member.bindingId) }

theorem ensureRole_frame {id tenantId roleId : Uuid} {name : String} {permissions : List String}
    (h : ensureRole id tenantId name permissions r = .ok (roleId, r')) :
    r'.memberships = r.memberships ∧ r'.roleBindings = r.roleBindings := by
  unfold ensureRole at h
  split at h
  · cases h
    exact ⟨rfl, rfl⟩
  · obtain ⟨roles, -, hr⟩ := Except.bind_eq_ok.mp h
    cases hr
    exact ⟨rfl, rfl⟩

theorem approveSupportAccess_cases {ids : SupportIds} {now : Timestamp}
    {approverId requestId : Uuid} {found : Bool}
    (h : approveSupportAccess ids now approverId requestId r = .ok (found, r')) :
    r' = r ∨ ∃ request r₁, Approval ids now approverId requestId request r r₁ ∧
      r' = approvedRequests ids now approverId requestId r₁ := by
  unfold approveSupportAccess at h
  split at h
  · cases h
    exact Or.inl rfl
  · rename_i request hrequest
    split_ifs at h with hother hopen hactive hmember
    obtain ⟨r₄, hgrant, hr⟩ := Except.bind_eq_ok.mp h
    cases hr
    obtain ⟨r₁, hm, hrest⟩ := Except.bind_eq_ok.mp hgrant
    obtain ⟨⟨roleId, r₂⟩, hrole, hrest⟩ := Except.bind_eq_ok.mp hrest
    obtain ⟨r₃, hb, hr⟩ := Except.bind_eq_ok.mp hrest
    cases hr
    simp only [Bool.or_eq_true, decide_eq_true_eq, not_or, Option.not_isSome_iff_eq_none,
      not_le] at hopen
    obtain ⟨⟨happroved, hrevoked⟩, hexpires⟩ := hopen
    have hplain := ((plain_insertMember (by decide) hm).trans (plain_ensureRole hrole)).trans
      (plain_insertBinding hb)
    obtain ⟨hframe, hbindings⟩ := ensureRole_frame hrole
    obtain ⟨-, -, hfresh, rfl⟩ := insertMember_eq_ok.mp hm
    obtain ⟨hfreshBinding, rfl⟩ := insertBinding_eq_ok.mp hb
    refine Or.inr ⟨request, _, ⟨hrequest, hother, happroved, hrevoked, hexpires, ?_, ?_, hplain,
      hfresh, ?_, ?_, roleId, ?_⟩, rfl⟩
    · simpa using hactive
    · simpa using hmember
    · rw [hbindings] at hfreshBinding
      exact hfreshBinding
    · change r₂.memberships.lookup _ = _
      rw [hframe]
      exact AList.lookup_insert _
    · exact AList.lookup_insert _

theorem membersGrow_approvedRequests {ids : SupportIds} {now : Timestamp}
    {approverId requestId : Uuid} : MembersGrow r (approvedRequests ids now approverId requestId r) :=
  membersGrow_of_eq rfl rfl rfl

/-- The command works on the sessions or on the standing of an account. -/
def ConcernsAccount : RegistryCmd → Prop
  | .createAccountSession .. | .revokeAccountSession .. | .revokeTenantSessions ..
  | .revokeCasServiceTicketSession .. | .insertTenantSession .. | .deletePlatformAccount ..
  | .restorePlatformAccount .. | .resetPlatformAccountPassword .. => True
  | _ => False

theorem plain_of_exec (hc : ¬ ChangesStatus c) (hsupport : ¬ ConcernsSupport c)
    (haccount : ¬ ConcernsAccount c) (h : exec text c r = .ok r') : Plain r r' := by
  cases c with
  | register => exact plain_register h
  | importAccounts => exact plain_importAccounts h
  | resolveExternal ids passwordHash issuer identity =>
      obtain ⟨⟨answer, r₁⟩, hresolve, rfl⟩ := Except.map_eq_ok.mp h
      exact plain_resolveExternal hresolve
  | createInitialPlatformAdmin =>
      rw [exec, createInitialPlatformAdmin] at h
      split at h
      · cases h
      · exact plain_createPlatformAdmin h
  | ensurePlatformAdmin =>
      rw [exec, ensurePlatformAdmin] at h
      split at h
      · cases h
        exact .refl r
      · exact plain_createPlatformAdmin h
  | createMember => exact plain_createMember h
  | createPlatformTenant => exact plain_createPlatformTenant h
  | updatePlatformTenant =>
      cases h
      unfold updatePlatformTenant
      split
      · exact .refl r
      · split
        · exact .refl r
        · exact plain_of_eq rfl
  | restorePlatformTenant =>
      cases h
      unfold restorePlatformTenant
      split
      · exact .refl r
      · split
        · exact .refl r
        · exact plain_of_eq rfl
  | requestSupportAccess => exact absurd trivial hsupport
  | approveSupportAccess => exact absurd trivial hsupport
  | revokeSupportAccess => exact absurd trivial hsupport
  | acceptTenantInvitation => exact absurd trivial hc
  | updateMember => exact absurd trivial hc
  | deletePlatformTenant => exact absurd trivial hc
  | _ => exact absurd trivial haccount

theorem quiet_of_exec (hc : ¬ ChangesStatus c) (hsupport : ¬ ConcernsSupport c)
    (h : exec text c r = .ok r') : Quiet r r' := by
  by_cases haccount : ConcernsAccount c
  · cases c with
    | createAccountSession => exact quiet_createAccountSession h
    | revokeAccountSession =>
        cases h
        exact quiet_of_eq rfl rfl rfl rfl
    | revokeTenantSessions =>
        cases h
        exact quiet_of_eq rfl rfl rfl rfl
    | revokeCasServiceTicketSession now digest =>
        cases h
        unfold revokeCasServiceTicketSession
        split
        · exact .refl r
        · dsimp only
          split
          · exact quiet_of_eq rfl rfl rfl rfl
          · exact quiet_of_eq rfl rfl rfl rfl
    | insertTenantSession => exact quiet_insertTenantSession h
    | restorePlatformAccount userId =>
        obtain ⟨⟨found, r₁⟩, hrestore, rfl⟩ := Except.map_eq_ok.mp h
        unfold restorePlatformAccount at hrestore
        split at hrestore
        · cases hrestore
          exact .refl r
        · split at hrestore
          · cases hrestore
            exact .refl r
          · split at hrestore
            · cases hrestore
            · cases hrestore
              exact quiet_of_eq rfl rfl rfl rfl
    | resetPlatformAccountPassword =>
        cases h
        unfold resetPlatformAccountPassword
        split
        · exact .refl r
        · split
          · exact .refl r
          · exact quiet_of_eq rfl rfl rfl rfl
    | deletePlatformAccount => exact absurd trivial hc
    | _ => exact haccount.elim
  · exact (plain_of_exec hc hsupport haccount h).toQuiet

end S3mp.Registry
