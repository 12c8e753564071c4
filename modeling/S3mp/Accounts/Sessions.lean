import S3mp.Accounts.SessionFrames

/-!
# Sessions and the events which end them

A login verifies a credential in one transaction and writes the account session
in another; a tenant session is written for a membership read before; a logout
revokes the account session first and the tenant sessions afterwards.  Between
these steps passwords are reset and accounts deleted and restored.  Every session
is recorded together with the login it comes from.
-/

namespace S3mp

open Relational Transition Registry
open Directory (MembershipStatus)

namespace Registry

/-- A login between its verification and its account session.  Only a CAS login has a ticket. -/
structure PendingLogin where
  userId : Uuid
  ticket : Option String
  /-- How often the password of the account had been reset at the verification. -/
  resets : ℕ
  deriving DecidableEq, Repr

def PendingLogin.byPassword (p : PendingLogin) : Bool := p.ticket.isNone

/-- What is known about the login an account session comes from. -/
structure Login where
  userId : Uuid
  byPassword : Bool
  resets : ℕ
  /-- How often the account had been deleted when the session was written. -/
  deletions : ℕ
  /-- The account was active when the session was written. -/
  standing : Bool
  deriving DecidableEq, Repr

/-- A selected tenant between the two statements of `create_tenant_session`. -/
structure Selection where
  context : PlatformContext
  membershipId : Uuid
  membership : Membership
  deriving DecidableEq, Repr

end Registry

/-- The registry with the requests under way.  The last fields record what has happened. -/
structure SessionWorld where
  registry : Registry
  pending : List PendingLogin
  contexts : List PlatformContext
  selections : List Selection
  /-- The logouts which have revoked their account session only. -/
  loggingOut : List PlatformContext
  logins : Table Uuid Login
  /-- The account session through which a tenant session was obtained. -/
  origins : Table Uuid Uuid
  resets : Uuid → ℕ
  deletions : Uuid → ℕ
  loggedOut : List Uuid

inductive LoginCmd where
  | authenticate (identifier password : String)
  | resolveExternal (ids : ExternalIds) (passwordHash issuer : String) (identity : CasIdentity)
      (ticket : String)
  | createAccountSession (login : PendingLogin) (token : SessionToken)
  | resolveAccountSession (now : Timestamp) (digest : String)
  | readMembership (context : PlatformContext) (now : Timestamp) (tenantId : Uuid)
  | insertTenantSession (selection : Selection) (token : SessionToken)
  | revokeAccountSession (context : PlatformContext) (now : Timestamp)
  | revokeTenantSessions (context : PlatformContext) (now : Timestamp)
  | revokeCasServiceTicketSession (now : Timestamp) (digest : String)
  | deletePlatformAccount (now : Timestamp) (userId : Uuid)
  | restorePlatformAccount (userId : Uuid)
  | resetPlatformAccountPassword (now : Timestamp) (userId : Uuid) (passwordHash : String)
  | other (c : RegistryCmd)

namespace Registry

instance : DecidablePred ConcernsAccount := fun c ↦ by
  unfold ConcernsAccount
  split <;> infer_instance

end Registry

namespace SessionWorld

/-- Nobody is logged in. -/
def start (r : Registry) : SessionWorld where
  registry := r
  pending := []
  contexts := []
  selections := []
  loggingOut := []
  logins := ∅
  origins := ∅
  resets := fun _ ↦ 0
  deletions := fun _ ↦ 0
  loggedOut := []

def count (f : Uuid → ℕ) (userId : Uuid) : Uuid → ℕ :=
  fun u ↦ if u = userId then f u + 1 else f u

def accountActive (w : SessionWorld) (userId : Uuid) : Bool :=
  (w.registry.users.lookup userId).any (·.status = .active)

def loginOf (w : SessionWorld) (p : PendingLogin) : Login where
  userId := p.userId
  byPassword := p.byPassword
  resets := p.resets
  deletions := w.deletions p.userId
  standing := w.accountActive p.userId

/-- The account session a ticket has created, if it still exists. -/
def ticketSession (w : SessionWorld) (digest : String) : Option Uuid :=
  ((w.registry.serviceTickets.lookup digest).map (·.accountSessionId)).filter
    (· ∈ w.registry.accountSessions)

section Exec

variable (text : CaseMaps) (verify : String → String → Bool)

def exec : LoginCmd → SessionWorld → Tx SessionWorld
  | .authenticate identifier password, w =>
      match Registry.authenticate text verify identifier password w.registry with
      | none => raise "authentication_failed" "Invalid email or password" 401
      | some userId => .ok { w with pending := ⟨userId, none, w.resets userId⟩ :: w.pending }
  | .resolveExternal ids passwordHash issuer identity ticket, w => do
      let (answer, r) ← resolveOrLinkExternalIdentity text ids passwordHash issuer
        (casIdentity identity) w.registry
      return { w with
        registry := r
        pending := (answer.map fun u ↦ ⟨u, some ticket, w.resets u⟩).toList ++ w.pending }
  | .createAccountSession login token, w =>
      if login ∉ w.pending then .error (.value "no such login") else do
        let r ← Registry.createAccountSession token login.userId login.ticket w.registry
        return { w with registry := r, logins := w.logins.insert token.id (w.loginOf login) }
  | .resolveAccountSession now digest, w =>
      match Registry.resolveAccountSession now digest w.registry with
      | none => raise "authentication_required" "Authentication is required" 401
      | some context => .ok { w with contexts := context :: w.contexts }
  | .readMembership context now tenantId, w =>
      if context ∉ w.contexts then .error (.value "no such context")
      else match w.registry.selectableMembership now context.userId tenantId with
        | none => raise "tenant_session_denied" "Tenant access is not available" 403
        | some (membershipId, m) =>
          .ok { w with selections := ⟨context, membershipId, m⟩ :: w.selections }
  | .insertTenantSession selection token, w =>
      if selection ∉ w.selections then .error (.value "no such selection") else do
        let r ← Registry.insertTenantSession token selection.membershipId selection.membership
          w.registry
        return { w with
          registry := r
          origins := w.origins.insert token.id selection.context.sessionId }
  | .revokeAccountSession context now, w =>
      if context ∉ w.contexts then .error (.value "no such context")
      else .ok { w with
        registry := Registry.revokeAccountSession now context.sessionId w.registry
        loggingOut := context :: w.loggingOut }
  | .revokeTenantSessions context now, w =>
      if context ∉ w.loggingOut then .error (.value "no such logout")
      else .ok { w with
        registry := Registry.revokeTenantSessions now context.userId w.registry
        loggedOut := context.sessionId :: w.loggedOut }
  | .revokeCasServiceTicketSession now digest, w =>
      .ok { w with
        registry := (Registry.revokeCasServiceTicketSession now digest w.registry).2
        loggedOut := (w.ticketSession digest).toList ++ w.loggedOut }
  | .deletePlatformAccount now userId, w =>
      match Registry.deletePlatformAccount now userId w.registry with
      | (true, r) => .ok { w with registry := r, deletions := count w.deletions userId }
      | (false, r) => .ok { w with registry := r }
  | .restorePlatformAccount userId, w => do
      let (_, r) ← Registry.restorePlatformAccount userId w.registry
      return { w with registry := r }
  | .resetPlatformAccountPassword now userId passwordHash, w =>
      match Registry.resetPlatformAccountPassword now userId passwordHash w.registry with
      | (true, r) => .ok { w with registry := r, resets := count w.resets userId }
      | (false, r) => .ok { w with registry := r }
  | .other c, w =>
      if ConcernsAccount c then .error (.value "no other command") else do
        let r ← Registry.exec text c w.registry
        return { w with registry := r }

end Exec

variable {text : CaseMaps} {verify : String → String → Bool} {w w' : SessionWorld} {c : LoginCmd}

/-! ## What may be accepted -/

/-- Nothing has ended the login since. -/
structure Stands (w : SessionWorld) (a : Uuid) (l : Login) : Prop where
  password : l.byPassword → l.resets = w.resets l.userId
  undeleted : l.standing ∧ l.deletions = w.deletions l.userId
  loggedIn : a ∉ w.loggedOut

def Lives (w : SessionWorld) (a : Uuid) : Prop :=
  ∃ l, w.logins.lookup a = some l ∧ w.Stands a l

/-- Only sessions of logins which stand are accepted. -/
def NoneSurvives (w : SessionWorld) : Prop :=
  ∀ t digest,
    (∀ context, Registry.resolveAccountSession t digest w.registry = some context →
      w.Lives context.sessionId) ∧
    ∀ id context, resolveSession t digest w.registry = some (id, context) →
      ∃ a, w.origins.lookup id = some a ∧ w.Lives a

/-- The membership has not changed since it was read. -/
def isCurrent (w : SessionWorld) (s : Selection) : Bool :=
  (w.registry.memberships.lookup s.membershipId).any
    (·.authorizationVersion = s.membership.authorizationVersion)

/-- No event which ends the login comes between its verification and its account session, nor
between the account session and a tenant session obtained through it. -/
def Timely (w : SessionWorld) : LoginCmd → Prop
  | .createAccountSession login _ => w.accountActive login.userId ∧
      (login.byPassword → login.resets = w.resets login.userId)
  | .insertTenantSession selection _ => w.isCurrent selection →
      w.Lives selection.context.sessionId
  | _ => True

/-! ## The invariant -/

/-- The context belongs to a login of its account. -/
def Known (w : SessionWorld) (context : PlatformContext) : Prop :=
  ∃ l, w.logins.lookup context.sessionId = some l ∧ l.userId = context.userId

structure Read (w : SessionWorld) (s : Selection) : Prop where
  known : w.Known s.context
  membership : ∃ m, w.registry.memberships.lookup s.membershipId = some m ∧
    m.userId = s.context.userId ∧ s.membership.authorizationVersion ≤ m.authorizationVersion

structure HalfOut (w : SessionWorld) (context : PlatformContext) : Prop where
  known : w.Known context
  revoked : ∀ {s}, w.registry.accountSessions.lookup context.sessionId = some s → s.revokedAt.isSome

/-- The tenant session belongs to a login of the account of its membership which stands. -/
def Backed (w : SessionWorld) (id : Uuid) (m : Membership) : Prop :=
  ∃ a l, w.origins.lookup id = some a ∧ w.logins.lookup a = some l ∧ l.userId = m.userId ∧
    w.Stands a l

structure Consistent (w : SessionWorld) : Prop where
  rows : ∀ {a}, a ∈ w.logins → a ∈ w.registry.accountSessions
  issued : ∀ {a s}, w.registry.accountSessions.lookup a = some s →
    ∃ l, w.logins.lookup a = some l ∧ l.userId = s.userId ∧ (s.revokedAt = none → w.Stands a l)
  sessions : ∀ {id s}, w.registry.sessions.lookup id = some s → s.revokedAt = none →
    ∃ m, w.registry.memberships.lookup s.membershipId = some m ∧
      s.authorizationVersion ≤ m.authorizationVersion ∧
        (s.authorizationVersion = m.authorizationVersion → w.Backed id m)
  contexts : ∀ context ∈ w.contexts, w.Known context
  selections : ∀ s ∈ w.selections, w.Read s
  loggingOut : ∀ context ∈ w.loggingOut, w.HalfOut context
  loggedOut : ∀ a ∈ w.loggedOut, a ∈ w.registry.accountSessions

theorem Consistent.noneSurvives (h : w.Consistent) : w.NoneSurvives := by
  intro t digest
  constructor
  · intro context hcontext
    obtain ⟨⟨a, s⟩, hfirst, hs⟩ := Option.bind_eq_some_iff.mp hcontext
    dsimp only at hs
    split at hs
    · rename_i haccepted
      cases hs
      simp only [Bool.and_eq_true, Option.isNone_iff_eq_none] at haccepted
      obtain ⟨l, hl, -, hstands⟩ := h.issued (AList.lookup_of_selectFirst hfirst).1
      exact ⟨l, hl, hstands haccepted.1.1⟩
    · cases hs
  · intro id context hcontext
    obtain ⟨⟨id', s⟩, hfirst, hs⟩ := Option.bind_eq_some_iff.mp hcontext
    dsimp only at hs
    split at hs
    · rename_i haccepted
      cases hs
      rw [Session.accepted, Bool.and_eq_true, Option.any_eq_true] at haccepted
      obtain ⟨hopen, m, hm, haccepted⟩ := haccepted
      simp only [Bool.and_eq_true, decide_eq_true_eq, Option.isNone_iff_eq_none] at hopen haccepted
      obtain ⟨m', hm', -, hbacked⟩ := h.sessions (AList.lookup_of_selectFirst hfirst).1 hopen.1
      obtain rfl : m' = m := Option.some.inj (hm'.symm.trans hm)
      obtain ⟨a, l, ha, hl, -, hstands⟩ := hbacked haccepted.1.2
      exact ⟨a, ha, l, hl, hstands⟩
    · cases hs

/-! ## Steps -/

theorem Stands.congr {a : Uuid} {l : Login} (h : w.Stands a l) (hresets : w'.resets = w.resets)
    (hdeletions : w'.deletions = w.deletions) (hout : w'.loggedOut = w.loggedOut) :
    w'.Stands a l :=
  ⟨by rw [hresets]; exact h.password, by rw [hdeletions]; exact h.undeleted,
    by rw [hout]; exact h.loggedIn⟩

theorem Known.congr {context : PlatformContext} (h : w.Known context)
    (hlogins : ∀ {a l}, w.logins.lookup a = some l → w'.logins.lookup a = some l) :
    w'.Known context := by
  obtain ⟨l, hl, huser⟩ := h
  exact ⟨l, hlogins hl, huser⟩

/-- What a step adds to the requests under way is as it should be. -/
structure Listed (w w' : SessionWorld) : Prop where
  contexts : ∀ context ∈ w'.contexts, context ∈ w.contexts ∨ w'.Known context
  selections : ∀ s ∈ w'.selections, s ∈ w.selections ∨ w'.Read s
  loggingOut : ∀ context ∈ w'.loggingOut, context ∈ w.loggingOut ∨ w'.HalfOut context
  loggedOut : ∀ a ∈ w'.loggedOut, a ∈ w.loggedOut ∨ a ∈ w.registry.accountSessions

theorem listed_of_eq (h : (w'.contexts, w'.selections, w'.loggingOut, w'.loggedOut) =
    (w.contexts, w.selections, w.loggingOut, w.loggedOut)) : Listed w w' := by
  simp only [Prod.mk.injEq] at h
  obtain ⟨hcontexts, hselections, hout, hloggedOut⟩ := h
  exact ⟨fun _ hin ↦ Or.inl (hcontexts ▸ hin), fun _ hin ↦ Or.inl (hselections ▸ hin),
    fun _ hin ↦ Or.inl (hout ▸ hin), fun _ hin ↦ Or.inl (hloggedOut ▸ hin)⟩

/-- A step which writes no session, and after which a login stands as before unless all its
sessions are revoked. -/
theorem Consistent.framed (h : w.Consistent) (hframe : SessionFrame w.registry w'.registry)
    (hlogins : w'.logins = w.logins) (horigins : w'.origins = w.origins)
    (hstands : ∀ {a l}, w.logins.lookup a = some l → w.Stands a l →
      w'.Stands a l ∨ Closed w'.registry a l.userId)
    (hlisted : Listed w w') : w'.Consistent := by
  have hknown : ∀ {context}, w.Known context → w'.Known context :=
    fun hk ↦ hk.congr fun hl ↦ hlogins ▸ hl
  refine ⟨fun ha ↦ ?_, fun {a s'} hs' ↦ ?_, fun {id s'} hs' hopen ↦ ?_, fun context hin ↦ ?_,
    fun s hin ↦ ?_, fun context hin ↦ ?_, fun a hin ↦ ?_⟩
  · rw [hlogins] at ha
    exact hframe.rows.mpr (h.rows ha)
  · obtain ⟨s, hs, huser, hrevoked⟩ := hframe.accountSessions hs'
    obtain ⟨l, hl, hluser, hlive⟩ := h.issued hs
    refine ⟨l, hlogins ▸ hl, hluser.trans huser.symm, fun hopen ↦ ?_⟩
    have hnone : s.revokedAt = none := by
      refine Option.not_isSome_iff_eq_none.mp fun hr ↦ ?_
      have := hrevoked hr
      rw [hopen] at this
      cases this
    rcases hstands hl (hlive hnone) with hlive | hclosed
    · exact hlive
    · have := hclosed.account hs'
      rw [hopen] at this
      cases this
  · obtain ⟨s, hs, hid, hversion, hrevoked⟩ := hframe.sessions hs'
    have hnone : s.revokedAt = none := by
      refine Option.not_isSome_iff_eq_none.mp fun hr ↦ ?_
      have := hrevoked hr
      rw [hopen] at this
      cases this
    obtain ⟨m, hm, hle, hbacked⟩ := h.sessions hs hnone
    obtain ⟨m', hm', huser, hle'⟩ := hframe.memberships hm
    refine ⟨m', hid ▸ hm', hversion ▸ hle.trans hle', fun heq ↦ ?_⟩
    rw [hversion] at heq
    obtain ⟨a, l, ha, hl, hluser, hlive⟩ := hbacked (le_antisymm hle (heq ▸ hle'))
    refine ⟨a, l, horigins ▸ ha, hlogins ▸ hl, hluser.trans huser.symm, ?_⟩
    rcases hstands hl hlive with hlive | hclosed
    · exact hlive
    · have := hclosed.tenant hs' (hid ▸ hm') (huser.trans hluser.symm)
      rw [hopen] at this
      cases this
  · rcases hlisted.contexts context hin with hold | hnew
    · exact hknown (h.contexts context hold)
    · exact hnew
  · rcases hlisted.selections s hin with hold | hnew
    · obtain ⟨hcontext, m, hm, huser, hle⟩ := h.selections s hold
      obtain ⟨m', hm', huser', hle'⟩ := hframe.memberships hm
      exact ⟨hknown hcontext, m', hm', huser'.trans huser, hle.trans hle'⟩
    · exact hnew
  · rcases hlisted.loggingOut context hin with hold | hnew
    · obtain ⟨hcontext, hrevoked⟩ := h.loggingOut context hold
      refine ⟨hknown hcontext, fun hs' ↦ ?_⟩
      obtain ⟨s, hs, -, hkeeps⟩ := hframe.accountSessions hs'
      exact hkeeps (hrevoked hs)
    · exact hnew
  · rcases hlisted.loggedOut a hin with hold | hnew
    · exact hframe.rows.mpr (h.loggedOut a hold)
    · exact hframe.rows.mpr hnew

/-- A step which only changes the registry. -/
theorem Consistent.of_frame (h : w.Consistent) {r : Registry} (hframe : SessionFrame w.registry r) :
    Consistent { w with registry := r } :=
  h.framed hframe rfl rfl (fun _ hs ↦ Or.inl (hs.congr rfl rfl rfl)) (listed_of_eq rfl)

/-- All sessions of the account end, and a login of another account stands as before. -/
theorem Consistent.ended (h : w.Consistent) (userId : Uuid)
    (hframe : SessionFrame w.registry w'.registry)
    (hclosed : ∀ {a}, (∀ s, w.registry.accountSessions.lookup a = some s → s.userId = userId) →
      Closed w'.registry a userId)
    (hstands : ∀ {a l}, l.userId ≠ userId → w.Stands a l → w'.Stands a l)
    (hlogins : w'.logins = w.logins) (horigins : w'.origins = w.origins)
    (hlisted : Listed w w') : w'.Consistent := by
  refine h.framed hframe hlogins horigins (fun {a l} hl hs ↦ ?_) hlisted
  by_cases huser : l.userId = userId
  · refine Or.inr (huser ▸ hclosed fun s hs ↦ ?_)
    obtain ⟨l', hl', hluser, -⟩ := h.issued hs
    obtain rfl : l' = l := Option.some.inj (hl'.symm.trans hl)
    exact hluser.symm.trans huser
  · exact Or.inl (hstands huser hs)

theorem count_of_ne {f : Uuid → ℕ} {userId u : Uuid} (h : u ≠ userId) : count f userId u = f u :=
  if_neg h

theorem Consistent.deleted (h : w.Consistent) (now : Timestamp) (userId : Uuid) :
    Consistent { w with
      registry := w.registry.deletedAccount now userId
      deletions := count w.deletions userId } := by
  refine h.ended userId (sessionFrame_deletedAccount now userId w.registry)
    closed_deletedAccount (fun {a l} hne hs ↦ ⟨hs.password, ?_, hs.loggedIn⟩) rfl rfl
    (listed_of_eq rfl)
  change l.standing ∧ l.deletions = count w.deletions userId l.userId
  rw [count_of_ne hne]
  exact hs.undeleted

theorem Consistent.reset (h : w.Consistent) (now : Timestamp) (userId : Uuid)
    (users : Table Uuid User) :
    Consistent { w with
      registry := revokeAllSessions now userId { w.registry with users := users }
      resets := count w.resets userId } := by
  have husers : SessionFrame w.registry { w.registry with users := users } :=
    sessionFrame_of_eq rfl rfl rfl
  refine h.ended userId (husers.trans (sessionFrame_revokeAllSessions now userId _))
    (fun ha ↦ closed_revokeAllSessions ha)
    (fun {a l} hne hs ↦ ⟨?_, hs.undeleted, hs.loggedIn⟩) rfl rfl (listed_of_eq rfl)
  change l.byPassword → l.resets = count w.resets userId l.userId
  rw [count_of_ne hne]
  exact hs.password

theorem Consistent.logoutBegun (h : w.Consistent) {context : PlatformContext}
    (hin : context ∈ w.contexts) (now : Timestamp) :
    Consistent { w with
      registry := Registry.revokeAccountSession now context.sessionId w.registry
      loggingOut := context :: w.loggingOut } := by
  refine h.framed (sessionFrame_revokeAccountSession now context.sessionId w.registry) rfl rfl
    (fun _ hs ↦ Or.inl (hs.congr rfl rfl rfl))
    ⟨fun _ ↦ Or.inl, fun _ ↦ Or.inl, fun context' hin' ↦ ?_, fun _ ↦ Or.inl⟩
  rcases List.mem_cons.mp hin' with rfl | hold
  · exact Or.inr ⟨(h.contexts context' hin).congr id, fun hs ↦
      revoked_of_revokeAccountSessions (p := fun a _ ↦ a = context'.sessionId) hs
        fun _ _ ↦ decide_eq_true rfl⟩
  · exact Or.inl hold

theorem Consistent.logoutEnded (h : w.Consistent) {context : PlatformContext}
    (hin : context ∈ w.loggingOut) (now : Timestamp) :
    Consistent { w with
      registry := Registry.revokeTenantSessions now context.userId w.registry
      loggedOut := context.sessionId :: w.loggedOut } := by
  obtain ⟨⟨l', hl', huser⟩, hrevoked⟩ := h.loggingOut context hin
  refine h.framed (sessionFrame_revokeSessions now _ w.registry) rfl rfl (fun {a l} hl hs ↦ ?_)
    ⟨fun _ ↦ Or.inl, fun _ ↦ Or.inl, fun _ ↦ Or.inl, fun a ha ↦ ?_⟩
  swap
  · refine (List.mem_cons.mp ha).elim (fun heq ↦ Or.inr ?_) Or.inl
    exact heq ▸ h.rows (AList.mem_of_lookup hl')
  by_cases ha : a = context.sessionId
  · subst ha
    obtain rfl : l' = l := Option.some.inj (hl'.symm.trans hl)
    exact Or.inr ⟨fun hs ↦ hrevoked hs, fun hs hm hmuser ↦
      revoked_of_revokeTenantSessions hs hm (hmuser.trans huser)⟩
  · exact Or.inl ⟨hs.password, hs.undeleted, fun hmem ↦ hs.loggedIn (List.mem_of_ne_of_mem ha hmem)⟩

theorem Consistent.casLogout (h : w.Consistent) (now : Timestamp) (digest : String) :
    Consistent { w with
      registry := (Registry.revokeCasServiceTicketSession now digest w.registry).2
      loggedOut := (w.ticketSession digest).toList ++ w.loggedOut } := by
  unfold Registry.revokeCasServiceTicketSession ticketSession
  cases w.registry.serviceTickets.lookup digest with
  | none => exact h.of_frame (.refl _)
  | some mapping =>
      set erased : Registry :=
        { w.registry with serviceTickets := w.registry.serviceTickets.erase digest }
      have hframe : SessionFrame w.registry erased := sessionFrame_of_eq rfl rfl rfl
      dsimp only
      cases haccount : erased.accountSessions.lookup mapping.accountSessionId with
      | none =>
          have hmem : mapping.accountSessionId ∉ w.registry.accountSessions :=
            AList.lookup_eq_none.mp haccount
          rw [Option.map_some, Option.filter_some, if_neg (by simpa using hmem)]
          exact h.of_frame hframe
      | some account =>
          have hmem : mapping.accountSessionId ∈ w.registry.accountSessions :=
            AList.mem_of_lookup haccount
          rw [Option.map_some, Option.filter_some, if_pos (by simpa using hmem)]
          refine h.framed ((hframe.trans (sessionFrame_revokeAccountSessions now _ erased)).trans
            (sessionFrame_revokeSessions now _ _)) rfl rfl (fun {a l} hl hs ↦ ?_)
            ⟨fun _ ↦ Or.inl, fun _ ↦ Or.inl, fun _ ↦ Or.inl, fun a ha ↦ ?_⟩
          · by_cases ha : a = mapping.accountSessionId
            · subst ha
              obtain ⟨l', hl', huser, -⟩ := h.issued haccount
              obtain rfl : l' = l := Option.some.inj (hl'.symm.trans hl)
              refine Or.inr ⟨fun hs ↦ ?_, fun hs hm hmuser ↦ ?_⟩
              · exact revoked_of_revokeAccountSessions
                  (p := fun id _ ↦ id = mapping.accountSessionId) hs fun _ _ ↦ decide_eq_true rfl
              · exact revoked_of_revokeTenantSessions hs hm (hmuser.trans huser)
            · refine Or.inl ⟨hs.password, hs.undeleted, fun hin ↦ ?_⟩
              exact hs.loggedIn (List.mem_of_ne_of_mem ha hin)
          · exact (List.mem_cons.mp ha).elim (fun heq ↦ Or.inr (heq ▸ hmem)) Or.inl

theorem Consistent.presented (h : w.Consistent) {now : Timestamp} {digest : String}
    {context : PlatformContext}
    (hcontext : Registry.resolveAccountSession now digest w.registry = some context) :
    Consistent { w with contexts := context :: w.contexts } := by
  refine h.framed (.refl _) rfl rfl (fun _ hs ↦ Or.inl (hs.congr rfl rfl rfl))
    ⟨fun context' hin ↦ ?_, fun _ ↦ Or.inl, fun _ ↦ Or.inl, fun _ ↦ Or.inl⟩
  rcases List.mem_cons.mp hin with rfl | hold
  · obtain ⟨⟨a, s⟩, hfirst, hs⟩ := Option.bind_eq_some_iff.mp hcontext
    dsimp only at hs
    split at hs
    · cases hs
      obtain ⟨l, hl, huser, -⟩ := h.issued (AList.lookup_of_selectFirst hfirst).1
      exact Or.inr ⟨l, hl, huser⟩
    · cases hs
  · exact Or.inl hold

theorem Consistent.membershipRead (h : w.Consistent) {context : PlatformContext}
    (hin : context ∈ w.contexts) {now : Timestamp} {tenantId membershipId : Uuid} {m : Membership}
    (hm : w.registry.selectableMembership now context.userId tenantId = some (membershipId, m)) :
    Consistent { w with selections := ⟨context, membershipId, m⟩ :: w.selections } := by
  refine h.framed (.refl _) rfl rfl (fun _ hs ↦ Or.inl (hs.congr rfl rfl rfl))
    ⟨fun _ ↦ Or.inl, fun s hs ↦ ?_, fun _ ↦ Or.inl, fun _ ↦ Or.inl⟩
  rcases List.mem_cons.mp hs with rfl | hold
  · obtain ⟨hlookup, hselected⟩ := AList.lookup_of_selectFirst hm
    simp only [Bool.and_eq_true, decide_eq_true_eq] at hselected
    exact Or.inr ⟨(h.contexts context hin).congr id, m, hlookup, hselected.1.1.1.1, le_rfl⟩
  · exact Or.inl hold

/-- An account session is written for a login which stands. -/
theorem Consistent.loggedIn (h : w.Consistent) {login : PendingLogin} {token : SessionToken}
    {r : Registry} (hactive : w.accountActive login.userId)
    (hpassword : login.byPassword → login.resets = w.resets login.userId)
    (hr : Registry.createAccountSession token login.userId login.ticket w.registry = .ok r) :
    Consistent { w with registry := r, logins := w.logins.insert token.id (w.loginOf login) } := by
  obtain ⟨hfresh, haccounts, hsessions, hmemberships, -⟩ := createAccountSession_ok hr
  have hlogin : ∀ {a l}, w.logins.lookup a = some l →
      (w.logins.insert token.id (w.loginOf login)).lookup a = some l := by
    intro a l hl
    have hne : a ≠ token.id := fun heq ↦ hfresh (heq ▸ h.rows (AList.mem_of_lookup hl))
    exact (AList.lookup_insert_ne hne).trans hl
  refine ⟨fun {a} ha ↦ ?_, fun {a s} hs ↦ ?_, fun {id s} hs hopen ↦ ?_,
    fun context hin ↦ (h.contexts context hin).congr hlogin, fun s hin ↦ ?_, fun context hin ↦ ?_,
    fun a hin ↦ ?_⟩
  · change a ∈ r.accountSessions
    rw [haccounts, AList.mem_insert']
    exact (AList.mem_insert'.mp ha).imp_right h.rows
  · change r.accountSessions.lookup a = some s at hs
    rw [haccounts, AList.lookup_insert'] at hs
    split at hs
    · rename_i heq
      subst heq
      obtain rfl := Option.some.inj hs
      exact ⟨w.loginOf login, AList.lookup_insert _, rfl, fun _ ↦ ⟨hpassword, ⟨hactive, rfl⟩,
        fun hin ↦ hfresh (h.loggedOut _ hin)⟩⟩
    · obtain ⟨l, hl, huser, hlive⟩ := h.issued hs
      exact ⟨l, hlogin hl, huser, fun hopen ↦ (hlive hopen).congr rfl rfl rfl⟩
  · change r.sessions.lookup id = some s at hs
    rw [hsessions] at hs
    obtain ⟨m, hm, hle, hbacked⟩ := h.sessions hs hopen
    refine ⟨m, ?_, hle, fun heq ↦ ?_⟩
    · change r.memberships.lookup _ = _
      rw [hmemberships, hm]
    · obtain ⟨a, l, ha, hl, huser, hlive⟩ := hbacked heq
      exact ⟨a, l, ha, hlogin hl, huser, hlive.congr rfl rfl rfl⟩
  · obtain ⟨hcontext, m, hm, huser, hle⟩ := h.selections s hin
    refine ⟨hcontext.congr hlogin, m, ?_, huser, hle⟩
    change r.memberships.lookup _ = _
    rw [hmemberships, hm]
  · obtain ⟨hcontext, hrevoked⟩ := h.loggingOut context hin
    refine ⟨hcontext.congr hlogin, fun {s} hs ↦ ?_⟩
    obtain ⟨l, hl, -⟩ := hcontext
    have hne : context.sessionId ≠ token.id :=
      fun heq ↦ hfresh (heq ▸ h.rows (AList.mem_of_lookup hl))
    change r.accountSessions.lookup _ = some s at hs
    rw [haccounts, AList.lookup_insert_ne hne] at hs
    exact hrevoked hs
  · change a ∈ r.accountSessions
    rw [haccounts, AList.mem_insert']
    exact Or.inr (h.loggedOut a hin)

/-- A tenant session which can be accepted is obtained through a login which stands. -/
theorem Consistent.tenantSelected (h : w.Consistent) {selection : Selection} {token : SessionToken}
    {r : Registry} (hin : selection ∈ w.selections)
    (htimely : w.isCurrent selection → w.Lives selection.context.sessionId)
    (hr : Registry.insertTenantSession token selection.membershipId selection.membership
      w.registry = .ok r) :
    Consistent { w with
      registry := r
      origins := w.origins.insert token.id selection.context.sessionId } := by
  obtain ⟨hfresh, rfl⟩ := insertTenantSession_ok hr
  refine ⟨h.rows, fun hs ↦ ?_, fun {id s} hs hopen ↦ ?_,
    fun context hin ↦ (h.contexts context hin).congr id, fun s hin ↦ ?_, fun context hin ↦ ?_,
    h.loggedOut⟩
  · obtain ⟨l, hl, huser, hlive⟩ := h.issued hs
    exact ⟨l, hl, huser, fun hopen ↦ (hlive hopen).congr rfl rfl rfl⟩
  · change (w.registry.sessions.insert token.id _).lookup id = some s at hs
    rw [AList.lookup_insert'] at hs
    split at hs
    · rename_i heq
      subst heq
      obtain rfl := Option.some.inj hs
      obtain ⟨-, m, hm, huser, hle⟩ := h.selections selection hin
      refine ⟨m, hm, hle, fun heq ↦ ?_⟩
      have hcurrent : w.isCurrent selection := by
        rw [isCurrent, hm, Option.any_some]
        exact decide_eq_true heq.symm
      obtain ⟨l, hl, hlive⟩ := htimely hcurrent
      obtain ⟨l', hl', hluser⟩ := (h.selections selection hin).known
      obtain rfl : l' = l := Option.some.inj (hl'.symm.trans hl)
      exact ⟨_, l', AList.lookup_insert _, hl, hluser.trans huser.symm, hlive.congr rfl rfl rfl⟩
    · rename_i hne
      obtain ⟨m, hm, hle, hbacked⟩ := h.sessions hs hopen
      refine ⟨m, hm, hle, fun heq ↦ ?_⟩
      obtain ⟨a, l, ha, hl, huser, hlive⟩ := hbacked heq
      exact ⟨a, l, (AList.lookup_insert_ne hne).trans ha, hl, huser, hlive.congr rfl rfl rfl⟩
  · obtain ⟨hcontext, hmembership⟩ := h.selections s hin
    exact ⟨hcontext.congr id, hmembership⟩
  · obtain ⟨hcontext, hrevoked⟩ := h.loggingOut context hin
    exact ⟨hcontext.congr id, hrevoked⟩

theorem Consistent.step (h : w.Consistent) (htimely : w.Timely c)
    (hexec : exec text verify c w = .ok w') : w'.Consistent := by
  cases c with
  | authenticate identifier password =>
      rw [exec] at hexec
      split at hexec
      · simp at hexec
      · cases hexec
        exact h.framed (.refl _) rfl rfl (fun _ hs ↦ Or.inl (hs.congr rfl rfl rfl))
          (listed_of_eq rfl)
  | resolveExternal ids passwordHash issuer identity ticket =>
      obtain ⟨⟨answer, r⟩, hresolve, hr⟩ := Except.bind_eq_ok.mp hexec
      cases hr
      exact h.framed (plain_resolveExternal hresolve).sessionFrame rfl rfl
        (fun _ hs ↦ Or.inl (hs.congr rfl rfl rfl)) (listed_of_eq rfl)
  | createAccountSession login token =>
      rw [exec] at hexec
      split at hexec
      · cases hexec
      · obtain ⟨r, hcreate, hr⟩ := Except.bind_eq_ok.mp hexec
        cases hr
        exact h.loggedIn htimely.1 htimely.2 hcreate
  | resolveAccountSession now digest =>
      rw [exec] at hexec
      split at hexec
      · simp at hexec
      · rename_i context hcontext
        cases hexec
        exact h.presented hcontext
  | readMembership context now tenantId =>
      rw [exec] at hexec
      split at hexec
      · cases hexec
      · rename_i hin
        split at hexec
        · simp at hexec
        · rename_i membershipId m hm
          cases hexec
          exact h.membershipRead (not_not.mp hin) hm
  | insertTenantSession selection token =>
      rw [exec] at hexec
      split at hexec
      · cases hexec
      · rename_i hin
        obtain ⟨r, hinsert, hr⟩ := Except.bind_eq_ok.mp hexec
        cases hr
        exact h.tenantSelected (not_not.mp hin) htimely hinsert
  | revokeAccountSession context now =>
      rw [exec] at hexec
      split at hexec
      · cases hexec
      · rename_i hin
        cases hexec
        exact h.logoutBegun (not_not.mp hin) now
  | revokeTenantSessions context now =>
      rw [exec] at hexec
      split at hexec
      · cases hexec
      · rename_i hin
        cases hexec
        exact h.logoutEnded (not_not.mp hin) now
  | revokeCasServiceTicketSession now digest =>
      cases hexec
      exact h.casLogout now digest
  | deletePlatformAccount now userId =>
      rw [exec, Registry.deletePlatformAccount] at hexec
      split at hexec
      · rename_i hdelete
        split at hdelete
        · cases hdelete
        · split_ifs at hdelete
          · cases hdelete
          · cases hdelete
            cases hexec
            exact h.deleted now userId
      · rename_i hdelete
        split at hdelete
        · cases hdelete
          cases hexec
          exact h
        · split_ifs at hdelete
          · cases hdelete
            cases hexec
            exact h
          · cases hdelete
  | restorePlatformAccount userId =>
      obtain ⟨⟨found, r⟩, hrestore, hr⟩ := Except.bind_eq_ok.mp hexec
      cases hr
      exact h.of_frame (sessionFrame_restorePlatformAccount hrestore)
  | resetPlatformAccountPassword now userId passwordHash =>
      rw [exec, Registry.resetPlatformAccountPassword] at hexec
      split at hexec
      · rename_i hreset
        split at hreset
        · cases hreset
        · split_ifs at hreset
          · cases hreset
          · cases hreset
            cases hexec
            exact h.reset now userId _
      · rename_i hreset
        split at hreset
        · cases hreset
          cases hexec
          exact h
        · split_ifs at hreset
          · cases hreset
            cases hexec
            exact h
          · cases hreset
  | other c =>
      rw [exec] at hexec
      split at hexec
      · cases hexec
      · rename_i haccount
        obtain ⟨r, hc, hr⟩ := Except.bind_eq_ok.mp hexec
        cases hr
        exact h.of_frame (sessionFrame_of_exec haccount hc)

/-! ## Runs -/

/-- Nobody has a session yet. -/
def Empty (r : Registry) : Prop :=
  r.accountSessions = ∅ ∧ r.sessions = ∅

theorem consistent_start {r : Registry} (h : Empty r) : (start r).Consistent := by
  obtain ⟨haccounts, hsessions⟩ := h
  refine ⟨fun ha ↦ absurd ha (AList.notMem_empty _), fun {a s} hs ↦ ?_, fun {id s} hs ↦ ?_,
    fun _ hin ↦ absurd hin List.not_mem_nil, fun _ hin ↦ absurd hin List.not_mem_nil,
    fun _ hin ↦ absurd hin List.not_mem_nil, fun _ hin ↦ absurd hin List.not_mem_nil⟩
  · change r.accountSessions.lookup a = some s at hs
    rw [haccounts, AList.lookup_empty] at hs
    cases hs
  · change r.sessions.lookup id = some s at hs
    rw [hsessions, AList.lookup_empty] at hs
    cases hs

/-- In a run which writes sessions in time, no session is accepted in any state after its login
was ended by a password reset, a deletion or a logout. -/
theorem no_session_survives {r : Registry} (h : Empty r) {cs : List LoginCmd}
    (hmeets : Meets (exec text verify) Timely (start r) cs) (pre post : List LoginCmd)
    (hsplit : cs = pre ++ post) : (run (exec text verify) (start r) pre).NoneSurvives := by
  have hpre := ((meets_append _).mp (hsplit ▸ hmeets)).1
  have hconsistent := run_invariant (I := Consistent)
    (fun _ _ _ hw htimely hexec ↦ hw.step htimely hexec) (consistent_start h) hpre
  exact hconsistent.noneSurvives

namespace Sample

/-- An account whose password is `old`. -/
def staff : Registry :=
  { Registry.empty with
    users := (∅ : Table Uuid User).insert 20
      ⟨"sue@example.com", "sue@example.com", some "s1", some "s1", "Sue", .active, some "old"⟩ }

def verified : PendingLogin := ⟨20, none, 0⟩

def login : List LoginCmd :=
  [.authenticate "sue@example.com" "old", .createAccountSession verified ⟨500, "token", 100⟩]

/-- The password is reset between the verification and the account session. -/
def overtaken : List LoginCmd :=
  [.authenticate "sue@example.com" "old", .resetPlatformAccountPassword 1 20 "new",
    .createAccountSession verified ⟨500, "token", 100⟩]

theorem empty_staff : Empty staff := ⟨rfl, rfl⟩

end Sample

theorem no_session_survives_sample : (run (exec ⟨id, id⟩ fun password hash ↦ password = hash)
    (start Sample.staff)
    (Sample.login ++ [.resetPlatformAccountPassword 1 20 "new"])).NoneSurvives := by
  have hmeets : Meets (exec ⟨id, id⟩ fun password hash ↦ password = hash) Timely
      (start Sample.staff) (Sample.login ++ [.resetPlatformAccountPassword 1 20 "new"]) :=
    ⟨trivial, ⟨by decide, fun _ ↦ rfl⟩, trivial, trivial⟩
  exact no_session_survives Sample.empty_staff hmeets _ [] (List.append_nil _).symm

/-- The login with the old password is accepted after the reset. -/
theorem old_password_session_accepted :
    ¬ ∀ (text : CaseMaps) (verify : String → String → Bool) (r : Registry), Empty r →
      ∀ cs, (run (exec text verify) (start r) cs).NoneSurvives := by
  intro h
  have haccepted := (h ⟨id, id⟩ (fun password hash ↦ password = hash) Sample.staff
    Sample.empty_staff Sample.overtaken 5 "token").1 ⟨20, 500, []⟩ (by decide)
  obtain ⟨l, hl, hstands⟩ := haccepted
  obtain rfl : l = ⟨20, true, 0, 0, true⟩ := Option.some.inj (hl.symm.trans (by decide))
  exact absurd (hstands.password rfl) (by decide)

end SessionWorld

end S3mp
