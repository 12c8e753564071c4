import S3mp.Accounts.Registry
import S3mp.Platform.Baseline
import S3mp.Storage.Checksum

/-!
# Accounts and their sessions

The account transactions of `platform/infrastructure/repository.py` with the
service calls which normalise their arguments.  `lower` and `casefold` of
Python's strings are parameters; a password is kept as a salted hash which only
`verify` can compare.
-/

namespace S3mp.Registry

open Relational Platform
open Directory (UserStatus MembershipStatus)

/-- `str.lower` and `str.casefold`. -/
structure CaseMaps where
  lower : String → String
  casefold : String → String

def strip (s : String) : String :=
  String.ofList (Storage.strip s.toList)

/-! ## Lookups -/

/-- The active account an identifier names: an address if it has an `@`, else a number. -/
def findByIdentifier (identifier : String) (r : Registry) : Option (Uuid × User) :=
  r.users.selectFirst fun _ u ↦
    (if '@' ∈ identifier.toList then u.normalizedEmail = identifier
      else u.normalizedEmployeeNumber = some identifier) && u.status = .active

def activeByEmployeeNumber (normalized : String) (r : Registry) : Option Uuid :=
  (r.users.selectFirst fun _ u ↦
    u.normalizedEmployeeNumber = some normalized && u.status = .active).map Prod.fst

def activeByEmail (normalized : String) (r : Registry) : Option Uuid :=
  (r.users.selectFirst fun _ u ↦
    u.normalizedEmail = normalized && u.status = .active).map Prod.fst

/-- `create_member` asks for the address alone. -/
def anyByEmail (normalized : String) (r : Registry) : Option Uuid :=
  (r.users.selectFirst fun _ u ↦ u.normalizedEmail = normalized).map Prod.fst

section Text

variable (text : CaseMaps)

/-- `authenticate`, for a login within its rate limit. -/
def authenticate (verify : String → String → Bool) (identifier password : String) (r : Registry) :
    Option Uuid :=
  (r.findByIdentifier (text.casefold (strip identifier))).bind fun (userId, u) ↦
    if u.passwordHash.any (verify password) then some userId else none

/-- What the session service says about a CAS user. -/
structure CasIdentity where
  subject : String
  employeeNumber : Option String
  email : Option String
  displayName : Option String
  deriving DecidableEq, Repr

/-- The employee number decides before the address does. -/
def externalUser (identity : CasIdentity) (r : Registry) : Option Uuid :=
  ((truthy identity.employeeNumber).bind fun n ↦ r.activeByEmployeeNumber (text.casefold n)) <|>
    (truthy identity.email).bind fun e ↦ r.activeByEmail (text.casefold e)

/-- The account `create_account` and the other paths insert. -/
def newUser (email normalizedEmail : String)
    (employeeNumber normalizedEmployeeNumber : Option String) (displayName : String)
    (passwordHash : Option String) : User where
  email := email
  normalizedEmail := normalizedEmail
  employeeNumber := employeeNumber
  normalizedEmployeeNumber := normalizedEmployeeNumber
  displayName := displayName
  status := .active
  passwordHash := passwordHash

/-- The full match of `[a-z0-9][a-z0-9._-]{1,63}`. -/
def employeeNumberFormat (s : String) : Bool :=
  match s.toList with
  | [] => false
  | c :: cs => alphanumeric c && 1 ≤ cs.length && cs.length ≤ 63 &&
      cs.all fun c ↦ alphanumeric c || c ∈ ['.', '_', '-']
where
  alphanumeric (c : Char) : Bool := ('a' ≤ c && c ≤ 'z') || ('0' ≤ c && c ≤ '9')

/-! ## Registration, import, provisioning -/

def createAccount (id : Uuid) (u : User) (r : Registry) : Tx Registry :=
  match insertUser id u r with
  | .error (.integrity _) => raise "account_already_exists" "Account identity already exists" 409
  | result => result

def register (id : Uuid) (email employeeNumber displayName passwordHash : String) (r : Registry) :
    Tx Registry :=
  let normalizedEmail := text.casefold (strip email)
  let normalizedEmployeeNumber := text.casefold (strip employeeNumber)
  if !employeeNumberFormat normalizedEmployeeNumber then
    raise "validation_failed" "Employee number format is invalid" 422
  else if strip displayName = "" then
    raise "validation_failed" "Display name must not be blank" 422
  else createAccount id (newUser (strip email) normalizedEmail (some (strip employeeNumber))
    (some normalizedEmployeeNumber) (strip displayName) (some passwordHash)) r

/-- A data row of the worksheet which is not blank, the identifier its account would get and the
salted hash of its password. -/
structure ImportRow where
  email : String
  employeeNumber : String
  displayName : String
  password : String
  userId : Uuid
  passwordHash : String
  deriving DecidableEq, Repr

structure ImportCandidate where
  userId : Uuid
  user : User
  deriving DecidableEq, Repr

def importCandidate (row : ImportRow) : ImportCandidate where
  userId := row.userId
  user := newUser (strip row.email) (text.casefold (strip row.email))
    (some (strip row.employeeNumber)) (some (text.casefold (strip row.employeeNumber)))
    (strip row.displayName) (some row.passwordHash)

/-- `_validate_row`. -/
def validRow (row : ImportRow) : Bool :=
  '@' ∈ (strip row.email).toList &&
    employeeNumberFormat (text.casefold (strip row.employeeNumber)) &&
    strip row.displayName ≠ "" && 8 ≤ (strip row.password).length

/-- The valid rows whose address and number occur in no earlier candidate. -/
def parseAccountImport (rows : List ImportRow) : List ImportCandidate :=
  rows.foldl (fun candidates row ↦
    let candidate := importCandidate text row
    if validRow text row && candidates.all fun c ↦
        c.user.normalizedEmail ≠ candidate.user.normalizedEmail &&
          c.user.normalizedEmployeeNumber ≠ candidate.user.normalizedEmployeeNumber then
      candidates ++ [candidate]
    else candidates) []

/-- The account is occupied: some account which is not deleted has its address or its number. -/
def occupied (u : User) (r : Registry) : Bool :=
  r.users.anyRow fun _ v ↦ v.status ≠ .deleted &&
    (v.normalizedEmail = u.normalizedEmail ||
      v.normalizedEmployeeNumber = u.normalizedEmployeeNumber)

/-- Accounts are only created; an occupied candidate is rejected. -/
def importCandidateRow (r : Registry) (candidate : ImportCandidate) : Tx Registry :=
  if r.occupied candidate.user then .ok r else insertUser candidate.userId candidate.user r

def importAccounts (rows : List ImportRow) (r : Registry) : Tx Registry :=
  if 500 < rows.length then
    raise "validation_failed" "Excel file can contain at most 500 data rows" 422
  else (parseAccountImport text rows).foldlM importCandidateRow r

structure ExternalIds where
  userId : Uuid
  linkId : Uuid
  deriving DecidableEq, Repr

def linkExternalIdentity (linkId : Uuid) (issuer subject : String) (userId : Uuid)
    (r : Registry) : Tx (Option Uuid × Registry) := do
  let externalIdentities ← insertRow "external_identity_pkey" linkId ⟨userId, issuer, subject⟩
    r.externalIdentities
  return (some userId, { r with externalIdentities := externalIdentities })

/-- The link decides; without one the account is looked up, and without one it is created. -/
def resolveOrLinkExternalIdentity (ids : ExternalIds) (passwordHash issuer : String)
    (identity : CasIdentity) (r : Registry) : Tx (Option Uuid × Registry) :=
  match r.externalIdentities.selectFirst fun _ l ↦
      l.issuer = issuer && l.subject = identity.subject with
  | some (_, link) =>
    .ok (if (r.users.lookup link.userId).any (·.status = .active) then some link.userId else none,
      r)
  | none =>
    match externalUser text identity r with
    | some userId => linkExternalIdentity ids.linkId issuer identity.subject userId r
    | none =>
      match truthy identity.employeeNumber, truthy identity.email, truthy identity.displayName with
      | some n, some e, some name => do
        let r ← insertUser ids.userId
          (newUser e (text.casefold e) (some n) (some (text.casefold n)) name (some passwordHash)) r
        linkExternalIdentity ids.linkId issuer identity.subject ids.userId r
      | _, _, _ => .ok (none, r)

/-- `_session_identity` strips what the session service says. -/
def casIdentity (identity : CasIdentity) : CasIdentity where
  subject := strip identity.subject
  employeeNumber := (truthy identity.employeeNumber).map strip
  email := (truthy identity.email).map strip
  displayName := (truthy identity.displayName).map strip

structure BootstrapIds where
  userId : Uuid
  bindingId : Uuid
  deriving DecidableEq, Repr

def platformAdminRole (r : Registry) : Option Uuid :=
  (r.platformRoles.selectFirst fun _ role ↦ role.name = "platform_admin").map Prod.fst

/-- The administrator both bootstrap transactions create. -/
def createPlatformAdmin (ids : BootstrapIds) (email employeeNumber displayName passwordHash : String)
    (r : Registry) : Tx Registry :=
  match r.platformAdminRole with
  | none => .error (.value "platform authorization baseline is not seeded")
  | some roleId => do
    let r ← insertUser ids.userId (newUser email (text.casefold (strip email))
      (some employeeNumber) (some (text.casefold (strip employeeNumber))) displayName
      (some passwordHash)) r
    let platformBindings ← insertRow "platform_role_binding_pkey" ids.bindingId
      ⟨ids.userId, roleId, none, none⟩ r.platformBindings
    return { r with platformBindings := platformBindings, bootstrapped := true }

def createInitialPlatformAdmin (ids : BootstrapIds)
    (email employeeNumber displayName passwordHash : String) (r : Registry) : Tx Registry :=
  if r.bootstrapped then .error (.value "platform administrator already exists")
  else createPlatformAdmin text ids email employeeNumber displayName passwordHash r

def activePlatformAdmin (r : Registry) : Bool :=
  r.platformBindings.anyRow fun _ b ↦ b.revokedAt.isNone &&
    (r.platformRoles.lookup b.roleId).any (·.name = "platform_admin") &&
    (r.users.lookup b.userId).any (·.status = .active)

/-- The start-up bootstrap creates an administrator only when no active one exists. -/
def ensurePlatformAdmin (ids : BootstrapIds)
    (email employeeNumber displayName passwordHash : String) (r : Registry) : Tx Registry :=
  if r.activePlatformAdmin then .ok r
  else createPlatformAdmin text ids email employeeNumber displayName passwordHash r

end Text

/-! ## Account sessions -/

structure PlatformContext where
  userId : Uuid
  sessionId : Uuid
  permissions : List String
  deriving DecidableEq, Repr

/-- `_effective_permissions_in_session`. -/
def platformPermissions (now : Timestamp) (userId : Uuid) (r : Registry) : List String :=
  (r.platformBindings.select fun _ b ↦
    b.userId = userId && b.revokedAt.isNone && b.expiresAt.all (now < ·)).flatMap fun (_, b) ↦
      (r.platformRoles.lookup b.roleId).elim [] (·.permissions)

structure SessionToken where
  id : Uuid
  digest : String
  expiresAt : Timestamp
  deriving DecidableEq, Repr

def createAccountSession (token : SessionToken) (userId : Uuid) (ticket : Option String)
    (r : Registry) : Tx Registry := do
  if userId ∉ r.users then integrityError "account_session_user_id_fkey"
  else if r.accountSessions.anyRow fun _ s ↦ s.tokenDigest = token.digest then
    integrityError "account_session_token_digest_key"
  else
    let accountSessions ← insertRow "account_session_pkey" token.id
      ⟨userId, token.digest, token.expiresAt, none⟩ r.accountSessions
    match ticket with
    | none => return { r with accountSessions := accountSessions }
    | some digest =>
      if digest ∈ r.serviceTickets then integrityError "cas_service_ticket_session_pkey"
      else return { r with
        accountSessions := accountSessions
        serviceTickets := r.serviceTickets.insert digest ⟨token.id, token.expiresAt⟩ }

def resolveAccountSession (now : Timestamp) (digest : String) (r : Registry) :
    Option PlatformContext :=
  (r.accountSessions.selectFirst fun _ s ↦ s.tokenDigest = digest).bind fun (id, s) ↦
    if s.revokedAt.isNone && now < s.expiresAt &&
        (r.users.lookup s.userId).any (·.status = .active) then
      some ⟨s.userId, id, r.platformPermissions now s.userId⟩
    else none

def revokeAccountSessions (now : Timestamp) (p : Uuid → AccountSession → Bool) (r : Registry) :
    Registry :=
  { r with
    accountSessions := r.accountSessions.updateWhere (fun id s ↦ p id s && s.revokedAt.isNone)
      fun s ↦ { s with revokedAt := some now } }

def revokeSessions (now : Timestamp) (p : Session → Bool) (r : Registry) : Registry :=
  { r with
    sessions := r.sessions.updateWhere (fun _ s ↦ p s && s.revokedAt.isNone)
      fun s ↦ { s with revokedAt := some now } }

def revokeAccountSession (now : Timestamp) (sessionId : Uuid) (r : Registry) : Registry :=
  { r with
    serviceTickets := r.serviceTickets.deleteWhere fun _ t ↦ t.accountSessionId = sessionId
    }.revokeAccountSessions now fun id _ ↦ id = sessionId

/-- The membership of the session is one of the account. -/
def Session.ofUser (userId : Uuid) (r : Registry) (s : Session) : Bool :=
  (r.memberships.lookup s.membershipId).any (·.userId = userId)

def revokeTenantSessions (now : Timestamp) (userId : Uuid) (r : Registry) : Registry :=
  r.revokeSessions now (Session.ofUser userId r)

/-- Exactly the account session which the ticket has created, with all tenant sessions of its
account. -/
def revokeCasServiceTicketSession (now : Timestamp) (digest : String) (r : Registry) :
    Bool × Registry :=
  match r.serviceTickets.lookup digest with
  | none => (false, r)
  | some mapping =>
    let r := { r with serviceTickets := r.serviceTickets.erase digest }
    match r.accountSessions.lookup mapping.accountSessionId with
    | none => (false, r)
    | some account =>
      (true, (r.revokeAccountSessions now fun id _ ↦ id = mapping.accountSessionId)
        |>.revokeTenantSessions now account.userId)

/-! ## Tenant sessions -/

def tenantActive (tenantId : Uuid) (r : Registry) : Bool :=
  (r.tenants.lookup tenantId).any (·.status = .active)

/-- The membership `create_tenant_session` reads. -/
def selectableMembership (now : Timestamp) (userId tenantId : Uuid) (r : Registry) :
    Option (Uuid × Membership) :=
  r.memberships.selectFirst fun _ m ↦ m.userId = userId && m.tenantId = tenantId &&
    m.status = .active && r.tenantActive tenantId && m.expiresAt.all (now < ·)

/-- The session is written for the membership as it has been read. -/
def insertTenantSession (token : SessionToken) (membershipId : Uuid) (m : Membership)
    (r : Registry) : Tx Registry := do
  if r.sessions.anyRow fun _ s ↦ s.tokenDigest = token.digest then
    integrityError "auth_session_token_digest_key"
  else
    let sessions ← insertRow "auth_session_pkey" token.id
      ⟨m.tenantId, membershipId, m.principalId, token.digest, m.authorizationVersion,
        token.expiresAt, none⟩ r.sessions
    return { r with sessions := sessions }

/-- The tenant context a session leads to. -/
structure TenantContext where
  tenantId : Uuid
  principalId : Uuid
  membershipId : Uuid
  authorizationVersion : ℕ
  deriving DecidableEq, Repr

def Session.accepted (now : Timestamp) (r : Registry) (s : Session) : Bool :=
  s.revokedAt.isNone && now < s.expiresAt &&
    (r.memberships.lookup s.membershipId).any fun m ↦
      m.tenantId = s.tenantId && m.status = .active && r.tenantActive s.tenantId &&
        m.expiresAt.all (now < ·) && s.authorizationVersion = m.authorizationVersion &&
        (r.principals.lookup s.principalId).any fun p ↦ p.tenantId = s.tenantId && p.enabled

/-- Every refusal of `resolve_session` is the same error for the caller. -/
def resolveSession (now : Timestamp) (digest : String) (r : Registry) :
    Option (Uuid × TenantContext) :=
  (r.sessions.selectFirst fun _ s ↦ s.tokenDigest = digest).bind fun (id, s) ↦
    if s.accepted now r then
      some (id, ⟨s.tenantId, s.principalId, s.membershipId, s.authorizationVersion⟩)
    else none

/-! ## Deletion, restoration, password reset -/

/-- What ends with every session of the account. -/
def revokeAllSessions (now : Timestamp) (userId : Uuid) (r : Registry) : Registry :=
  (r.revokeAccountSessions now fun _ s ↦ s.userId = userId).revokeTenantSessions now userId

def Membership.ended (status : MembershipStatus) (m : Membership) : Membership :=
  { m with status := status, authorizationVersion := m.authorizationVersion + 1 }

/-- The principals the account acts as. -/
def principalOf (userId principalId : Uuid) (r : Registry) : Bool :=
  r.memberships.anyRow fun _ m ↦ m.userId = userId && m.principalId = principalId

def deletedAccount (now : Timestamp) (userId : Uuid) (r : Registry) : Registry :=
  let r := { r with users := r.users.update userId fun u ↦ { u with status := .deleted } }
  let r := r.revokeAllSessions now userId
  { r with
    memberships := r.memberships.updateWhere (fun _ m ↦ m.userId = userId) (Membership.ended .removed)
    platformBindings := r.platformBindings.updateWhere
      (fun _ b ↦ b.userId = userId && b.revokedAt.isNone)
      fun b ↦ { b with revokedAt := some now }
    principals := r.principals.updateWhere (fun id _ ↦ r.principalOf userId id)
      fun p ↦ { p with enabled := false } }

@[simp] theorem deletedAccount_memberships (now : Timestamp) (userId : Uuid) (r : Registry) :
    (r.deletedAccount now userId).memberships =
      r.memberships.updateWhere (fun _ m ↦ m.userId = userId) (Membership.ended .removed) := rfl

def deletePlatformAccount (now : Timestamp) (userId : Uuid) (r : Registry) : Bool × Registry :=
  match r.users.lookup userId with
  | none => (false, r)
  | some u => if u.status = .deleted then (false, r) else (true, r.deletedAccount now userId)

/-- The conflict `restore_platform_account` looks for.  An account without an employee number
conflicts with every other account. -/
def restoreConflict (userId : Uuid) (u : User) (r : Registry) : Bool :=
  r.users.anyRow fun id v ↦ id ≠ userId && v.status ≠ .deleted &&
    (v.normalizedEmail = u.normalizedEmail ||
      u.normalizedEmployeeNumber.all fun n ↦ v.normalizedEmployeeNumber = some n)

def restorePlatformAccount (userId : Uuid) (r : Registry) : Tx (Bool × Registry) :=
  match r.users.lookup userId with
  | none => .ok (false, r)
  | some u =>
    if u.status ≠ .deleted then .ok (false, r)
    else if r.restoreConflict userId u then
      .error (.value "account identity is already used by an active account")
    else .ok (true, { r with users := r.users.update userId fun u ↦ { u with status := .active } })

def resetPlatformAccountPassword (now : Timestamp) (userId : Uuid) (passwordHash : String)
    (r : Registry) : Bool × Registry :=
  match r.users.lookup userId with
  | none => (false, r)
  | some u =>
    if u.status ≠ .active then (false, r)
    else (true, { r with
      users := r.users.update userId fun u ↦ { u with passwordHash := some passwordHash }
      }.revokeAllSessions now userId)

end S3mp.Registry
