import S3mp.Authorization.Evaluator
import S3mp.Files.Rows

/-!
# The subject of delayed work

`validate_delayed_subject`: whether the subject an accepted command was
authorized for is still what it was.  The stores it reads are a parameter, so
that the same text runs against tables and against a provider of answers.
-/

namespace S3mp.Files

open Authorization

structure PrincipalState where
  enabled : Bool
  deriving DecidableEq, Repr

structure MembershipState where
  principalId : Uuid
  active : Bool
  authorizationVersion : ℕ
  expiresAt : Option Timestamp
  tenantActive : Bool
  principalEnabled : Bool
  userActive : Bool
  deriving DecidableEq, Repr

structure KeyState where
  active : Bool
  expiresAt : Option Timestamp
  scopes : List String
  directoryPrefix : Option String
  applicationId : Uuid
  applicationActive : Bool
  applicationAuthorizationVersion : ℕ
  principalId : Uuid
  principalEnabled : Bool
  deriving DecidableEq, Repr

structure MembershipBinding where
  active : Bool
  membershipId : Uuid
  deriving DecidableEq, Repr

/-- A read of the stores which authorize delayed work. -/
inductive SubjectRead where
  | now
  | getPrincipal (principalId : Uuid)
  | getMembershipState (membershipId : Uuid)
  | getKeyState (keyId : Uuid)
  | getMembershipBinding (applicationId : Uuid)
  | getSpace (spaceId : Uuid)
  | bindingsFor (principalId spaceId : Uuid) (subjectKind : SubjectKind)
  deriving DecidableEq, Repr

abbrev SubjectRead.Value : SubjectRead → Type
  | .now => Timestamp
  | .getPrincipal _ => Option PrincipalState
  | .getMembershipState _ => Option MembershipState
  | .getKeyState _ => Option KeyState
  | .getMembershipBinding _ => Option MembershipBinding
  | .getSpace _ => Option StorageSpace
  | .bindingsFor .. => List Binding

/-- What the `authorization_evidence` of an accepted command says of its subject. -/
structure SubjectEvidence where
  subjectKind : SubjectKind
  applicationId : Option Uuid
  apiKeyId : Option Uuid
  apiKeyDirectoryPrefix : Option String
  deriving DecidableEq, Repr

def AuthorizationEvidence.subject (e : AuthorizationEvidence) : SubjectEvidence where
  subjectKind := e.subjectKind
  applicationId := e.applicationId
  apiKeyId := e.apiKeyId
  apiKeyDirectoryPrefix := e.apiKeyDirectoryPrefix

def OperationEvidence.subject (e : OperationEvidence) : SubjectEvidence where
  subjectKind := e.subjectKind
  applicationId := e.applicationId
  apiKeyId := e.apiKeyId
  apiKeyDirectoryPrefix := e.apiKeyDirectoryPrefix

structure DelayedSubject where
  subjectKind : SubjectKind
  apiKeyScopes : Option (List String)
  apiKeyDirectoryPrefix : Option String
  deriving DecidableEq, Repr

def MembershipState.current (now : Timestamp) (m : MembershipState) : Bool :=
  m.active && m.tenantActive && m.principalEnabled && m.userActive && m.expiresAt.all (now < ·)

/-- The membership the evidence names, at the version of the evidence. -/
def MembershipState.validFor (principalId : Uuid) (authorizationVersion : ℕ) (now : Timestamp)
    (m : MembershipState) : Bool :=
  m.current now && m.principalId = principalId && m.authorizationVersion = authorizationVersion

/-- The key the evidence names.  A later authorization version of its application is accepted. -/
def KeyState.validFor (principalId : Uuid) (authorizationVersion : ℕ) (evidence : SubjectEvidence)
    (now : Timestamp) (k : KeyState) : Bool :=
  k.active && k.applicationActive && k.principalEnabled && k.principalId = principalId &&
    evidence.applicationId = some k.applicationId && k.expiresAt.all (now < ·) &&
    authorizationVersion ≤ k.applicationAuthorizationVersion &&
    k.directoryPrefix = evidence.apiKeyDirectoryPrefix

section

variable {m : Type → Type} [Monad m] (read : (r : SubjectRead) → m r.Value)

def validateMember (principalId : Uuid) (membershipId : Option Uuid) (authorizationVersion : ℕ) :
    m (Option DelayedSubject) := do
  match membershipId with
  | none => return none
  | some membershipId =>
    let membership ← read (.getMembershipState membershipId)
    let now ← read .now
    if membership.any (MembershipState.validFor principalId authorizationVersion now) then
      return some ⟨.human, none, none⟩
    else return none

/-- The application acts through the membership it is bound to, which must be current. -/
def validateRepresentative (applicationId : Uuid) : m Bool := do
  match ← read (.getMembershipBinding applicationId) with
  | none => return false
  | some binding =>
    if !binding.active then return false
    else
      let membership ← read (.getMembershipState binding.membershipId)
      let now ← read .now
      return membership.any (MembershipState.current now)

def validateApplication (principalId : Uuid) (authorizationVersion : ℕ)
    (evidence : SubjectEvidence) (requiredPermission : Option String) :
    m (Option DelayedSubject) := do
  match evidence.apiKeyId with
  | none => return none
  | some keyId =>
    let key ← read (.getKeyState keyId)
    let now ← read .now
    match key.filter (KeyState.validFor principalId authorizationVersion evidence now) with
    | none => return none
    | some key =>
      if requiredPermission.any fun permission ↦ permission ∉ key.scopes then return none
      else if ← validateRepresentative read key.applicationId then
        return some ⟨.application, some key.scopes, key.directoryPrefix⟩
      else return none

def validateDelayedSubject (principalId : Uuid) (membershipId : Option Uuid)
    (authorizationVersion : ℕ) (evidence : SubjectEvidence) (requiredPermission : Option String) :
    m (Option DelayedSubject) := do
  let principal ← read (.getPrincipal principalId)
  if !principal.any (·.enabled) then return none
  else
    match evidence.subjectKind with
    | .human => validateMember read principalId membershipId authorizationVersion
    | .application =>
      validateApplication read principalId authorizationVersion evidence requiredPermission

/-! ## What holds of the validation as of its reads -/

/-- A property of programs which returns have and sequences inherit. -/
structure Closed (Q : {α : Type} → m α → Prop) : Prop where
  pure : ∀ {α : Type} (a : α), Q (pure a)
  bind : ∀ {α β : Type} {x : m α} {k : α → m β}, Q x → (∀ a, Q (k a)) → Q (x >>= k)

variable {read} {Q : {α : Type} → m α → Prop}

theorem validateMember_closed (hQ : Closed (m := m) Q) (hread : ∀ r, Q (read r))
    (principalId : Uuid) (membershipId : Option Uuid) (version : ℕ) :
    Q (validateMember read principalId membershipId version) := by
  unfold validateMember
  split
  · exact hQ.pure _
  · refine hQ.bind (hread _) fun membership ↦ hQ.bind (hread _) fun now ↦ ?_
    split
    · exact hQ.pure _
    · exact hQ.pure _

theorem validateRepresentative_closed (hQ : Closed (m := m) Q) (hread : ∀ r, Q (read r))
    (applicationId : Uuid) : Q (validateRepresentative read applicationId) := by
  unfold validateRepresentative
  refine hQ.bind (hread _) fun binding ↦ ?_
  split
  · exact hQ.pure _
  split
  · exact hQ.pure _
  · exact hQ.bind (hread _) fun membership ↦ hQ.bind (hread _) fun now ↦ hQ.pure _

theorem validateApplication_closed (hQ : Closed (m := m) Q) (hread : ∀ r, Q (read r))
    (principalId : Uuid) (version : ℕ) (evidence : SubjectEvidence)
    (requiredPermission : Option String) :
    Q (validateApplication read principalId version evidence requiredPermission) := by
  unfold validateApplication
  split
  · exact hQ.pure _
  refine hQ.bind (hread _) fun key ↦ hQ.bind (hread _) fun now ↦ ?_
  split
  · exact hQ.pure _
  split
  · exact hQ.pure _
  refine hQ.bind (validateRepresentative_closed hQ hread _) fun current ↦ ?_
  split
  · exact hQ.pure _
  · exact hQ.pure _

theorem validateDelayedSubject_closed (hQ : Closed (m := m) Q) (hread : ∀ r, Q (read r))
    (principalId : Uuid) (membershipId : Option Uuid) (version : ℕ) (evidence : SubjectEvidence)
    (requiredPermission : Option String) :
    Q (validateDelayedSubject read principalId membershipId version evidence
      requiredPermission) := by
  unfold validateDelayedSubject
  refine hQ.bind (hread _) fun principal ↦ ?_
  split
  · exact hQ.pure _
  split
  · exact validateMember_closed hQ hread _ _ _
  · exact validateApplication_closed hQ hread _ _ _ _

end

end S3mp.Files
