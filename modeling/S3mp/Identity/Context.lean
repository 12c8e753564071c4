import S3mp.Files.Rows

/-!
# The authenticated principal

The constructor of `PrincipalContext` rejects every combination of fields which
is not that of a member or of an application.  The checks are a field here, so
that a context which exists has passed them.
-/

namespace S3mp.Identity

open Files

structure PrincipalFields where
  principalId : Uuid
  membershipId : Option Uuid
  authorizationVersion : ℕ
  subjectKind : SubjectKind
  applicationId : Option Uuid
  apiKeyId : Option Uuid
  apiKeyScopes : Option (List String)
  apiKeyDirectoryPrefix : Option String
  actorApplicationId : Option Uuid
  actorPrincipalId : Option Uuid
  deriving DecidableEq, Repr

/-- The checks of `__post_init__`; the nil identifier is 0. -/
structure PrincipalFields.WellFormed (p : PrincipalFields) : Prop where
  principal : p.principalId ≠ 0
  member : p.subjectKind = .human → p.membershipId.any (· ≠ 0)
  noMembership : p.subjectKind = .application → p.membershipId = none
  noKey : p.subjectKind = .human → p.applicationId = none ∧ p.apiKeyId = none ∧
    p.apiKeyScopes = none ∧ p.apiKeyDirectoryPrefix = none
  application : p.subjectKind = .application → p.applicationId.isSome
  version : 1 ≤ p.authorizationVersion

theorem PrincipalFields.wellFormed_iff (p : PrincipalFields) :
    p.WellFormed ↔ p.principalId ≠ 0 ∧ (p.subjectKind = .human → p.membershipId.any (· ≠ 0)) ∧
      (p.subjectKind = .application → p.membershipId = none) ∧
      (p.subjectKind = .human → p.applicationId = none ∧ p.apiKeyId = none ∧
        p.apiKeyScopes = none ∧ p.apiKeyDirectoryPrefix = none) ∧
      (p.subjectKind = .application → p.applicationId.isSome) ∧ 1 ≤ p.authorizationVersion :=
  ⟨fun ⟨h₁, h₂, h₃, h₄, h₅, h₆⟩ ↦ ⟨h₁, h₂, h₃, h₄, h₅, h₆⟩,
    fun ⟨h₁, h₂, h₃, h₄, h₅, h₆⟩ ↦ ⟨h₁, h₂, h₃, h₄, h₅, h₆⟩⟩

instance (p : PrincipalFields) : Decidable p.WellFormed :=
  decidable_of_iff _ p.wellFormed_iff.symm

structure PrincipalContext extends PrincipalFields where
  wellFormed : toPrincipalFields.WellFormed

/-- Construction raises a `ValueError` on fields which are not well formed. -/
def PrincipalFields.context (p : PrincipalFields) : Option PrincipalContext :=
  if h : p.WellFormed then some ⟨p, h⟩ else none

/-- `for_application`. -/
def forApplication (principalId : Uuid) (authorizationVersion : ℕ)
    (applicationId apiKeyId : Option Uuid) (apiKeyScopes : Option (List String))
    (apiKeyDirectoryPrefix : Option String) : PrincipalFields where
  principalId := principalId
  membershipId := none
  authorizationVersion := authorizationVersion
  subjectKind := .application
  applicationId := some (applicationId.getD principalId)
  apiKeyId := apiKeyId
  apiKeyScopes := apiKeyScopes
  apiKeyDirectoryPrefix := apiKeyDirectoryPrefix
  actorApplicationId := none
  actorPrincipalId := none

def forMember (principalId membershipId : Uuid) (authorizationVersion : ℕ) : PrincipalFields where
  principalId := principalId
  membershipId := some membershipId
  authorizationVersion := authorizationVersion
  subjectKind := .human
  applicationId := none
  apiKeyId := none
  apiKeyScopes := none
  apiKeyDirectoryPrefix := none
  actorApplicationId := none
  actorPrincipalId := none

end S3mp.Identity
