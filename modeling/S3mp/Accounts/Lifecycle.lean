import S3mp.Accounts.Growth

/-!
# The life cycle of a membership

A change of status follows an edge of the published catalog, increases the
authorization version and is recorded, so that the recorded changes of a
membership lead from its first status to its current one.  Acceptance does so by
itself; an update does when it asks for an edge; the bulk updates of a deletion
and of a support revocation record nothing.
-/

namespace S3mp.Registry

open Relational Transition
open Directory (MembershipStatus)

variable {text : CaseMaps} {r r' : Registry} {c : RegistryCmd}

/-- The catalog of `metadata/catalog.py`. -/
def membershipTransitions : MembershipStatus → List MembershipStatus
  | .invited => [.active, .removed]
  | .active => [.suspended, .removed]
  | .suspended => [.active, .removed]
  | .removed => []

def statusHistory (k : Uuid) (r : Registry) : List MembershipStatusHistory :=
  r.history.filter (·.membershipId = k)

/-- The recorded changes lead from one status to another without a gap. -/
def FollowsFrom : MembershipStatus → List MembershipStatusHistory → MembershipStatus → Prop
  | s, [], t => s = t
  | s, h :: hs, t => h.fromStatus = some s ∧ FollowsFrom h.toStatus hs t

/-- What happens to a membership on the way from `r` to `r'`. -/
def ProperChange (r r' : Registry) (k : Uuid) (m m' : Membership) : Prop :=
  (m.status ≠ m'.status → m'.status ∈ membershipTransitions m.status ∧
    m.authorizationVersion < m'.authorizationVersion) ∧
  ∃ new, r'.statusHistory k = r.statusHistory k ++ new ∧ FollowsFrom m.status new m'.status

def Proper (r r' : Registry) : Prop :=
  ∀ k m m', r.memberships.lookup k = some m → r'.memberships.lookup k = some m' →
    ProperChange r r' k m m'

/-- Which memberships exist after a step, and where the new ones start. -/
structure Extends (r r' : Registry) : Prop where
  kept : ∀ {k}, k ∈ r.memberships → k ∈ r'.memberships
  created : ∀ {k m}, r'.memberships.lookup k = some m → k ∉ r.memberships →
    m.status ∈ [MembershipStatus.invited, .active]
  recorded : ∀ row ∈ r'.history, row ∈ r.history ∨ row.membershipId ∈ r.memberships

theorem MembersGrow.extends (h : MembersGrow r r') : Extends r r' := by
  refine ⟨fun hk ↦ ?_, h.created, fun row hrow ↦ Or.inl (h.history ▸ hrow)⟩
  obtain ⟨m, hm⟩ := AList.exists_lookup_of_mem hk
  exact AList.mem_of_lookup (h.kept hm)

namespace Sample

def leaving : RegistryCmd := .updateMember 5 1 100 .removed "left" 7

end Sample

end S3mp.Registry
