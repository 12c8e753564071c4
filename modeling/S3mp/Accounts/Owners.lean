import S3mp.Accounts.Commands

/-!
# Owners of applications

An application whose owners are all gone waits for a takeover.  The transactions
which end a membership, and those of the governance scan, look for another owner
and contain the application when they find none.  They take row locks on what
they write only: what they have read may have changed when they commit.
-/

namespace S3mp

open Relational
open Directory (MembershipStatus ApplicationStatus)

namespace Registry

variable {r r' : Registry} {now σ τ : Timestamp} {tenantId principalId applicationId userId : Uuid}

/-! ## The owners who count -/

/-- The joins of the queries of `recompute_owner_state_for_principal`. -/
def isActiveOwner (now : Timestamp) (tenantId principalId : Uuid) (r : Registry) : Bool :=
  (r.memberships.anyRow fun _ m ↦ m.tenantId = tenantId && m.principalId = principalId &&
    m.status = .active && m.expiresAt.all (now < ·)) &&
    (r.principals.lookup principalId).any fun p ↦ p.tenantId = tenantId && p.enabled

/-- The query for `active_owner` in `recompute_owner_state_for_principal`. -/
def activeOwner (now : Timestamp) (tenantId applicationId : Uuid) (r : Registry) : Bool :=
  r.owners.anyRow fun _ o ↦ o.tenantId = tenantId && o.applicationId = applicationId &&
    r.isActiveOwner now tenantId o.ownerPrincipalId

def ownersOf (tenantId applicationId : Uuid) (r : Registry) : List Uuid :=
  (r.owners.select fun _ o ↦ o.tenantId = tenantId && o.applicationId = applicationId).map
    (·.2.ownerPrincipalId)

def applicationsOf (tenantId principalId : Uuid) (r : Registry) : List Uuid :=
  (r.owners.select fun _ o ↦ o.tenantId = tenantId && o.ownerPrincipalId = principalId).map
    (·.2.applicationId)

def activeApplications (tenantId : Uuid) (r : Registry) : List Uuid :=
  (r.applications.select fun _ a ↦ a.tenantId = tenantId && a.status = .active).map (·.1)

/-! ## What the transactions write -/

/-- `update_member` before it looks at the applications. -/
def memberChanged (now : Timestamp) (tenantId membershipId : Uuid) (status : MembershipStatus)
    (reason : String) (changedBy : Uuid) (r : Registry) : Registry :=
  match r.memberships.lookup membershipId with
  | none => r
  | some row =>
    ((r.withStatus membershipId status).recordStatus
      ⟨tenantId, membershipId, some row.status, status, reason, changedBy⟩).revokeSessions now
        fun s ↦ s.tenantId = tenantId && s.membershipId = membershipId

/-- The updates of applications which are still active. -/
def contain (ids : List Uuid) (r : Registry) : Registry :=
  { r with
    applications := r.applications.updateWhere (fun id a ↦ id ∈ ids && a.status = .active)
      Application.contained }

def Application.activated (a : Application) : Application :=
  { a with status := .active, authorizationVersion := a.authorizationVersion + 1 }

/-- `takeover_app` of an application which waits for it. -/
def takenOver (id tenantId applicationId ownerPrincipalId : Uuid) (r : Registry) : Registry :=
  { r with
    owners := if r.owns tenantId ownerPrincipalId applicationId then r.owners
      else r.owners.insert id ⟨tenantId, applicationId, ownerPrincipalId⟩
    applications := r.applications.updateWhere
      (fun k a ↦ k = applicationId && a.tenantId = tenantId && a.status = .pendingTakeover)
      Application.activated }

/-- `revoke_membership_binding` as far as the application is concerned. -/
def bindingRevoked (tenantId applicationId : Uuid) (r : Registry) : Registry :=
  { r with
    applications := r.applications.updateWhere
      (fun k a ↦ k = applicationId && a.tenantId = tenantId)
      fun a ↦ { a with authorizationVersion := a.authorizationVersion + 1 } }

theorem isActiveOwner_iff : r.isActiveOwner now tenantId principalId ↔
    (∃ k m, r.memberships.lookup k = some m ∧ m.tenantId = tenantId ∧
      m.principalId = principalId ∧ m.status = .active ∧ m.expiresAt.all (now < ·)) ∧
    ∃ p, r.principals.lookup principalId = some p ∧ p.tenantId = tenantId ∧ p.enabled := by
  simp only [isActiveOwner, Bool.and_eq_true, AList.anyRow_eq_true, decide_eq_true_eq, and_assoc,
    Option.any_eq_true]

theorem activeOwner_iff : r.activeOwner now tenantId applicationId ↔
    ∃ id o, r.owners.lookup id = some o ∧ o.tenantId = tenantId ∧
      o.applicationId = applicationId ∧ r.isActiveOwner now tenantId o.ownerPrincipalId := by
  simp only [activeOwner, AList.anyRow_eq_true, Bool.and_eq_true, decide_eq_true_eq, and_assoc]

theorem owns_iff : r.owns tenantId principalId applicationId ↔
    ∃ id o, r.owners.lookup id = some o ∧ o.tenantId = tenantId ∧
      o.applicationId = applicationId ∧ o.ownerPrincipalId = principalId := by
  simp only [owns, AList.anyRow_eq_true, Bool.and_eq_true, decide_eq_true_eq, and_assoc]

theorem activeOwner_iff_owns : r.activeOwner now tenantId applicationId ↔
    ∃ p, r.owns tenantId p applicationId ∧ r.isActiveOwner now tenantId p := by
  rw [activeOwner_iff]
  constructor
  · rintro ⟨id, o, ho, htenant, happlication, hactive⟩
    exact ⟨_, owns_iff.mpr ⟨id, o, ho, htenant, happlication, rfl⟩, hactive⟩
  · rintro ⟨p, howns, hactive⟩
    obtain ⟨id, o, ho, htenant, happlication, rfl⟩ := owns_iff.mp howns
    exact ⟨id, o, ho, htenant, happlication, hactive⟩

theorem mem_applicationsOf :
    applicationId ∈ r.applicationsOf tenantId principalId ↔
      r.owns tenantId principalId applicationId := by
  rw [owns_iff, applicationsOf, List.mem_map]
  constructor
  · rintro ⟨⟨id, o⟩, hrow, rfl⟩
    obtain ⟨hlookup, hselected⟩ := AList.mem_select_iff.mp hrow
    rw [Bool.and_eq_true, decide_eq_true_eq, decide_eq_true_eq] at hselected
    exact ⟨id, o, hlookup, hselected.1, rfl, hselected.2⟩
  · rintro ⟨id, o, hlookup, htenant, rfl, hprincipal⟩
    refine ⟨(id, o), AList.mem_select_iff.mpr ⟨hlookup, ?_⟩, rfl⟩
    rw [Bool.and_eq_true, decide_eq_true_eq, decide_eq_true_eq]
    exact ⟨htenant, hprincipal⟩

theorem mem_ownersOf :
    principalId ∈ r.ownersOf tenantId applicationId ↔
      r.owns tenantId principalId applicationId := by
  rw [owns_iff, ownersOf, List.mem_map]
  constructor
  · rintro ⟨⟨id, o⟩, hrow, rfl⟩
    obtain ⟨hlookup, hselected⟩ := AList.mem_select_iff.mp hrow
    rw [Bool.and_eq_true, decide_eq_true_eq, decide_eq_true_eq] at hselected
    exact ⟨id, o, hlookup, hselected.1, hselected.2, rfl⟩
  · rintro ⟨id, o, hlookup, htenant, happlication, rfl⟩
    refine ⟨(id, o), AList.mem_select_iff.mpr ⟨hlookup, ?_⟩, rfl⟩
    rw [Bool.and_eq_true, decide_eq_true_eq, decide_eq_true_eq]
    exact ⟨htenant, happlication⟩

theorem mem_activeApplications :
    applicationId ∈ r.activeApplications tenantId ↔
      ∃ a, r.applications.lookup applicationId = some a ∧ a.tenantId = tenantId ∧
        a.status = .active := by
  rw [activeApplications, List.mem_map]
  constructor
  · rintro ⟨⟨id, a⟩, hrow, rfl⟩
    obtain ⟨hlookup, hselected⟩ := AList.mem_select_iff.mp hrow
    rw [Bool.and_eq_true, decide_eq_true_eq, decide_eq_true_eq] at hselected
    exact ⟨a, hlookup, hselected⟩
  · rintro ⟨a, hlookup, hselected⟩
    refine ⟨(applicationId, a), AList.mem_select_iff.mpr ⟨hlookup, ?_⟩, rfl⟩
    rw [Bool.and_eq_true, decide_eq_true_eq, decide_eq_true_eq]
    exact hselected

/-- Who is an owner at a later instant has been one before. -/
theorem isActiveOwner_earlier (h : r.isActiveOwner τ tenantId principalId) (hle : σ ≤ τ) :
    r.isActiveOwner σ tenantId principalId := by
  obtain ⟨⟨k, m, hm, htenant, hprincipal, hstatus, hexpires⟩, hp⟩ := isActiveOwner_iff.mp h
  refine isActiveOwner_iff.mpr ⟨⟨k, m, hm, htenant, hprincipal, hstatus, ?_⟩, hp⟩
  rw [Option.all_eq_true] at hexpires ⊢
  intro e he
  have hlater := hexpires e he
  rw [decide_eq_true_eq] at hlater ⊢
  exact hle.trans_lt hlater

theorem activeOwner_earlier (h : r.activeOwner τ tenantId applicationId) (hle : σ ≤ τ) :
    r.activeOwner σ tenantId applicationId := by
  obtain ⟨id, o, ho, htenant, happlication, hactive⟩ := activeOwner_iff.mp h
  exact activeOwner_iff.mpr ⟨id, o, ho, htenant, happlication, isActiveOwner_earlier hactive hle⟩

end Registry

end S3mp
