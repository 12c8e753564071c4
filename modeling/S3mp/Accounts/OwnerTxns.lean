import S3mp.Accounts.Owners

/-!
# Transactions on owners

A transaction runs statement by statement.  A statement sees what is committed
and what its own transaction has written.  Those which end a membership look at
the applications of the member one by one, and what they have read of the others
may have changed when they commit.
-/

namespace S3mp

open Relational Registry
open Directory (MembershipStatus)

inductive OwnerTxn where
  | updateMember (now : Timestamp) (tenantId membershipId : Uuid) (status : MembershipStatus)
      (reason : String) (changedBy : Uuid)
  | deletePlatformAccount (now : Timestamp) (userId : Uuid)
  | takeoverApp (id tenantId applicationId ownerPrincipalId : Uuid)
  | revokeMembershipBinding (tenantId applicationId : Uuid)
  | recompute (tenantId principalId : Uuid)
  /-- What a scan ends with, given the applications it has found owned. -/
  | containUnowned (tenantId : Uuid) (owned : List Uuid)

inductive LockedRow where
  | user (id : Uuid)
  | membership (id : Uuid)
  | principal (id : Uuid)
  | application (id : Uuid)
  deriving DecidableEq, Repr

/-- Where a transaction stands: it has written, it looks at the applications one by one, or it has
found no owner of one and is about to contain it. -/
inductive TxnStage where
  | started
  | checking (unchecked : List Uuid)
  | losing (applicationId : Uuid) (unchecked : List Uuid)

structure OpenTxn where
  txn : OwnerTxn
  stage : TxnStage
  contained : List Uuid
  /-- The scan the transaction belongs to. -/
  scan : Option ℕ

namespace OwnerTxn

/-- The first statements find the row they ask for. -/
def begins (r : Registry) : OwnerTxn → Bool
  | updateMember _ tenantId membershipId _ _ _ =>
      (r.memberships.lookup membershipId).any (·.tenantId = tenantId)
  | deletePlatformAccount _ userId => (r.users.lookup userId).any (·.status ≠ .deleted)
  | takeoverApp _ tenantId applicationId _ =>
      (r.applications.lookup applicationId).any fun a ↦
        a.tenantId = tenantId && a.status = .pendingTakeover
  | revokeMembershipBinding tenantId applicationId =>
      (r.applications.lookup applicationId).any (·.tenantId = tenantId)
  | recompute _ _ => true
  | containUnowned _ _ => false

def firstStage : OwnerTxn → TxnStage
  | updateMember _ _ _ status _ _ => if status = .active then .checking [] else .started
  | recompute _ _ => .started
  | containUnowned _ _ => .started
  | _ => .checking []

/-- What it writes, containment apart. -/
def written (r : Registry) : OwnerTxn → Registry
  | updateMember now tenantId membershipId status reason changedBy =>
      r.memberChanged now tenantId membershipId status reason changedBy
  | deletePlatformAccount now userId => r.deletedAccount now userId
  | takeoverApp id tenantId applicationId ownerPrincipalId =>
      r.takenOver id tenantId applicationId ownerPrincipalId
  | revokeMembershipBinding tenantId applicationId => r.bindingRevoked tenantId applicationId
  | recompute _ _ => r
  | containUnowned _ _ => r

def locks (r : Registry) : OwnerTxn → List LockedRow
  | updateMember _ _ membershipId _ _ _ => [.membership membershipId]
  | deletePlatformAccount _ userId =>
      .user userId :: (r.memberships.select fun _ m ↦ m.userId = userId).flatMap fun (k, m) ↦
        [.membership k, .principal m.principalId]
  | takeoverApp _ _ applicationId _ => [.application applicationId]
  | revokeMembershipBinding _ applicationId => [.application applicationId]
  | recompute _ _ => []
  | containUnowned _ _ => []

/-- The applications it looks at. -/
def applications (r : Registry) : OwnerTxn → List Uuid
  | updateMember _ tenantId membershipId _ _ _ =>
      (r.memberships.lookup membershipId).elim [] fun m ↦
        r.applicationsOf tenantId m.principalId
  | recompute tenantId principalId => r.applicationsOf tenantId principalId
  | containUnowned tenantId owned => (r.activeApplications tenantId).filter (· ∉ owned)
  | _ => []

/-- The query for an active owner finds none. -/
def lost (now : Timestamp) (applicationId : Uuid) (r : Registry) : OwnerTxn → Bool
  | updateMember _ tenantId _ _ _ _ => !r.hasActiveOwner now tenantId applicationId
  | recompute tenantId _ => !r.activeOwner now tenantId applicationId
  | containUnowned _ _ => true
  | _ => false

/-- The tenant whose applications it contains. -/
def contains (a : Registry.Application) : OwnerTxn → Bool
  | updateMember _ tenantId _ _ _ _ => a.tenantId = tenantId
  | recompute tenantId _ => a.tenantId = tenantId
  | containUnowned tenantId _ => a.tenantId = tenantId
  | _ => false

/-- The identifier of a new owner row is new. -/
def insertable (r : Registry) : OwnerTxn → Bool
  | takeoverApp id _ _ _ => id ∉ r.owners
  | _ => true

end OwnerTxn

namespace OpenTxn

/-- The database as the transaction sees it. -/
def view (r : Registry) (x : OpenTxn) : Registry :=
  (x.txn.written r).contain x.contained

def locks (r : Registry) (x : OpenTxn) : List LockedRow :=
  x.txn.locks r ++ x.contained.map LockedRow.application

/-- The update of an application finds it still active. -/
def containable (r : Registry) (applicationId : Uuid) (x : OpenTxn) : Bool :=
  ((x.view r).applications.lookup applicationId).any fun a ↦
    x.txn.contains a && a.status = .active

/-- The row the next statement locks. -/
def nextLock (r : Registry) (x : OpenTxn) : List LockedRow :=
  match x.stage with
  | .losing applicationId _ =>
      if x.containable r applicationId then [.application applicationId] else []
  | _ => []

/-- The next statement before the commit. -/
def next (now : Timestamp) (r : Registry) (x : OpenTxn) : OpenTxn :=
  match x.stage with
  | .started => { x with stage := .checking (x.txn.applications (x.view r)) }
  | .checking [] => x
  | .checking (a :: unchecked) =>
      { x with stage := if x.txn.lost now a (x.view r) then .losing a unchecked
                        else .checking unchecked }
  | .losing a unchecked =>
      { x with
        stage := .checking unchecked
        contained := if x.containable r a then a :: x.contained else x.contained }

def finished (x : OpenTxn) : Bool :=
  match x.stage with
  | .checking [] => true
  | _ => false

end OpenTxn

/-! ## When a commit leaves the owners it should -/

/-- The application has an owner in force who is none of these principals. -/
def OtherOwner (now : Timestamp) (tenantId applicationId : Uuid) (gone : Uuid → Prop)
    (r : Registry) : Prop :=
  ∃ p, ¬ gone p ∧ r.owns tenantId p applicationId ∧ r.isActiveOwner now tenantId p

/-- Every active application which one of the principals owns has another owner in force, except
for those listed. -/
def OthersRemain (now : Timestamp) (gone : Uuid → Prop) (contained : List Uuid) (r : Registry) :
    Prop :=
  ∀ a app, r.applications.lookup a = some app → app.status = .active → a ∉ contained →
    ∀ p, gone p → r.owns app.tenantId p a → OtherOwner now app.tenantId a gone r

/-- The transaction commits while what it leaves alone is still owned. -/
def OpenTxn.Sound (now : Timestamp) (r : Registry) (x : OpenTxn) : Prop :=
  match x.txn with
  | .updateMember _ _ membershipId status _ _ => ∀ m, r.memberships.lookup membershipId = some m →
      if status = .active then
        ∃ p, r.principals.lookup m.principalId = some p ∧ p.tenantId = m.tenantId ∧ p.enabled
      else OthersRemain now (· = m.principalId) x.contained r
  | .deletePlatformAccount _ userId => OthersRemain now (r.principalOf userId ·) x.contained r
  | .takeoverApp _ tenantId _ ownerPrincipalId => r.isActiveOwner now tenantId ownerPrincipalId
  | _ => True

namespace Registry

variable {r : Registry} {now σ : Timestamp} {tenantId p a k u : Uuid} {ids : List Uuid}
  {app : Registry.Application}

theorem active_of_contain (h : (r.contain ids).applications.lookup a = some app)
    (hactive : app.status = .active) : r.applications.lookup a = some app ∧ a ∉ ids := by
  change (r.applications.updateWhere _ _).lookup a = some app at h
  rw [AList.lookup_updateWhere] at h
  obtain ⟨app', happ', heq⟩ := Option.map_eq_some_iff.mp h
  split at heq
  · rw [← heq] at hactive
    cases hactive
  · rename_i hnot
    subst heq
    refine ⟨happ', fun hmem ↦ hnot ?_⟩
    rw [Bool.and_eq_true, decide_eq_true_eq, decide_eq_true_eq]
    exact ⟨hmem, hactive⟩

theorem lookup_memberChanged {j : Uuid} {status : MembershipStatus} {reason : String}
    {changedBy : Uuid} :
    (r.memberChanged now tenantId k status reason changedBy).memberships.lookup j =
      (r.memberships.lookup j).map fun m ↦ if j = k then m.ended status else m := by
  unfold memberChanged
  split
  · rename_i hnone
    by_cases hj : j = k
    · rw [hj, hnone]
      rfl
    · simp only [hj, if_false, Option.map_id']
  · change (r.memberships.update k _).lookup j = _
    rw [AList.lookup_update]
    by_cases hj : j = k
    · rw [if_pos hj, hj]
      simp only [if_true]
    · rw [if_neg hj]
      simp only [hj, if_false, Option.map_id']

theorem memberChanged_rest {status : MembershipStatus} {reason : String} {changedBy : Uuid} :
    (r.memberChanged now tenantId k status reason changedBy).owners = r.owners ∧
      (r.memberChanged now tenantId k status reason changedBy).principals = r.principals ∧
      (r.memberChanged now tenantId k status reason changedBy).applications = r.applications := by
  unfold memberChanged
  split
  · exact ⟨rfl, rfl, rfl⟩
  · exact ⟨rfl, rfl, rfl⟩

theorem isActiveOwner_of {r' : Registry} (h : r.isActiveOwner σ tenantId p)
    (hmembers : ∀ k m, r.memberships.lookup k = some m → m.principalId = p → m.status = .active →
      ∃ m', r'.memberships.lookup k = some m' ∧ m'.tenantId = m.tenantId ∧ m'.principalId = p ∧
        m'.status = .active ∧ m'.expiresAt = m.expiresAt)
    (hprincipal : r'.principals.lookup p = r.principals.lookup p) :
    r'.isActiveOwner σ tenantId p := by
  obtain ⟨⟨k, m, hm, htenant, hp, hstatus, hexpires⟩, hrow⟩ := isActiveOwner_iff.mp h
  obtain ⟨m', hm', htenant', hp', hstatus', hexpires'⟩ := hmembers k m hm hp hstatus
  refine isActiveOwner_iff.mpr ⟨⟨k, m', hm', htenant'.trans htenant, hp', hstatus', ?_⟩, ?_⟩
  · rw [hexpires']
    exact hexpires
  · rw [hprincipal]
    exact hrow

/-- The membership of another principal, or one which becomes active. -/
theorem isActiveOwner_memberChanged {status : MembershipStatus} {reason : String} {changedBy : Uuid}
    (hother : ∀ m, r.memberships.lookup k = some m → m.principalId = p → status = .active)
    (h : r.isActiveOwner σ tenantId p) :
    (r.memberChanged now a k status reason changedBy).isActiveOwner σ tenantId p := by
  refine isActiveOwner_of h (fun j m hm hp hstatus ↦ ?_) (by rw [memberChanged_rest.2.1])
  rw [lookup_memberChanged, hm, Option.map_some]
  by_cases hj : j = k
  · rw [if_pos hj]
    exact ⟨_, rfl, rfl, hp, hother m (hj ▸ hm) hp, rfl⟩
  · rw [if_neg hj]
    exact ⟨_, rfl, rfl, hp, hstatus, rfl⟩

theorem isActiveOwner_deletedAccount (hother : ¬ r.principalOf u p)
    (h : r.isActiveOwner σ tenantId p) : (r.deletedAccount now u).isActiveOwner σ tenantId p := by
  refine isActiveOwner_of h (fun j m hm hp hstatus ↦ ?_) ?_
  · rw [deletedAccount_memberships, AList.lookup_updateWhere, hm, Option.map_some]
    have huser : m.userId ≠ u := by
      intro hu
      refine hother (AList.anyRow_eq_true.mpr ⟨j, m, hm, ?_⟩)
      rw [Bool.and_eq_true, decide_eq_true_eq, decide_eq_true_eq]
      exact ⟨hu, hp⟩
    rw [if_neg (by rwa [decide_eq_true_eq])]
    exact ⟨m, rfl, rfl, hp, hstatus, rfl⟩
  · change (r.principals.updateWhere (fun id _ ↦ r.principalOf u id) _).lookup p = _
    rw [AList.lookup_updateWhere]
    simp only [hother, Bool.false_eq_true, if_false, Option.map_id']

/-- Where others remain, a write which ends only those who are gone leaves an owner. -/
theorem activeOwner_of_othersRemain {r' : Registry} {gone : Uuid → Prop}
    (hothers : OthersRemain now gone ids r) (happ : r.applications.lookup a = some app)
    (hstatus : app.status = .active) (ha : a ∉ ids) (hσ : σ ≤ now) (howners : r'.owners = r.owners)
    (hkeep : ∀ p, ¬ gone p → r.isActiveOwner σ app.tenantId p →
      r'.isActiveOwner σ app.tenantId p)
    (h : r.activeOwner σ app.tenantId a) : r'.activeOwner σ app.tenantId a := by
  have howns : ∀ p, r.owns app.tenantId p a → r'.owns app.tenantId p a := by
    intro p hp
    unfold owns at hp ⊢
    rwa [howners]
  obtain ⟨p, hp, hactive⟩ := activeOwner_iff_owns.mp h
  by_cases hgone : gone p
  · obtain ⟨q, hq, hqowns, hqactive⟩ := hothers a app happ hstatus ha p hgone hp
    exact activeOwner_iff_owns.mpr ⟨q, howns q hqowns, hkeep q hq (isActiveOwner_earlier hqactive hσ)⟩
  · exact activeOwner_iff_owns.mpr ⟨p, howns p hp, hkeep p hgone hactive⟩

theorem owns_takenOver {id owner b q : Uuid} (hid : id ∉ r.owners) (h : r.owns tenantId p a) :
    (r.takenOver id q b owner).owns tenantId p a := by
  obtain ⟨j, o, ho, hrest⟩ := owns_iff.mp h
  refine owns_iff.mpr ⟨j, o, ?_, hrest⟩
  unfold takenOver
  dsimp only
  split
  · exact ho
  · rw [AList.lookup_insert', if_neg ?_]
    · exact ho
    · rintro rfl
      exact hid (AList.mem_of_lookup ho)

theorem owns_takenOver_self {id owner : Uuid} :
    (r.takenOver id tenantId a owner).owns tenantId owner a := by
  by_cases h : r.owns tenantId owner a
  · have howners : (r.takenOver id tenantId a owner).owners = r.owners := if_pos h
    exact owns_iff.mpr (howners ▸ owns_iff.mp h)
  · have howners : (r.takenOver id tenantId a owner).owners =
        r.owners.insert id ⟨tenantId, a, owner⟩ := if_neg h
    refine owns_iff.mpr ⟨id, ⟨tenantId, a, owner⟩, ?_, rfl, rfl, rfl⟩
    rw [howners, AList.lookup_insert]

end Registry

namespace OpenTxn

variable {r : Registry} {x : OpenTxn} {now σ : Timestamp} {a : Uuid} {app : Registry.Application}

theorem view_activeOwner {t : Uuid} :
    (x.view r).activeOwner σ t a = (x.txn.written r).activeOwner σ t a := rfl

/-- The application was active and keeps an owner it had, or it has an owner in force. -/
def Covered (now σ : Timestamp) (r r' : Registry) (a : Uuid) (app : Registry.Application) : Prop :=
  (∃ app₀, r.applications.lookup a = some app₀ ∧ app₀.status = .active ∧
      app₀.tenantId = app.tenantId ∧
      (r.activeOwner σ app.tenantId a → r'.activeOwner σ app.tenantId a)) ∨
    r'.activeOwner now app.tenantId a

theorem covered_takenOver {id t b owner : Uuid} (hid : id ∉ r.owners)
    (howner : r.isActiveOwner now t owner)
    (happ : (r.takenOver id t b owner).applications.lookup a = some app)
    (hactive : app.status = .active) : Covered now σ r (r.takenOver id t b owner) a app := by
  change (r.applications.updateWhere _ _).lookup a = some app at happ
  rw [AList.lookup_updateWhere] at happ
  obtain ⟨app₀, happ₀, heq⟩ := Option.map_eq_some_iff.mp happ
  split at heq
  · rename_i hselected
    rw [Bool.and_eq_true, Bool.and_eq_true, decide_eq_true_eq, decide_eq_true_eq] at hselected
    obtain ⟨⟨rfl, htenant⟩, -⟩ := hselected
    right
    have htenant' : app.tenantId = t := by
      rw [← heq]
      exact htenant
    rw [htenant']
    exact activeOwner_iff_owns.mpr ⟨owner, owns_takenOver_self, howner⟩
  · subst heq
    refine Or.inl ⟨app₀, happ₀, hactive, rfl, fun h ↦ ?_⟩
    obtain ⟨p, hp, hpactive⟩ := activeOwner_iff_owns.mp h
    exact activeOwner_iff_owns.mpr ⟨p, owns_takenOver hid hp, hpactive⟩

theorem covered_bindingRevoked {t b : Uuid}
    (happ : (r.bindingRevoked t b).applications.lookup a = some app)
    (hactive : app.status = .active) : Covered now σ r (r.bindingRevoked t b) a app := by
  change (r.applications.updateWhere _ _).lookup a = some app at happ
  rw [AList.lookup_updateWhere] at happ
  obtain ⟨app₀, happ₀, rfl⟩ := Option.map_eq_some_iff.mp happ
  refine Or.inl ⟨app₀, happ₀, ?_, ?_, id⟩
  · split at hactive
    · exact hactive
    · exact hactive
  · split
    · rfl
    · rfl

/-- What is active when a sound transaction has committed is covered. -/
theorem covered_view (hsound : x.Sound now r) (hinsert : x.txn.insertable r) (hσ : σ ≤ now)
    (happ : (x.view r).applications.lookup a = some app) (hactive : app.status = .active) :
    a ∉ x.contained ∧ Covered now σ r (x.view r) a app := by
  obtain ⟨hwritten, ha⟩ := active_of_contain happ hactive
  refine ⟨ha, ?_⟩
  unfold Sound at hsound
  unfold OpenTxn.view
  change Covered now σ r (x.txn.written r) a app
  revert hsound hinsert hwritten
  cases x.txn with
  | updateMember at' t k status reason changedBy =>
      intro hsound hinsert hwritten
      have happ₀ : r.applications.lookup a = some app := by
        rw [← memberChanged_rest.2.2]
        exact hwritten
      refine Or.inl ⟨app, happ₀, hactive, rfl, fun h ↦ ?_⟩
      cases hm : r.memberships.lookup k with
      | none =>
          obtain ⟨p, hp, hpactive⟩ := activeOwner_iff_owns.mp h
          refine activeOwner_iff_owns.mpr ⟨p, ?_, isActiveOwner_memberChanged ?_ hpactive⟩
          · unfold owns at hp ⊢
            rwa [OwnerTxn.written, memberChanged_rest.1]
          · intro m hm'
            rw [hm] at hm'
            cases hm'
      | some m =>
          have hrow := hsound m hm
          split at hrow
          · rename_i hstatus
            obtain ⟨p, hp, hpactive⟩ := activeOwner_iff_owns.mp h
            refine activeOwner_iff_owns.mpr ⟨p, ?_, isActiveOwner_memberChanged ?_ hpactive⟩
            · unfold owns at hp ⊢
              rwa [OwnerTxn.written, memberChanged_rest.1]
            · exact fun _ _ _ ↦ hstatus
          · refine activeOwner_of_othersRemain hrow happ₀ hactive ha hσ memberChanged_rest.1 ?_ h
            intro p hp hpactive
            refine isActiveOwner_memberChanged (fun m' hm' hprincipal ↦ ?_) hpactive
            rw [hm] at hm'
            obtain rfl := Option.some.inj hm'
            exact absurd hprincipal.symm hp
  | deletePlatformAccount at' u =>
      intro hsound hinsert hwritten
      refine Or.inl ⟨app, hwritten, hactive, rfl, ?_⟩
      exact activeOwner_of_othersRemain hsound hwritten hactive ha hσ rfl fun p hp hpactive ↦
        isActiveOwner_deletedAccount hp hpactive
  | takeoverApp id t b owner =>
      intro hsound hinsert hwritten
      exact covered_takenOver (of_decide_eq_true hinsert) hsound hwritten hactive
  | revokeMembershipBinding t b =>
      intro _ _ hwritten
      exact covered_bindingRevoked hwritten hactive
  | recompute t p =>
      intro _ _ hwritten
      exact Or.inl ⟨app, hwritten, hactive, rfl, id⟩
  | containUnowned t owned =>
      intro _ _ hwritten
      exact Or.inl ⟨app, hwritten, hactive, rfl, id⟩

/-- Owner rows are not deleted. -/
theorem owns_view {t p : Uuid} (hinsert : x.txn.insertable r) (h : r.owns t p a) :
    (x.view r).owns t p a := by
  change (x.txn.written r).owns t p a
  revert hinsert
  cases x.txn with
  | updateMember at' t' k status reason changedBy =>
      intro _
      unfold owns at h ⊢
      rwa [OwnerTxn.written, memberChanged_rest.1]
  | takeoverApp id t' b owner => exact fun hinsert ↦ owns_takenOver (of_decide_eq_true hinsert) h
  | _ => exact fun _ ↦ h

/-- The transaction is still to look at the application, or it contains it. -/
def Handles (r : Registry) (a : Uuid) (x : OpenTxn) : Prop :=
  match x.stage with
  | .started =>
    match x.txn with
    | .recompute t p => r.owns t p a
    | .containUnowned _ owned => a ∉ owned
    | _ => False
  | .checking unchecked => a ∈ unchecked ∨ a ∈ x.contained
  | .losing b unchecked => a = b ∨ a ∈ unchecked ∨ a ∈ x.contained

/-- A transaction of a scan of the tenant. -/
def OfScan (t : Uuid) (x : OpenTxn) : Prop :=
  (∃ p, x.txn = .recompute t p) ∨ ∃ owned, x.txn = .containUnowned t owned

theorem Handles.mono {r' : Registry} (h : x.Handles r a)
    (howns : ∀ t p, r.owns t p a → r'.owns t p a) : x.Handles r' a := by
  obtain ⟨txn, stage, contained, scan⟩ := x
  cases stage with
  | started =>
      cases txn with
      | recompute t p => exact howns t p h
      | _ => exact h
  | checking unchecked => exact h
  | losing b unchecked => exact h

theorem OfScan.written {t : Uuid} (h : x.OfScan t) : x.txn.written r = r := by
  rcases h with ⟨p, h⟩ | ⟨owned, h⟩
  · rw [h]
    rfl
  · rw [h]
    rfl

/-- The application stays handled until an owner in force has been found. -/
theorem Handles.next {t : Uuid} (hscan : x.OfScan t) (h : x.Handles r a)
    (happ : r.applications.lookup a = some app) (hactive : app.status = .active)
    (htenant : app.tenantId = t) :
    (x.next now r).Handles r a ∨ r.activeOwner now t a := by
  by_cases ha : a ∈ x.contained
  · left
    obtain ⟨txn, stage, contained, scan⟩ := x
    cases stage with
    | started => exact Or.inr ha
    | checking unchecked =>
        cases unchecked with
        | nil => exact h
        | cons b unchecked =>
            by_cases hlost : txn.lost now b (OpenTxn.view r ⟨txn, .checking (b :: unchecked),
                contained, scan⟩)
            · simp only [OpenTxn.next, hlost, if_true]
              exact Or.inr (Or.inr ha)
            · simp only [OpenTxn.next, hlost]
              exact Or.inr ha
    | losing b unchecked =>
        refine Or.inr ?_
        simp only [OpenTxn.next]
        split
        · exact List.mem_cons_of_mem b ha
        · exact ha
  · have hview : (x.view r).applications.lookup a = some app := by
      change ((x.txn.written r).applications.updateWhere _ _).lookup a = some app
      rw [hscan.written, AList.lookup_updateWhere, happ, Option.map_some, if_neg]
      rw [Bool.and_eq_true, decide_eq_true_eq]
      exact fun hmem ↦ ha hmem.1
    have howners : ∀ p, (x.view r).owns t p a ↔ r.owns t p a := by
      intro p
      change (x.txn.written r).owns t p a ↔ _
      rw [hscan.written]
    have hfound : (x.view r).activeOwner now t a = r.activeOwner now t a := by
      rw [view_activeOwner, hscan.written]
    obtain ⟨txn, stage, contained, scan⟩ := x
    cases stage with
    | started =>
        refine Or.inl (Or.inl ?_)
        rcases hscan with ⟨p, rfl⟩ | ⟨owned, rfl⟩
        · exact mem_applicationsOf.mpr ((howners p).mpr h)
        · exact List.mem_filter.mpr ⟨mem_activeApplications.mpr ⟨app, hview, htenant, hactive⟩,
            decide_eq_true h⟩
    | checking unchecked =>
        obtain hmem := h.resolve_right ha
        cases unchecked with
        | nil => cases hmem
        | cons b unchecked =>
            by_cases hlost : txn.lost now b (OpenTxn.view r ⟨txn, .checking (b :: unchecked),
                contained, scan⟩)
            · simp only [OpenTxn.next, hlost, if_true]
              exact Or.inl ((List.mem_cons.mp hmem).imp_right Or.inl)
            · simp only [OpenTxn.next, hlost]
              rcases List.mem_cons.mp hmem with rfl | hmem
              · right
                rcases hscan with ⟨p, rfl⟩ | ⟨owned, rfl⟩
                · rw [← hfound]
                  simpa [OwnerTxn.lost] using hlost
                · exact absurd rfl hlost
              · exact Or.inl (Or.inl hmem)
    | losing b unchecked =>
        left
        rcases h with rfl | hmem | hmem
        · right
          have hcontains : txn.contains app := by
            rcases hscan with ⟨p, rfl⟩ | ⟨owned, rfl⟩
            · exact decide_eq_true htenant
            · exact decide_eq_true htenant
          have hcontainable : OpenTxn.containable r a ⟨txn, .losing a unchecked, contained, scan⟩ := by
            rw [containable, hview, Option.any_some, Bool.and_eq_true, decide_eq_true_eq]
            exact ⟨hcontains, hactive⟩
          simp only [OpenTxn.next, hcontainable, if_true]
          exact List.mem_cons_self
        · exact Or.inl hmem
        · exact absurd hmem ha

end OpenTxn

/-! ## A transaction on its own -/

namespace Registry

variable {r : Registry} {now : Timestamp} {tenantId p k : Uuid}

/-- Containment all at once and containment one by one. -/
theorem containOwnerless_eq_contain : r.containOwnerless now tenantId p =
    r.contain ((r.applicationsOf tenantId p).filter fun a ↦
      !r.hasActiveOwner now tenantId a &&
        (r.applications.lookup a).any (·.tenantId = tenantId)) := by
  have hrows : ∀ a app, r.applications.lookup a = some app →
      ((app.tenantId = tenantId && r.owns tenantId p a && !r.hasActiveOwner now tenantId a &&
          app.status = .active) : Bool) =
        (a ∈ (r.applicationsOf tenantId p).filter (fun a ↦ !r.hasActiveOwner now tenantId a &&
          (r.applications.lookup a).any (·.tenantId = tenantId)) && app.status = .active : Bool) := by
    intro a app happ
    refine Bool.eq_iff_iff.mpr ?_
    simp only [Bool.and_eq_true, decide_eq_true_eq, List.mem_filter, mem_applicationsOf, happ,
      Option.any_some]
    tauto
  unfold containOwnerless contain
  congr 1
  apply AList.ext
  apply List.map_congr_left
  rintro ⟨a, app⟩ hmem
  simp only [hrows a app (AList.mem_entries_iff_lookup.mp hmem)]

/-- `update_member`, when nothing else is under way. -/
theorem updateMember_eq {status : MembershipStatus} {reason : String} {changedBy : Uuid}
    {row : Membership} (hrow : r.memberships.lookup k = some row) (htenant : row.tenantId = tenantId) :
    r.updateMember now tenantId k status reason changedBy = (true, if status ≠ .active then
      (r.memberChanged now tenantId k status reason changedBy).containOwnerless now tenantId
        row.principalId else r.memberChanged now tenantId k status reason changedBy) := by
  simp only [updateMember, memberChanged, hrow, htenant, ne_eq, not_true_eq_false, if_false]

end Registry

/-! ## One notion of an active owner -/

namespace Registry

variable {r : Registry}

/-- Active members have an enabled principal, and no two accounts share one. -/
structure Enabled (r : Registry) : Prop where
  principal : ∀ k m, r.memberships.lookup k = some m → m.status = .active →
    ∃ p, r.principals.lookup m.principalId = some p ∧ p.tenantId = m.tenantId ∧ p.enabled
  unique : ∀ k k' m m', r.memberships.lookup k = some m → r.memberships.lookup k' = some m' →
    m.principalId = m'.principalId → m.userId = m'.userId

/-- Memberships and principals as before. -/
theorem Enabled.of_eq {r' : Registry} (h : r.Enabled) (hm : r'.memberships = r.memberships)
    (hp : r'.principals = r.principals) : r'.Enabled :=
  ⟨by rw [hm, hp]; exact h.principal, by rw [hm]; exact h.unique⟩

theorem Enabled.memberChanged (h : r.Enabled) {now : Timestamp} {t k : Uuid}
    {status : MembershipStatus} {reason : String} {changedBy : Uuid}
    (henabled : status = .active → ∀ m, r.memberships.lookup k = some m →
      ∃ p, r.principals.lookup m.principalId = some p ∧ p.tenantId = m.tenantId ∧ p.enabled) :
    (r.memberChanged now t k status reason changedBy).Enabled := by
  have hrow : ∀ {j m'}, (r.memberChanged now t k status reason changedBy).memberships.lookup j =
      some m' → ∃ m, r.memberships.lookup j = some m ∧ m'.principalId = m.principalId ∧
        m'.userId = m.userId ∧ m'.tenantId = m.tenantId ∧
        m'.status = if j = k then status else m.status := by
    intro j m' hm'
    rw [lookup_memberChanged] at hm'
    obtain ⟨m, hm, rfl⟩ := Option.map_eq_some_iff.mp hm'
    by_cases hj : j = k
    · rw [if_pos hj]
      exact ⟨m, hm, rfl, rfl, rfl, (if_pos hj).symm⟩
    · rw [if_neg hj]
      exact ⟨m, hm, rfl, rfl, rfl, (if_neg hj).symm⟩
  refine ⟨fun j m' hm' hstatus ↦ ?_, fun j j' m' n' hm' hn' heq ↦ ?_⟩
  · obtain ⟨m, hm, hprincipal, -, htenant, hstatus'⟩ := hrow hm'
    rw [memberChanged_rest.2.1, hprincipal, htenant]
    rw [hstatus'] at hstatus
    by_cases hj : j = k
    · rw [if_pos hj] at hstatus
      exact henabled hstatus m (hj ▸ hm)
    · rw [if_neg hj] at hstatus
      exact h.principal j m hm hstatus
  · obtain ⟨m, hm, hprincipal, huser, -⟩ := hrow hm'
    obtain ⟨n, hn, hprincipal', huser', -⟩ := hrow hn'
    rw [huser, huser']
    exact h.unique j j' m n hm hn (hprincipal.symm.trans (heq.trans hprincipal'))

theorem Enabled.deletedAccount (h : r.Enabled) {now : Timestamp} {u : Uuid} :
    (r.deletedAccount now u).Enabled := by
  have hrow : ∀ {j m'}, (r.deletedAccount now u).memberships.lookup j = some m' →
      ∃ m, r.memberships.lookup j = some m ∧ m'.principalId = m.principalId ∧
        m'.userId = m.userId ∧ (m'.status = .active → m' = m ∧ m.userId ≠ u) := by
    intro j m' hm'
    rw [deletedAccount_memberships, AList.lookup_updateWhere] at hm'
    obtain ⟨m, hm, rfl⟩ := Option.map_eq_some_iff.mp hm'
    by_cases hu : m.userId = u
    · rw [if_pos (decide_eq_true hu)]
      exact ⟨m, hm, rfl, rfl, fun hactive ↦ (by cases hactive)⟩
    · rw [if_neg (by rwa [decide_eq_true_eq])]
      exact ⟨m, hm, rfl, rfl, fun _ ↦ ⟨rfl, hu⟩⟩
  refine ⟨fun j m' hm' hstatus ↦ ?_, fun j j' m' n' hm' hn' heq ↦ ?_⟩
  · obtain ⟨m, hm, -, -, hactive⟩ := hrow hm'
    obtain ⟨rfl, hu⟩ := hactive hstatus
    obtain ⟨p, hp, hrest⟩ := h.principal j m' hm hstatus
    refine ⟨p, ?_, hrest⟩
    change (r.principals.updateWhere (fun id _ ↦ r.principalOf u id) _).lookup _ = _
    have hother : ¬ r.principalOf u m'.principalId := by
      intro hof
      obtain ⟨k, n, hn, hmatch⟩ := AList.anyRow_eq_true.mp hof
      rw [Bool.and_eq_true, decide_eq_true_eq, decide_eq_true_eq] at hmatch
      exact hu ((h.unique j k m' n hm hn hmatch.2.symm).trans hmatch.1)
    rw [AList.lookup_updateWhere, hp, Option.map_some, if_neg hother]
  · obtain ⟨m, hm, hprincipal, huser, -⟩ := hrow hm'
    obtain ⟨n, hn, hprincipal', huser', -⟩ := hrow hn'
    rw [huser, huser']
    exact h.unique j j' m n hm hn (hprincipal.symm.trans (heq.trans hprincipal'))

end Registry

end S3mp
