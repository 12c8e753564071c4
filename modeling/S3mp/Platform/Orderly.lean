import S3mp.Platform.Allocation

/-!
# What open reservations name

A tenant has one total which its life cycle switches, and every reservation still
open which names an application quota names that total as well.  So closing or
settling a reservation moves the room of both.
-/

namespace S3mp

open Relational Governance Files Applications Platform Transition

variable {t t' : Tenant} {db db' : Db} {l l' : Ledger} {quotas quotas' : Table Uuid Quota}

/-- At most one application quota is named, and not without a total. -/
def Shaped (quotas : Table Uuid Quota) (r : QuotaReservation) : Prop :=
  ∀ a q, a ∈ r.quotaIds → quotas.lookup a = some q → q.applicationId.isSome →
    (∀ b q', b ∈ r.quotaIds → quotas.lookup b = some q' → q'.applicationId.isSome → b = a) ∧
    ∃ k total, k ∈ r.quotaIds ∧ quotas.lookup k = some total ∧ total.isTenantTotal ∧
      switchable total

def SingleTotal (quotas : Table Uuid Quota) : Prop :=
  ∀ j k q r, quotas.lookup j = some q → quotas.lookup k = some r → q.isTenantTotal →
    r.isTenantTotal → switchable q → switchable r → j = k

def UsedNonneg (quotas : Table Uuid Quota) : Prop :=
  ∀ k q, quotas.lookup k = some q → 0 ≤ q.usedBytes

/-- An application quota names no storage space. -/
def Plain (quotas : Table Uuid Quota) : Prop :=
  ∀ k q, quotas.lookup k = some q → q.applicationId.isSome → q.storageSpaceId = none

/-- The rows of a reachable tenant. -/
structure Orderly (t : Tenant) : Prop where
  linked : Linked t.db
  kept : WellKept t.quotas
  plain : Plain t.quotas
  used : UsedNonneg t.quotas
  single : SingleTotal t.quotas
  awake : t.status = .active → ∀ k q, t.quotas.lookup k = some q → q.isTenantTotal →
    q.status ≠ .suspended
  shaped : ∀ id r, t.db.ledger.reservations.lookup id = some r → r.status = .reserved →
    Shaped t.quotas r

/-! ## Rows keep their kind -/

/-- A row keeps its owner, and a total whether it can be switched. -/
def SameKind (q q' : Quota) : Prop :=
  q'.applicationId = q.applicationId ∧ q'.isTenantTotal = q.isTenantTotal ∧
    (q.isTenantTotal → switchable q' = switchable q)

def SameKinds (quotas quotas' : Table Uuid Quota) : Prop :=
  ∀ k q, quotas.lookup k = some q → ∃ q', quotas'.lookup k = some q' ∧ SameKind q q'

theorem sameKind_refl (q : Quota) : SameKind q q :=
  ⟨rfl, rfl, fun _ ↦ rfl⟩

theorem sameKinds_of_lookup {g : Uuid → Quota → Quota}
    (hlookup : ∀ k, quotas'.lookup k = (quotas.lookup k).map (g k))
    (hg : ∀ k q, quotas.lookup k = some q → SameKind q (g k q)) : SameKinds quotas quotas' := by
  intro k q hk
  refine ⟨g k q, ?_, hg k q hk⟩
  rw [hlookup, hk, Option.map_some]

theorem sameKinds_update {id : Uuid} {f : Quota → Quota}
    (hf : ∀ q, quotas.lookup id = some q → SameKind q (f q)) :
    SameKinds quotas (quotas.update id f) := by
  refine sameKinds_of_lookup (AList.lookup_updateWhere _ _ _) fun k q hk ↦ ?_
  split
  · rename_i hid
    obtain rfl : k = id := by simpa using hid
    exact hf q hk
  · exact sameKind_refl q

theorem sameKinds_switched {p : Quota → Bool} {status : QuotaStatus}
    (hp : ∀ q, p q → q.isTenantTotal → switchable q ∧ switchable { q with status }) :
    SameKinds quotas (switched p status quotas) := by
  refine sameKinds_of_lookup (lookup_switched p status quotas) fun k q _ ↦ ?_
  split
  · rename_i hsel
    refine ⟨rfl, rfl, fun htotal ↦ ?_⟩
    obtain ⟨hold, hnew⟩ := hp q hsel htotal
    exact hnew.trans hold.symm
  · exact sameKind_refl q

theorem not_total_of_application {q : Quota} (happ : q.applicationId.isSome) :
    ¬ q.isTenantTotal := by
  intro htotal
  rw [applicationId_of_total htotal] at happ
  cases happ

theorem SameTerms.sameKinds (h : SameTerms quotas quotas') : SameKinds quotas quotas' := by
  intro k q hk
  have hterms := h k
  rw [hk, Option.map_some, Option.map_eq_some_iff] at hterms
  obtain ⟨q', hk', heq⟩ := hterms
  obtain ⟨-, hstatus, happ, -⟩ := terms_eq heq
  refine ⟨q', hk', happ, isTenantTotal_congr heq, fun _ ↦ ?_⟩
  rw [switchable, switchable, hstatus]

theorem sameKinds_quotaStep {c : Cmd} (h : QuotaStep db c quotas') :
    SameKinds db.ledger.quotas quotas' := by
  cases h with
  | counted c _ hterms => exact hterms.sameKinds
  | created fresh applicationId limit capacity mode htarget hfresh =>
      intro k q hk
      exact ⟨q, AList.lookup_insert_of_lookup hk hfresh, sameKind_refl q⟩
  | overwritten fresh id applicationId limit capacity htarget =>
      refine sameKinds_update fun q hk ↦ ⟨rfl, rfl, fun htotal ↦ ?_⟩
      obtain ⟨q₀, hq₀, ⟨-, -, hactive⟩ | ⟨happ, hrow⟩⟩ := overwritten_row htarget
      · obtain rfl := Option.some.inj (hk.symm.trans hq₀)
        simp [switchable, relimit, hactive]
      · obtain rfl := Option.some.inj (hk.symm.trans hq₀)
        exact absurd htotal (not_total_of_application (hrow ▸ happ))
  | revoked id q hq hrevocable =>
      refine sameKinds_update fun q₀ hk ↦ ⟨rfl, rfl, fun htotal ↦ ?_⟩
      obtain rfl := Option.some.inj (hk.symm.trans hq)
      simp only [Quota.revocable, Bool.and_eq_true] at hrevocable
      exact absurd htotal (not_total_of_application hrevocable.1.1.2)
  | limited c id limit hlimit => exact sameKinds_update fun q hk ↦ ⟨rfl, rfl, fun _ ↦ rfl⟩
  | suspended applicationId happ htenant =>
      refine sameKinds_switched (p := fun q ↦ q.applicationId = some applicationId &&
        q.status = .active) fun q hp htotal ↦ ?_
      simp only [Bool.and_eq_true, decide_eq_true_eq] at hp
      exact absurd htotal (not_total_of_application (hp.1 ▸ rfl))

theorem sameKinds_move {c : TenantCmd} (h : QuotaMove t t' c) : SameKinds t.quotas t'.quotas := by
  cases h with
  | idle _ _ hledger =>
      have hquotas : t'.quotas = t.quotas := congrArg Ledger.quotas hledger
      rw [hquotas]
      exact fun k q hk ↦ ⟨q, hk, sameKind_refl q⟩
  | stored c _ _ hstep => exact sameKinds_quotaStep hstep
  | appRestored applicationId _ _ _ _ _ hquotas =>
      rw [hquotas]
      refine sameKinds_switched fun q hp htotal ↦ ?_
      simp only [suspendedOf, Bool.and_eq_true, decide_eq_true_eq] at hp
      exact absurd htotal (not_total_of_application (hp.1 ▸ rfl))
  | switched status _ _ hquotas =>
      rw [hquotas]
      refine sameKinds_switched fun q hp _ ↦ ⟨hp, ?_⟩
      cases status <;> rfl
  | deleted _ _ hquotas =>
      rw [hquotas]
      exact sameKinds_switched fun q hp _ ↦ ⟨hp, rfl⟩
  | restored _ _ hquotas =>
      rw [hquotas]
      refine sameKinds_switched fun q hp _ ↦ ⟨?_, rfl⟩
      simp only [decide_eq_true_eq] at hp
      simp [switchable, hp]

/-- A reservation on quotas of the table keeps its shape with the rows' kinds. -/
theorem Shaped.of_sameKinds {r : QuotaReservation} (h : Shaped quotas r)
    (hkinds : SameKinds quotas quotas') (hnamed : ∀ k ∈ r.quotaIds, k ∈ quotas) :
    Shaped quotas' r := by
  have hold : ∀ a q', a ∈ r.quotaIds → quotas'.lookup a = some q' → q'.applicationId.isSome →
      ∃ q, quotas.lookup a = some q ∧ q.applicationId.isSome := by
    intro a q' ha hk happ
    obtain ⟨q, hq⟩ := AList.exists_lookup_of_mem (hnamed a ha)
    obtain ⟨q'', hq'', hsame, -, -⟩ := hkinds a q hq
    obtain rfl := Option.some.inj (hk.symm.trans hq'')
    exact ⟨q, hq, hsame ▸ happ⟩
  intro a q' ha hk happ
  obtain ⟨q, hq, hqapp⟩ := hold a q' ha hk happ
  obtain ⟨hunique, k, total, hmem, htotal, hrow, hswitch⟩ := h a q ha hq hqapp
  refine ⟨fun b r' hb hr' hbapp ↦ ?_, ?_⟩
  · obtain ⟨r₀, hr₀, hr₀app⟩ := hold b r' hb hr' hbapp
    exact hunique b r₀ hb hr₀ hr₀app
  · obtain ⟨total', htotal', -, hsame, hkeeps⟩ := hkinds k total htotal
    exact ⟨k, total', hmem, htotal', hsame ▸ hrow, (hkeeps hrow).trans hswitch⟩

/-! ## Application quotas stay plain -/

theorem Plain.of_lookup {g : Uuid → Quota → Quota} (h : Plain quotas)
    (hlookup : ∀ k, quotas'.lookup k = (quotas.lookup k).map (g k))
    (hg : ∀ k q, (g k q).applicationId = q.applicationId ∧
      (g k q).storageSpaceId = q.storageSpaceId) : Plain quotas' := by
  intro k q' hk happ
  rw [hlookup, Option.map_eq_some_iff] at hk
  obtain ⟨q, hq, rfl⟩ := hk
  obtain ⟨hsame, hspace⟩ := hg k q
  rw [hspace]
  exact h k q hq (hsame ▸ happ)

theorem Plain.updateWhere {p : Uuid → Quota → Bool} {f : Quota → Quota} (h : Plain quotas)
    (hf : ∀ q, (f q).applicationId = q.applicationId ∧ (f q).storageSpaceId = q.storageSpaceId) :
    Plain (quotas.updateWhere p f) := by
  refine h.of_lookup (AList.lookup_updateWhere _ _ _) fun k q ↦ ?_
  split
  · exact hf q
  · exact ⟨rfl, rfl⟩

theorem Plain.quotaStep {c : Cmd} (h : Plain db.ledger.quotas) (hstep : QuotaStep db c quotas') :
    Plain quotas' := by
  cases hstep with
  | counted c _ hterms =>
      intro k q' hk happ
      obtain ⟨q, hq, heq⟩ := hterms.exists_lookup hk
      obtain ⟨-, -, hsame, hspace⟩ := terms_eq heq
      rw [hspace]
      exact h k q hq (hsame ▸ happ)
  | created =>
      intro k q' hk happ
      rw [AList.lookup_insert'] at hk
      split at hk
      · obtain rfl := Option.some.inj hk
        rfl
      · exact h k q' hk happ
  | overwritten | revoked | limited | suspended => exact h.updateWhere fun _ ↦ ⟨rfl, rfl⟩

theorem Plain.move {c : TenantCmd} (h : Plain t.quotas) (hmove : QuotaMove t t' c) :
    Plain t'.quotas := by
  cases hmove with
  | idle _ _ hledger =>
      have hquotas : t'.quotas = t.quotas := congrArg Ledger.quotas hledger
      exact hquotas ▸ h
  | stored c _ _ hstep => exact Plain.quotaStep h hstep
  | appRestored _ _ _ _ _ _ hquotas | switched _ _ _ hquotas | deleted _ _ hquotas
  | restored _ _ hquotas =>
      rw [hquotas]
      exact h.updateWhere fun _ ↦ ⟨rfl, rfl⟩

/-! ## One total -/

theorem totals_of_lookup {g : Uuid → Quota → Quota} (h : SingleTotal quotas)
    (hlookup : ∀ k, quotas'.lookup k = (quotas.lookup k).map (g k))
    (hkinds : SameKinds quotas quotas') : SingleTotal quotas' := by
  have hold : ∀ k q', quotas'.lookup k = some q' → q'.isTenantTotal → switchable q' →
      ∃ q, quotas.lookup k = some q ∧ q.isTenantTotal ∧ switchable q := by
    intro k q' hk htotal hswitch
    obtain ⟨q, hq, rfl⟩ := Option.map_eq_some_iff.mp ((hlookup k).symm.trans hk)
    obtain ⟨q'', hq'', -, hsame, hkeeps⟩ := hkinds k q hq
    obtain rfl := Option.some.inj (hk.symm.trans hq'')
    have hrow : q.isTenantTotal = true := hsame ▸ htotal
    exact ⟨q, hq, hrow, (hkeeps hrow).symm.trans hswitch⟩
  intro j k q r hj hk hq hr hqs hrs
  obtain ⟨q₀, hj₀, hq₀, hqs₀⟩ := hold j q hj hq hqs
  obtain ⟨r₀, hk₀, hr₀, hrs₀⟩ := hold k r hk hr hrs
  exact h j k q₀ r₀ hj₀ hk₀ hq₀ hr₀ hqs₀ hrs₀

theorem SameTerms.lookup_eq (h : SameTerms quotas quotas') (k : Uuid) :
    quotas'.lookup k = (quotas.lookup k).map fun q ↦ (quotas'.lookup k).getD q := by
  have hk := h k
  cases hq : quotas.lookup k with
  | none =>
      rw [hq, Option.map_none, Option.map_eq_none_iff] at hk
      rw [hk, Option.map_none]
  | some q =>
      rw [hq, Option.map_some, Option.map_eq_some_iff] at hk
      obtain ⟨q', hq', -⟩ := hk
      rw [hq', Option.map_some, Option.getD_some]

theorem singleTotal_created {fresh : Uuid} {applicationId : Option Uuid} {limit : ℤ}
    {capacity : Option ℤ} {mode : QuotaAllocationMode} (h : SingleTotal db.ledger.quotas)
    (hawake : ∀ k q, db.ledger.quotas.lookup k = some q → q.isTenantTotal → q.status ≠ .suspended)
    (htarget : createPlatformQuotaTarget applicationId limit capacity db = .ok none) :
    SingleTotal (db.ledger.quotas.insert fresh (newQuota applicationId limit mode)) := by
  have hnone : applicationId = none → ∀ k q, db.ledger.quotas.lookup k = some q →
      q.isTenantTotal → switchable q → False := by
    rintro rfl k q hk htotal hswitch
    have hfirst := AList.selectFirst_eq_none.mp (no_total_of_created htarget) k q hk
    simp only [htotal, Bool.true_and, decide_eq_false_iff_not] at hfirst
    exact (switchable_iff.mp hswitch).elim hfirst (hawake k q hk htotal)
  have hfresh : (newQuota applicationId limit mode).isTenantTotal → applicationId = none :=
    fun htotal ↦ applicationId_of_total htotal
  intro j k q r hj hk hq hr hqs hrs
  rw [AList.lookup_insert'] at hj hk
  split at hj
  · rename_i hjf
    obtain rfl := Option.some.inj hj
    split at hk
    · rename_i hkf
      exact hjf.trans hkf.symm
    · exact (hnone (hfresh hq) k r hk hr hrs).elim
  · split at hk
    · obtain rfl := Option.some.inj hk
      exact (hnone (hfresh hr) j q hj hq hqs).elim
    · exact h j k q r hj hk hq hr hqs hrs

theorem SingleTotal.quotaStep {c : Cmd} (h : SingleTotal db.ledger.quotas)
    (hawake : db.tenantActive = true → ∀ k q, db.ledger.quotas.lookup k = some q →
      q.isTenantTotal → q.status ≠ .suspended)
    (hstep : QuotaStep db c quotas') : SingleTotal quotas' := by
  have hkinds := sameKinds_quotaStep hstep
  cases hstep with
  | counted c _ hterms => exact totals_of_lookup h hterms.lookup_eq hkinds
  | created fresh applicationId limit capacity mode htarget hfresh =>
      exact singleTotal_created h (hawake (tenantActive_of_target htarget)) htarget
  | overwritten | revoked | limited =>
      exact totals_of_lookup h (AList.lookup_updateWhere _ _ _) hkinds
  | suspended => exact totals_of_lookup h (AList.lookup_updateWhere _ _ _) hkinds

theorem SingleTotal.move {c : TenantCmd} (h : SingleTotal t.quotas)
    (hawake : t.status = .active → ∀ k q, t.quotas.lookup k = some q → q.isTenantTotal →
      q.status ≠ .suspended)
    (hmove : QuotaMove t t' c) : SingleTotal t'.quotas := by
  have hkinds := sameKinds_move hmove
  cases hmove with
  | idle _ _ hledger =>
      have hquotas : t'.quotas = t.quotas := congrArg Ledger.quotas hledger
      exact hquotas ▸ h
  | stored c _ _ hstep =>
      refine SingleTotal.quotaStep h (fun hactive ↦ hawake ?_) hstep
      rwa [t.active_iff, decide_eq_true_eq] at hactive
  | appRestored _ _ _ _ _ _ hquotas | switched _ _ _ hquotas | deleted _ _ hquotas
  | restored _ _ hquotas =>
      rw [hquotas] at hkinds ⊢
      exact totals_of_lookup h (lookup_switched _ _ _) hkinds

/-- A row of the table after an administrative step comes from a row of the same status, or is
active, or belongs to an application. -/
theorem awake_quotaStep {c : Cmd} (hstep : QuotaStep db c quotas')
    (h : ∀ k q, db.ledger.quotas.lookup k = some q → q.isTenantTotal → q.status ≠ .suspended) :
    ∀ k q, quotas'.lookup k = some q → q.isTenantTotal → q.status ≠ .suspended := by
  intro k q' hk htotal
  cases hstep with
  | counted c _ hterms =>
      obtain ⟨q, hq, heq⟩ := hterms.exists_lookup hk
      rw [(terms_eq heq).2.1]
      exact h k q hq (isTenantTotal_congr heq ▸ htotal)
  | created =>
      rw [AList.lookup_insert'] at hk
      split at hk
      · obtain rfl := Option.some.inj hk
        exact fun h ↦ by cases h
      · exact h k q' hk htotal
  | overwritten =>
      obtain ⟨q, hq, rfl⟩ := AList.of_lookup_update hk
      split at htotal
      · rename_i hid
        rw [if_pos hid]
        exact fun h ↦ by cases h
      · rename_i hid
        rw [if_neg hid]
        exact h k q hq htotal
  | revoked =>
      obtain ⟨q, hq, rfl⟩ := AList.of_lookup_update hk
      split at htotal
      · rename_i hid
        rw [if_pos hid]
        exact fun h ↦ by cases h
      · rename_i hid
        rw [if_neg hid]
        exact h k q hq htotal
  | limited =>
      obtain ⟨q, hq, rfl⟩ := AList.of_lookup_update hk
      split at htotal
      · rename_i hid
        rw [if_pos hid]
        exact h k q hq htotal
      · rename_i hid
        rw [if_neg hid]
        exact h k q hq htotal
  | suspended applicationId happ htenant =>
      rw [AList.lookup_updateWhere, Option.map_eq_some_iff] at hk
      obtain ⟨q, hq, rfl⟩ := hk
      split at htotal
      · rename_i hsel
        simp only [Bool.and_eq_true, decide_eq_true_eq] at hsel
        exact absurd htotal (not_total_of_application (q := q) (hsel.1 ▸ rfl))
      · rename_i hsel
        rw [if_neg hsel]
        exact h k q hq htotal

theorem awake_move {c : TenantCmd} (hmove : QuotaMove t t' c)
    (h : t.status = .active → ∀ k q, t.quotas.lookup k = some q → q.isTenantTotal →
      q.status ≠ .suspended) (hactive : t'.status = .active) :
    ∀ k q, t'.quotas.lookup k = some q → q.isTenantTotal → q.status ≠ .suspended := by
  cases hmove with
  | idle _ hsame hledger =>
      have hquotas : t'.quotas = t.quotas := congrArg Ledger.quotas hledger
      rw [hquotas]
      exact h (hsame ▸ hactive)
  | stored c hsame _ hstep => exact awake_quotaStep hstep (h (hsame ▸ hactive))
  | appRestored applicationId _ _ _ hbefore _ hquotas =>
      intro k q' hk htotal
      rw [hquotas, lookup_switched, Option.map_eq_some_iff] at hk
      obtain ⟨q, hq, rfl⟩ := hk
      split at htotal
      · rename_i hsel
        rw [if_pos hsel]
        exact fun h ↦ by cases h
      · rename_i hsel
        rw [if_neg hsel]
        exact h hbefore k q hq htotal
  | switched status _ hstatus hquotas =>
      intro k q' hk _
      rw [hquotas, lookup_switched, Option.map_eq_some_iff] at hk
      obtain ⟨q, hq, rfl⟩ := hk
      obtain rfl : status = .active := hstatus.symm.trans hactive
      split
      · exact fun h ↦ by cases h
      · rename_i hsel
        rw [switchable_iff, not_or] at hsel
        exact hsel.2
  | deleted _ hstatus => exact absurd (hstatus.symm.trans hactive) (by decide)
  | restored _ hstatus => exact absurd (hstatus.symm.trans hactive) (by decide)

/-! ## Open reservations -/

/-- What is open after the step was open before. -/
def OpensNone (l l' : Ledger) : Prop :=
  ∀ id r, l'.reservations.lookup id = some r → r.status = .reserved →
    l.reservations.lookup id = some r

theorem OpensNone.trans {l'' : Ledger} (h : OpensNone l l') (h' : OpensNone l' l'') :
    OpensNone l l'' :=
  fun id r hid hopen ↦ h id r (h' id r hid hopen) hopen

theorem opensNone_of_eq (h : l'.reservations = l.reservations) : OpensNone l l' := by
  intro id r hid _
  rwa [h] at hid

/-- The one reservation written is left in another status. -/
theorem opensNone_of_update {id : Uuid} {g : QuotaReservation → QuotaReservation}
    (h : l'.reservations = l.reservations.update id g) (hg : ∀ r, (g r).status ≠ .reserved) :
    OpensNone l l' := by
  intro j r hj hopen
  rw [h] at hj
  obtain ⟨r₀, hr₀, rfl⟩ := AList.of_lookup_update hj
  split at hopen
  · exact absurd hopen (hg r₀)
  · rename_i hne
    rw [if_neg hne, hr₀]

theorem opensNone_closes {now : Timestamp} (h : Closes now l l') : OpensNone l l' := by
  cases h with
  | nothing => exact fun _ _ hid _ ↦ hid
  | closed id r status _ _ hstatus _ =>
      have hres : (l.close Quota.subReserved status now id r).reservations =
          l.reservations.update id fun r ↦ { r with status := status, settledAt := some now } := rfl
      exact opensNone_of_update hres fun _ ↦ hstatus

theorem opensNone_settle {now : Timestamp} {id : Uuid} {r : QuotaReservation} {actual : ℤ} :
    OpensNone l (l.settle now id r actual) := by
  have hres : (l.settle now id r actual).reservations = l.reservations.update id fun r ↦
      { r with actualBytes := some actual, status := .settled, settledAt := some now } := rfl
  exact opensNone_of_update hres fun _ h ↦ by cases h

theorem opensNone_reap {now : Timestamp} {picked : List Uuid} (hdb : Linked db) :
    OpensNone db.ledger (reapOrphanReservations now picked db).ledger :=
  reap_preserves (I := fun s ↦ OpensNone db.ledger s.ledger)
    (fun _ _ _ hI hcloses ↦ hI.trans (opensNone_closes hcloses)) picked hdb
    fun _ _ hid _ ↦ hid

/-- The commands which open a reservation. -/
def Cmd.opens : Cmd → Bool
  | .createUploadIntent .. | .createMultipartIntent .. => true
  | _ => false

theorem opensNone_step {c : Cmd} (hc : c.opens = false) (hdb : Linked db) (h : Step db c db') :
    OpensNone db.ledger db'.ledger := by
  cases h with
  | idle | verified | requeued | sessions | edited | quotaCreated | quotaOverwritten | quotaRevoked
  | platformLimitSet | limitSet => exact fun _ _ hid _ ↦ hid
  | uploadCreated | multipartCreated => cases hc
  | commit now fileId id _ hcommit =>
      cases hcommit with
      | replayed | unreserved => exact fun _ _ hid _ ↦ hid
      | charged => exact opensNone_settle
      | refused => exact opensNone_closes (releaseQuotaReservation_closes now _ _)
  | failed now | expired now => exact opensNone_closes (releaseQuotaReservation_closes now _ _)
  | reaped => exact opensNone_reap hdb
  | deleted | purged => exact opensNone_of_eq reservations_releaseUsage
  | appDeleted applicationId =>
      refine opensNone_of_eq ?_
      unfold Applications.deleteApp
      split
      · rfl
      · split <;> rfl

theorem admission_of_opens {c : Cmd} (hc : c.opens = true) (h : exec c db = .ok db') :
    db' = db ∨ ∃ fresh spaceId n, Admission db.spaces db.ledger fresh spaceId n db'.ledger := by
  obtain ⟨answer, h⟩ := exec_eq_ok.mp h
  cases c with
  | createUploadIntent ids session data =>
      rcases createUploadIntent_reserves h with rfl | ⟨id, hreserve⟩
      · exact Or.inl rfl
      · exact Or.inr ⟨_, _, _, reserveQuota_admission hreserve⟩
  | createMultipartIntent ids session data =>
      rcases createMultipartIntent_reserves h with rfl | ⟨id, hreserve⟩
      · exact Or.inl rfl
      · exact Or.inr ⟨_, _, _, reserveQuota_admission hreserve⟩
  | _ => cases hc

theorem scopedQuota_eq_some {space : StorageSpace} {k : Uuid} {q : Quota}
    (h : reserveQuota.scopedQuota l space = some (k, q)) :
    l.quotas.lookup k = some q ∧ space.applicationId.isSome ∧
      q.applicationId = space.applicationId ∧ q.status = .active := by
  unfold reserveQuota.scopedQuota at h
  split at h
  · cases h
  · rename_i applicationId happ
    obtain ⟨hk, hp⟩ := AList.lookup_of_selectFirst h
    simp only [Bool.and_eq_true, decide_eq_true_eq] at hp
    exact ⟨hk, happ ▸ rfl, hp.1.trans happ.symm, hp.2⟩

/-- A reservation is opened in good shape. -/
theorem shaped_of_admission {spaces : Table Uuid StorageSpace} {fresh spaceId : Uuid} {n : ℤ}
    {r : QuotaReservation} (h : Admission spaces l fresh spaceId n l')
    (hid : l'.reservations.lookup fresh = some r) : Shaped l.quotas r := by
  have hown : ∀ r₀ : QuotaReservation, (l.hold fresh r₀).reservations.lookup fresh = some r →
      r₀ = r := by
    intro r₀ h
    rw [Ledger.hold, AList.lookup_insert] at h
    exact Option.some.inj h
  intro a q ha hq happ
  cases h with
  | application space k tenantId q₀ total hspace hscoped htenant hfits =>
      obtain rfl := hown _ hid
      obtain ⟨hk, hrow, hactive⟩ := lookup_activeTenantQuota htenant
      have hsame : ∀ b q', b ∈ (reserveQuota.newReservation n k (some k) (some tenantId)
          .applicationReserved).quotaIds → l.quotas.lookup b = some q' →
          q'.applicationId.isSome → b = k := by
        intro b q' hb hq' hb'
        rw [mem_quotaIds_newReservation] at hb
        rcases hb with rfl | hb | hb
        · rfl
        · exact (Option.some.inj hb).symm
        · obtain rfl := Option.some.inj hb
          obtain rfl := Option.some.inj (hk.symm.trans hq')
          exact absurd hrow (not_total_of_application hb')
      refine ⟨fun b q' hb hq' hb' ↦ (hsame b q' hb hq' hb').trans (hsame a q ha hq happ).symm,
        tenantId, total, ?_, hk, hrow, switchable_iff.mpr (Or.inl hactive)⟩
      rw [mem_quotaIds_newReservation]
      exact Or.inr (Or.inr rfl)
  | shared space tenantId total hspace hscoped htenant hfits =>
      obtain rfl := hown _ hid
      obtain ⟨hk, hrow, -⟩ := lookup_activeTenantQuota htenant
      rw [mem_quotaIds_newReservation] at ha
      obtain rfl : tenantId = a := by simpa [eq_comm] using ha
      obtain rfl := Option.some.inj (hk.symm.trans hq)
      exact absurd hrow (not_total_of_application happ)
  | legacy k q₀ htenant hk hnone =>
      obtain rfl := hown _ hid
      rw [mem_quotaIds_newReservation] at ha
      obtain rfl : a = k := by simpa using ha
      obtain rfl := Option.some.inj (hk.symm.trans hq)
      rw [hnone] at happ
      cases happ

/-! ## Usage is never negative -/

theorem UsedNonneg.of_lookup {g : Uuid → Quota → Quota} (h : UsedNonneg quotas)
    (hlookup : ∀ k, quotas'.lookup k = (quotas.lookup k).map (g k))
    (hg : ∀ k q, 0 ≤ q.usedBytes → 0 ≤ (g k q).usedBytes) : UsedNonneg quotas' := by
  intro k q' hk
  rw [hlookup, Option.map_eq_some_iff] at hk
  obtain ⟨q, hq, rfl⟩ := hk
  exact hg k q (h k q hq)

theorem UsedNonneg.updateWhere {p : Uuid → Quota → Bool} {f : Quota → Quota}
    (h : UsedNonneg quotas) (hf : ∀ q, 0 ≤ q.usedBytes → 0 ≤ (f q).usedBytes) :
    UsedNonneg (quotas.updateWhere p f) := by
  refine h.of_lookup (AList.lookup_updateWhere _ _ _) fun k q hq ↦ ?_
  split
  · exact hf q hq
  · exact hq

theorem UsedNonneg.closes {now : Timestamp} (h : UsedNonneg l.quotas) (hcloses : Closes now l l') :
    UsedNonneg l'.quotas := by
  cases hcloses with
  | nothing => exact h
  | closed => exact h.updateWhere fun _ hq ↦ hq

theorem UsedNonneg.step {c : Cmd} (h : UsedNonneg db.ledger.quotas) (hdb : Linked db)
    (hstep : Step db c db') : UsedNonneg db'.ledger.quotas := by
  cases hstep with
  | idle | verified | requeued | sessions | edited => exact h
  | uploadCreated ids session data ledger hsession hrecord hheld
  | multipartCreated ids session data ledger hsession hrecord hheld =>
      obtain ⟨-, r, -, -, rfl⟩ := hheld
      exact h.updateWhere fun _ hq ↦ hq
  | commit now fileId id _ hcommit =>
      cases hcommit with
      | replayed | unreserved => exact h
      | charged row =>
          refine h.updateWhere fun q hq ↦ ?_
          exact add_nonneg hq (Int.natCast_nonneg _)
      | refused => exact h.closes (releaseQuotaReservation_closes now _ _)
  | failed now | expired now => exact h.closes (releaseQuotaReservation_closes now _ _)
  | reaped now picked =>
      exact reap_preserves (I := fun s ↦ UsedNonneg s.ledger.quotas)
        (fun _ _ _ hI hcloses ↦ hI.closes hcloses) picked hdb h
  | deleted | purged =>
      refine h.of_lookup lookup_releaseUsage fun k q hq ↦ ?_
      split
      · simp only [Quota.subUsed]
        omega
      · exact hq
  | quotaCreated fresh applicationId limit capacity mode =>
      intro k q hk
      simp only [setQuotas, AList.lookup_insert'] at hk
      split at hk
      · obtain rfl := Option.some.inj hk
        exact le_rfl
      · exact h k q hk
  | quotaOverwritten | quotaRevoked | platformLimitSet | limitSet =>
      exact h.updateWhere fun _ hq ↦ hq
  | appDeleted applicationId =>
      unfold Applications.deleteApp
      split
      · exact h
      split
      · exact h
      · exact h.updateWhere fun _ hq ↦ hq

/-! ## The whole tenant -/

theorem linked_of_frame (hdb : Linked db) (hbalanced : db'.ledger.Balanced)
    (hres : db'.ledger.reservations = db.ledger.reservations)
    (hingestions : db'.ingestions = db.ingestions) (hfiles : ∀ j, j ∈ db.files → j ∈ db'.files) :
    Linked db' := by
  have hopen : ∀ ref, db'.ledger.openReservation ref = db.ledger.openReservation ref := by
    intro ref
    unfold Ledger.openReservation
    rw [hres]
  refine ⟨hbalanced, ?_, ?_, ?_, ?_⟩
  · rw [hingestions, hres]
    exact hdb.reserved
  · rw [hingestions]
    exact hdb.injective
  · rw [hingestions]
    intro i row fileId hi hfile
    exact hfiles fileId (hdb.filed i row fileId hi hfile)
  · rw [hingestions]
    intro i row hi hstatus
    rw [hopen]
    exact hdb.closed i row hi hstatus

theorem balanced_switched {p : Quota → Bool} {status : QuotaStatus} (h : l.Balanced) :
    Ledger.Balanced { l with quotas := switched p status l.quotas } := by
  refine h.effect (.of_lookup rfl (lookup_switched p status l.quotas) fun k q ↦ ?_)
  split <;> rfl

theorem linked_step {c : TenantCmd} (hdb : Linked t.db) (h : TenantStep t t' c) :
    Linked t'.db := by
  cases h with
  | idle _ hsame => rwa [hsame]
  | stored c hstatus h => exact hdb.exec h
  | operated c hother hstatus h hside =>
      exact linked_of_frame hdb (hside.ledger ▸ hdb.balanced) (by rw [hside.ledger])
        hside.ingestions hside.files
  | uploadCreated _ _ _ _ _ _ _ hdb' | multipartCreated _ _ _ _ _ _ _ _ hdb' =>
      rw [hdb']
      exact linked_of_frame hdb hdb.balanced rfl rfl fun _ hj ↦ hj
  | uploadCompleted _ _ _ _ _ _ _ _ _ hdb' | multipartCompleted _ _ _ _ _ _ _ _ hdb' =>
      rw [hdb']
      exact linked_of_frame hdb hdb.balanced rfl rfl fun _ hj ↦ AList.mem_insert'.mpr (Or.inr hj)
  | appRestored _ _ _ _ _ h | switched _ _ _ h | deleted _ h | restored _ h =>
      rw [h.2]
      exact linked_of_frame hdb (balanced_switched hdb.balanced) rfl rfl fun _ hj ↦ hj

theorem usedNonneg_move {c : TenantCmd} (hdb : Linked t.db) (h : UsedNonneg t.quotas)
    (hmove : QuotaMove t t' c) : UsedNonneg t'.quotas := by
  cases hmove with
  | idle _ _ hledger =>
      have hquotas : t'.quotas = t.quotas := congrArg Ledger.quotas hledger
      exact hquotas ▸ h
  | stored c _ hexec _ => exact UsedNonneg.step h hdb (exec_step hexec)
  | appRestored _ _ _ _ _ _ hquotas | switched _ _ _ hquotas | deleted _ _ hquotas
  | restored _ _ hquotas =>
      rw [hquotas]
      exact h.updateWhere fun _ hq ↦ hq

theorem Files.Admission.eq_hold {spaces : Table Uuid StorageSpace} {fresh spaceId : Uuid} {n : ℤ}
    (h : Admission spaces l fresh spaceId n l') : ∃ r, l' = l.hold fresh r := by
  cases h with
  | application | shared | legacy => exact ⟨_, rfl⟩

theorem shaped_exec {c : Cmd} (hdb : Linked db)
    (h : ∀ id r, db.ledger.reservations.lookup id = some r → r.status = .reserved →
      Shaped db.ledger.quotas r)
    (hexec : exec c db = .ok db') (hkinds : SameKinds db.ledger.quotas db'.ledger.quotas) :
    ∀ id r, db'.ledger.reservations.lookup id = some r → r.status = .reserved →
      Shaped db'.ledger.quotas r := by
  have hold : ∀ id r, db.ledger.reservations.lookup id = some r → r.status = .reserved →
      Shaped db'.ledger.quotas r := fun id r hid hopen ↦
    (h id r hid hopen).of_sameKinds hkinds (hdb.balanced.named id r hid)
  intro id r hid hopen
  cases hc : c.opens with
  | false => exact hold id r (opensNone_step hc hdb (exec_step hexec) id r hid hopen) hopen
  | true =>
      rcases admission_of_opens hc hexec with rfl | ⟨fresh, spaceId, n, hadmission⟩
      · exact hold id r hid hopen
      by_cases hfresh : id = fresh
      · subst hfresh
        have hshaped := shaped_of_admission hadmission hid
        refine hshaped.of_sameKinds hkinds fun k hk ↦ ?_
        have hnamed := (hdb.exec hexec).balanced.named id r hid k hk
        obtain ⟨r₀, hledger⟩ := hadmission.eq_hold
        rwa [hledger, Ledger.hold, Ledger.mem_updateQuotas] at hnamed
      · obtain ⟨r₀, hledger⟩ := hadmission.eq_hold
        rw [hledger, Ledger.hold, AList.lookup_insert', if_neg hfresh] at hid
        exact hold id r hid hopen

theorem shaped_move {c : TenantCmd} (ht : Orderly t) (hstep : TenantStep t t' c)
    (hmove : QuotaMove t t' c) : ∀ id r, t'.db.ledger.reservations.lookup id = some r →
      r.status = .reserved → Shaped t'.quotas r := by
  have hkinds := sameKinds_move hmove
  have hsame : t'.db.ledger.reservations = t.db.ledger.reservations → ∀ id r,
      t'.db.ledger.reservations.lookup id = some r → r.status = .reserved →
        Shaped t'.quotas r := by
    intro hres id r hid hopen
    rw [hres] at hid
    exact (ht.shaped id r hid hopen).of_sameKinds hkinds (ht.linked.balanced.named id r hid)
  cases hstep with
  | idle _ heq => exact hsame (heq ▸ rfl)
  | stored c hstatus hexec => exact shaped_exec ht.linked ht.shaped hexec hkinds
  | operated c hother hstatus h hside => exact hsame (by rw [hside.ledger])
  | uploadCreated _ _ _ _ _ _ _ hdb | multipartCreated _ _ _ _ _ _ _ _ hdb
  | uploadCompleted _ _ _ _ _ _ _ _ _ hdb | multipartCompleted _ _ _ _ _ _ _ _ hdb =>
      exact hsame (hdb ▸ rfl)
  | appRestored _ _ _ _ _ h | switched _ _ _ h | deleted _ h | restored _ h =>
      exact hsame (h.2 ▸ rfl)

theorem Orderly.step {c : TenantCmd} (ht : Orderly t) (hc : c.accepted) (h : TenantStep t t' c) :
    Orderly t' := by
  have hmove := tenantStep_quotas h
  exact ⟨linked_step ht.linked h, ht.kept.move hc hmove, ht.plain.move hmove,
    usedNonneg_move ht.linked ht.used hmove,
    ht.single.move ht.awake hmove, fun hactive ↦ awake_move hmove ht.awake hactive,
    shaped_move ht h hmove⟩

/-- A tenant without quotas and uploads. -/
structure Fresh (t : Tenant) : Prop where
  quotas : t.quotas = ∅
  reservations : t.db.ledger.reservations = ∅
  ingestions : t.db.ingestions = ∅

theorem Fresh.orderly (h : Fresh t) : Orderly t := by
  have hnone : ∀ k q, t.quotas.lookup k = some q → False := by
    intro k q hk
    rw [h.quotas] at hk
    cases hk
  have hunreserved : Unreserved t.db := ⟨h.reservations, fun k q hk ↦ (hnone k q hk).elim⟩
  refine ⟨linked_of_unreserved hunreserved h.ingestions, ⟨?_, ?_⟩, ?_, ?_, ?_, ?_, ?_⟩
  · exact fun j k q r hj _ _ _ ↦ (hnone j q hj).elim
  · exact fun k q hk _ ↦ (hnone k q hk).elim
  · exact fun k q hk _ ↦ (hnone k q hk).elim
  · exact fun k q hk ↦ (hnone k q hk).elim
  · exact fun j k q r hj _ _ _ _ _ ↦ (hnone j q hj).elim
  · exact fun _ k q hk _ ↦ (hnone k q hk).elim
  · intro id r hid
    rw [h.reservations] at hid
    cases hid

/-- The total in force is among the quotas which are named with an application. -/
theorem Shaped.total_named {a k : Uuid} {r : QuotaReservation} {q total : Quota}
    (h : Shaped l.quotas r) (hsingle : SingleTotal l.quotas) (ha : a ∈ r.quotaIds)
    (hq : l.quotas.lookup a = some q) (happ : q.applicationId.isSome)
    (htotal : activeTenantQuota l.quotas = some (k, total)) : k ∈ r.quotaIds := by
  obtain ⟨hk, hrow, hactive⟩ := lookup_activeTenantQuota htotal
  obtain ⟨-, j, total', hj, hlookup, hrow', hswitch⟩ := h a q ha hq happ
  have hjk : j = k := hsingle j k total' total hlookup hk hrow' hrow hswitch
    (switchable_iff.mpr (Or.inl hactive))
  exact hjk ▸ hj

/-- What an invariant of the ledger needs of its totals and open reservations. -/
structure WellNamed (l : Ledger) : Prop where
  one : oneActiveTotal l.quotas
  single : SingleTotal l.quotas
  shaped : ∀ id r, l.reservations.lookup id = some r → r.status = .reserved → Shaped l.quotas r

theorem Orderly.wellNamed (ht : Orderly t) : WellNamed t.db.ledger :=
  ⟨t.one_total, ht.single, ht.shaped⟩

theorem WellNamed.closes {now : Timestamp} (h : WellNamed l) (hbalanced : l.Balanced)
    (hcloses : Closes now l l') : WellNamed l' := by
  have hterms : SameTerms l.quotas l'.quotas := by
    cases hcloses with
    | nothing => exact .refl _
    | closed => exact sameTerms_close fun _ _ ↦ rfl
  refine ⟨hterms.oneActiveTotal h.one, totals_of_lookup h.single hterms.lookup_eq hterms.sameKinds,
    fun id r hid hopen ↦ ?_⟩
  have hid := opensNone_closes hcloses id r hid hopen
  exact (h.shaped id r hid hopen).of_sameKinds hterms.sameKinds (hbalanced.named id r hid)

end S3mp
