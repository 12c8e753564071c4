import S3mp.Platform.Quotas

/-!
# Shares of a tenant total

Each application quota in force has a share of the tenant total, the total has a
size, and the shares are to stay within the size.  What counts as share and as
size is left open: the limits of the rows, or the room they have left.
-/

namespace S3mp

open Relational Governance Files Platform Transition

/-- The share of an application quota, and the size of a total. -/
structure Measure where
  share : Quota → ℤ
  size : Quota → ℤ

/-- Neither depends on the status of the row. -/
structure Measure.Blind (m : Measure) : Prop where
  share : ∀ q status, m.share { q with status } = m.share q
  size : ∀ q status, m.size { q with status } = m.size q

variable {m : Measure} {t t' : Tenant} {quotas quotas' : Table Uuid Quota}

def inForce (q : Quota) : Bool :=
  q.status = .active

/-- In force, for another application. -/
def others (applicationId : Uuid) (q : Quota) : Bool :=
  inForce q && q.applicationId ≠ some applicationId

def grant (m : Measure) (p : Quota → Bool) (q : Quota) : ℤ :=
  if q.applicationId.isSome && p q then m.share q else 0

/-- The shares of the application quotas selected by `p`. -/
def granted (m : Measure) (p : Quota → Bool) (quotas : Table Uuid Quota) : ℤ :=
  quotas.total fun _ q ↦ grant m p q

/-- Were the rows selected by `p` in force, the totals among them would cover the applications. -/
def Covered (m : Measure) (p : Quota → Bool) (quotas : Table Uuid Quota) : Prop :=
  ∀ k q, quotas.lookup k = some q → q.isTenantTotal → p q → granted m p quotas ≤ m.size q

/-- One row for an application, and no application row with a negative limit. -/
structure WellKept (quotas : Table Uuid Quota) : Prop where
  one_row : ∀ j k q r, quotas.lookup j = some q → quotas.lookup k = some r →
    q.applicationId.isSome → q.applicationId = r.applicationId → j = k
  nonneg : ∀ k q, quotas.lookup k = some q → q.applicationId.isSome → 0 ≤ q.limitBytes

/-- The row fits what the others leave: a total covers the applications, an application what
the total in force has beside the others. -/
def Fits (m : Measure) (quotas : Table Uuid Quota) (q : Quota) : Prop :=
  match q.applicationId with
  | none => q.isTenantTotal → granted m inForce quotas ≤ m.size q
  | some applicationId => ∀ k total, activeTenantQuota quotas = some (k, total) →
      granted m (others applicationId) quotas + m.share q ≤ m.size total

/-- The commands which bring rows back into force find them covered. -/
def WakesCovered (m : Measure) (t : Tenant) : TenantCmd → Prop
  | .restoreApp applicationId true => ∀ app, t.status = .active →
      t.db.applications.lookup applicationId = some app → app.status = .deleted →
      Covered m (fun q ↦ inForce q || suspendedOf applicationId q) t.quotas
  | .updateTenant (some .active) => t.status ≠ .deleted →
      oneActiveTotal (switched switchable .active t.quotas) → Covered m switchable t.quotas
  | .restoreTenant => t.status = .deleted →
      oneActiveTotal (switched (·.status = .suspended) .active t.quotas) →
      Covered m switchable t.quotas
  | _ => True

/-! ## Sums of shares -/

theorem applicationId_of_total {q : Quota} (h : q.isTenantTotal) : q.applicationId = none := by
  simp only [Quota.isTenantTotal, Bool.and_eq_true, Option.isNone_iff_eq_none] at h
  exact h.1

/-- Rows of a table which correspond one to one contribute what their counterparts do. -/
theorem granted_of_lookup {p p' : Quota → Bool} {g : Uuid → Quota → Quota}
    (hlookup : ∀ k, quotas'.lookup k = (quotas.lookup k).map (g k))
    (hg : ∀ k q, (g k q).applicationId = q.applicationId ∧ m.share (g k q) = m.share q ∧
      p' (g k q) = p q) : granted m p' quotas' = granted m p quotas := by
  refine AList.total_congr fun k ↦ ?_
  rw [AList.weightAt, AList.weightAt, hlookup]
  cases hq : quotas.lookup k with
  | none => rfl
  | some q =>
      obtain ⟨happ, hshare, hp⟩ := hg k q
      simp only [Option.map_some, grant, happ, hshare, hp]

/-- With one row for the application, its new row adds to what the others have. -/
theorem granted_of_row {applicationId id : Uuid} {q' : Quota}
    (hothers : ∀ j q, j ≠ id → quotas.lookup j = some q → q.applicationId ≠ some applicationId)
    (hrow : ∀ q, quotas.lookup id = some q → q.applicationId = some applicationId)
    (hoff : ∀ j, j ≠ id → quotas'.lookup j = quotas.lookup j) (hnew : quotas'.lookup id = some q')
    (happ : q'.applicationId = some applicationId) (hactive : q'.status = .active) :
    granted m inForce quotas' =
      granted m (others applicationId) quotas + m.share q' := by
  have hold : quotas.weightAt (fun _ ↦ grant m (others applicationId)) id = 0 := by
    unfold AList.weightAt
    cases hq : quotas.lookup id with
    | none => rfl
    | some q => simp [grant, others, hrow q hq]
  have hrow' : grant m inForce q' = m.share q' := by simp [grant, inForce, happ, hactive]
  unfold granted
  rw [AList.total_of_agree_off id (t := quotas) (w := fun _ ↦ grant m (others applicationId)), hold,
    AList.weightAt_of_lookup hnew, hrow', sub_zero]
  intro j hj
  unfold AList.weightAt
  rw [hoff j hj]
  cases hq : quotas.lookup j with
  | none => rfl
  | some q => simp [grant, others, hothers j q hj hq]

/-! ## What keeps the shares covered -/

/-- The sum does not grow, and no total in force gets below it. -/
theorem covered_of_le (hle : granted m inForce quotas' ≤ granted m inForce quotas)
    (hrows : ∀ k q', quotas'.lookup k = some q' → q'.isTenantTotal → inForce q' →
      granted m inForce quotas ≤ m.size q') : Covered m inForce quotas' :=
  fun k q' hk htotal hforce ↦ hle.trans (hrows k q' hk htotal hforce)

theorem weightAt_grant_of_other {p : Quota → Bool} {id : Uuid}
    (h : ∀ q, quotas.lookup id = some q → q.applicationId = none) :
    quotas.weightAt (fun _ ↦ grant m p) id = 0 := by
  unfold AList.weightAt
  cases hq : quotas.lookup id with
  | none => rfl
  | some q => simp [grant, h q hq]

/-- A row which is no application quota does not change the sum. -/
theorem granted_of_other {id : Uuid} {q' : Quota}
    (hold : ∀ q, quotas.lookup id = some q → q.applicationId = none)
    (hoff : ∀ j, j ≠ id → quotas'.lookup j = quotas.lookup j) (hnew : quotas'.lookup id = some q')
    (happ : q'.applicationId = none) : granted m inForce quotas' = granted m inForce quotas := by
  refine AList.total_congr fun k ↦ ?_
  by_cases hk : k = id
  · subst hk
    have hzero := weightAt_grant_of_other (m := m) (p := inForce) hold
    rw [hzero, AList.weightAt_of_lookup hnew]
    simp [grant, happ]
  · rw [AList.weightAt, AList.weightAt, hoff k hk]

/-- A total among such rows has to cover the sum. -/
theorem covered_of_other {id : Uuid} {q' : Quota} (h : Covered m inForce quotas)
    (hold : ∀ q, quotas.lookup id = some q → q.applicationId = none)
    (hoff : ∀ j, j ≠ id → quotas'.lookup j = quotas.lookup j) (hnew : quotas'.lookup id = some q')
    (happ : q'.applicationId = none)
    (hcovers : q'.isTenantTotal → granted m inForce quotas ≤ m.size q') :
    Covered m inForce quotas' := by
  refine covered_of_le (granted_of_other hold hoff hnew happ).le fun k q hk htotal hforce ↦ ?_
  by_cases hid : k = id
  · subst hid
    obtain rfl := Option.some.inj (hnew.symm.trans hk)
    exact hcovers htotal
  · rw [hoff k hid] at hk
    exact h k q hk htotal hforce

/-- The total in force is the one the store looks up. -/
theorem activeTenantQuota_of_total {k : Uuid} {q : Quota} (hone : oneActiveTotal quotas)
    (hk : quotas.lookup k = some q) (htotal : q.isTenantTotal) (hforce : inForce q) :
    activeTenantQuota quotas = some (k, q) := by
  have hrow : q.isTenantTotal && q.status = .active := by
    simpa [inForce] using And.intro htotal hforce
  cases hfirst : activeTenantQuota quotas with
  | none =>
      have hnone := AList.selectFirst_eq_none.mp hfirst k q hk
      rw [hrow] at hnone
      cases hnone
  | some row =>
      obtain ⟨j, r⟩ := row
      obtain ⟨hj, hr⟩ := AList.lookup_of_selectFirst hfirst
      obtain rfl : j = k := oneActiveTotal_iff.mp hone j k r q hj hk hr hrow
      rw [Option.some.inj (hj.symm.trans hk)]

/-- An application quota within what the total in force leaves to it. -/
theorem covered_of_row {applicationId id : Uuid} {q' : Quota} (hone : oneActiveTotal quotas)
    (hothers : ∀ j q, j ≠ id → quotas.lookup j = some q → q.applicationId ≠ some applicationId)
    (hrow : ∀ q, quotas.lookup id = some q → q.applicationId = some applicationId)
    (hoff : ∀ j, j ≠ id → quotas'.lookup j = quotas.lookup j) (hnew : quotas'.lookup id = some q')
    (happ : q'.applicationId = some applicationId) (hactive : q'.status = .active)
    (hfits : ∀ k total, activeTenantQuota quotas = some (k, total) →
      granted m (others applicationId) quotas + m.share q' ≤ m.size total) : Covered m inForce quotas' := by
  intro j q hj htotal hforce
  have hne : j ≠ id := by
    rintro rfl
    obtain rfl := Option.some.inj (hnew.symm.trans hj)
    simp [Quota.isTenantTotal, happ] at htotal
  rw [hoff j hne] at hj
  rw [granted_of_row hothers hrow hoff hnew happ hactive]
  exact hfits j q (activeTenantQuota_of_total hone hj htotal hforce)

theorem fits_of_other {q : Quota} (happ : q.applicationId = none)
    (h : q.isTenantTotal → granted m inForce quotas ≤ m.size q) : Fits m quotas q := by
  unfold Fits
  rw [happ]
  exact h

theorem fits_of_application {q : Quota} {applicationId : Uuid}
    (happ : q.applicationId = some applicationId)
    (h : ∀ k total, activeTenantQuota quotas = some (k, total) →
      granted m (others applicationId) quotas + m.share q ≤ m.size total) : Fits m quotas q := by
  unfold Fits
  rw [happ]
  exact h

/-- A row written so that it fits. -/
theorem covered_of_fits {id : Uuid} {q' : Quota} (hone : oneActiveTotal quotas)
    (h : Covered m inForce quotas)
    (hothers : ∀ j q, j ≠ id → quotas.lookup j = some q → q'.applicationId.isSome →
      q.applicationId ≠ q'.applicationId)
    (hrow : ∀ q, quotas.lookup id = some q → q.applicationId = q'.applicationId)
    (hoff : ∀ j, j ≠ id → quotas'.lookup j = quotas.lookup j) (hnew : quotas'.lookup id = some q')
    (hactive : q'.status = .active) (hfits : Fits m quotas q') : Covered m inForce quotas' := by
  unfold Fits at hfits
  cases happ : q'.applicationId with
  | none =>
      rw [happ] at hrow hfits
      exact covered_of_other h hrow hoff hnew happ hfits
  | some applicationId =>
      rw [happ] at hothers hrow hfits
      exact covered_of_row hone (fun j q hj hq ↦ hothers j q hj hq rfl) hrow hoff hnew happ hactive
        hfits

theorem covered_insert {id : Uuid} {q' : Quota} (hone : oneActiveTotal quotas)
    (h : Covered m inForce quotas) (hfresh : id ∉ quotas)
    (hothers : ∀ j q, quotas.lookup j = some q → q'.applicationId.isSome →
      q.applicationId ≠ q'.applicationId)
    (hactive : q'.status = .active) (hfits : Fits m quotas q') :
    Covered m inForce (quotas.insert id q') :=
  covered_of_fits hone h (fun j q _ ↦ hothers j q)
    (fun _ hq ↦ absurd (AList.mem_of_lookup hq) hfresh) (fun _ hj ↦ AList.lookup_insert_ne hj)
    (AList.lookup_insert quotas) hactive hfits

theorem covered_update {id : Uuid} {q : Quota} {f : Quota → Quota} (hone : oneActiveTotal quotas)
    (hkept : WellKept quotas) (h : Covered m inForce quotas) (hq : quotas.lookup id = some q)
    (happ : (f q).applicationId = q.applicationId) (hactive : (f q).status = .active)
    (hfits : Fits m quotas (f q)) : Covered m inForce (quotas.update id f) := by
  have hnew : (quotas.update id f).lookup id = some (f q) := by
    rw [AList.lookup_update_self, hq, Option.map_some]
  refine covered_of_fits hone h (fun j r hj hr hsome hsame ↦ ?_) (fun r hr ↦ ?_)
    (fun j hj ↦ AList.lookup_update_of_ne hj _ _) hnew hactive hfits
  · exact hj (hkept.one_row j id r q hr hq (hsame ▸ hsome) (hsame.trans happ))
  · rw [Option.some.inj (hr.symm.trans hq), happ]

/-- Rows which only leave force take nothing more from the totals. -/
theorem covered_of_shrunk {g : Uuid → Quota → Quota}
    (hnonneg : ∀ k q, quotas.lookup k = some q → q.applicationId.isSome → 0 ≤ m.share q)
    (h : Covered m inForce quotas) (hlookup : ∀ k, quotas'.lookup k = (quotas.lookup k).map (g k))
    (hg : ∀ k q, quotas.lookup k = some q → g k q = q ∨ inForce (g k q) = false) :
    Covered m inForce quotas' := by
  have hle : granted m inForce quotas' ≤ granted m inForce quotas := by
    refine AList.total_le_total fun k ↦ ?_
    rw [AList.weightAt, AList.weightAt, hlookup]
    cases hq : quotas.lookup k with
    | none => exact le_rfl
    | some q =>
        rcases hg k q hq with hsame | hoff
        · simp only [Option.map_some, hsame, le_refl]
        · have hgrant : 0 ≤ grant m inForce q := by
            unfold grant
            split
            · rename_i happ
              rw [Bool.and_eq_true] at happ
              exact hnonneg k q hq happ.1
            · exact le_rfl
          simpa only [Option.map_some, grant, hoff, Bool.and_false, if_neg Bool.false_ne_true]
            using hgrant
  refine covered_of_le hle fun k q' hk htotal hforce ↦ ?_
  rw [hlookup, Option.map_eq_some_iff] at hk
  obtain ⟨q, hq, rfl⟩ := hk
  rcases hg k q hq with hsame | hoff
  · rw [hsame] at htotal hforce ⊢
    exact h k q hq htotal hforce
  · rw [hoff] at hforce
    cases hforce

/-- Rows which come into force are covered when they were before. -/
theorem covered_woken {p : Quota → Bool} (hm : m.Blind) :
    Covered m inForce (switched p .active quotas) ↔ Covered m (fun q ↦ inForce q || p q) quotas := by
  have hrow : ∀ q : Quota, (if p q then { q with status := .active } else q).applicationId =
        q.applicationId ∧
      m.share (if p q then { q with status := .active } else q) = m.share q ∧
      m.size (if p q then { q with status := .active } else q) = m.size q ∧
      (if p q then { q with status := .active } else q).isTenantTotal = q.isTenantTotal ∧
      inForce (if p q then { q with status := .active } else q) = (inForce q || p q) := by
    intro q
    split
    · rename_i hp
      exact ⟨rfl, hm.share q _, hm.size q _, rfl, by simp [inForce, hp]⟩
    · rename_i hp
      exact ⟨rfl, rfl, rfl, rfl, by simp [hp]⟩
  have hsum : granted m inForce (switched p .active quotas) =
      granted m (fun q ↦ inForce q || p q) quotas :=
    granted_of_lookup (lookup_switched p .active quotas) fun k q ↦
      ⟨(hrow q).1, (hrow q).2.1, (hrow q).2.2.2.2⟩
  unfold Covered
  rw [hsum]
  constructor
  · intro h k q hk htotal hforce
    obtain ⟨-, -, hsize, hsame, hin⟩ := hrow q
    have hk' := lookup_switched p .active quotas k
    rw [hk, Option.map_some] at hk'
    rw [← hsize]
    exact h k _ hk' (hsame ▸ htotal) (hin.trans hforce)
  · intro h k q' hk htotal hforce
    rw [lookup_switched, Option.map_eq_some_iff] at hk
    obtain ⟨q, hq, rfl⟩ := hk
    obtain ⟨-, -, hsize, hsame, hin⟩ := hrow q
    rw [hsize]
    exact h k q hq (hsame ▸ htotal) (hin.symm.trans hforce)

theorem covered_switchable {p : Quota → Bool} (hm : m.Blind)
    (h : ∀ q, (inForce q || p q) = switchable q) :
    Covered m inForce (switched p .active quotas) ↔ Covered m switchable quotas := by
  rw [covered_woken hm]
  have hsame : (fun q ↦ inForce q || p q) = switchable := funext h
  rw [hsame]

theorem inForce_or_switchable (q : Quota) : (inForce q || switchable q) = switchable q := by
  cases hs : q.status <;> simp [inForce, switchable, hs]

theorem inForce_or_suspended (q : Quota) :
    (inForce q || decide (q.status = .suspended)) = switchable q := by
  cases hs : q.status <;> simp [inForce, switchable, hs]

theorem covered_dormant (h : ∀ k q, quotas.lookup k = some q → q.status ≠ .active) :
    Covered m inForce quotas :=
  fun k q hk _ hforce ↦ absurd (of_decide_eq_true hforce) (h k q hk)

/-- Only the stores and what wakes rows can leave the applications uncovered. -/
theorem covered_move {c : TenantCmd} (hm : m.Blind) (h : Covered m inForce t.quotas)
    (hc : WakesCovered m t c) (hmove : QuotaMove t t' c)
    (hstored : ∀ c₀, c = .stored c₀ → Covered m inForce t'.quotas) :
    Covered m inForce t'.quotas := by
  cases hmove with
  | idle _ _ hledger =>
      have hquotas : t'.quotas = t.quotas := congrArg Ledger.quotas hledger
      exact hquotas ▸ h
  | stored c => exact hstored c rfl
  | appRestored applicationId app happ hdeleted hactive _ hquotas =>
      rw [hquotas, covered_woken hm]
      exact hc app hactive happ hdeleted
  | switched status hlive hstatus hquotas =>
      have hone := t'.one_total
      rw [← Tenant.quotas, hquotas] at hone
      rw [hquotas]
      cases status with
      | active => exact (covered_switchable hm inForce_or_switchable).mpr (hc hlive hone)
      | suspended => exact covered_dormant fun _ _ ↦ lookup_suspended
      | deleted => exact covered_dormant fun _ _ ↦ lookup_suspended
  | deleted hlive _ hquotas =>
      rw [hquotas]
      exact covered_dormant fun _ _ ↦ lookup_suspended
  | restored hdeleted _ hquotas =>
      have hone := t'.one_total
      rw [← Tenant.quotas, hquotas] at hone
      rw [hquotas]
      exact (covered_switchable hm inForce_or_suspended).mpr (hc hdeleted hone)

end S3mp
