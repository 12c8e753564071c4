import S3mp.Platform.Shares

/-!
# Allocations under a tenant limit

The limits of the application quotas in force are carved out of the tenant
total.  Setting a limit compares it with the others, but creating the total
again, restoring an application and waking the tenant do not.
-/

namespace S3mp

open Relational Governance Files Applications Platform Transition

variable {t t' : Tenant} {db : Db} {quotas quotas' : Table Uuid Quota}

/-- The limits of the applications under the limit of the total. -/
def limits : Measure := ⟨Quota.limitBytes, Quota.limitBytes⟩

/-- The API does not accept negative limits. -/
def TenantCmd.accepted : TenantCmd → Prop
  | .stored (.updateQuota _ limit) => 0 ≤ limit
  | _ => True

theorem allocatedLimit_others (applicationId : Uuid) :
    allocatedLimit (lockApplicationQuotas quotas (some applicationId)) =
      granted limits (others applicationId) quotas := by
  unfold allocatedLimit lockApplicationQuotas activeApplicationQuotas granted
  rw [AList.sum_filter_select]
  congr 1
  funext k q
  simp [grant, limits, others, inForce, and_assoc]

theorem SameTerms.granted (h : SameTerms quotas quotas') :
    granted limits inForce quotas' = granted limits inForce quotas := by
  refine AList.total_congr fun k ↦ ?_
  have hk := h k
  rw [AList.weightAt, AList.weightAt]
  cases hq : quotas.lookup k with
  | none =>
      rw [hq, Option.map_none, Option.map_eq_none_iff] at hk
      rw [hk]
  | some q =>
      rw [hq, Option.map_some, Option.map_eq_some_iff] at hk
      obtain ⟨q', hq', hterms⟩ := hk
      obtain ⟨hlimit, hstatus, happ, -⟩ := terms_eq hterms
      have hforce : inForce q' = inForce q := by rw [inForce, inForce, hstatus]
      simp only [hq', grant, limits, hforce, hlimit, happ]

/-! ## What keeps the applications covered -/

/-- What the store has checked before it creates or overwrites an application quota. -/
theorem target_of_application {applicationId : Uuid} {limit : ℤ} {capacity : Option ℤ}
    {target : Option Uuid}
    (h : createPlatformQuotaTarget (some applicationId) limit capacity db = .ok target) :
    (∀ k total, activeTenantQuota db.ledger.quotas = some (k, total) →
      granted limits (others applicationId) db.ledger.quotas + limit ≤ total.limitBytes) ∧
    (target = none → ∀ j q, db.ledger.quotas.lookup j = some q →
      q.applicationId ≠ some applicationId) := by
  unfold createPlatformQuotaTarget at h
  split at h
  · simp at h
  split at h
  · simp at h
  dsimp only at h
  split at h
  · simp at h
  split at h
  · simp at h
  rename_i k₀ total₀ htotal
  split at h
  · simp at h
  rename_i hfits
  refine ⟨fun k total hk ↦ ?_, ?_⟩
  · have hsame : some (k₀, total₀) = some (k, total) := htotal.symm.trans hk
    obtain ⟨-, rfl⟩ := Prod.mk.inj (Option.some.inj hsame)
    rw [← allocatedLimit_others]
    exact not_lt.mp hfits
  · rintro rfl j q hj
    cases hrow : db.ledger.quotas.selectFirst fun _ q ↦ q.applicationId = some applicationId with
    | none => simpa using AList.selectFirst_eq_none.mp hrow j q hj
    | some row =>
        rw [hrow] at h
        obtain ⟨-, -, h⟩ := Except.bind_eq_ok.mp h
        cases h

/-! ## What the store checks -/

theorem nonneg_of_limits {c : Cmd} {id : Uuid} {limit : ℤ} (h : c.limits db id limit)
    (hc : TenantCmd.accepted (.stored c)) : 0 ≤ limit := by
  cases c with
  | updatePlatformQuota id' limit' capacity =>
      obtain ⟨-, rfl, hallowed⟩ := h
      unfold updatePlatformQuotaAllowed at hallowed
      split at hallowed
      · simp at hallowed
      · rename_i hneg
        exact not_lt.mp hneg
  | updateQuota id' limit' =>
      obtain ⟨-, rfl, -⟩ := h
      exact hc
  | _ => exact h.elim

/-! ## The table stays well kept -/

namespace WellKept

theorem of_lookup {g : Uuid → Quota → Quota} (h : WellKept quotas)
    (hlookup : ∀ k, quotas'.lookup k = (quotas.lookup k).map (g k))
    (hg : ∀ k q, quotas.lookup k = some q → (g k q).applicationId = q.applicationId ∧
      (q.applicationId.isSome → 0 ≤ q.limitBytes → 0 ≤ (g k q).limitBytes)) :
    WellKept quotas' := by
  refine ⟨fun j k q r hj hk happ hsame ↦ ?_, fun k q hk happ ↦ ?_⟩
  · rw [hlookup, Option.map_eq_some_iff] at hj hk
    obtain ⟨q₀, hq₀, rfl⟩ := hj
    obtain ⟨r₀, hr₀, rfl⟩ := hk
    rw [(hg j q₀ hq₀).1] at happ hsame
    rw [(hg k r₀ hr₀).1] at hsame
    exact h.one_row j k q₀ r₀ hq₀ hr₀ happ hsame
  · rw [hlookup, Option.map_eq_some_iff] at hk
    obtain ⟨q₀, hq₀, rfl⟩ := hk
    obtain ⟨hsame, hlimit⟩ := hg k q₀ hq₀
    rw [hsame] at happ
    exact hlimit happ (h.nonneg k q₀ hq₀ happ)

theorem update {id : Uuid} {f : Quota → Quota} (h : WellKept quotas)
    (hf : ∀ q, quotas.lookup id = some q → (f q).applicationId = q.applicationId ∧
      (q.applicationId.isSome → 0 ≤ q.limitBytes → 0 ≤ (f q).limitBytes)) :
    WellKept (quotas.update id f) := by
  refine h.of_lookup (AList.lookup_updateWhere _ _ _) fun k q hq ↦ ?_
  split
  · rename_i hk
    obtain rfl : k = id := by simpa using hk
    exact hf q hq
  · exact ⟨rfl, fun _ hlimit ↦ hlimit⟩

theorem updateWhere {p : Uuid → Quota → Bool} {status : QuotaStatus} (h : WellKept quotas) :
    WellKept (quotas.updateWhere p fun q ↦ { q with status }) := by
  refine h.of_lookup (AList.lookup_updateWhere _ _ _) fun k q _ ↦ ?_
  split
  · exact ⟨rfl, fun _ hlimit ↦ hlimit⟩
  · exact ⟨rfl, fun _ hlimit ↦ hlimit⟩

theorem insert {fresh : Uuid} {q : Quota} (h : WellKept quotas)
    (hothers : ∀ k r, quotas.lookup k = some r → q.applicationId.isSome →
      r.applicationId ≠ q.applicationId)
    (hlimit : 0 ≤ q.limitBytes) : WellKept (quotas.insert fresh q) := by
  refine ⟨fun j k r r' hj hk happ hsame ↦ ?_, fun k r hk happ ↦ ?_⟩
  · rw [AList.lookup_insert'] at hj hk
    split at hj
    · rename_i hjf
      split at hk
      · rename_i hkf
        exact hjf.trans hkf.symm
      · obtain rfl := Option.some.inj hj
        exact absurd hsame.symm (hothers k r' hk happ)
    · split at hk
      · obtain rfl := Option.some.inj hk
        exact absurd hsame (hothers j r hj (hsame ▸ happ))
      · exact h.one_row j k r r' hj hk happ hsame
  · rw [AList.lookup_insert'] at hk
    split at hk
    · obtain rfl := Option.some.inj hk
      exact hlimit
    · exact h.nonneg k r hk happ

theorem of_sameTerms (h : WellKept quotas) (hterms : SameTerms quotas quotas') :
    WellKept quotas' := by
  refine ⟨fun j k q r hj hk happ hsame ↦ ?_, fun k q hk happ ↦ ?_⟩
  · obtain ⟨q₀, hq₀, hq⟩ := hterms.exists_lookup hj
    obtain ⟨r₀, hr₀, hr⟩ := hterms.exists_lookup hk
    obtain ⟨-, -, hqapp, -⟩ := terms_eq hq
    obtain ⟨-, -, hrapp, -⟩ := terms_eq hr
    rw [hqapp] at happ hsame
    rw [hrapp] at hsame
    exact h.one_row j k q₀ r₀ hq₀ hr₀ happ hsame
  · obtain ⟨q₀, hq₀, hq⟩ := hterms.exists_lookup hk
    obtain ⟨hlimit, -, hqapp, -⟩ := terms_eq hq
    rw [hlimit]
    exact h.nonneg k q₀ hq₀ (hqapp ▸ happ)

theorem quotaStep {c : Cmd} (h : WellKept db.ledger.quotas) (hc : TenantCmd.accepted (.stored c))
    (hstep : QuotaStep db c quotas') : WellKept quotas' := by
  cases hstep with
  | counted c _ hterms => exact h.of_sameTerms hterms
  | created fresh applicationId limit capacity mode htarget hfresh =>
      refine h.insert (fun k r hk happ hsame ↦ ?_) (createPlatformQuotaTarget_nonneg htarget)
      obtain ⟨a, rfl⟩ := Option.isSome_iff_exists.mp happ
      exact (target_of_application htarget).2 rfl k r hk hsame
  | overwritten fresh id applicationId limit capacity htarget =>
      exact h.update fun q _ ↦ ⟨rfl, fun _ _ ↦ createPlatformQuotaTarget_nonneg htarget⟩
  | revoked id _ _ _ => exact h.update fun q _ ↦ ⟨rfl, fun _ hlimit ↦ hlimit⟩
  | limited c id limit hlimit =>
      exact h.update fun q _ ↦ ⟨rfl, fun _ _ ↦ nonneg_of_limits hlimit hc⟩
  | suspended applicationId happ htenant => exact h.updateWhere

theorem move {c : TenantCmd} (h : WellKept t.quotas) (hc : c.accepted) (hmove : QuotaMove t t' c) :
    WellKept t'.quotas := by
  cases hmove with
  | idle _ _ hledger =>
      have hquotas : t'.quotas = t.quotas := congrArg Ledger.quotas hledger
      exact hquotas ▸ h
  | stored c _ _ hstep => exact h.quotaStep hc hstep
  | appRestored _ _ _ _ _ _ hquotas => exact hquotas ▸ h.updateWhere
  | switched _ _ _ hquotas => exact hquotas ▸ h.updateWhere
  | deleted _ _ hquotas => exact hquotas ▸ h.updateWhere
  | restored _ _ hquotas => exact hquotas ▸ h.updateWhere

end WellKept

/-! ## One command -/

namespace Sample

/-- The application gets 60 of the tenant's 100 bytes. -/
def allocated : List TenantCmd :=
  [.stored (.createPlatformQuota 2 (some 5) 60 none)]

end Sample

end S3mp
