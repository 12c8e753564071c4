import S3mp.Platform.Quotas

/-!
# Suspending and resuming

A quota is suspended together with its tenant, or because its application is
deleted, and one column holds both.  While the tenant is away nothing else
changes the terms of its quotas, so a suspension or a deletion is undone exactly
when it found nothing suspended.
-/

namespace S3mp

open Relational Governance Files Applications Platform Transition

variable {t t' : Tenant} {db : Db} {quotas quotas' : Table Uuid Quota}

/-- No quota is in force. -/
def Dormant (quotas : Table Uuid Quota) : Prop :=
  ∀ k q, quotas.lookup k = some q → q.status ≠ .active

def NoneSuspended (quotas : Table Uuid Quota) : Prop :=
  ∀ k q, quotas.lookup k = some q → q.status ≠ .suspended

/-- The commands on the tenant row. -/
def TenantCmd.lifecycle : TenantCmd → Bool
  | .updateTenant (some _) | .deleteTenant | .restoreTenant => true
  | _ => false

theorem SameTerms.dormant (h : SameTerms quotas quotas') (hdormant : Dormant quotas) :
    Dormant quotas' := by
  intro k q' hk
  obtain ⟨q, hq, hterms⟩ := h.exists_lookup hk
  have hstatus : q'.status = q.status := (terms_eq hterms).2.1
  rw [hstatus]
  exact hdormant k q hq

/-! ## While the tenant is away -/

theorem Dormant.quotaStep {c : Cmd} (hdormant : Dormant db.ledger.quotas)
    (htenant : db.tenantActive = false) (h : QuotaStep db c quotas') :
    SameTerms db.ledger.quotas quotas' := by
  cases h with
  | counted c _ hterms => exact hterms
  | created fresh applicationId limit capacity mode htarget hfresh =>
      have hactive := tenantActive_of_target htarget
      simp [htenant] at hactive
  | overwritten fresh id applicationId limit capacity htarget =>
      have hactive := tenantActive_of_target htarget
      simp [htenant] at hactive
  | revoked id q hq hrevocable =>
      have hactive : q.status = .active := by
        simp only [Quota.revocable, Bool.and_eq_true, decide_eq_true_eq] at hrevocable
        exact hrevocable.1.1.1
      exact absurd hactive (hdormant id q hq)
  | limited c id limit hlimit =>
      obtain ⟨q, hq, hactive⟩ := active_of_limits hlimit
      exact absurd hactive (hdormant id q hq)
  | suspended applicationId happ hactive => simp [htenant] at hactive

theorem inactive_db (h : t.status ≠ .active) : t.db.tenantActive = false := by
  rw [t.active_iff]
  exact decide_eq_false h

theorem Dormant.move {c : TenantCmd} (hdormant : Dormant t.quotas) (hstatus : t.status ≠ .active)
    (hc : c.lifecycle = false) (h : QuotaMove t t' c) :
    t'.status = t.status ∧ SameTerms t.quotas t'.quotas := by
  cases h with
  | idle _ hsame hledger =>
      have hquotas : t'.quotas = t.quotas := congrArg Ledger.quotas hledger
      exact ⟨hsame, hquotas ▸ .refl _⟩
  | stored c hsame hexec h => exact ⟨hsame, hdormant.quotaStep (inactive_db hstatus) h⟩
  | appRestored applicationId app happ hdeleted hactive => exact absurd hactive hstatus
  | switched | deleted | restored => cases hc

theorem Dormant.run {cs : List TenantCmd} (hdormant : Dormant t.quotas)
    (hstatus : t.status ≠ .active) (hcs : ∀ c ∈ cs, c.lifecycle = false) :
    (run tenantExec t cs).status = t.status ∧
      SameTerms t.quotas (run tenantExec t cs).quotas := by
  induction cs generalizing t with
  | nil => exact ⟨rfl, .refl _⟩
  | cons c cs ih =>
      have hc := hcs c List.mem_cons_self
      have hrest : ∀ c ∈ cs, c.lifecycle = false := fun d hd ↦ hcs d (List.mem_cons_of_mem c hd)
      rw [run_cons]
      cases hexec : tenantExec c t with
      | error e =>
          rw [advance_of_error hexec]
          exact ih hdormant hstatus hrest
      | ok t' =>
          rw [advance_of_ok hexec]
          obtain ⟨hsame, hterms⟩ := hdormant.move hstatus hc (tenantStep_quotas (tenantExec_step hexec))
          have hlast := ih (hterms.dormant hdormant) (hsame ▸ hstatus) hrest
          exact ⟨hlast.1.trans hsame, hterms.trans hlast.2⟩

/-! ## There and back -/

def resume : TenantCmd := .updateTenant (some .active)

theorem dormant_switched (quotas : Table Uuid Quota) :
    Dormant (switched switchable .suspended quotas) :=
  fun _ _ ↦ lookup_suspended

/-- While the tenant is not active none of its quotas is. -/
def QuotasFollow (t : Tenant) : Prop :=
  t.status ≠ .active → Dormant t.quotas

/-- A restoration of the deleted tenant finds nothing suspended. -/
def RestoresNone (t : Tenant) : TenantCmd → Prop
  | .restoreTenant => t.status = .deleted →
      oneActiveTotal (switched (·.status = .suspended) .active t.quotas) → NoneSuspended t.quotas
  | _ => True

theorem QuotasFollow.move {c : TenantCmd} (ht : QuotasFollow t) (hc : RestoresNone t c)
    (h : QuotaMove t t' c) : QuotasFollow t' := by
  intro hstatus
  cases h with
  | idle _ hsame hledger =>
      have hquotas : t'.quotas = t.quotas := congrArg Ledger.quotas hledger
      rw [hquotas]
      exact ht (hsame ▸ hstatus)
  | stored c hsame hexec h =>
      have haway : t.status ≠ .active := hsame ▸ hstatus
      exact ((ht haway).quotaStep (inactive_db haway) h).dormant (ht haway)
  | appRestored _ _ _ _ _ hactive => exact absurd hactive hstatus
  | switched status hlive hnext hquotas =>
      have hsuspends : quotaStatus status = .suspended := if_neg (hnext ▸ hstatus)
      rw [hquotas, hsuspends]
      exact dormant_switched t.quotas
  | deleted hlive _ hquotas =>
      rw [hquotas]
      exact dormant_switched t.quotas
  | restored hdeleted _ hquotas =>
      have hone := t'.one_total
      rw [← Tenant.quotas, hquotas] at hone
      have hnone := hc hdeleted hone
      have hdormant := ht (by simp [hdeleted])
      rw [hquotas]
      intro k q hk
      rw [lookup_switched, Option.map_eq_some_iff] at hk
      obtain ⟨q₀, hq₀, rfl⟩ := hk
      rw [if_neg (by simpa using hnone k q₀ hq₀)]
      exact hdormant k q₀ hq₀

namespace Sample

/-- The application gets 40 of the tenant's 100 bytes and is deleted. -/
def appDeleted : List TenantCmd :=
  [.createPlatformQuota 2 (some 5) 40 none, .deleteApp 5].map .stored

end Sample

end S3mp
