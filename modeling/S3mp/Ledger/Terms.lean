import S3mp.Steps

/-!
# What is agreed about a quota

A quota row has two counters, which uploads and releases move, and its terms:
limit, status and whom it belongs to.  Only the administration of quotas and the
deletion of an application change the terms of a quota, one row at a time or the
rows of one application.
-/

namespace S3mp

open Relational Governance Files Applications

/-- The row without its counters. -/
def Governance.Quota.terms (q : Quota) : Quota :=
  { q with usedBytes := 0, reservedBytes := 0 }

/-- The two tables differ in counters alone. -/
def SameTerms (quotas quotas' : Table Uuid Quota) : Prop :=
  ∀ k, (quotas'.lookup k).map Quota.terms = (quotas.lookup k).map Quota.terms

variable {db db' : Db} {l l' : Ledger} {quotas quotas' : Table Uuid Quota}

theorem SameTerms.refl (quotas : Table Uuid Quota) : SameTerms quotas quotas :=
  fun _ ↦ rfl

theorem SameTerms.trans {quotas'' : Table Uuid Quota} (h : SameTerms quotas quotas')
    (h' : SameTerms quotas' quotas'') : SameTerms quotas quotas'' :=
  fun k ↦ (h' k).trans (h k)

theorem SameTerms.exists_lookup (h : SameTerms quotas quotas') {k : Uuid} {q' : Quota}
    (hk : quotas'.lookup k = some q') : ∃ q, quotas.lookup k = some q ∧ q'.terms = q.terms := by
  have hterms := h k
  rw [hk, Option.map_some, eq_comm, Option.map_eq_some_iff] at hterms
  obtain ⟨q, hq, heq⟩ := hterms
  exact ⟨q, hq, heq.symm⟩

theorem SameTerms.of_lookup {g : Uuid → Quota → Quota}
    (hlookup : ∀ k, quotas'.lookup k = (quotas.lookup k).map (g k))
    (hg : ∀ k q, (g k q).terms = q.terms) : SameTerms quotas quotas' := by
  intro k
  rw [hlookup, Option.map_map]
  congr 1
  funext q
  exact hg k q

theorem terms_eq {q q' : Quota} (h : q'.terms = q.terms) :
    q'.limitBytes = q.limitBytes ∧ q'.status = q.status ∧ q'.applicationId = q.applicationId ∧
      q'.storageSpaceId = q.storageSpaceId := by
  simp only [Quota.terms, Quota.mk.injEq] at h
  exact ⟨h.2.2.1, h.2.2.2.2.2.2, h.2.1, h.1⟩

theorem isTenantTotal_congr {q q' : Quota} (h : q'.terms = q.terms) :
    q'.isTenantTotal = q.isTenantTotal := by
  obtain ⟨-, -, happ, hspace⟩ := terms_eq h
  rw [Quota.isTenantTotal, Quota.isTenantTotal, happ, hspace]

/-! ## The counters -/

theorem sameTerms_updateQuotas {ids : List Uuid} {f : Quota → Quota}
    (hf : ∀ q, (f q).terms = q.terms) : SameTerms l.quotas (l.updateQuotas ids f).quotas := by
  refine .of_lookup (fun k ↦ Ledger.lookup_updateQuotas ids f l k) fun k q ↦ ?_
  split
  · exact hf q
  · rfl

theorem sameTerms_close {sub : ℤ → Quota → Quota} {status : ReservationStatus} {now : Timestamp}
    {id : Uuid} {r : QuotaReservation} (hsub : ∀ n q, (sub n q).terms = q.terms) :
    SameTerms l.quotas (l.close sub status now id r).quotas :=
  sameTerms_updateQuotas (hsub _)

theorem sameTerms_releaseQuotaReservation {now : Timestamp} {row : IngestionRecord} :
    SameTerms l.quotas (releaseQuotaReservation now row l).quotas := by
  unfold releaseQuotaReservation
  split
  · exact .refl _
  · exact sameTerms_close fun _ _ ↦ rfl

theorem sameTerms_releaseUsage {reason : AdjustmentReason} {fileId : Uuid} {f : FileObject} :
    SameTerms l.quotas (releaseUsage reason fileId f l).quotas := by
  refine .of_lookup lookup_releaseUsage fun k q ↦ ?_
  split
  · rfl
  · rfl

theorem sameTerms_settleQuotaReservation {now : Timestamp} {row : IngestionRecord} :
    SameTerms l.quotas (settleQuotaReservation now row l).2.quotas := by
  have hsettled := settlement now row l
  generalize settleQuotaReservation now row l = out at hsettled
  cases hsettled with
  | unreserved | refused => exact .refl _
  | charged id r hopen hfits => exact sameTerms_updateQuotas fun _ ↦ rfl

theorem sameTerms_reapReservation {now : Timestamp} (id : Uuid) :
    SameTerms db.ledger.quotas
      (reapReservation Quota.subReservedClamped now id db).ledger.quotas := by
  unfold reapReservation
  split
  · exact .refl _
  split
  · exact sameTerms_close fun _ _ ↦ rfl
  split
  · split
    · exact sameTerms_settleQuotaReservation
    · exact .refl _
  · split
    · exact .refl _
    · exact sameTerms_close fun _ _ ↦ rfl

theorem sameTerms_reap {now : Timestamp} (picked : List Uuid) :
    SameTerms db.ledger.quotas (reapOrphanReservations now picked db).ledger.quotas := by
  induction picked generalizing db with
  | nil => exact .refl _
  | cons id picked ih => exact (sameTerms_reapReservation id).trans ih

/-! ## Commands -/

/-- The commands of the quota administration, and the deletion of an application. -/
def Cmd.administers : Cmd → Bool
  | .createPlatformQuota .. | .revokePlatformQuota .. | .updatePlatformQuota .. | .updateQuota ..
  | .deleteApp .. => true
  | _ => false

theorem sameTerms_step {c : Cmd} (hc : c.administers = false) (h : Step db c db') :
    SameTerms db.ledger.quotas db'.ledger.quotas := by
  cases h with
  | idle | sessions | edited | verified | requeued => exact .refl _
  | uploadCreated ids session data ledger hsession hrecord hheld
  | multipartCreated ids session data ledger hsession hrecord hheld =>
      obtain ⟨-, r, -, -, rfl⟩ := hheld
      exact sameTerms_updateQuotas fun _ ↦ rfl
  | failed | expired => exact sameTerms_releaseQuotaReservation
  | reaped now picked => exact sameTerms_reap picked
  | deleted | purged => exact sameTerms_releaseUsage
  | commit now fileId id _ hcommit =>
      cases hcommit with
      | replayed | unreserved => exact .refl _
      | charged => exact sameTerms_updateQuotas fun _ ↦ rfl
      | refused => exact sameTerms_releaseQuotaReservation
  | quotaCreated | quotaOverwritten | quotaRevoked | platformLimitSet | limitSet | appDeleted =>
      cases hc

def revoked (q : Quota) : Quota :=
  { q with status := .revoked, allocationMode := .applicationReserved }

/-- An application quota in force which nothing is stored or reserved against. -/
def Governance.Quota.revocable (q : Quota) : Bool :=
  q.status = .active && q.applicationId.isSome && q.usedBytes = 0 && q.reservedBytes = 0

theorem revokePlatformQuota_cases {id : Uuid} {written : Bool}
    (h : revokePlatformQuota id db = .ok (written, db')) :
    db' = db ∨ ∃ q, db.ledger.quotas.lookup id = some q ∧ q.revocable ∧
      db' = setQuotas (db.ledger.quotas.update id revoked) db := by
  unfold revokePlatformQuota at h
  split at h
  · cases h
    exact Or.inl rfl
  rename_i q hq
  split at h
  · cases h
    exact Or.inl rfl
  rename_i hactive
  split at h
  · simp at h
  rename_i happ
  split at h
  · simp at h
  · rename_i hunused
    cases h
    refine Or.inr ⟨q, hq, ?_, rfl⟩
    rw [not_or, not_not, not_not] at hunused
    have happ : q.applicationId.isSome := by
      simpa [Option.isSome_iff_ne_none] using happ
    simp [Quota.revocable, not_not.mp hactive, happ, hunused]

/-- The row a quota command sets a new limit for. -/
def Cmd.limits (db : Db) : Cmd → Uuid → ℤ → Prop
  | .updatePlatformQuota id limit capacity, k, n =>
      id = k ∧ limit = n ∧ updatePlatformQuotaAllowed id limit capacity db = .ok true
  | .updateQuota id limit, k, n => id = k ∧ limit = n ∧ updateQuotaAllowed id limit db = .ok true
  | _, _, _ => False

/-- What a command does to the terms of the quotas. -/
inductive QuotaStep (db : Db) : Cmd → Table Uuid Quota → Prop
  | counted (c : Cmd) (quotas : Table Uuid Quota) (h : SameTerms db.ledger.quotas quotas) :
      QuotaStep db c quotas
  | created (fresh : Uuid) (applicationId : Option Uuid) (limit : ℤ) (capacity : Option ℤ)
      (mode : QuotaAllocationMode)
      (htarget : createPlatformQuotaTarget applicationId limit capacity db = .ok none)
      (hfresh : fresh ∉ db.ledger.quotas) :
      QuotaStep db (.createPlatformQuota fresh applicationId limit capacity)
        (db.ledger.quotas.insert fresh (newQuota applicationId limit mode))
  | overwritten (fresh id : Uuid) (applicationId : Option Uuid) (limit : ℤ) (capacity : Option ℤ)
      (htarget : createPlatformQuotaTarget applicationId limit capacity db = .ok (some id)) :
      QuotaStep db (.createPlatformQuota fresh applicationId limit capacity)
        (db.ledger.quotas.update id (relimit applicationId limit))
  | revoked (id : Uuid) (q : Quota) (hq : db.ledger.quotas.lookup id = some q)
      (hrevocable : q.revocable) :
      QuotaStep db (.revokePlatformQuota id) (db.ledger.quotas.update id revoked)
  | limited (c : Cmd) (id : Uuid) (limit : ℤ) (h : c.limits db id limit) :
      QuotaStep db c (db.ledger.quotas.update id fun q ↦ { q with limitBytes := limit })
  | suspended (applicationId : Uuid) (happ : activeApplication applicationId db)
      (htenant : db.tenantActive) :
      QuotaStep db (.deleteApp applicationId) (db.ledger.quotas.updateWhere
        (fun _ q ↦ q.applicationId = some applicationId && q.status = .active)
        fun q ↦ { q with status := .suspended })

theorem exec_quotas {c : Cmd} (h : exec c db = .ok db') : QuotaStep db c db'.ledger.quotas := by
  cases hc : c.administers with
  | false => exact .counted c _ (sameTerms_step hc (exec_step h))
  | true =>
      obtain ⟨answer, h⟩ := exec_eq_ok.mp h
      cases c with
      | createPlatformQuota fresh applicationId limit capacity =>
          simp only [Cmd.perform] at h
          cases hcreate : createPlatformQuota fresh applicationId limit capacity db with
          | error e =>
              rw [hcreate] at h
              cases h
          | ok db₁ =>
              rw [hcreate] at h
              cases h
              rcases createPlatformQuota_eq_ok hcreate with
                ⟨htarget, hfresh, mode, rfl⟩ | ⟨id, htarget, rfl⟩
              · exact .created fresh applicationId limit capacity mode htarget hfresh
              · exact .overwritten fresh id applicationId limit capacity htarget
      | revokePlatformQuota id =>
          rcases revokePlatformQuota_cases h with rfl | ⟨q, hq, hrevocable, rfl⟩
          · exact .counted _ _ (.refl _)
          · exact .revoked id q hq hrevocable
      | updatePlatformQuota id limit capacity =>
          rcases updatePlatformQuota_eq_ok h with rfl | ⟨hallowed, rfl⟩
          · exact .counted _ _ (.refl _)
          · exact .limited _ id limit ⟨rfl, rfl, hallowed⟩
      | updateQuota id limit =>
          rcases updateQuota_eq_ok h with rfl | ⟨hallowed, rfl⟩
          · exact .counted _ _ (.refl _)
          · exact .limited _ id limit ⟨rfl, rfl, hallowed⟩
      | deleteApp applicationId =>
          have hdb : (deleteApp applicationId db).2 = db' :=
            congrArg Prod.snd (Except.ok.inj h)
          unfold deleteApp at hdb
          split at hdb
          · subst hdb
            exact .counted _ _ (.refl _)
          rename_i app happ
          split at hdb
          · subst hdb
            exact .counted _ _ (.refl _)
          · rename_i hlive
            subst hdb
            rw [not_or, Bool.not_eq_true, Bool.not_eq_false'] at hlive
            refine .suspended applicationId ?_ hlive.2
            rw [activeApplication, happ, Option.any_some, decide_eq_true_eq]
            cases hs : app.status with
            | active => rfl
            | deleted => exact absurd hs hlive.1
      | _ => cases hc

end S3mp
