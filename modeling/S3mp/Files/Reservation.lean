import S3mp.Database

/-!
# Reserving, settling and releasing quota

The helpers of `files/infrastructure/ingestion_repository.py` through which an
upload holds quota.  A reservation names up to three quotas; the helpers charge
or relieve all of them at once.
-/

namespace S3mp.Files

open Relational Governance

def activeTenantQuota (quotas : Table Uuid Quota) : Option (Uuid × Quota) :=
  quotas.selectFirst fun _ q ↦ q.isTenantTotal && q.status = .active

def activeApplicationQuotas (quotas : Table Uuid Quota) : List (Uuid × Quota) :=
  quotas.select fun _ q ↦ q.applicationId.isSome && q.status = .active

def reserveQuota (fresh storageSpaceId : Uuid) (requestedBytes : ℤ)
    (spaces : Table Uuid StorageSpace) (l : Ledger) : Tx (Uuid × Ledger) :=
  match spaces.lookup storageSpaceId with
  | none => raise "resource_not_found" "Storage space not found" 404
  | some space =>
    if requestedBytes < 0 then raise "quota_exceeded" "Quota capacity exceeded" 409
    else
      match activeTenantQuota l.quotas with
      | none => reserveLegacy
      | some (tenantId, tenantQuota) =>
        match scopedQuota space with
        | some (scopedId, scopedQuota) =>
          if scopedQuota.usedBytes + scopedQuota.reservedBytes + requestedBytes >
                scopedQuota.limitBytes ∨
              tenantQuota.usedBytes + tenantQuota.reservedBytes + requestedBytes >
                tenantQuota.limitBytes then
            raise "quota_exceeded" "Quota capacity exceeded" 409
          else insertReservation (newReservation scopedId (some scopedId) (some tenantId)
            .applicationReserved)
        | none =>
          let applications := (activeApplicationQuotas l.quotas).map Prod.snd
          if (buildSnapshot tenantQuota applications).sharedPoolAvailable < requestedBytes then
            raise "quota_exceeded" "Shared quota capacity exceeded" 409
          else insertReservation (newReservation tenantId none (some tenantId) .sharedPool)
where
  scopedQuota (space : StorageSpace) : Option (Uuid × Quota) :=
    match space.applicationId with
    | none => none
    | some applicationId =>
      l.quotas.selectFirst fun _ q ↦ q.applicationId = some applicationId && q.status = .active
  newReservation (quotaId : Uuid) (applicationQuotaId tenantQuotaId : Option Uuid)
      (mode : ReservationMode) : QuotaReservation :=
    { quotaId, applicationQuotaId, tenantQuotaId, allocationMode := mode, requestedBytes
      actualBytes := none, status := .reserved, settledAt := none }
  insertReservation (r : QuotaReservation) : Tx (Uuid × Ledger) :=
    if fresh ∈ l.reservations then integrityError "quota_reservation_pkey"
    else .ok (fresh, l.hold fresh r)
  /-- Rows created before tenant and application allocation was introduced. -/
  reserveLegacy : Tx (Uuid × Ledger) :=
    match l.quotas.selectFirst fun _ q ↦ q.storageSpaceId = some storageSpaceId &&
        q.applicationId.isNone && q.status ∈ [.active, .legacy] with
    | none => raise "quota_not_configured" "Tenant storage quota has not been configured" 409
    | some (legacyId, legacyQuota) =>
      if legacyQuota.usedBytes + legacyQuota.reservedBytes + requestedBytes >
          legacyQuota.limitBytes then
        raise "quota_exceeded" "Quota capacity exceeded" 409
      else insertReservation (newReservation legacyId none none .storageSpaceLegacy)

/-- Settles the reservation of a record; `false` when its actual size does not fit.
Without a reservation in status `reserved` there is nothing to check. -/
def settleQuotaReservation (now : Timestamp) (row : IngestionRecord) (l : Ledger) :
    Bool × Ledger :=
  match l.openReservation row.quotaReservationId with
  | none => (true, l)
  | some (id, r) =>
    let quotas := l.quotas.select fun k _ ↦ r.quotaIds.contains k
    let actualSize := row.actualSize.getD 0
    if quotas.length ≠ r.quotaIds.length then (false, l)
    else if quotas.any fun e ↦ e.2.usedBytes + actualSize > e.2.limitBytes then (false, l)
    else (true, l.settle now id r actualSize)

def releaseQuotaReservation (now : Timestamp) (row : IngestionRecord) (l : Ledger) : Ledger :=
  match l.openReservation row.quotaReservationId with
  | none => l
  | some (id, r) => l.close Quota.subReserved .released now id r

/-! ## What the helpers do -/

section Specification

variable {l l' : Ledger} {now : Timestamp} {row : IngestionRecord}

theorem sharedPool_fits (hl : l.WithinLimits) {tenantId : Uuid} {tenantQuota : Quota}
    (htenant : l.quotas.lookup tenantId = some tenantQuota) (hactive : tenantQuota.status = .active)
    {n : ℤ} (hn : 0 ≤ n)
    (hfits : n ≤ (buildSnapshot tenantQuota
      ((activeApplicationQuotas l.quotas).map Prod.snd)).sharedPoolAvailable) :
    tenantQuota.usedBytes + tenantQuota.reservedBytes + n ≤ tenantQuota.limitBytes := by
  have happlication : ∀ q ∈ (activeApplicationQuotas l.quotas).map Prod.snd,
      q.WithinLimit ∧ q.NonNeg := by
    intro q hq
    obtain ⟨⟨k, q'⟩, hmem, rfl⟩ := List.mem_map.mp hq
    obtain ⟨hk, hp⟩ := AList.mem_select_iff.mp hmem
    have hstatus : q'.status = .active := by
      simp only [Bool.and_eq_true, decide_eq_true_eq] at hp
      exact hp.2
    exact ⟨(hl k q' hk).2 hstatus, (hl k q' hk).1⟩
  obtain ⟨hnonneg, hwithin⟩ := hl tenantId tenantQuota htenant
  rcases hn.lt_or_eq with hpos | rfl
  · exact tenant_fits_of_sharedPoolAvailable hnonneg (fun q hq ↦ (happlication q hq).1)
      (fun q hq ↦ (happlication q hq).2) hpos hfits
  · have := hwithin hactive
    simp only [Quota.WithinLimit] at this
    omega

/-- A reservation accepted for `n` bytes: held under its fresh id against quotas with
room for it. -/
def Held (l : Ledger) (fresh : Uuid) (n : ℤ) (id : Uuid) (l' : Ledger) : Prop :=
  id = fresh ∧ ∃ r, r.requestedBytes = n ∧ l.Admits fresh r ∧ l' = l.hold fresh r

theorem held_of_insertReservation {fresh id : Uuid} {n : ℤ} {r : QuotaReservation}
    (h : reserveQuota.insertReservation fresh l r = .ok (id, l')) (hn : r.requestedBytes = n)
    (hr : fresh ∉ l.reservations → l.Admits fresh r) : Held l fresh n id l' := by
  unfold reserveQuota.insertReservation at h
  split at h
  · simp at h
  · rename_i hfresh
    simp only [Except.ok.injEq, Prod.mk.injEq] at h
    obtain ⟨rfl, rfl⟩ := h
    exact ⟨rfl, r, hn, hr hfresh, rfl⟩

theorem mem_quotaIds_newReservation {n : ℤ} {quotaId k : Uuid} {application tenant : Option Uuid}
    {mode : ReservationMode} :
    k ∈ (reserveQuota.newReservation n quotaId application tenant mode).quotaIds ↔
      k = quotaId ∨ application = some k ∨ tenant = some k :=
  QuotaReservation.mem_quotaIds

theorem held_of_reserveLegacy {fresh spaceId id : Uuid} {n : ℤ} (hn : 0 ≤ n)
    (h : reserveQuota.reserveLegacy fresh spaceId n l = .ok (id, l')) : Held l fresh n id l' := by
  unfold reserveQuota.reserveLegacy at h
  split at h
  · simp at h
  · rename_i legacyId legacyQuota hlegacy
    obtain ⟨hlookup, -⟩ := AList.lookup_of_selectFirst hlegacy
    split at h
    · simp at h
    · rename_i hfits
      refine held_of_insertReservation h rfl fun hfresh ↦ ⟨hfresh, rfl, hn, ?_, ?_⟩
      · intro k hk
        obtain rfl : k = legacyId := by simpa [mem_quotaIds_newReservation] using hk
        exact AList.mem_of_lookup hlookup
      · intro _ k q hk hq _
        obtain rfl : k = legacyId := by simpa [mem_quotaIds_newReservation] using hk
        obtain rfl : legacyQuota = q := Option.some.inj (hlookup.symm.trans hq)
        exact not_lt.mp hfits

theorem lookup_scopedQuota {space : StorageSpace} {k : Uuid} {q : Quota}
    (h : reserveQuota.scopedQuota l space = some (k, q)) : l.quotas.lookup k = some q := by
  unfold reserveQuota.scopedQuota at h
  split at h
  · cases h
  · exact (AList.lookup_of_selectFirst h).1

theorem lookup_activeTenantQuota {k : Uuid} {q : Quota}
    (h : activeTenantQuota l.quotas = some (k, q)) :
    l.quotas.lookup k = some q ∧ q.isTenantTotal ∧ q.status = .active := by
  obtain ⟨hk, hp⟩ := AList.lookup_of_selectFirst h
  simp only [Bool.and_eq_true, decide_eq_true_eq] at hp
  exact ⟨hk, hp⟩

theorem reserveQuota_eq_ok {fresh spaceId id : Uuid} {n : ℤ} {spaces : Table Uuid StorageSpace}
    (h : reserveQuota fresh spaceId n spaces l = .ok (id, l')) : Held l fresh n id l' := by
  unfold reserveQuota at h
  split at h
  · simp at h
  rename_i space _
  split at h
  · simp at h
  rename_i hneg
  have hn : 0 ≤ n := not_lt.mp hneg
  split at h
  · exact held_of_reserveLegacy hn h
  rename_i tenantId tenantQuota htenant
  obtain ⟨htlookup, -, htactive⟩ := lookup_activeTenantQuota htenant
  split at h
  · rename_i scopedId scopedQuota hscoped
    have hslookup := lookup_scopedQuota hscoped
    split at h
    · simp at h
    rename_i hfits
    push Not at hfits
    refine held_of_insertReservation h rfl fun hfresh ↦ ⟨hfresh, rfl, hn, ?_, ?_⟩
    · intro k hk
      rw [mem_quotaIds_newReservation, ← or_assoc] at hk
      rcases hk with hk | hk
      · obtain rfl : k = scopedId := by simpa [eq_comm] using hk
        exact AList.mem_of_lookup hslookup
      · obtain rfl : tenantId = k := Option.some.inj hk
        exact AList.mem_of_lookup htlookup
    · intro _ k q hk hq _
      rw [mem_quotaIds_newReservation, ← or_assoc] at hk
      rcases hk with hk | hk
      · obtain rfl : k = scopedId := by simpa [eq_comm] using hk
        obtain rfl : scopedQuota = q := Option.some.inj (hslookup.symm.trans hq)
        exact hfits.1
      · obtain rfl : tenantId = k := Option.some.inj hk
        obtain rfl : tenantQuota = q := Option.some.inj (htlookup.symm.trans hq)
        exact hfits.2
  · dsimp only at h
    split at h
    · simp at h
    rename_i hfits
    have honly : ∀ k, k ∈ (reserveQuota.newReservation n tenantId none (some tenantId)
        .sharedPool).quotaIds → k = tenantId := by
      intro k hk
      simpa [mem_quotaIds_newReservation, eq_comm] using hk
    refine held_of_insertReservation h rfl fun hfresh ↦ ⟨hfresh, rfl, hn, ?_, ?_⟩
    · intro k hk
      obtain rfl := honly k hk
      exact AList.mem_of_lookup htlookup
    · intro hl k q hk hq _
      obtain rfl := honly k hk
      obtain rfl : tenantQuota = q := Option.some.inj (htlookup.symm.trans hq)
      exact sharedPool_fits hl htlookup htactive hn (not_lt.mp hfits)

/-- Which quotas an accepted request is held against, and what was compared for it. -/
inductive Admission (spaces : Table Uuid StorageSpace) (l : Ledger) (fresh spaceId : Uuid) (n : ℤ) :
    Ledger → Prop
  | application (space : StorageSpace) (k tenantId : Uuid) (q tenantQuota : Quota)
      (hspace : spaces.lookup spaceId = some space)
      (hscoped : reserveQuota.scopedQuota l space = some (k, q))
      (htenant : activeTenantQuota l.quotas = some (tenantId, tenantQuota))
      (hfits : q.usedBytes + q.reservedBytes + n ≤ q.limitBytes) :
      Admission spaces l fresh spaceId n (l.hold fresh
        (reserveQuota.newReservation n k (some k) (some tenantId) .applicationReserved))
  | shared (space : StorageSpace) (tenantId : Uuid) (tenantQuota : Quota)
      (hspace : spaces.lookup spaceId = some space)
      (hscoped : reserveQuota.scopedQuota l space = none)
      (htenant : activeTenantQuota l.quotas = some (tenantId, tenantQuota))
      (hfits : n ≤ (buildSnapshot tenantQuota
        ((activeApplicationQuotas l.quotas).map Prod.snd)).sharedPoolAvailable) :
      Admission spaces l fresh spaceId n (l.hold fresh
        (reserveQuota.newReservation n tenantId none (some tenantId) .sharedPool))
  | legacy (k : Uuid) (q : Quota) (htenant : activeTenantQuota l.quotas = none)
      (hq : l.quotas.lookup k = some q) (happ : q.applicationId = none) :
      Admission spaces l fresh spaceId n (l.hold fresh
        (reserveQuota.newReservation n k none none .storageSpaceLegacy))

theorem eq_hold_of_insertReservation {fresh id : Uuid} {r : QuotaReservation}
    (h : reserveQuota.insertReservation fresh l r = .ok (id, l')) : l' = l.hold fresh r := by
  unfold reserveQuota.insertReservation at h
  split at h
  · simp at h
  · exact (Prod.mk.inj (Except.ok.inj h)).2.symm

theorem reserveQuota_admission {fresh spaceId id : Uuid} {n : ℤ} {spaces : Table Uuid StorageSpace}
    (h : reserveQuota fresh spaceId n spaces l = .ok (id, l')) :
    Admission spaces l fresh spaceId n l' := by
  unfold reserveQuota at h
  split at h
  · simp at h
  rename_i space hspace
  split at h
  · simp at h
  split at h
  · rename_i htenant
    unfold reserveQuota.reserveLegacy at h
    split at h
    · simp at h
    rename_i legacyId legacyQuota hlegacy
    split at h
    · simp at h
    obtain ⟨hlookup, hp⟩ := AList.lookup_of_selectFirst hlegacy
    simp only [Bool.and_eq_true, Option.isNone_iff_eq_none] at hp
    obtain rfl := eq_hold_of_insertReservation h
    exact .legacy legacyId legacyQuota htenant hlookup hp.1.2
  rename_i tenantId tenantQuota htenant
  split at h
  · rename_i k q hscoped
    split at h
    · simp at h
    rename_i hfits
    push Not at hfits
    obtain rfl := eq_hold_of_insertReservation h
    exact .application space k tenantId q tenantQuota hspace hscoped htenant hfits.1
  · rename_i hscoped
    dsimp only at h
    split at h
    · simp at h
    rename_i hfits
    obtain rfl := eq_hold_of_insertReservation h
    exact .shared space tenantId tenantQuota hspace hscoped htenant (not_lt.mp hfits)

theorem reserveQuota_of_scoped {fresh spaceId k tenantId : Uuid} {n : ℤ}
    {spaces : Table Uuid StorageSpace} {space : StorageSpace} {q tenantQuota : Quota}
    (hspace : spaces.lookup spaceId = some space) (hn : 0 ≤ n)
    (htenant : activeTenantQuota l.quotas = some (tenantId, tenantQuota))
    (hscoped : reserveQuota.scopedQuota l space = some (k, q))
    (hfits : q.usedBytes + q.reservedBytes + n ≤ q.limitBytes)
    (htfits : tenantQuota.usedBytes + tenantQuota.reservedBytes + n ≤ tenantQuota.limitBytes)
    (hfresh : fresh ∉ l.reservations) :
    reserveQuota fresh spaceId n spaces l = .ok (fresh, l.hold fresh
      (reserveQuota.newReservation n k (some k) (some tenantId) .applicationReserved)) := by
  have hroom : ¬ (q.limitBytes < q.usedBytes + q.reservedBytes + n ∨
      tenantQuota.limitBytes < tenantQuota.usedBytes + tenantQuota.reservedBytes + n) :=
    not_or.mpr ⟨not_lt.mpr hfits, not_lt.mpr htfits⟩
  unfold reserveQuota
  simp only [hspace, htenant, hscoped, if_neg (not_lt.mpr hn), gt_iff_lt, if_neg hroom]
  unfold reserveQuota.insertReservation
  rw [if_neg hfresh]

/-- Some quota the reservation names is missing or has no room for `actual` bytes. -/
def Overcharged (l : Ledger) (r : QuotaReservation) (actual : ℕ) : Prop :=
  ∃ k ∈ r.quotaIds, ∀ q, l.quotas.lookup k = some q → q.limitBytes < q.usedBytes + actual

/-- The count the settlement compares tells whether every named quota exists. -/
theorem length_select_quotaIds {r : QuotaReservation} :
    (l.quotas.select fun k _ ↦ r.quotaIds.contains k).length = r.quotaIds.length ↔
      ∀ k ∈ r.quotaIds, k ∈ l.quotas := by
  let ks := (l.quotas.select fun k _ ↦ r.quotaIds.contains k).map Prod.fst
  have hmem : ∀ k, k ∈ ks ↔ k ∈ r.quotaIds ∧ k ∈ l.quotas := by
    intro k
    rw [AList.mem_keys_select]
    constructor
    · rintro ⟨q, hq, hk⟩
      exact ⟨by simpa using hk, AList.mem_of_lookup hq⟩
    · rintro ⟨hk, hq⟩
      obtain ⟨q, hq⟩ := AList.exists_lookup_of_mem hq
      exact ⟨q, hq, by simpa using hk⟩
  have hsub : ks.Subperm r.quotaIds :=
    (AList.nodup_keys_select _ _).subperm fun k hk ↦ ((hmem k).mp hk).1
  rw [← List.length_map (f := Prod.fst)]
  constructor
  · intro hlength k hk
    have hperm := hsub.perm_of_length_le hlength.ge
    exact ((hmem k).mp (hperm.mem_iff.mpr hk)).2
  · intro h
    have hsup : r.quotaIds.Subperm ks :=
      r.nodup_quotaIds.subperm fun k hk ↦ (hmem k).mpr ⟨hk, h k hk⟩
    exact le_antisymm hsub.length_le hsup.length_le

/-- The settlement goes through untouched, is refused, or charges every named quota. -/
inductive Settlement (now : Timestamp) (row : IngestionRecord) (l : Ledger) :
    Bool × Ledger → Prop
  | unreserved (h : l.openReservation row.quotaReservationId = none) :
      Settlement now row l (true, l)
  | refused (id : Uuid) (r : QuotaReservation)
      (h : l.openReservation row.quotaReservationId = some (id, r))
      (hover : Overcharged l r (row.actualSize.getD 0)) :
      Settlement now row l (false, l)
  | charged (id : Uuid) (r : QuotaReservation)
      (h : l.openReservation row.quotaReservationId = some (id, r))
      (hfits : ¬ Overcharged l r (row.actualSize.getD 0)) :
      Settlement now row l (true, l.settle now id r (row.actualSize.getD 0 : ℕ))

theorem settlement (now : Timestamp) (row : IngestionRecord) (l : Ledger) :
    Settlement now row l (settleQuotaReservation now row l) := by
  unfold settleQuotaReservation
  split
  · rename_i hnone
    exact .unreserved hnone
  · rename_i id r hopen
    dsimp only
    split
    · rename_i hlength
      have hmissing := mt length_select_quotaIds.mpr hlength
      push Not at hmissing
      obtain ⟨k, hk, hmissing⟩ := hmissing
      exact .refused id r hopen ⟨k, hk, fun q hq ↦ absurd (AList.mem_of_lookup hq) hmissing⟩
    · rename_i hlength
      have hexists := length_select_quotaIds.mp (not_not.mp hlength)
      split
      · rename_i hany
        obtain ⟨⟨k, q⟩, hmem, hlt⟩ := List.any_eq_true.mp hany
        obtain ⟨hq, hk⟩ := AList.mem_select_iff.mp hmem
        refine .refused id r hopen ⟨k, by simpa using hk, fun q' hq' ↦ ?_⟩
        rw [← Option.some.inj (hq.symm.trans hq')]
        simpa using hlt
      · rename_i hfits
        refine .charged id r hopen ?_
        rintro ⟨k, hk, hover⟩
        obtain ⟨q, hq⟩ := AList.exists_lookup_of_mem (hexists k hk)
        refine hfits (List.any_eq_true.mpr ⟨(k, q), ?_, by simpa using hover q hq⟩)
        exact AList.mem_select_iff.mpr ⟨hq, by simpa using hk⟩

end Specification

end S3mp.Files
