import S3mp.Governance.Quota
import S3mp.Relational.Table

/-!
# The quota ledger

The quota, reservation and adjustment rows of one tenant and the three ways in
which a reservation touches them: it is held against the quotas it names, it is
settled into usage, or it is closed without usage.  Every quota transaction of
the file stores is one of these, a release of usage, or a change of limits.
-/

namespace S3mp.Governance

open Relational

structure Ledger where
  quotas : Table Uuid Quota
  reservations : Table Uuid QuotaReservation
  adjustments : List QuotaAdjustment

def Quota.addReserved (n : ℤ) (q : Quota) : Quota :=
  { q with reservedBytes := q.reservedBytes + n }

def Quota.subReserved (n : ℤ) (q : Quota) : Quota :=
  { q with reservedBytes := q.reservedBytes - n }

/-- What the reaper does to each quota: the value is clamped at zero. -/
def Quota.subReservedClamped (n : ℤ) (q : Quota) : Quota :=
  { q with reservedBytes := max (q.reservedBytes - n) 0 }

def Quota.settleBytes (requested actual : ℤ) (q : Quota) : Quota :=
  { q with
    reservedBytes := q.reservedBytes - requested
    usedBytes := q.usedBytes + actual }

def Quota.subUsed (n : ℤ) (q : Quota) : Quota :=
  { q with usedBytes := q.usedBytes - n }

namespace Ledger

/-- An adjustment of this file and quota has been written under the tag. -/
def adjusted (l : Ledger) (reason : AdjustmentReason) (fileId quotaId : Uuid) : Bool :=
  l.adjustments.any fun a ↦ a.reason = reason && a.fileObjectId = fileId && a.quotaId = quotaId

def updateQuotas (ids : List Uuid) (f : Quota → Quota) (l : Ledger) : Ledger :=
  { l with quotas := l.quotas.updateWhere (fun id _ ↦ ids.contains id) f }

def hold (id : Uuid) (r : QuotaReservation) (l : Ledger) : Ledger :=
  { l.updateQuotas r.quotaIds (Quota.addReserved r.requestedBytes) with
    reservations := l.reservations.insert id r }

def settle (now : Timestamp) (id : Uuid) (r : QuotaReservation) (actual : ℤ)
    (l : Ledger) : Ledger :=
  { l.updateQuotas r.quotaIds (Quota.settleBytes r.requestedBytes actual) with
    reservations := l.reservations.update id fun r ↦
      { r with actualBytes := some actual, status := .settled, settledAt := some now } }

/-- Gives a reservation back.  `sub` is how the caller takes the requested bytes
off each quota, `status` what it leaves the reservation in. -/
def close (sub : ℤ → Quota → Quota) (status : ReservationStatus) (now : Timestamp) (id : Uuid)
    (r : QuotaReservation) (l : Ledger) : Ledger :=
  { l.updateQuotas r.quotaIds (sub r.requestedBytes) with
    reservations := l.reservations.update id fun r ↦
      { r with status := status, settledAt := some now } }

/-- The reservation a row names, as long as it is still `reserved`. -/
def openReservation (l : Ledger) (id : Option Uuid) : Option (Uuid × QuotaReservation) :=
  match id with
  | none => none
  | some id =>
    match l.reservations.lookup id with
    | none => none
    | some r => if r.status = .reserved then some (id, r) else none

theorem openReservation_eq_some {l : Ledger} {ref : Option Uuid} {id : Uuid}
    {r : QuotaReservation} :
    l.openReservation ref = some (id, r) ↔
      ref = some id ∧ l.reservations.lookup id = some r ∧ r.status = .reserved := by
  cases ref with
  | none => simp [openReservation]
  | some j =>
      cases hj : l.reservations.lookup j with
      | none =>
          simp only [openReservation, hj, reduceCtorEq, Option.some.injEq, false_iff, not_and]
          rintro rfl hid
          simp [hj] at hid
      | some s =>
          by_cases hs : s.status = .reserved
          · simp only [openReservation, hj, hs, if_true, Option.some.injEq, Prod.mk.injEq]
            constructor
            · rintro ⟨rfl, rfl⟩
              exact ⟨rfl, hj, hs⟩
            · rintro ⟨rfl, hid, -⟩
              exact ⟨rfl, Option.some.inj (hj.symm.trans hid)⟩
          · simp only [openReservation, hj, hs, if_false, reduceCtorEq, Option.some.injEq,
              false_iff, not_and]
            rintro rfl hid hr
            rw [hj, Option.some.injEq] at hid
            exact hs (hid ▸ hr)

section Lookup

variable {l : Ledger}

theorem lookup_updateQuotas (ids : List Uuid) (f : Quota → Quota) (l : Ledger) (k : Uuid) :
    (l.updateQuotas ids f).quotas.lookup k =
      (l.quotas.lookup k).map fun q ↦ if k ∈ ids then f q else q := by
  simp [updateQuotas, AList.lookup_updateWhere]

@[simp] theorem mem_updateQuotas {ids : List Uuid} {f : Quota → Quota} {k : Uuid} :
    k ∈ (l.updateQuotas ids f).quotas ↔ k ∈ l.quotas :=
  AList.mem_updateWhere

end Lookup

end Ledger

/-- The reservation exists and is no longer `reserved`. -/
def Ledger.Closed (l : Ledger) (ref : Option Uuid) : Prop :=
  ∃ id r, ref = some id ∧ l.reservations.lookup id = some r ∧ r.status ≠ .reserved

theorem Ledger.Closed.openReservation_eq_none {l : Ledger} {ref : Option Uuid}
    (h : l.Closed ref) : l.openReservation ref = none := by
  obtain ⟨id, r, rfl, hid, hclosed⟩ := h
  simp [openReservation, hid, hclosed]

/-- Every quota has non-negative columns, and the active ones stay within their limits. -/
def Ledger.WithinLimits (l : Ledger) : Prop :=
  ∀ k q, l.quotas.lookup k = some q → q.NonNeg ∧ (q.status = .active → q.WithinLimit)

/-- What the admission check of a new reservation establishes. -/
structure Ledger.Admits (l : Ledger) (id : Uuid) (r : QuotaReservation) : Prop where
  fresh : id ∉ l.reservations
  opened : r.status = .reserved
  nonneg : 0 ≤ r.requestedBytes
  named : ∀ k ∈ r.quotaIds, k ∈ l.quotas
  fits : l.WithinLimits → ∀ k q, k ∈ r.quotaIds → l.quotas.lookup k = some q →
    q.status = .active → q.usedBytes + q.reservedBytes + r.requestedBytes ≤ q.limitBytes

/-! ## Balance of the reserved column -/

/-- The bytes a reservation holds on one quota. -/
def QuotaReservation.heldOn (quotaId : Uuid) (r : QuotaReservation) : ℤ :=
  if r.status = .reserved ∧ quotaId ∈ r.quotaIds then r.requestedBytes else 0

/-- Every quota's reserved bytes are the requested bytes of the reservations still
`reserved` which name it. -/
structure Ledger.Balanced (l : Ledger) : Prop where
  named : ∀ id r, l.reservations.lookup id = some r → ∀ k ∈ r.quotaIds, k ∈ l.quotas
  requested_nonneg : ∀ id r, l.reservations.lookup id = some r → 0 ≤ r.requestedBytes
  balance : ∀ k q, l.quotas.lookup k = some q →
    q.reservedBytes = l.reservations.total fun _ r ↦ r.heldOn k

namespace Ledger

variable {l : Ledger} {id : Uuid} {r : QuotaReservation} {now : Timestamp}

theorem Balanced.heldOn_nonneg (hl : l.Balanced) (k : Uuid) :
    ∀ id r, l.reservations.lookup id = some r → 0 ≤ r.heldOn k := by
  intro id r hid
  unfold QuotaReservation.heldOn
  split
  · exact hl.requested_nonneg id r hid
  · exact le_rfl

theorem Balanced.reserved_nonneg (hl : l.Balanced) {k : Uuid} {q : Quota}
    (hk : l.quotas.lookup k = some q) : 0 ≤ q.reservedBytes := by
  rw [hl.balance k q hk]
  exact AList.total_nonneg (hl.heldOn_nonneg k)

/-- What a reservation still holds is part of the reserved bytes of each quota it names. -/
theorem Balanced.requested_le_reserved (hl : l.Balanced)
    (hid : l.reservations.lookup id = some r) (hopen : r.status = .reserved) {k : Uuid}
    {q : Quota} (hk : l.quotas.lookup k = some q) (hnamed : k ∈ r.quotaIds) :
    r.requestedBytes ≤ q.reservedBytes := by
  have hheld : r.heldOn k = r.requestedBytes := by
    simp [QuotaReservation.heldOn, hopen, hnamed]
  rw [hl.balance k q hk, ← hheld]
  exact AList.le_total (w := fun _ s ↦ s.heldOn k) (hl.heldOn_nonneg k) hid

theorem Balanced.close_clamped (hl : l.Balanced) (hid : l.reservations.lookup id = some r)
    (hopen : r.status = .reserved) (status : ReservationStatus) :
    l.close Quota.subReservedClamped status now id r =
      l.close Quota.subReserved status now id r := by
  have hquotas : l.updateQuotas r.quotaIds (Quota.subReservedClamped r.requestedBytes) =
      l.updateQuotas r.quotaIds (Quota.subReserved r.requestedBytes) := by
    simp only [updateQuotas]
    congr 1
    apply AList.updateWhere_congr
    intro k q hk hnamed
    have hle := hl.requested_le_reserved hid hopen hk (by simpa using hnamed)
    simp only [Quota.subReservedClamped, Quota.subReserved]
    congr 1
    omega
  simp only [close, hquotas]

theorem Balanced.hold (hl : l.Balanced) (hr : l.Admits id r) : (l.hold id r).Balanced where
  named := by
    intro j s hj k hk
    rw [Ledger.hold, AList.lookup_insert'] at hj
    rw [Ledger.hold, mem_updateQuotas]
    split at hj
    · cases hj
      exact hr.named k hk
    · exact hl.named j s hj k hk
  requested_nonneg := by
    intro j s hj
    rw [Ledger.hold, AList.lookup_insert'] at hj
    split at hj
    · cases hj
      exact hr.nonneg
    · exact hl.requested_nonneg j s hj
  balance := by
    intro k q hk
    rw [Ledger.hold, lookup_updateQuotas, Option.map_eq_some_iff] at hk
    obtain ⟨q₀, hk, rfl⟩ := hk
    rw [Ledger.hold, AList.total_insert hr.fresh, ← hl.balance k q₀ hk]
    by_cases hmem : k ∈ r.quotaIds
    · simp [hmem, Quota.addReserved, QuotaReservation.heldOn, hr.opened]
    · simp [hmem, QuotaReservation.heldOn]

/-- Any update which takes what the reservation holds off the quotas it names and
leaves it in another status keeps the balance. -/
theorem Balanced.of_taken (hl : l.Balanced) (hid : l.reservations.lookup id = some r)
    (hopen : r.status = .reserved) {f : Quota → Quota} {g : QuotaReservation → QuotaReservation}
    (hf : ∀ q, (f q).reservedBytes = q.reservedBytes - r.requestedBytes)
    (hg : (g r).status ≠ .reserved) (hgids : ∀ s, (g s).quotaIds = s.quotaIds)
    (hgreq : ∀ s, (g s).requestedBytes = s.requestedBytes) :
    Balanced { l.updateQuotas r.quotaIds f with
      reservations := l.reservations.update id g } where
  named := by
    intro j s hj k hk
    rw [AList.lookup_update] at hj
    rw [mem_updateQuotas]
    split at hj
    · rw [hid, Option.map_some, Option.some.injEq] at hj
      subst hj
      exact hl.named id r hid k (by rwa [hgids] at hk)
    · exact hl.named j s hj k hk
  requested_nonneg := by
    intro j s hj
    rw [AList.lookup_update] at hj
    split at hj
    · rw [hid, Option.map_some, Option.some.injEq] at hj
      subst hj
      rw [hgreq]
      exact hl.requested_nonneg id r hid
    · exact hl.requested_nonneg j s hj
  balance := by
    intro k q hk
    rw [lookup_updateQuotas, Option.map_eq_some_iff] at hk
    obtain ⟨q₀, hk, rfl⟩ := hk
    rw [AList.total_update hid, ← hl.balance k q₀ hk]
    by_cases hmem : k ∈ r.quotaIds
    · simp [hmem, hf, QuotaReservation.heldOn, hopen, hg]
    · simp [hmem, QuotaReservation.heldOn, hgids]

theorem Balanced.settle (hl : l.Balanced) (hid : l.reservations.lookup id = some r)
    (hopen : r.status = .reserved) (actual : ℤ) : (l.settle now id r actual).Balanced :=
  hl.of_taken hid hopen (fun _ ↦ rfl) (by simp) (fun _ ↦ rfl) fun _ ↦ rfl

theorem Balanced.close (hl : l.Balanced) (hid : l.reservations.lookup id = some r)
    (hopen : r.status = .reserved) {status : ReservationStatus} (hstatus : status ≠ .reserved) :
    (l.close Quota.subReserved status now id r).Balanced :=
  hl.of_taken hid hopen (fun _ ↦ rfl) hstatus (fun _ ↦ rfl) fun _ ↦ rfl

/-- Changes of limits, statuses and usage, and new quotas, do not touch the balance. -/
theorem Balanced.of_amended {l' : Ledger} (hl : l.Balanced)
    (hres : l'.reservations = l.reservations) (hkeep : ∀ k, k ∈ l.quotas → k ∈ l'.quotas)
    (hold : ∀ k q', l'.quotas.lookup k = some q' →
      (∃ q, l.quotas.lookup k = some q ∧ q'.reservedBytes = q.reservedBytes) ∨
        (k ∉ l.quotas ∧ q'.reservedBytes = 0)) : l'.Balanced where
  named := by
    intro id r hid k hk
    rw [hres] at hid
    exact hkeep k (hl.named id r hid k hk)
  requested_nonneg := by
    intro id r hid
    rw [hres] at hid
    exact hl.requested_nonneg id r hid
  balance := by
    intro k q' hk
    rw [hres]
    rcases hold k q' hk with ⟨q, hq, hsame⟩ | ⟨hnew, hzero⟩
    · rw [hsame, hl.balance k q hq]
    · have hnone : l.reservations.total (fun _ r ↦ r.heldOn k) = 0 := by
        refine AList.total_eq_zero fun id r hid ↦ ?_
        have hnotin : k ∉ r.quotaIds := fun hmem ↦ hnew (hl.named id r hid k hmem)
        simp [QuotaReservation.heldOn, hnotin]
      rw [hzero, hnone]

/-! ## Effects -/

/-- What one transaction can do to the ledger. -/
inductive Effect (l : Ledger) : Ledger → Prop
  | amend (l' : Ledger) (hres : l'.reservations = l.reservations)
      (hkeep : ∀ k, k ∈ l.quotas → k ∈ l'.quotas)
      (hold : ∀ k q', l'.quotas.lookup k = some q' →
        (∃ q, l.quotas.lookup k = some q ∧ q'.reservedBytes = q.reservedBytes) ∨
          (k ∉ l.quotas ∧ q'.reservedBytes = 0)) : Effect l l'
  | hold (id : Uuid) (r : QuotaReservation) (hr : l.Admits id r) : Effect l (l.hold id r)
  | settle (now : Timestamp) (id : Uuid) (r : QuotaReservation) (actual : ℕ)
      (hid : l.reservations.lookup id = some r) (hopen : r.status = .reserved) :
      Effect l (l.settle now id r actual)
  | close (now : Timestamp) (id : Uuid) (r : QuotaReservation) (status : ReservationStatus)
      (hid : l.reservations.lookup id = some r) (hopen : r.status = .reserved)
      (hstatus : status ≠ .reserved) : Effect l (l.close Quota.subReserved status now id r)

theorem Effect.refl (l : Ledger) : Effect l l :=
  .amend l rfl (fun _ hk ↦ hk) fun _ q hq ↦ Or.inl ⟨q, hq, rfl⟩

theorem Effect.of_lookup {l l' : Ledger} {g : Uuid → Quota → Quota}
    (hres : l'.reservations = l.reservations)
    (hlookup : ∀ k, l'.quotas.lookup k = (l.quotas.lookup k).map (g k))
    (hg : ∀ k q, (g k q).reservedBytes = q.reservedBytes) : Effect l l' := by
  refine .amend l' hres ?_ ?_
  · intro k hk
    rw [← AList.lookup_isSome, hlookup, Option.isSome_map, AList.lookup_isSome]
    exact hk
  · intro k q' hq'
    rw [hlookup, Option.map_eq_some_iff] at hq'
    obtain ⟨q, hq, rfl⟩ := hq'
    exact Or.inl ⟨q, hq, hg k q⟩

theorem Effect.of_update {l : Ledger} {id : Uuid} {f : Quota → Quota}
    (hf : ∀ q, (f q).reservedBytes = q.reservedBytes) :
    Effect l { l with quotas := l.quotas.update id f } := by
  refine .of_lookup (g := fun k q ↦ if k = id then f q else q) rfl (fun k ↦ ?_) fun k q ↦ ?_
  · dsimp only
    by_cases hk : k = id
    · subst hk
      simp
    · simp [hk, AList.lookup_update_of_ne hk]
  · split
    · exact hf q
    · rfl

theorem Effect.of_insert {l : Ledger} {id : Uuid} {q : Quota} (hfresh : id ∉ l.quotas)
    (hq : q.reservedBytes = 0) : Effect l { l with quotas := l.quotas.insert id q } := by
  refine .amend _ rfl (fun k hk ↦ AList.mem_insert'.mpr (Or.inr hk)) fun k q' hk ↦ ?_
  rw [AList.lookup_insert'] at hk
  split at hk
  · rename_i hid
    cases hk
    exact Or.inr ⟨hid ▸ hfresh, hq⟩
  · exact Or.inl ⟨q', hk, rfl⟩

theorem Balanced.effect {l' : Ledger} (hl : l.Balanced) (h : Effect l l') : l'.Balanced := by
  cases h with
  | amend _ hres hkeep hold => exact hl.of_amended hres hkeep hold
  | hold id r hr => exact hl.hold hr
  | settle now id r actual hid hopen => exact hl.settle hid hopen actual
  | close now id r status hid hopen hstatus => exact hl.close hid hopen hstatus

/-- No reservation row is ever removed. -/
theorem Effect.mem_reservations {l' : Ledger} (h : Effect l l') (hid : id ∈ l.reservations) :
    id ∈ l'.reservations := by
  cases h with
  | amend _ hres _ _ => rwa [hres]
  | hold id' r' hr => exact AList.mem_insert'.mpr (Or.inr hid)
  | settle | close => exact AList.mem_update.mpr hid

/-- A reservation which has left `reserved` is never written again. -/
theorem Effect.frozen {l' : Ledger} (h : Effect l l') (hid : l.reservations.lookup id = some r)
    (hclosed : r.status ≠ .reserved) : l'.reservations.lookup id = some r := by
  cases h with
  | amend _ hres _ _ => rw [hres, hid]
  | hold id' r' hr =>
      have hne : id ≠ id' := by
        rintro rfl
        exact hr.fresh (AList.mem_of_lookup hid)
      rw [Ledger.hold, AList.lookup_insert', if_neg hne, hid]
  | settle now id' r' actual hid' hopen =>
      have hne : id ≠ id' := by
        rintro rfl
        exact hclosed (Option.some.inj (hid.symm.trans hid') ▸ hopen)
      rw [Ledger.settle, AList.lookup_update_of_ne hne, hid]
  | close now id' r' status hid' hopen hstatus =>
      have hne : id ≠ id' := by
        rintro rfl
        exact hclosed (Option.some.inj (hid.symm.trans hid') ▸ hopen)
      rw [Ledger.close, AList.lookup_update_of_ne hne, hid]

end Ledger

end S3mp.Governance
