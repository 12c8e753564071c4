import S3mp.Common.Basic
import Mathlib.Algebra.BigOperators.Group.List.Basic
import Mathlib.Algebra.Order.BigOperators.Group.List
import Mathlib.Data.List.Dedup
import Mathlib.Tactic.Linarith

/-!
# Quota rows and allocation snapshots

The rows of `governance/infrastructure/models.py` and the pool arithmetic of
`governance/domain/allocation.py`.  Byte counts are signed: nothing in the
schema keeps a ledger column from going negative, so that it never does is a
theorem about the code and not a property of the type.
-/

namespace S3mp.Governance

inductive QuotaStatus where
  | active | suspended | revoked | legacy
  deriving DecidableEq, Repr

inductive QuotaAllocationMode where
  | tenantTotal | applicationReserved | storageSpaceLegacy
  deriving DecidableEq, Repr

structure Quota where
  storageSpaceId : Option Uuid
  applicationId : Option Uuid
  limitBytes : ℤ
  usedBytes : ℤ
  reservedBytes : ℤ
  allocationMode : QuotaAllocationMode
  status : QuotaStatus
  deriving DecidableEq, Repr

inductive ReservationStatus where
  | reserved | settled | released | quarantined
  deriving DecidableEq, Repr

inductive ReservationMode where
  | sharedPool | applicationReserved | storageSpaceLegacy
  deriving DecidableEq, Repr

structure QuotaReservation where
  quotaId : Uuid
  applicationQuotaId : Option Uuid
  tenantQuotaId : Option Uuid
  allocationMode : ReservationMode
  requestedBytes : ℤ
  actualBytes : Option ℤ
  status : ReservationStatus
  settledAt : Option Timestamp
  deriving DecidableEq, Repr

/-- The set comprehension over the three id columns which every settlement,
release and reap evaluates. -/
def QuotaReservation.quotaIds (r : QuotaReservation) : List Uuid :=
  ([some r.quotaId, r.applicationQuotaId, r.tenantQuotaId].filterMap id).dedup

theorem QuotaReservation.mem_quotaIds {r : QuotaReservation} {k : Uuid} :
    k ∈ r.quotaIds ↔
      k = r.quotaId ∨ r.applicationQuotaId = some k ∨ r.tenantQuotaId = some k := by
  simp only [QuotaReservation.quotaIds, List.mem_dedup, List.mem_filterMap, List.mem_cons,
    List.not_mem_nil, or_false, id_eq, exists_eq_right, Option.some.injEq]
  rw [eq_comm, eq_comm (b := r.applicationQuotaId), eq_comm (b := r.tenantQuotaId)]

theorem QuotaReservation.nodup_quotaIds (r : QuotaReservation) : r.quotaIds.Nodup :=
  List.nodup_dedup _

inductive AdjustmentReason where
  | fileDeleted | fileRetentionPurged
  deriving DecidableEq, Repr

/-- `QuotaAdjustmentModel`; its idempotency key is made of the file and the quota
under a tag for the reason. -/
structure QuotaAdjustment where
  quotaId : Uuid
  fileObjectId : Uuid
  deltaBytes : ℤ
  reason : AdjustmentReason
  deriving DecidableEq, Repr

def Quota.isTenantTotal (q : Quota) : Bool :=
  q.applicationId.isNone && q.storageSpaceId.isNone

/-! ## Allocation snapshot -/

structure AllocationSnapshot where
  tenantLimit : ℤ
  tenantUsed : ℤ
  tenantReserved : ℤ
  allocatedApplicationLimit : ℤ
  allocatedApplicationUsed : ℤ
  allocatedApplicationReserved : ℤ
  deriving DecidableEq, Repr

namespace AllocationSnapshot

def sharedPoolLimit (s : AllocationSnapshot) : ℤ :=
  max (s.tenantLimit - s.allocatedApplicationLimit) 0

def sharedPoolUsed (s : AllocationSnapshot) : ℤ :=
  max (s.tenantUsed - s.allocatedApplicationUsed) 0

def sharedPoolReserved (s : AllocationSnapshot) : ℤ :=
  max (s.tenantReserved - s.allocatedApplicationReserved) 0

def sharedPoolAvailable (s : AllocationSnapshot) : ℤ :=
  max (s.sharedPoolLimit - s.sharedPoolUsed - s.sharedPoolReserved) 0

end AllocationSnapshot

def buildSnapshot (tenant : Quota) (applications : List Quota) : AllocationSnapshot where
  tenantLimit := max tenant.limitBytes 0
  tenantUsed := max tenant.usedBytes 0
  tenantReserved := max tenant.reservedBytes 0
  allocatedApplicationLimit := (applications.map fun q ↦ max q.limitBytes 0).sum
  allocatedApplicationUsed := (applications.map fun q ↦ max q.usedBytes 0).sum
  allocatedApplicationReserved := (applications.map fun q ↦ max q.reservedBytes 0).sum

def Quota.WithinLimit (q : Quota) : Prop :=
  q.usedBytes + q.reservedBytes ≤ q.limitBytes

instance (q : Quota) : Decidable q.WithinLimit :=
  inferInstanceAs (Decidable (_ ≤ _))

def Quota.NonNeg (q : Quota) : Prop :=
  0 ≤ q.usedBytes ∧ 0 ≤ q.reservedBytes

theorem sum_within_limit {applications : List Quota}
    (hwithin : ∀ q ∈ applications, q.WithinLimit) (hnonneg : ∀ q ∈ applications, q.NonNeg) :
    (applications.map fun q ↦ max q.usedBytes 0).sum +
        (applications.map fun q ↦ max q.reservedBytes 0).sum ≤
      (applications.map fun q ↦ max q.limitBytes 0).sum := by
  induction applications with
  | nil => simp
  | cons q qs ih =>
      have hq := hwithin q List.mem_cons_self
      have hn := hnonneg q List.mem_cons_self
      have hrest := ih (fun p hp ↦ hwithin p (List.mem_cons_of_mem q hp))
        (fun p hp ↦ hnonneg p (List.mem_cons_of_mem q hp))
      simp only [Quota.WithinLimit] at hq
      simp only [Quota.NonNeg] at hn
      simp only [List.map_cons, List.sum_cons]
      omega

/-- A request which fits the shared pool fits the tenant total, provided the
application quotas carved out of it are themselves within their limits. -/
theorem tenant_fits_of_sharedPoolAvailable {tenant : Quota} {applications : List Quota} {n : ℤ}
    (htenant : tenant.NonNeg) (hwithin : ∀ q ∈ applications, q.WithinLimit)
    (hnonneg : ∀ q ∈ applications, q.NonNeg) (hpos : 0 < n)
    (hfits : n ≤ (buildSnapshot tenant applications).sharedPoolAvailable) :
    tenant.usedBytes + tenant.reservedBytes + n ≤ tenant.limitBytes := by
  have hsum := sum_within_limit hwithin hnonneg
  simp only [AllocationSnapshot.sharedPoolAvailable, AllocationSnapshot.sharedPoolLimit,
    AllocationSnapshot.sharedPoolUsed, AllocationSnapshot.sharedPoolReserved,
    buildSnapshot] at hfits
  simp only [Quota.NonNeg] at htenant
  omega

end S3mp.Governance
