import S3mp.Relational.Table
import S3mp.Storage.Policy

/-!
# Manifests of the provider migration

`provider_migration.py` and the rows it plans for: a manifest says where the object of a legacy
record lies and where it is to lie.
-/

namespace S3mp.Migration

open Files Relational Storage

inductive RecordType where
  | fileObject | uploadSession | multipartSession | ingestion | fileOperation
  deriving DecidableEq, Repr

inductive ManifestState where
  | pendingReview | quarantined | readyForVerifiedCopy | copiedVerified | cleanupCompleted
  deriving DecidableEq, Repr

structure Manifest where
  tenantId : Uuid
  storageSpaceId : Option Uuid
  recordType : RecordType
  recordId : Uuid
  state : ManifestState
  sourceBucket : Option String
  sourceKey : Option String
  targetBucket : Option String
  targetKey : Option String
  reason : Option String
  deriving DecidableEq, Repr

/-- What the executor reads and writes of an ingestion record. -/
structure MigratedRecord where
  tenantId : Uuid
  bucket : String
  physicalKey : String
  providerTargetVersion : ℕ
  deriving DecidableEq, Repr

/-! ## Plans -/

structure LegacyRecord where
  recordType : RecordType
  recordId : Uuid
  tenantId : Uuid
  sourceBucket : Option String
  sourceKey : Option String
  relativeKey : Option String
  deriving DecidableEq, Repr

/-- A plan which names no target. -/
def LegacyRecord.heldBack (r : LegacyRecord) (spaceId : Option Uuid) (state : ManifestState)
    (reason : String) : Manifest :=
  ⟨r.tenantId, spaceId, r.recordType, r.recordId, state, r.sourceBucket, r.sourceKey, none, none,
    some reason⟩

def classifyLegacyTarget (r : LegacyRecord) (storageSpace : Option (Uuid × StorageSpace))
    (overlappingSpaceIds : List Uuid) : Manifest :=
  match storageSpace with
  | none => r.heldBack none .quarantined "storage_space_missing"
  | some (spaceId, space) =>
    if spaceId ∈ overlappingSpaceIds then
      r.heldBack (some spaceId) .quarantined "overlapping_legacy_root"
    else
      match truthy r.relativeKey with
      | none => r.heldBack (some spaceId) .pendingReview "relative_key_not_proven"
      | some relativeKey =>
        if r.sourceBucket.any (· ≠ space.bucket) then
          r.heldBack (some spaceId) .quarantined "source_bucket_mismatch"
        else
          match deriveProviderTarget r.tenantId spaceId { space with providerTargetVersion := 1 }
            relativeKey with
          | none => r.heldBack (some spaceId) .quarantined "relative_key_invalid"
          | some target =>
            ⟨r.tenantId, some spaceId, r.recordType, r.recordId, .readyForVerifiedCopy,
              r.sourceBucket, r.sourceKey, some target.bucket, some target.key,
              some "verified_mapping_required"⟩

/-- `record_manifests` for one plan: a record gets only one manifest. -/
def recordManifest (fresh : Uuid) (plan : Manifest) (manifests : Table Uuid Manifest) :
    Table Uuid Manifest :=
  if manifests.anyRow fun _ m ↦ m.tenantId = plan.tenantId && m.recordType = plan.recordType &&
      m.recordId = plan.recordId then manifests
  else manifests.insert fresh plan

/-! ## Locations -/

/-- `_target`. -/
def targetOf (bucket key : Option String) : Option ProviderTarget := do
  let bucket ← truthy bucket
  let key ← truthy key
  return ⟨bucket, key, 1⟩

def Manifest.source (m : Manifest) : Option ProviderTarget := targetOf m.sourceBucket m.sourceKey

def Manifest.target (m : Manifest) : Option ProviderTarget := targetOf m.targetBucket m.targetKey

def MigratedRecord.location (r : MigratedRecord) : ProviderTarget := ⟨r.bucket, r.physicalKey, 1⟩

/-- The record has been promoted with its manifest. -/
def ManifestState.promoted (state : ManifestState) : Bool :=
  state ∈ [.copiedVerified, .cleanupCompleted]

/-- A plan promotes nothing. -/
theorem classifyLegacyTarget_promoted (r : LegacyRecord)
    (storageSpace : Option (Uuid × StorageSpace)) (overlappingSpaceIds : List Uuid) :
    (classifyLegacyTarget r storageSpace overlappingSpaceIds).state.promoted = false := by
  unfold classifyLegacyTarget
  split
  · rfl
  split
  · rfl
  split
  · rfl
  split
  · rfl
  split
  · rfl
  · rfl

end S3mp.Migration
