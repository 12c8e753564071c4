import S3mp.Authorization.Evaluator
import S3mp.Common.Uuids
import S3mp.Files.Rows

/-!
# Provider targets

The server derives the location of an object from the storage space and the
relative key: the namespace of the application, an optional operator prefix and
the key.  Distinct keys of one space lie at distinct locations.
-/

namespace S3mp.Storage

open Authorization Files

structure ProviderTarget where
  bucket : String
  key : String
  version : ℕ
  deriving DecidableEq, Repr

/-- `canonical_object_key`: a key which is not canonical is a policy error. -/
def canonicalObjectKey (key : String) (allowEmpty : Bool) : Option String :=
  if key = "" ∧ allowEmpty = false then none
  else if isCanonicalPrefix key then some key
  else none

/-- The namespace of a space no application has been assigned to. -/
def legacyNamespace (tenantId spaceId : Uuid) (version : ℕ) : String :=
  "v" ++ toString version ++ "/tenants/" ++ uuidText tenantId ++ "/spaces/" ++ uuidText spaceId

def namespaceOf (tenantId spaceId : Uuid) (space : StorageSpace) : String :=
  (truthy space.storageNamespace).getD
    (legacyNamespace tenantId spaceId space.providerTargetVersion)

/-- Joins two path segments; an empty one leaves no slash. -/
def joinKey (base segment : String) : String :=
  if segment = "" then base else base ++ "/" ++ segment

def deriveProviderTarget (tenantId spaceId : Uuid) (space : StorageSpace) (relativeKey : String) :
    Option ProviderTarget :=
  if space.providerTargetVersion ≠ 1 then none
  else if space.bucket = "" ∨ '/' ∈ space.bucket.toList ∨ '\\' ∈ space.bucket.toList then none
  else do
    let relative ← canonicalObjectKey relativeKey true
    let operatorPrefix ← canonicalObjectKey space.rootPrefix true
    if !isCanonicalPrefix (namespaceOf tenantId spaceId space) then none
    else some ⟨space.bucket,
      joinKey (joinKey (namespaceOf tenantId spaceId space) operatorPrefix) relative,
      space.providerTargetVersion⟩

theorem canonicalObjectKey_eq_some {key key' : String} {allowEmpty : Bool}
    (h : canonicalObjectKey key allowEmpty = some key') : key' = key := by
  unfold canonicalObjectKey at h
  split at h
  · cases h
  split at h
  · exact (Option.some.inj h).symm
  · cases h

theorem deriveProviderTarget_eq_some {tenantId spaceId : Uuid} {space : StorageSpace}
    {relativeKey : String} {t : ProviderTarget}
    (h : deriveProviderTarget tenantId spaceId space relativeKey = some t) :
    t = ⟨space.bucket,
      joinKey (joinKey (namespaceOf tenantId spaceId space) space.rootPrefix) relativeKey,
      space.providerTargetVersion⟩ := by
  unfold deriveProviderTarget at h
  split at h
  · cases h
  split at h
  · cases h
  obtain ⟨relative, hrelative, h⟩ := Option.bind_eq_some_iff.mp h
  obtain ⟨operatorPrefix, hroot, h⟩ := Option.bind_eq_some_iff.mp h
  obtain rfl := canonicalObjectKey_eq_some hrelative
  obtain rfl := canonicalObjectKey_eq_some hroot
  split at h
  · cases h
  · exact (Option.some.inj h).symm

theorem joinKey_inj {base key key' : String} (hkey : key ≠ "") (hkey' : key' ≠ "") :
    joinKey base key = joinKey base key' ↔ key = key' := by
  simp [joinKey, hkey, hkey']

/-- Distinct keys of one space never share an object. -/
theorem deriveProviderTarget_inj {tenantId spaceId : Uuid} {space : StorageSpace}
    {key key' : String} {t : ProviderTarget} (hkey : key ≠ "") (hkey' : key' ≠ "")
    (h : deriveProviderTarget tenantId spaceId space key = some t)
    (h' : deriveProviderTarget tenantId spaceId space key' = some t) : key = key' := by
  have heq := (deriveProviderTarget_eq_some h).symm.trans (deriveProviderTarget_eq_some h')
  exact (joinKey_inj hkey hkey').mp (congrArg ProviderTarget.key heq)

end S3mp.Storage
