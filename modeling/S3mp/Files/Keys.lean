import S3mp.Authorization.Semantics
import S3mp.Common.Sequencing
import S3mp.Files.Command

/-!
# Where a space keeps its objects

A space which has provider targets has a root, its namespace with the operator
prefix.  The physical key of a relative key is that key below the root, and the
relative key of a physical one is what follows the root.
-/

namespace S3mp.Files

open Authorization Encoding Identity Storage

/-- What a provider target asks of the space, whatever the key. -/
structure Targetable (tenantId spaceId : Uuid) (space : StorageSpace) : Prop where
  version : space.providerTargetVersion = 1
  bucket : ¬ (space.bucket = "" ∨ '/' ∈ space.bucket.toList ∨ '\\' ∈ space.bucket.toList)
  operatorPrefix : isCanonicalPrefix space.rootPrefix = true
  namespaced : isCanonicalPrefix (namespaceOf tenantId spaceId space) = true

/-- The physical key of the empty relative key. -/
def rootKey (tenantId spaceId : Uuid) (space : StorageSpace) : String :=
  joinKey (namespaceOf tenantId spaceId space) space.rootPrefix

variable {tenantId spaceId : Uuid} {space : StorageSpace} {key physicalKey : String}

theorem canonicalObjectKey_empty (key : String) :
    canonicalObjectKey key true = if isCanonicalPrefix key then some key else none := by
  simp [canonicalObjectKey]

theorem deriveProviderTarget_eq_some_iff {target : ProviderTarget} :
    deriveProviderTarget tenantId spaceId space key = some target ↔
      Targetable tenantId spaceId space ∧ isCanonicalPrefix key = true ∧
        target = ⟨space.bucket, joinKey (rootKey tenantId spaceId space) key,
          space.providerTargetVersion⟩ := by
  constructor
  · intro h
    have htarget := deriveProviderTarget_eq_some h
    unfold deriveProviderTarget at h
    split at h
    · cases h
    rename_i hversion
    split at h
    · cases h
    rename_i hbucket
    obtain ⟨relative, hrelative, h⟩ := Option.bind_eq_some_iff.mp h
    obtain ⟨operatorPrefix, hroot, h⟩ := Option.bind_eq_some_iff.mp h
    rw [canonicalObjectKey_empty] at hrelative hroot
    split at h
    · cases h
    rename_i hnamespace
    refine ⟨⟨not_not.mp hversion, hbucket, ?_, by simpa using hnamespace⟩, ?_, htarget⟩
    · exact (Option.ite_none_right_eq_some.mp hroot).1
    · exact (Option.ite_none_right_eq_some.mp hrelative).1
  · rintro ⟨hspace, hkey, rfl⟩
    unfold deriveProviderTarget
    rw [if_neg (not_not.mpr hspace.version), if_neg hspace.bucket, canonicalObjectKey_empty,
      canonicalObjectKey_empty, if_pos hkey, if_pos hspace.operatorPrefix]
    simp [hspace.namespaced, rootKey]

theorem physicalKeyOf_eq_ok :
    physicalKeyOf tenantId spaceId space key = .ok physicalKey ↔
      Targetable tenantId spaceId space ∧ isCanonicalPrefix key = true ∧
        physicalKey = joinKey (rootKey tenantId spaceId space) key := by
  unfold physicalKeyOf
  cases htarget : deriveProviderTarget tenantId spaceId space key with
  | none =>
      refine iff_of_false (by simp [policyError]) fun ⟨hspace, hkey, _⟩ ↦ ?_
      rw [deriveProviderTarget_eq_some_iff.mpr ⟨hspace, hkey, rfl⟩] at htarget
      cases htarget
  | some target =>
      obtain ⟨hspace, hkey, rfl⟩ := deriveProviderTarget_eq_some_iff.mp htarget
      dsimp only
      rw [Except.ok.injEq]
      exact ⟨fun h ↦ ⟨hspace, hkey, h.symm⟩, fun h ↦ h.2.2.symm⟩

theorem canonicalKey_eq_ok {key key' : String} {allowEmpty : Bool} :
    canonicalKey key allowEmpty = .ok key' ↔
      key' = key ∧ isCanonicalPrefix key = true ∧ (key = "" → allowEmpty = true) := by
  unfold canonicalKey
  cases hkey : canonicalObjectKey key allowEmpty with
  | none =>
      refine iff_of_false (by simp [policyError]) fun ⟨_, hcanonical, hempty⟩ ↦ ?_
      unfold canonicalObjectKey at hkey
      rw [if_neg, if_pos hcanonical] at hkey
      · cases hkey
      · rintro ⟨hnil, hfalse⟩
        rw [hempty hnil] at hfalse
        cases hfalse
  | some found =>
      dsimp only
      rw [Except.ok.injEq]
      obtain rfl := canonicalObjectKey_eq_some hkey
      unfold canonicalObjectKey at hkey
      split at hkey
      · cases hkey
      rename_i hempty
      split at hkey
      · rename_i hcanonical
        exact ⟨fun h ↦ ⟨h.symm, hcanonical, fun hnil ↦ by simpa [hnil] using hempty⟩,
          fun h ↦ h.1.symm⟩
      · cases hkey

/-- What an accepted command says of the key it was created for. -/
structure Created (tenantId : Uuid) (ctx : PrincipalContext) (spaceId : Uuid)
    (space : StorageSpace) (bindings : List Binding) (now : Timestamp) (i : CommandInput)
    (command : AuthorizedFileCommand) (key : String) : Prop where
  canonical : isCanonicalPrefix i.key = true
  named : i.key = "" → i.action = "files.list"
  confined : scopedKey ctx i.key i.resolved = .ok key
  canonicalKey : isCanonicalPrefix key = true
  targetable : Targetable tenantId spaceId space
  authorized : authorizeKey ctx i.action bindings spaceId key now = .ok ()
  storageSpace : command.storageSpaceId = spaceId
  relative : command.relativeKey = key
  physical : command.physicalKey = joinKey (rootKey tenantId spaceId space) key

theorem create_eq_ok {fingerprint : FingerprintPayload → String} {ctx : PrincipalContext}
    {bindings : List Binding} {now : Timestamp} {i : CommandInput} {command : AuthorizedFileCommand}
    (h : AuthorizedFileCommand.create fingerprint tenantId ctx spaceId space bindings now i =
      .ok command) :
    ∃ key, Created tenantId ctx spaceId space bindings now i command key := by
  obtain ⟨requested, hrequested, h⟩ := Except.bind_eq_ok.mp h
  obtain ⟨rfl, hcanonical, hnamed⟩ := canonicalKey_eq_ok.mp hrequested
  obtain ⟨key, hscoped, h⟩ := Except.bind_eq_ok.mp h
  cases hkey : isCanonicalPrefix key with
  | false =>
      rw [hkey] at h
      cases h
  | true =>
      cases htarget : deriveProviderTarget tenantId spaceId space key with
      | none =>
          rw [hkey, htarget] at h
          cases h
      | some target =>
          rw [hkey, htarget] at h
          obtain ⟨hspace, -, rfl⟩ := deriveProviderTarget_eq_some_iff.mp htarget
          obtain ⟨⟨⟩, hauthorized, h⟩ := Except.bind_eq_ok.mp h
          obtain rfl := Except.ok.inj h
          exact ⟨key, hcanonical, fun hempty ↦ of_decide_eq_true (hnamed hempty), hscoped, hkey,
            hspace, hauthorized, rfl, rfl, rfl⟩

theorem isCanonicalPrefix_empty : isCanonicalPrefix "" = true := by
  decide

theorem relativeKeyOf_eq_ok :
    relativeKeyOf tenantId spaceId space physicalKey = .ok key ↔
      Targetable tenantId spaceId space ∧
        physicalKey = rootKey tenantId spaceId space ++ "/" ++ key := by
  unfold relativeKeyOf
  have hempty : joinKey (rootKey tenantId spaceId space) "" = rootKey tenantId spaceId space :=
    if_pos rfl
  cases hroot : physicalKeyOf tenantId spaceId space "" with
  | error e =>
      refine iff_of_false (by simp [bind, Except.bind]) fun ⟨hspace, _⟩ ↦ ?_
      rw [physicalKeyOf_eq_ok.mpr ⟨hspace, isCanonicalPrefix_empty, rfl⟩] at hroot
      cases hroot
  | ok root =>
      obtain ⟨hspace, -, rfl⟩ := physicalKeyOf_eq_ok.mp hroot
      rw [hempty]
      dsimp only [bind, Except.bind]
      cases hrest : removePrefix (rootKey tenantId spaceId space ++ "/") physicalKey with
      | none =>
          refine iff_of_false (by simp [apiError]) fun ⟨_, hkey⟩ ↦ ?_
          rw [removePrefix_eq_some.mpr hkey] at hrest
          cases hrest
      | some rest =>
          have hphysical := removePrefix_eq_some.mp hrest
          constructor
          · intro h
            obtain rfl := Except.ok.inj h
            exact ⟨hspace, hphysical⟩
          · rintro ⟨-, hkey⟩
            rw [removePrefix_eq_some.mpr hkey] at hrest
            exact congrArg Except.ok (Option.some.inj hrest).symm

/-! ## Stripping the root -/

theorem rootKey_below :
    Below '/' (namespaceOf tenantId spaceId space).toList
      (rootKey tenantId spaceId space).toList := by
  unfold rootKey joinKey
  split
  · exact below_refl _ _
  · rw [String.toList_append, String.toList_append, List.append_assoc]
    exact below_append _ _

theorem physicalKey_below (h : physicalKeyOf tenantId spaceId space key = .ok physicalKey) :
    Below '/' (namespaceOf tenantId spaceId space).toList physicalKey.toList := by
  obtain ⟨-, -, rfl⟩ := physicalKeyOf_eq_ok.mp h
  refine rootKey_below.trans ?_
  unfold joinKey
  split
  · exact below_refl _ _
  · rw [String.toList_append, String.toList_append, List.append_assoc]
    exact below_append _ _

/-- The relative key comes back from the physical one. -/
theorem relativeKeyOf_physicalKeyOf (hkey : key ≠ "")
    (h : physicalKeyOf tenantId spaceId space key = .ok physicalKey) :
    relativeKeyOf tenantId spaceId space physicalKey = .ok key := by
  obtain ⟨hspace, -, rfl⟩ := physicalKeyOf_eq_ok.mp h
  exact relativeKeyOf_eq_ok.mpr ⟨hspace, if_neg hkey⟩

/-- What was stripped of its root is the physical key of what is left if that is a key at all. -/
theorem physicalKeyOf_relativeKeyOf
    (h : relativeKeyOf tenantId spaceId space physicalKey = .ok key) :
    physicalKeyOf tenantId spaceId space key = .ok physicalKey ↔
      key ≠ "" ∧ isCanonicalPrefix key = true := by
  obtain ⟨hspace, rfl⟩ := relativeKeyOf_eq_ok.mp h
  rw [physicalKeyOf_eq_ok, joinKey]
  constructor
  · rintro ⟨-, hcanonical, heq⟩
    refine ⟨?_, hcanonical⟩
    rintro rfl
    rw [if_pos rfl, ← String.toList_inj, String.toList_append, String.toList_append] at heq
    simpa using congrArg List.length heq
  · rintro ⟨hkey, hcanonical⟩
    rw [if_neg hkey]
    exact ⟨hspace, hcanonical, rfl⟩

/-! ## Assigned namespaces -/

/-- The pattern of a tenant's slug. -/
def isSlug (slug : String) : Bool :=
  slug.toList.head?.any (fun c ↦ c.isLower || c.isDigit) &&
    slug.toList.all fun c ↦ c.isLower || c.isDigit || c = '-'

/-- The namespace an application is given when it is created. -/
def applicationNamespace (slug : String) (applicationId : Uuid) : String :=
  slug ++ "/" ++ uuidText applicationId

/-- The namespace of the space is that of its application, or that of a space which has none. -/
inductive Assigned (space : StorageSpace) : Prop where
  | application (slug : String) (applicationId : Uuid) (hslug : isSlug slug = true)
      (hspace : space.applicationId = some applicationId)
      (hnamespace : space.storageNamespace = some (applicationNamespace slug applicationId))
  | legacy (hnamespace : truthy space.storageNamespace = none)

theorem slash_not_mem_slug {slug : String} (h : isSlug slug = true) : '/' ∉ slug.toList := by
  intro hmem
  have hall := (Bool.and_eq_true_iff.mp h).2
  have hslash := List.all_eq_true.mp hall '/' hmem
  revert hslash
  decide

theorem splitSlash_append (a b : String) :
    splitSlash (a ++ "/" ++ b) = splitSlash a ++ splitSlash b := by
  have hslash : ("/" : String).toList = ['/'] := rfl
  rw [splitSlash, String.toList_append, String.toList_append, hslash, List.append_assoc,
    List.singleton_append, List.splitOn_append_cons_self]
  rfl

theorem splitSlash_segment {segment : String} (h : '/' ∉ segment.toList) :
    splitSlash segment = [segment.toList] :=
  List.splitOn_eq_singleton h

theorem splitSlash_applicationNamespace {slug : String} (h : isSlug slug = true)
    (applicationId : Uuid) :
    splitSlash (applicationNamespace slug applicationId) =
      [slug.toList, (uuidText applicationId).toList] := by
  rw [applicationNamespace, splitSlash_append, splitSlash_segment (slash_not_mem_slug h),
    splitSlash_segment (slash_not_mem_uuidText applicationId)]
  rfl

theorem splitSlash_legacyNamespace (tenantId spaceId : Uuid) :
    splitSlash (legacyNamespace tenantId spaceId 1) =
      ["v1".toList, "tenants".toList, (uuidText tenantId).toList, "spaces".toList,
        (uuidText spaceId).toList] := by
  have hsplit : legacyNamespace tenantId spaceId 1 =
      "v1" ++ "/" ++ "tenants" ++ "/" ++ uuidText tenantId ++ "/" ++ "spaces" ++ "/" ++
        uuidText spaceId := by
    rw [← String.toList_inj]
    simp [legacyNamespace, String.toList_append]
    rfl
  rw [hsplit, splitSlash_append, splitSlash_append, splitSlash_append, splitSlash_append,
    splitSlash_segment (slash_not_mem_uuidText tenantId),
    splitSlash_segment (slash_not_mem_uuidText spaceId)]
  rfl

variable {tenantId' spaceId' : Uuid} {space' : StorageSpace} {key' physicalKey' : String}

theorem splitSlash_namespaceOf (tenantId spaceId : Uuid) (h : Assigned space)
    (hversion : space.providerTargetVersion = 1) :
    (∃ slug applicationId, space.applicationId = some applicationId ∧
        splitSlash (namespaceOf tenantId spaceId space) =
          [slug, (uuidText applicationId).toList]) ∨
      splitSlash (namespaceOf tenantId spaceId space) =
        ["v1".toList, "tenants".toList, (uuidText tenantId).toList, "spaces".toList,
          (uuidText spaceId).toList] := by
  unfold namespaceOf
  cases h with
  | application slug applicationId hslug hspace hnamespace =>
      left
      refine ⟨slug.toList, applicationId, hspace, ?_⟩
      have hne : applicationNamespace slug applicationId ≠ "" := by
        intro hempty
        have hsplit := splitSlash_applicationNamespace hslug applicationId
        rw [hempty] at hsplit
        have hlength : 1 = 2 := congrArg List.length hsplit
        omega
      have htruthy :
          truthy space.storageNamespace = some (applicationNamespace slug applicationId) := by
        rw [hnamespace, truthy, Option.filter_some, if_pos (by simpa using hne)]
      rw [htruthy, Option.getD_some, splitSlash_applicationNamespace hslug]
  | legacy hnamespace =>
      right
      rw [hnamespace, Option.getD_none, hversion, splitSlash_legacyNamespace]

/-- Neither of two assigned namespaces is at or below the other. -/
theorem namespaces_apart (h : Assigned space) (h' : Assigned space')
    (hversion : space.providerTargetVersion = 1) (hversion' : space'.providerTargetVersion = 1)
    (hspace : spaceId ≠ spaceId')
    (happlication : ∀ a, space.applicationId = some a → space'.applicationId ≠ some a) :
    ¬ splitSlash (namespaceOf tenantId spaceId space) <+:
      splitSlash (namespaceOf tenantId' spaceId' space') := by
  intro hprefix
  rcases splitSlash_namespaceOf tenantId spaceId h hversion with
    ⟨slug, a, ha, heq⟩ | heq
  · rcases splitSlash_namespaceOf tenantId' spaceId' h' hversion' with
      ⟨slug', a', ha', heq'⟩ | heq'
    · rw [heq, heq'] at hprefix
      have hsame := List.cons.inj ( hprefix.eq_of_length (by simp))
      have htext : (uuidText a).toList = (uuidText a').toList := (List.cons.inj hsame.2).1
      obtain rfl := uuidText_injective (String.toList_inj.mp htext)
      exact happlication a ha ha'
    · rw [heq, heq', List.cons_prefix_cons, List.cons_prefix_cons] at hprefix
      have hmem : 'n' ∈ (uuidText a).toList := by
        rw [ hprefix.2.1]
        decide
      rcases mem_uuidText hmem with h | ⟨d, hd, h⟩
      · exact absurd h (by decide)
      · interval_cases d <;> revert h <;> decide
  · rcases splitSlash_namespaceOf tenantId' spaceId' h' hversion' with
      ⟨slug', a', ha', heq'⟩ | heq'
    · rw [heq, heq'] at hprefix
      exact absurd hprefix.length_le (by simp)
    · rw [heq, heq'] at hprefix
      have hsame := hprefix.eq_of_length (by simp)
      simp only [List.cons.injEq, and_true, true_and] at hsame
      have htext : (uuidText spaceId).toList = (uuidText spaceId').toList := hsame.2
      exact hspace (uuidText_injective (String.toList_inj.mp htext))

/-- No key of one space lies below the namespace of another. -/
theorem physicalKey_apart (tenantId' : Uuid) (h : Assigned space) (h' : Assigned space')
    (hspace : spaceId ≠ spaceId')
    (happlication : ∀ a, space.applicationId = some a → space'.applicationId ≠ some a)
    (hkey : physicalKeyOf tenantId spaceId space key = .ok physicalKey)
    (hversion' : space'.providerTargetVersion = 1) :
    within (namespaceOf tenantId' spaceId' space') physicalKey = false := by
  have hversion := (physicalKeyOf_eq_ok.mp hkey).1.version
  refine Bool.eq_false_iff.mpr fun hwithin ↦ ?_
  rcases (physicalKey_below hkey).total (within_iff.mp hwithin) with hbelow | hbelow
  · exact namespaces_apart h h' hversion hversion' hspace happlication hbelow
  · exact namespaces_apart h' h hversion' hversion hspace.symm
      (fun a ha' ha ↦ happlication a ha ha') hbelow

end S3mp.Files

namespace S3mp

open Authorization Encoding Files Storage

/-- Keys come back from their physical keys, a key is stripped exactly if it is below the root,
and the keys of two spaces with assigned namespaces are apart.  What is left of a key below the
root need not be a key. -/
theorem physical_keys_separate :
    (∀ tenantId spaceId space key physicalKey, key ≠ "" →
      physicalKeyOf tenantId spaceId space key = .ok physicalKey →
        relativeKeyOf tenantId spaceId space physicalKey = .ok key) ∧
    (∀ tenantId spaceId space key physicalKey, Targetable tenantId spaceId space →
      (relativeKeyOf tenantId spaceId space physicalKey = .ok key ↔
        physicalKey = rootKey tenantId spaceId space ++ "/" ++ key)) ∧
    (∀ tenantId spaceId space key physicalKey,
      relativeKeyOf tenantId spaceId space physicalKey = .ok key →
        (physicalKeyOf tenantId spaceId space key = .ok physicalKey ↔
          key ≠ "" ∧ isCanonicalPrefix key = true)) ∧
    ∀ tenantId spaceId space tenantId' spaceId' space' key physicalKey key' physicalKey',
      Assigned space → Assigned space' → spaceId ≠ spaceId' →
      (∀ a, space.applicationId = some a → space'.applicationId ≠ some a) →
      physicalKeyOf tenantId spaceId space key = .ok physicalKey →
      physicalKeyOf tenantId' spaceId' space' key' = .ok physicalKey' →
        physicalKey ≠ physicalKey' ∧
          within (namespaceOf tenantId' spaceId' space') physicalKey = false ∧
          within (namespaceOf tenantId spaceId space) physicalKey' = false := by
  refine ⟨fun _ _ _ _ _ ↦ relativeKeyOf_physicalKeyOf, ?_,
    fun _ _ _ _ _ ↦ physicalKeyOf_relativeKeyOf, ?_⟩
  · intro tenantId spaceId space key physicalKey hspace
    rw [relativeKeyOf_eq_ok]
    exact and_iff_right hspace
  · intro tenantId spaceId space tenantId' spaceId' space' key physicalKey key' physicalKey' h h'
      hspace happlication hkey hkey'
    have happart := physicalKey_apart tenantId' h h' hspace happlication hkey
      (physicalKeyOf_eq_ok.mp hkey').1.version
    have happart' := physicalKey_apart tenantId h' h hspace.symm
      (fun a ha' ha ↦ happlication a ha ha') hkey' (physicalKeyOf_eq_ok.mp hkey).1.version
    refine ⟨?_, happart, happart'⟩
    rintro rfl
    rw [within_iff.mpr (physicalKey_below hkey')] at happart
    cases happart

namespace Sample

/-- A space of application 5 of the tenant `acme`. -/
def applicationSpace : StorageSpace where
  applicationId := some 5
  active := true
  bucket := "bucket"
  rootPrefix := "data"
  storageNamespace := some "acme/00000000-0000-0000-0000-000000000005"
  profileVersion := 1
  providerTargetVersion := 1

def legacySpace : StorageSpace :=
  { applicationSpace with applicationId := none, rootPrefix := "", storageNamespace := none }

theorem applicationSpace_assigned : Assigned applicationSpace :=
  .application "acme" 5 (by decide) rfl (by decide +kernel)

end Sample

theorem physical_keys_separate_sample :
    relativeKeyOf 1 2 Sample.applicationSpace
        "acme/00000000-0000-0000-0000-000000000005/data/a" = .ok "a" ∧
      within (namespaceOf 1 3 Sample.legacySpace)
        "acme/00000000-0000-0000-0000-000000000005/data/a" = false := by
  have hkey : physicalKeyOf 1 2 Sample.applicationSpace "a" =
      .ok "acme/00000000-0000-0000-0000-000000000005/data/a" := by
    decide +kernel
  have hkey' : physicalKeyOf 1 3 Sample.legacySpace "a" =
      .ok (joinKey (rootKey 1 3 Sample.legacySpace) "a") := by
    decide +kernel
  refine ⟨physical_keys_separate.1 1 2 Sample.applicationSpace "a" _ (by decide) hkey, ?_⟩
  exact (physical_keys_separate.2.2.2 1 2 Sample.applicationSpace 1 3 Sample.legacySpace "a" _ "a" _
    Sample.applicationSpace_assigned (.legacy rfl) (by decide) (fun _ _ h ↦ by cases h)
    hkey hkey').2.1

/-- A dot segment below the root is stripped like any key. -/
theorem dot_segment_stripped : ¬ ∀ tenantId spaceId space physicalKey,
    (∀ key, physicalKeyOf tenantId spaceId space key ≠ .ok physicalKey) →
      ∀ key, relativeKeyOf tenantId spaceId space physicalKey ≠ .ok key := by
  intro h
  have hstripped : relativeKeyOf 1 2 Sample.applicationSpace
      "acme/00000000-0000-0000-0000-000000000005/data/../b" = .ok "../b" := by
    decide +kernel
  refine h 1 2 Sample.applicationSpace _ (fun key hkey ↦ ?_) "../b" hstripped
  by_cases hempty : key = ""
  · subst hempty
    revert hkey
    decide +kernel
  · have hback := relativeKeyOf_physicalKeyOf hempty hkey
    rw [hstripped] at hback
    obtain rfl := Except.ok.inj hback
    revert hkey
    decide +kernel

end S3mp
