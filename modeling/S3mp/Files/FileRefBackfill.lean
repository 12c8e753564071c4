import S3mp.Common.Uuids
import S3mp.Database
import S3mp.Encoding.Base64
import S3mp.Encoding.Json
import S3mp.Files.Command
import S3mp.Files.OperationWorker

/-!
# The text of a public reference, and references for legacy files

`files/domain/file_reference.py` down to the text it publishes, the helpers of
`files/application/file_ref_backfill.py` and the command
`scripts/backfill_file_refs.py`.  SHA-256 is a parameter; a metadata column is
given to the text as the JSON value it holds.
-/

namespace S3mp.Files

open Encoding Relational Storage

/-! ## The published text -/

def utf8 (text : String) : List UInt8 :=
  text.toByteArray.data.toList

theorem utf8_injective : Function.Injective utf8 := by
  intro s t h
  refine String.toByteArray_inj.mp (ByteArray.ext ?_)
  exact Array.toList_inj.mp h

def fileRefFields (tenantId applicationId : Uuid) (relativeKey : String) (metadata : Json)
    (digest : String) : List (List UInt8) :=
  [utf8 "s3mp-file-ref:v1", utf8 (uuidText tenantId), utf8 (uuidText applicationId),
    utf8 relativeKey, utf8 (String.ofList (canonicalJson metadata)), utf8 digest]

def fileRefText (sha256 : List UInt8 → List UInt8) (tenantId applicationId : Uuid)
    (relativeKey : String) (metadata : Json) (digest : String) : Except String String :=
  (lengthPrefixedAll 8 (fileRefFields tenantId applicationId relativeKey metadata digest)).map
    fun preimage ↦ "s3mpf1_" ++ String.ofList (urlsafeBase64 (sha256 preimage))

/-- `generate_file_ref` as the code has it. -/
def generateFileRefText (sha256 : List UInt8 → List UInt8) (tenantId : Uuid)
    (applicationId : Option Uuid) (relativeKey : String) (metadata : Json)
    (checksum : Option String) : Except String (Option String) :=
  match applicationId, normalizedSha256 checksum with
  | some applicationId, some digest =>
    (fileRefText sha256 tenantId applicationId relativeKey metadata digest).map some
  | _, _ => .ok none

/-- The text of a reference kept by its fields. -/
def FileRef.text (sha256 : List UInt8 → List UInt8) (json : Option String → Json) (tenantId : Uuid)
    (ref : FileRef) : Except String String :=
  fileRefText sha256 tenantId ref.applicationId ref.relativeKey (json ref.metadata) ref.digest

/-- The text of the reference a row carries, if it carries one. -/
def FileObject.fileRefText (sha256 : List UInt8 → List UInt8) (json : Option String → Json)
    (tenantId : Uuid) (f : FileObject) : Except String (Option String) :=
  match f.publicFileRef with
  | none => .ok none
  | some ref => (ref.text sha256 json tenantId).map some

/-- Keeping the fields and publishing their text later is `generate_file_ref`. -/
theorem generateFileRefText_eq {sha256 : List UInt8 → List UInt8} {json : Option String → Json}
    {tenantId : Uuid} {applicationId : Option Uuid} {relativeKey : String}
    {metadata checksum : Option String} :
    generateFileRefText sha256 tenantId applicationId relativeKey (json metadata) checksum =
      match generateFileRef applicationId relativeKey metadata checksum with
      | none => .ok none
      | some ref => (ref.text sha256 json tenantId).map some := by
  unfold generateFileRefText generateFileRef
  cases applicationId with
  | none => rfl
  | some applicationId => cases normalizedSha256 checksum with
    | none => rfl
    | some digest => rfl

/-- A reference does not depend on the order in which the metadata holds its members. -/
theorem generateFileRefText_of_perm {sha256 : List UInt8 → List UInt8} {tenantId : Uuid}
    {applicationId : Option Uuid} {relativeKey : String} {checksum : Option String}
    {members members' : List (String × Json)} (hperm : members.Perm members')
    (hkeys : (members.map Prod.fst).Nodup) :
    generateFileRefText sha256 tenantId applicationId relativeKey (.object members) checksum =
      generateFileRefText sha256 tenantId applicationId relativeKey (.object members') checksum := by
  have hjson : canonicalJson (.object members) = canonicalJson (.object members') :=
    canonicalJson_eq_iff.mpr (sorted_object_of_perm hperm hkeys)
  unfold generateFileRefText fileRefText fileRefFields
  rw [hjson]

theorem generateFileRefText_sample :
    generateFileRefText id 1 (some 2) "a" (.object [("x", .null), ("y", .bool true)])
        (some (String.ofList (.replicate 64 'f'))) =
      generateFileRefText id 1 (some 2) "a" (.object [("y", .bool true), ("x", .null)])
        (some (String.ofList (.replicate 64 'f'))) :=
  generateFileRefText_of_perm (.swap _ _ _) (by decide)

/-- With SHA-256 injective, a text is the reference of one tenant, application, key, metadata
value and digest only. -/
theorem fileRefText_inj {sha256 : List UInt8 → List UInt8} (hsha : Function.Injective sha256)
    {t t' a a' : Uuid} {k k' d d' text : String} {m m' : Json}
    (h : fileRefText sha256 t a k m d = .ok text) (h' : fileRefText sha256 t' a' k' m' d' = .ok text) :
    t = t' ∧ a = a' ∧ k = k' ∧ m.sorted = m'.sorted ∧ d = d' := by
  unfold fileRefText at h h'
  obtain ⟨preimage, hpreimage, rfl⟩ := Except.map_eq_ok.mp h
  obtain ⟨preimage', hpreimage', htext⟩ := Except.map_eq_ok.mp h'
  have hencoded := String.append_right_inj _ |>.mp htext
  have hdigest := urlsafeBase64_injective (String.ofList_injective hencoded)
  obtain rfl : preimage' = preimage := hsha hdigest
  have hfields := lengthPrefixedAll_inj (by decide) hpreimage hpreimage'
  simp only [fileRefFields, List.cons.injEq, true_and, and_true] at hfields
  obtain ⟨htenant, happ, hkey, hmetadata, hd⟩ := hfields
  refine ⟨uuidText_injective (utf8_injective htenant), uuidText_injective (utf8_injective happ),
    utf8_injective hkey, canonicalJson_eq_iff.mp ?_, utf8_injective hd⟩
  exact String.ofList_injective (utf8_injective hmetadata)

/-! ## Legacy files -/

def rstripSlash (key : String) : String :=
  String.ofList (key.toList.reverse.dropWhile (· = '/')).reverse

/-- The part of the physical key below the namespace which it lies in, the first one that fits. -/
def relativeKeyIn (tenantId : Uuid) (f : FileObject) (space : StorageSpace) :
    List (Option String) → Except Raised String
  | [] => policyError "physical_key_outside_storage_namespace"
  | storageNamespace :: rest =>
    match physicalKeyOf tenantId f.storageSpaceId { space with storageNamespace } "" with
    | .error e => .error e
    | .ok namespaceKey =>
      match removePrefix (rstripSlash namespaceKey ++ "/") f.objectKey with
      | none => relativeKeyIn tenantId f space rest
      | some relativeKey =>
        if relativeKey ≠ "" then .ok relativeKey else relativeKeyIn tenantId f space rest

def relativeKeyForFile (tenantId : Uuid) (f : FileObject) (space : StorageSpace) :
    Except Raised String :=
  if f.providerTargetVersion ≠ space.providerTargetVersion then
    policyError "provider_target_version_mismatch"
  else relativeKeyIn tenantId f space [f.storageNamespace, space.storageNamespace, none].eraseDups

def applicationIdForFile (f : FileObject) (space : StorageSpace) : Except Raised Uuid :=
  if f.applicationId.isSome ∧ space.applicationId.isSome ∧ f.applicationId ≠ space.applicationId then
    policyError "application_scope_mismatch"
  else
    match f.applicationId.or space.applicationId with
    | none => policyError "missing_application_id"
    | some applicationId => .ok applicationId

/-- What the provider answers about the object of a candidate. -/
structure BackfillReads where
  before : Option ObjectMetadata
  checksum : String
  after : Option ObjectMetadata

/-- Why a candidate is left alone, or the reference computed for it. -/
def backfillReference (tenantId : Uuid) (f : FileObject) (space : StorageSpace)
    (reads : BackfillReads) : Except Raised (Except String FileRef) := do
  let relativeKey ← relativeKeyForFile tenantId f space
  let applicationId ← applicationIdForFile f space
  match reads.before with
  | none => return .error "provider_object_not_found"
  | some before =>
    if before.contentLength ≠ f.contentLength then return .error "content_length_mismatch"
    else
      match reads.after with
      | none => return .error "provider_object_removed_during_hash"
      | some after =>
        if after.contentLength ≠ f.contentLength then
          return .error "content_length_changed_during_hash"
        else if (truthy before.etag).isSome ∧ (truthy after.etag).isSome ∧
            before.etag ≠ after.etag then
          return .error "provider_object_changed_during_hash"
        else
          match generateFileRef (some applicationId) relativeKey f.metadata (some reads.checksum) with
          | none => return .error "file_ref_generation_failed"
          | some ref => return .ok ref

def FileObject.backfilled (ref : FileRef) (checksum : String) (f : FileObject) : FileObject :=
  { f with checksum := some checksum, publicFileRef := some ref }

/-- The row is read again; a reference written in the meantime stays. -/
def persistReference (id : Uuid) (ref : FileRef) (checksum : String) (db : Db) : String × Db :=
  match db.files.lookup id with
  | none => ("row_missing", db)
  | some row =>
    if row.publicFileRef.isSome then ("already_backfilled", db)
    else if db.files.anyRow fun j f ↦ f.publicFileRef = some ref && j ≠ id then
      ("file_ref_collision", db)
    else ("updated", { db with files := db.files.update id (FileObject.backfilled ref checksum) })

/-- One candidate with `--apply`: `f` and `space` are what the selection has read of it. -/
def backfillFile (tenantId id : Uuid) (f : FileObject) (space : StorageSpace)
    (reads : BackfillReads) (db : Db) : Except Raised (String × Db) := do
  match ← backfillReference tenantId f space reads with
  | .error reason => return (reason, db)
  | .ok ref => return persistReference id ref reads.checksum db

/-- A relative key which is found is what the physical key ends with, behind a slash. -/
theorem objectKey_of_relativeKeyIn {tenantId : Uuid} {f : FileObject} {space : StorageSpace}
    {namespaces : List (Option String)} {relativeKey : String}
    (h : relativeKeyIn tenantId f space namespaces = .ok relativeKey) :
    ∃ namespaceKey, f.objectKey = namespaceKey ++ "/" ++ relativeKey := by
  induction namespaces with
  | nil => cases h
  | cons storageNamespace rest ih =>
      unfold relativeKeyIn at h
      split at h
      · cases h
      split at h
      · exact ih h
      rename_i found hfound
      split at h
      · obtain rfl := Except.ok.inj h
        exact ⟨_, removePrefix_eq_some.mp hfound⟩
      · exact ih h

theorem relativeKeyForFile_ne_objectKey {tenantId : Uuid} {f : FileObject} {space : StorageSpace}
    {relativeKey : String} (h : relativeKeyForFile tenantId f space = .ok relativeKey) :
    relativeKey ≠ f.objectKey := by
  unfold relativeKeyForFile at h
  split at h
  · cases h
  obtain ⟨namespaceKey, hkey⟩ := objectKey_of_relativeKeyIn h
  intro heq
  have hlength := congrArg String.length (hkey.trans (by rw [heq]))
  simp only [String.length_append] at hlength
  have hslash : "/".length = 1 := by decide
  omega

theorem removePrefix_append (pre rest : String) : removePrefix pre (pre ++ rest) = some rest := by
  have hpre : pre.toList.isPrefixOf (pre ++ rest).toList = true := by
    rw [String.toList_append]
    exact List.isPrefixOf_iff_prefix.mpr (List.prefix_append _ _)
  have hlength : pre.length = pre.toList.length := String.length_toList.symm
  rw [removePrefix, if_pos hpre, String.toList_append, hlength, List.drop_left,
    String.ofList_toList]

/-- The namespace the row was created in comes first. -/
theorem relativeKeyForFile_of_namespace {tenantId : Uuid} {f : FileObject} {space : StorageSpace}
    {namespaceKey relativeKey : String}
    (hversion : f.providerTargetVersion = space.providerTargetVersion)
    (hderived : physicalKeyOf tenantId f.storageSpaceId
      { space with storageNamespace := f.storageNamespace } "" = .ok namespaceKey)
    (hkey : f.objectKey = rstripSlash namespaceKey ++ "/" ++ relativeKey)
    (hne : relativeKey ≠ "") : relativeKeyForFile tenantId f space = .ok relativeKey := by
  have hfound : removePrefix (rstripSlash namespaceKey ++ "/") f.objectKey = some relativeKey := by
    rw [hkey, removePrefix_append]
  unfold relativeKeyForFile
  rw [if_neg (not_not_intro hversion), List.eraseDups_cons]
  unfold relativeKeyIn
  simp only [hderived, hfound]
  rw [if_pos hne]

end S3mp.Files
