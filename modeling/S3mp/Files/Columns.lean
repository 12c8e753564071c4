import S3mp.Commands
import S3mp.Files.FileSpec
import S3mp.Files.Keys
import Mathlib.Data.List.TakeWhile

/-!
# The lengths of columns

PostgreSQL refuses a value which is longer than its column.  The key of a deleted
file in the trash is 71 characters longer than the key the file had, and the columns
of the two are equally long.
-/

namespace S3mp

open Relational Authorization Identity Storage Files

namespace Files

/-- `String(length)`. -/
def fitsColumn (length : ℕ) (value : String) : Bool :=
  decide (value.length ≤ length)

def fitsNullable (length : ℕ) (value : Option String) : Bool :=
  value.all (fitsColumn length)

def UploadSession.fits (u : UploadSession) : Bool :=
  fitsNullable 512 u.storageNamespace && fitsColumn 1024 u.objectKey &&
    fitsColumn 255 u.contentType && fitsNullable 512 u.checksum

def MultipartSession.fits (m : MultipartSession) : Bool :=
  fitsNullable 512 m.storageNamespace && fitsColumn 1024 m.objectKey &&
    fitsNullable 512 m.providerUploadId && fitsColumn 255 m.contentType &&
    fitsNullable 512 m.checksum

def IngestionRecord.fits (row : IngestionRecord) : Bool :=
  fitsNullable 512 row.storageNamespace && fitsColumn 255 row.bucket &&
    fitsColumn 1024 row.relativeKey && fitsColumn 1024 row.physicalKey &&
    fitsNullable 512 row.providerEtag && fitsNullable 512 row.providerVersionId &&
    fitsNullable 255 row.actualContentType && fitsNullable 512 row.checksum &&
    fitsNullable 128 row.idempotencyKey && fitsNullable 256 row.idempotencyFingerprint

def FileObject.fits (f : FileObject) : Bool :=
  fitsNullable 512 f.storageNamespace && fitsColumn 1024 f.objectKey &&
    fitsColumn 255 f.contentType && fitsNullable 512 f.etag && fitsNullable 512 f.checksum &&
    fitsNullable 128 f.deletionIdempotencyKey

def FileDeletionRecord.fits (d : FileDeletionRecord) : Bool :=
  fitsColumn 1024 d.originalRelativeKey && fitsColumn 1024 d.originalPhysicalKey &&
    fitsColumn 1024 d.trashPhysicalKey && fitsColumn 128 d.idempotencyKey

def everyRow {α : Type} (p : α → Bool) (t : Table Uuid α) : Bool :=
  !t.anyRow fun _ row ↦ !p row

end Files

/-- The rows an upload, a commit or a delete writes fit their columns. -/
def Db.fits (db : Db) : Bool :=
  everyRow UploadSession.fits db.uploads && everyRow MultipartSession.fits db.multiparts &&
    everyRow IngestionRecord.fits db.ingestions && everyRow FileObject.fits db.files &&
    everyRow FileDeletionRecord.fits db.deletions

namespace Files

/-- The transaction as it ends where the columns have the declared lengths. -/
def columnChecked {α : Type} (x : Tx (α × Db)) : Tx (α × Db) := do
  let (a, db) ← x
  if db.fits then return (a, db)
  else integrityError "string_data_right_truncation"

theorem columnChecked_eq_ok {α : Type} {x : Tx (α × Db)} {a : α} {db : Db} :
    columnChecked x = .ok (a, db) ↔ x = .ok (a, db) ∧ db.fits = true := by
  unfold columnChecked
  constructor
  · intro h
    obtain ⟨⟨a', db'⟩, hx, h⟩ := Except.bind_eq_ok.mp h
    dsimp only at h
    split at h
    · rename_i hfits
      obtain ⟨rfl, rfl⟩ := Prod.mk.inj (Except.ok.inj h)
      exact ⟨hx, hfits⟩
    · cases h
  · rintro ⟨rfl, hfits⟩
    exact if_pos hfits

theorem everyRow_iff {α : Type} {p : α → Bool} {t : Table Uuid α} :
    everyRow p t = true ↔ ∀ k row, t.lookup k = some row → p row = true := by
  rw [everyRow, Bool.not_eq_true', AList.anyRow_eq_false]
  simp only [Bool.not_eq_false']

theorem everyRow_insert {α : Type} {p : α → Bool} {t : Table Uuid α} {id : Uuid} {row : α}
    (h : everyRow p t = true) (hid : id ∉ t) :
    everyRow p (t.insert id row) = p row := by
  rw [Bool.eq_iff_iff, everyRow_iff]
  constructor
  · intro hall
    exact hall id row (AList.lookup_insert t)
  · intro hrow k row' hk
    rcases eq_or_ne k id with rfl | hne
    · rw [AList.lookup_insert] at hk
      obtain rfl := Option.some.inj hk
      exact hrow
    · rw [AList.lookup_insert_ne hne] at hk
      exact everyRow_iff.mp h k row' hk

theorem everyRow_update {α : Type} {p : α → Bool} {t : Table Uuid α} {id : Uuid} {row : α}
    {g : α → α} (h : everyRow p t = true) (hrow : t.lookup id = some row) (hg : p (g row) = true) :
    everyRow p (t.update id g) = true := by
  refine everyRow_iff.mpr fun k row' hk ↦ ?_
  rcases eq_or_ne k id with rfl | hne
  · rw [AList.lookup_update_self, hrow] at hk
    obtain rfl := Option.some.inj hk
    exact hg
  · rw [AList.lookup_update_of_ne hne] at hk
    exact everyRow_iff.mp h k row' hk

/-! ## The key in the trash -/

theorem length_rsplitSlash {key : String} (h : '/' ∈ key.toList) :
    ∃ parent basename, rsplitSlash key = (some parent, basename) ∧
      parent.length + 1 + basename.length = key.length := by
  have hrest : key.toList.reverse.dropWhile (· ≠ '/') ≠ [] := by
    intro hnil
    have hslash := List.dropWhile_eq_nil_iff.mp hnil '/' (List.mem_reverse.mpr h)
    simp at hslash
  have hlength : (key.toList.reverse.takeWhile (· ≠ '/')).length +
      (key.toList.reverse.dropWhile (· ≠ '/')).length = key.length := by
    rw [← List.length_append, List.takeWhile_append_dropWhile, List.length_reverse,
      String.length_toList]
  have hpos := List.length_pos_iff.mpr hrest
  refine ⟨_, _, if_neg (by simpa using hrest), ?_⟩
  rw [String.length_ofList, String.length_ofList, List.length_dropLast, List.length_reverse,
    List.length_reverse]
  omega

/-- The parts a trash key adds to the key: the directory, the time and the identifier. -/
theorem length_trashKey {key : String} (h : '/' ∈ key.toList) (now : Timestamp) (id : Uuid) :
    (trashKey key now id).length = key.length + (stamp now).length + (uuidText id).length + 12 := by
  obtain ⟨parent, basename, hsplit, hlength⟩ := length_rsplitSlash h
  have htrash : ("/__trash__/" : String).length = 11 := by decide
  have hhyphen : ("-" : String).length = 1 := by decide
  have hslash : ("/" : String).length = 1 := by decide
  unfold trashKey
  rw [hsplit]
  simp only [Option.getD_some, String.length_append]
  omega

/-! ## Deleting a stored file -/

/-- What a delete of the file asks for, the lengths of the keys apart. -/
structure Deletable (db : Db) (now : Timestamp) (deletionId spaceId fileId : Uuid)
    (data : DeleteData) (f : FileObject) : Prop where
  space : f.storageSpaceId = spaceId
  available : f.status = .available
  kept : f.softDeleted = false
  idle : f.activeOperationId = none
  etag : validateDeleteEtag f.etag data.ifMatch data.isFileRef = .ok ()
  clock : 0 ≤ now ∧ now < clockEnd
  drawn : deletionId < 2 ^ 128
  fresh : deletionId ∉ db.deletions
  idempotencyKey : fitsNullable 128 data.idempotencyKey = true
  unused : db.deletions.anyRow (fun _ d ↦
    d.idempotencyKey = (deletionRecord now fileId deletionId data f).idempotencyKey) = false

section

variable {db db' : Db} {now : Timestamp} {deletionId spaceId fileId : Uuid} {data : DeleteData}
  {f : FileObject}

theorem deleteFile_of_deletable (h : Deletable db now deletionId spaceId fileId data f)
    (hfile : db.files.lookup fileId = some f) :
    deleteFile now deletionId spaceId fileId data db = .ok (some (f.retained now data),
      { db with
        deletions := db.deletions.insert deletionId (deletionRecord now fileId deletionId data f)
        files := db.files.update fileId (FileObject.retained now data) }) := by
  unfold deleteFile
  rw [hfile]
  dsimp only
  rw [if_neg (not_not.mpr h.space), if_neg (by simp [h.kept]),
    if_neg (by simp [h.available, h.kept]), if_neg (by simp [h.idle]), h.etag]
  refine (if_neg (by rw [h.unused]; simp)).trans ?_
  rw [insertRow_eq_ok.mpr ⟨h.fresh, rfl⟩]
  rfl

theorem fits_deleted (hdb : db.fits = true) (hfresh : deletionId ∉ db.deletions)
    (hfile : db.files.lookup fileId = some f)
    (hkey : fitsNullable 128 data.idempotencyKey = true) (d : FileDeletionRecord) :
    Db.fits { db with
      deletions := db.deletions.insert deletionId d
      files := db.files.update fileId (FileObject.retained now data) } = d.fits := by
  simp only [Db.fits, Bool.and_eq_true] at hdb
  obtain ⟨⟨⟨⟨huploads, hmultiparts⟩, hingestions⟩, hfiles⟩, hdeletions⟩ := hdb
  have hrow := everyRow_iff.mp hfiles fileId f hfile
  have hretained : (f.retained now data).fits = true := by
    simp only [FileObject.fits, FileObject.retained, Bool.and_eq_true] at hrow ⊢
    exact ⟨hrow.1, hkey⟩
  simp only [Db.fits, huploads, hmultiparts, hingestions, everyRow_update hfiles hfile hretained,
    Bool.true_and]
  exact everyRow_insert hdeletions hfresh

theorem finalizeFileTrashMigration_fits (hdb : db.fits = true)
    (h : finalizeFileTrashMigration fileId db = .ok db') : db'.fits = true := by
  rcases finalizeFileTrashMigration_cases h with rfl |
    ⟨f, f', deletionId, deletion, hfile, hdeletion, -, -, rfl, -, rfl⟩
  · exact hdb
  simp only [Db.fits, Bool.and_eq_true] at hdb ⊢
  obtain ⟨⟨⟨⟨huploads, hmultiparts⟩, hingestions⟩, hfiles⟩, hdeletions⟩ := hdb
  obtain ⟨hlookup, -⟩ := AList.lookup_of_selectFirst hdeletion
  have hrow := everyRow_iff.mp hfiles fileId f hfile
  have htrash := everyRow_iff.mp hdeletions deletionId deletion hlookup
  simp only [FileObject.fits, FileDeletionRecord.fits, Bool.and_eq_true] at hrow htrash
  refine ⟨⟨⟨⟨huploads, hmultiparts⟩, hingestions⟩, ?_⟩, ?_⟩
  · refine everyRow_update hfiles hfile ?_
    simp only [FileObject.fits, Bool.and_eq_true]
    exact ⟨⟨⟨⟨⟨hrow.1.1.1.1.1, htrash.1.2⟩, hrow.1.1.1.2⟩, hrow.1.1.2⟩, hrow.1.2⟩, hrow.2⟩
  · refine everyRow_update hdeletions hlookup ?_
    simp only [FileDeletionRecord.fits, Bool.and_eq_true]
    exact htrash

theorem fitsColumn_getD {length : ℕ} {value : Option String} {other : String}
    (hvalue : fitsNullable length value = true) (hother : fitsColumn length other = true) :
    fitsColumn length ((truthy value).getD other) = true := by
  cases htruthy : truthy value with
  | none => exact hother
  | some text =>
      obtain ⟨hsome, -⟩ := Option.filter_eq_some_iff.mp htruthy
      rw [hsome] at hvalue
      exact hvalue

/-- The record of the deletion fits where the key of the file leaves room for the trash. -/
theorem deletionRecord_fits (h : Deletable db now deletionId spaceId fileId data f)
    (hf : f.fits = true) (hslash : '/' ∈ f.objectKey.toList)
    (hrelative : fitsNullable 1024 data.originalRelativeKey = true) :
    (deletionRecord now fileId deletionId data f).fits = true ↔ f.objectKey.length ≤ 953 := by
  simp only [FileObject.fits, Bool.and_eq_true] at hf
  have hphysical : fitsColumn 1024 f.objectKey = true := hf.1.1.1.1.2
  have hid : (uuidText deletionId).length = 36 := length_uuidText h.drawn
  have hkey : fitsColumn 128 ((truthy data.idempotencyKey).getD (uuidText deletionId)) = true :=
    fitsColumn_getD h.idempotencyKey (decide_eq_true (by omega))
  have htrash : (trashKey f.objectKey now deletionId).length = f.objectKey.length + 71 := by
    rw [length_trashKey hslash, length_stamp h.clock.1 h.clock.2, hid]
  simp only [FileDeletionRecord.fits, deletionRecord, fitsColumn_getD hrelative hphysical,
    hphysical, hkey, Bool.true_and, Bool.and_true]
  rw [fitsColumn, htrash, decide_eq_true_eq]
  omega

theorem columnChecked_deleteFile (hdelete : Deletable db now deletionId spaceId fileId data f)
    (hfile : db.files.lookup fileId = some f) (hdb : db.fits = true)
    (hslash : '/' ∈ f.objectKey.toList)
    (hrelative : fitsNullable 1024 data.originalRelativeKey = true) :
    (∃ deleted db', columnChecked (deleteFile now deletionId spaceId fileId data db) =
      .ok (deleted, db')) ↔ f.objectKey.length ≤ 953 := by
  have hf : f.fits = true := by
    simp only [Db.fits, Bool.and_eq_true] at hdb
    exact everyRow_iff.mp hdb.1.2 fileId f hfile
  rw [← deletionRecord_fits hdelete hf hslash hrelative,
    ← fits_deleted hdb hdelete.fresh hfile hdelete.idempotencyKey]
  constructor
  · rintro ⟨deleted, db', hchecked⟩
    obtain ⟨hok, hfits⟩ := columnChecked_eq_ok.mp hchecked
    rw [deleteFile_of_deletable hdelete hfile] at hok
    obtain ⟨-, rfl⟩ := Prod.mk.inj (Except.ok.inj hok)
    exact hfits
  · intro hfits
    exact ⟨_, _, columnChecked_eq_ok.mpr ⟨deleteFile_of_deletable hdelete hfile, hfits⟩⟩

end

end Files

section

variable {fingerprint : FingerprintPayload → String} {tenantId spaceId : Uuid}
  {ctx : PrincipalContext} {space : StorageSpace} {bindings : List Binding} {now : Timestamp}
  {requested : String} {idempotencyKey : Option String} {semantics : Semantics}
  {command : AuthorizedFileCommand}

theorem scopedKey_ne_empty {key : String} (hrequested : requested ≠ "")
    (h : scopedKey ctx requested false = .ok key) : key ≠ "" := by
  unfold scopedKey at h
  split at h
  · obtain rfl := Except.ok.inj h
    exact hrequested
  · obtain ⟨directory, -, h⟩ := Except.bind_eq_ok.mp h
    rw [if_neg Bool.false_ne_true, if_neg hrequested] at h
    obtain rfl := Except.ok.inj h
    intro hempty
    have hlength := congrArg String.length hempty
    rw [String.length_append, String.length_append] at hlength
    have hslash : ("/" : String).length = 1 := by decide
    have hnone : ("" : String).length = 0 := by decide
    omega

/-- The physical key of an upload is its relative key behind a root and a slash. -/
theorem uploadKey_eq (h : AuthorizedFileCommand.create fingerprint tenantId ctx spaceId space
      bindings now ⟨requested, "files.write", idempotencyKey, semantics, false⟩ = .ok command) :
    command.physicalKey = rootKey tenantId spaceId space ++ "/" ++ command.relativeKey := by
  obtain ⟨key, hcreated⟩ := create_eq_ok h
  have hrequested : requested ≠ "" := by
    intro hempty
    have haction : "files.write" = "files.list" := hcreated.named hempty
    revert haction
    decide
  rw [hcreated.physical, hcreated.relative,
    joinKey, if_neg (scopedKey_ne_empty hrequested hcreated.confined)]

end

/-- A stored file, whose rows fit their columns, is deleted and moved to the trash exactly where
its key has at most 953 characters. -/
theorem stored_file_deletable_iff (fingerprint : FingerprintPayload → String)
    (tenantId : Uuid) (ctx : PrincipalContext) (spaceId : Uuid) (space : StorageSpace)
    (bindings : List Binding) (created now : Timestamp) (requested : String)
    (idempotencyKey : Option String) (semantics : Semantics) (command : AuthorizedFileCommand)
    (db : Db) (deletionId fileId : Uuid) (data : DeleteData) (f : FileObject)
    (hcommand : AuthorizedFileCommand.create fingerprint tenantId ctx spaceId space bindings created
      ⟨requested, "files.write", idempotencyKey, semantics, false⟩ = .ok command)
    (hfile : db.files.lookup fileId = some f) (hkey : f.objectKey = command.physicalKey)
    (hdb : db.fits = true)
    (hdelete : Deletable db now deletionId spaceId fileId data f)
    (hrelative : data.originalRelativeKey = some command.relativeKey) :
    (∃ deleted db', columnChecked (deleteFile now deletionId spaceId fileId data db) =
        .ok (deleted, db') ∧
      ∀ db'', finalizeFileTrashMigration fileId db' = .ok db'' → db''.fits = true) ↔
      f.objectKey.length ≤ 953 := by
  have hphysical := hkey.trans (uploadKey_eq hcommand)
  have hslash : '/' ∈ f.objectKey.toList := by
    rw [hphysical, String.toList_append, String.toList_append]
    exact List.mem_append_left _ (List.mem_append_right _ (by decide))
  have hfitting : fitsNullable 1024 data.originalRelativeKey = true := by
    simp only [Db.fits, Bool.and_eq_true] at hdb
    have hobject := everyRow_iff.mp hdb.1.2 fileId f hfile
    simp only [FileObject.fits, fitsColumn, Bool.and_eq_true, decide_eq_true_eq] at hobject
    have hlength := congrArg String.length hphysical
    rw [String.length_append] at hlength
    rw [hrelative]
    exact decide_eq_true (by omega)
  rw [← columnChecked_deleteFile hdelete hfile hdb hslash hfitting]
  constructor
  · rintro ⟨deleted, db', hchecked, -⟩
    exact ⟨deleted, db', hchecked⟩
  · rintro ⟨deleted, db', hchecked⟩
    exact ⟨deleted, db', hchecked,
      fun _ ↦ finalizeFileTrashMigration_fits (columnChecked_eq_ok.mp hchecked).2⟩

namespace Sample

theorem writer_wellFormed : (forMember 3 4 1).WellFormed := by decide

def writer : PrincipalContext :=
  ⟨forMember 3 4 1, writer_wellFormed⟩

def mayWrite : List Binding :=
  [⟨60, "files.write", .allow, none, 0, 1000, "binding", none⟩]

/-- What the upload of the file has recorded, its content verified. -/
def verifiedAt (key : String) : IngestionRecord :=
  { buildIngestionModel (data key) (some 11) none 10 with
    providerEtag := some "etag"
    actualSize := some 4
    actualContentType := some "text/plain"
    status := .verified }

/-- The file is uploaded under the key and committed. -/
def storing (key : String) : Db :=
  { tenant with
    uploads := (∅ : Table Uuid UploadSession).insert 11
      { newUpload { session 4 with objectKey := "ns/" ++ key } with status := .completed }
    ingestions := (∅ : Table Uuid IngestionRecord).insert 12 ((verifiedAt key).committedAs 30 0)
    files := (∅ : Table Uuid FileObject).insert 30 (newFile (verifiedAt key)) }

def fileDeletion (key : String) : DeleteData where
  actorPrincipalId := some 3
  authorizationVersion := some 1
  authorizationEvidence := some evidence
  idempotencyKey := some "delete"
  ifMatch := some "etag"
  isFileRef := false
  originalRelativeKey := some key
  purgeDueAt := 50

def commandAt (key : String) : AuthorizedFileCommand where
  actingPrincipalId := 3
  storageSpaceId := 2
  bucket := "bucket"
  relativeKey := key
  physicalKey := "ns/" ++ key
  providerTargetVersion := 1
  action := "files.write"
  authorizationVersion := 1
  authorizationEvidence := commandEvidence writer
  idempotencyFingerprint := none

theorem create_commandAt {key : String} (hkey : key ≠ "")
    (hcanonical : isCanonicalPrefix key = true) :
    AuthorizedFileCommand.create (fun _ ↦ "") 1 writer 2 space mayWrite 5
      ⟨key, "files.write", none, .none, false⟩ = .ok (commandAt key) := by
  have hrequested : canonicalKey key false = .ok key :=
    canonicalKey_eq_ok.mpr ⟨rfl, hcanonical, fun hempty ↦ absurd hempty hkey⟩
  have htarget : deriveProviderTarget 1 2 space key = some ⟨"bucket", "ns/" ++ key, 1⟩ :=
    deriveProviderTarget_eq_some_iff.mpr ⟨⟨rfl, by decide, by decide, by decide⟩, hcanonical, by
      rw [joinKey, if_neg hkey]
      rfl⟩
  have hauthorized : authorizeKey writer "files.write" mayWrite 2 key 5 = .ok () := by
    unfold authorizeKey evaluate
    rw [if_pos hcanonical]
    rfl
  have hconfined : scopedKey writer key false = .ok key := rfl
  simp [AuthorizedFileCommand.create, hrequested, hconfined, hcanonical, htarget, hauthorized, bind,
    Except.bind, pure, Except.pure, commandAt]
  exact ⟨rfl, rfl, rfl⟩

theorem deletable_storing (key : String) :
    Deletable (storing key) 5 40 2 30 (fileDeletion key) (newFile (verifiedAt key)) :=
  ⟨rfl, rfl, rfl, rfl, rfl, by decide, by decide, AList.notMem_empty 40,
    show fitsNullable 128 (some "delete") = true by decide, rfl⟩

theorem fits_fileDeletion {key : String} (h : key.length ≤ 1024) :
    fitsNullable 1024 (fileDeletion key).originalRelativeKey = true :=
  decide_eq_true h

/-- A key of so many characters. -/
def longKey (length : ℕ) : String :=
  String.ofList (List.replicate length 'a')

theorem length_longKey (length : ℕ) : (longKey length).length = length := by
  rw [longKey, String.length_ofList, List.length_replicate]

theorem canonical_longKey {length : ℕ} (h : 2 < length) :
    isCanonicalPrefix (longKey length) = true := by
  have hslash : '/' ∉ (longKey length).toList := by
    rw [longKey, String.toList_ofList]
    exact fun hmem ↦ absurd (List.eq_of_mem_replicate hmem) (by decide)
  unfold isCanonicalPrefix
  rw [splitSlash_segment hslash]
  have hne : ∀ segment : List Char, segment.length ≤ 2 → List.replicate length 'a' ≠ segment := by
    rintro segment hsegment rfl
    rw [List.length_replicate] at hsegment
    omega
  have hhead : (List.replicate length 'a').head? ≠ some '/' := by
    rw [List.head?_replicate]
    split <;> simp
  simp [longKey, hhead, hne]

theorem fits_storing {key : String} (h : key.length ≤ 1021) : (storing key).fits = true := by
  have hempty : ∀ {α : Type} (p : α → Bool), everyRow p (∅ : Table Uuid α) = true := fun _ ↦ rfl
  have hrelative : fitsColumn 1024 key = true := decide_eq_true (by omega)
  have hphysical : fitsColumn 1024 ("ns/" ++ key) = true := by
    have hroot : ("ns/" : String).length = 3 := by decide
    exact decide_eq_true (by rw [String.length_append]; omega)
  simp only [Db.fits, Bool.and_eq_true]
  refine ⟨⟨⟨⟨?_, rfl⟩, ?_⟩, ?_⟩, rfl⟩
  · refine (everyRow_insert (hempty _) (AList.notMem_empty _)).trans ?_
    simp only [UploadSession.fits, newUpload, hphysical]
    decide
  · refine (everyRow_insert (hempty _) (AList.notMem_empty _)).trans ?_
    simp only [IngestionRecord.fits, IngestionRecord.committedAs, verifiedAt, buildIngestionModel,
      data, hrelative, hphysical]
    decide
  · refine (everyRow_insert (hempty _) (AList.notMem_empty _)).trans ?_
    simp only [FileObject.fits, newFile, verifiedAt, buildIngestionModel, data, hphysical]
    decide

end Sample

theorem stored_file_deletable_iff_sample :
    (∃ deleted db', columnChecked
        (deleteFile 5 40 2 30 (Sample.fileDeletion "report") (Sample.storing "report")) =
          .ok (deleted, db') ∧
      ∀ db'', finalizeFileTrashMigration 30 db' = .ok db'' → db''.fits = true) ↔
      (newFile (Sample.verifiedAt "report")).objectKey.length ≤ 953 :=
  stored_file_deletable_iff (fun _ ↦ "") 1 Sample.writer 2 Sample.space Sample.mayWrite 5 5 "report"
    none .none (Sample.commandAt "report") (Sample.storing "report") 40 30
    (Sample.fileDeletion "report") (newFile (Sample.verifiedAt "report"))
    (Sample.create_commandAt (by decide) (by decide)) rfl rfl (Sample.fits_storing (by decide))
    (Sample.deletable_storing "report") rfl

/-- The key of 954 characters is stored, and the deletion of the file is refused. -/
theorem long_key_not_deletable : ¬ ∀ (fingerprint : FingerprintPayload → String) (tenantId : Uuid)
    (ctx : PrincipalContext) (spaceId : Uuid) (space : StorageSpace) (bindings : List Binding)
    (created now : Timestamp) (requested : String) (idempotencyKey : Option String)
    (semantics : Semantics) (command : AuthorizedFileCommand) (db : Db) (deletionId fileId : Uuid)
    (data : DeleteData) (f : FileObject),
    requested.length ≤ 1024 →
    AuthorizedFileCommand.create fingerprint tenantId ctx spaceId space bindings created
      ⟨requested, "files.write", idempotencyKey, semantics, false⟩ = .ok command →
    db.files.lookup fileId = some f → f.objectKey = command.physicalKey → db.fits = true →
    Deletable db now deletionId spaceId fileId data f →
    data.originalRelativeKey = some command.relativeKey →
      ∃ deleted db', columnChecked (deleteFile now deletionId spaceId fileId data db) =
        .ok (deleted, db') := by
  intro h
  have hlength := Sample.length_longKey 951
  have hcanonical := Sample.canonical_longKey (show 2 < 951 by decide)
  have hkey : Sample.longKey 951 ≠ "" := by
    intro hempty
    rw [hempty] at hlength
    revert hlength
    decide
  obtain ⟨deleted, db', hchecked⟩ := h (fun _ ↦ "") 1 Sample.writer 2 Sample.space Sample.mayWrite
    5 5 (Sample.longKey 951) none .none (Sample.commandAt (Sample.longKey 951))
    (Sample.storing (Sample.longKey 951)) 40 30 (Sample.fileDeletion (Sample.longKey 951))
    (newFile (Sample.verifiedAt (Sample.longKey 951))) (by omega)
    (Sample.create_commandAt hkey hcanonical) rfl rfl (Sample.fits_storing (by omega))
    (Sample.deletable_storing _) rfl
  have hphysical : (newFile (Sample.verifiedAt (Sample.longKey 951))).objectKey =
      "ns/" ++ Sample.longKey 951 := rfl
  have hroot : ("ns/" : String).length = 3 := by decide
  have hshort := (columnChecked_deleteFile (Sample.deletable_storing (Sample.longKey 951)) rfl
    (Sample.fits_storing (by omega))
    (by
      rw [hphysical, String.toList_append]
      exact List.mem_append_left _ (by decide))
    (Sample.fits_fileDeletion (by omega))).mp ⟨deleted, db', hchecked⟩
  rw [hphysical, String.length_append] at hshort
  omega

end S3mp
