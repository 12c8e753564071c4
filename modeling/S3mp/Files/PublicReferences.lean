import S3mp.Files.FileRefBackfill
import S3mp.Platform.System

/-!
# Does a reference describe its row?

Five paths write the public reference of a file row.  Each hands its own notion of
the key, the metadata and the checksum to `generate_file_ref`; this module
says for each of them when these are the row's own.  A completion without an
ingestion record passes the physical key, which is never the relative one.
-/

namespace S3mp

open Relational Files Storage Encoding Transition

variable {tenantId : Uuid} {db db' : Db} {f f' : FileObject}

/-- The relative key which the row's own columns give. -/
def OwnKey (tenantId : Uuid) (db : Db) (f : FileObject) (relativeKey : String) : Prop :=
  ∃ space, db.spaces.lookup f.storageSpaceId = some space ∧
    relativeKeyForFile tenantId f space = .ok relativeKey

/-- The reference is that of the row's own key, metadata and checksum. -/
def RefersToItself (tenantId : Uuid) (db : Db) (f : FileObject) : Prop :=
  ∀ relativeKey, OwnKey tenantId db f relativeKey →
    f.publicFileRef = generateFileRef f.applicationId relativeKey f.metadata f.checksum

/-- Not a legacy or unverified file: a reference is generated for it. -/
def Referenced (applicationId : Option Uuid) (checksum : Option String) : Prop :=
  applicationId.isSome ∧ (normalizedSha256 checksum).isSome

/-- Two references are the same when neither file has one, or all that is hashed is. -/
theorem generateFileRef_eq_iff {a a' : Option Uuid} {k k' : String} {m m' c c' : Option String} :
    generateFileRef a k m c = generateFileRef a' k' m' c' ↔
      (Referenced a c ∨ Referenced a' c' →
        a = a' ∧ k = k' ∧ m = m' ∧ normalizedSha256 c = normalizedSha256 c') := by
  unfold generateFileRef Referenced
  cases a with
  | none => cases a' with
    | none => simp
    | some a' => cases normalizedSha256 c' <;> simp
  | some a => cases normalizedSha256 c with
    | none => cases a' with
      | none => simp
      | some a' => cases normalizedSha256 c' <;> simp
    | some d => cases a' with
      | none => simp
      | some a' => cases normalizedSha256 c' <;> simp

/-! ## The five paths -/

inductive ReferenceWrite where
  | commit (now : Timestamp) (fileId id : Uuid)
  | completeUpload (now : Timestamp) (fileId id : Uuid) (data : CompletionData)
  | completeMultipart (fileId id : Uuid) (data : CompletionData)
  /-- `record` is the source row as `rename_file` has resolved it. -/
  | rename (ids : OperationIds) (spaceId : Uuid) (data : RenameData) (record : FileObject)
  /-- `f` and `space` are what the selection of candidates has read. -/
  | backfill (id : Uuid) (f : FileObject) (space : StorageSpace) (reads : BackfillReads)

/-- The reference `rename_file` computes for the row to be. -/
def renameReference (data : RenameData) (record : FileObject) : Option FileRef :=
  generateFileRef (some data.applicationId) data.destinationKey record.metadata record.checksum

namespace ReferenceWrite

/-- The database after the transaction, if it commits. -/
def exec (tenantId : Uuid) (db : Db) : ReferenceWrite → Option Db
  | .commit now fileId id => (commitVerifiedFile now fileId id db).toOption.map (·.2)
  | .completeUpload now fileId id data => (Files.completeUpload now fileId id data db).toOption
  | .completeMultipart fileId id data => (Files.completeMultipart fileId id data db).toOption
  | .rename ids spaceId data record =>
    (createRenameOperation ids spaceId { data with resultFileRef := renameReference data record }
      db).toOption.map (·.2)
  | .backfill id f space reads => (backfillFile tenantId id f space reads db).toOption.map (·.2)

/-- The row whose reference the path writes. -/
def row : ReferenceWrite → Uuid
  | .commit _ fileId _ | .completeUpload _ fileId _ _ | .completeMultipart fileId _ _ => fileId
  | .rename ids _ _ _ => ids.resultFile
  | .backfill id _ _ _ => id

/-- What is hashed on the path is the row's own. -/
def Describes (tenantId : Uuid) (db : Db) : ReferenceWrite → Prop
  | .commit _ _ id => ∀ row, db.ingestions.lookup id = some row →
      Referenced row.applicationId row.checksum →
      ∀ relativeKey, OwnKey tenantId db (newFile row) relativeKey → relativeKey = row.relativeKey
  | .completeUpload _ _ id data => ∀ u, db.uploads.lookup id = some u →
      Referenced u.applicationId ((truthy data.checksum).or u.checksum) →
      ∀ relativeKey, ¬ OwnKey tenantId db (uploadFile data u) relativeKey
  | .completeMultipart _ id data => ∀ m, db.multiparts.lookup id = some m →
      Referenced m.applicationId ((truthy data.checksum).or m.checksum) →
      ∀ relativeKey, ¬ OwnKey tenantId db (multipartFile data m) relativeKey
  | .rename _ _ data record => ∀ source, db.files.lookup data.sourceFileId = some source →
      Referenced (some data.applicationId) record.checksum ∨
        Referenced source.applicationId source.checksum →
      ∀ relativeKey, OwnKey tenantId db (renamedFile data source) relativeKey →
        some data.applicationId = source.applicationId ∧ data.destinationKey = relativeKey ∧
          record.metadata = source.metadata ∧
          normalizedSha256 record.checksum = normalizedSha256 source.checksum
  | .backfill id f space _ => ∀ row, db.files.lookup id = some row →
      ∀ relativeKey, OwnKey tenantId db row relativeKey →
        (∃ a, applicationIdForFile f space = .ok a ∧ row.applicationId = some a) ∧
          relativeKeyForFile tenantId f space = .ok relativeKey ∧ f.metadata = row.metadata

end ReferenceWrite

/-! ## Each path -/

theorem ownKey_ne_objectKey {relativeKey : String} (h : OwnKey tenantId db f relativeKey) :
    relativeKey ≠ f.objectKey := by
  obtain ⟨space, -, hkey⟩ := h
  exact relativeKeyForFile_ne_objectKey hkey

/-- The columns a reference and its description depend on. -/
structure SameReference (f f' : FileObject) : Prop where
  storageSpaceId : f'.storageSpaceId = f.storageSpaceId
  storageNamespace : f'.storageNamespace = f.storageNamespace
  objectKey : f'.objectKey = f.objectKey
  providerTargetVersion : f'.providerTargetVersion = f.providerTargetVersion
  applicationId : f'.applicationId = f.applicationId
  metadata : f'.metadata = f.metadata
  checksum : f'.checksum = f.checksum
  publicFileRef : f'.publicFileRef = f.publicFileRef

theorem relativeKeyIn_congr (hspace : f'.storageSpaceId = f.storageSpaceId)
    (hkey : f'.objectKey = f.objectKey) (space : StorageSpace) (namespaces : List (Option String)) :
    relativeKeyIn tenantId f' space namespaces = relativeKeyIn tenantId f space namespaces := by
  induction namespaces with
  | nil => rfl
  | cons storageNamespace rest ih =>
      unfold relativeKeyIn
      rw [hspace, hkey, ih]

theorem relativeKeyForFile_congr (hspace : f'.storageSpaceId = f.storageSpaceId)
    (hnamespace : f'.storageNamespace = f.storageNamespace) (hkey : f'.objectKey = f.objectKey)
    (hversion : f'.providerTargetVersion = f.providerTargetVersion) (space : StorageSpace) :
    relativeKeyForFile tenantId f' space = relativeKeyForFile tenantId f space := by
  unfold relativeKeyForFile
  rw [hversion, hnamespace, relativeKeyIn_congr hspace hkey]

theorem ownKey_congr (hspaces : db'.spaces = db.spaces)
    (hspace : f'.storageSpaceId = f.storageSpaceId)
    (hnamespace : f'.storageNamespace = f.storageNamespace) (hkey : f'.objectKey = f.objectKey)
    (hversion : f'.providerTargetVersion = f.providerTargetVersion) {relativeKey : String} :
    OwnKey tenantId db' f' relativeKey ↔ OwnKey tenantId db f relativeKey := by
  have hlookup : db'.spaces.lookup f'.storageSpaceId = db.spaces.lookup f.storageSpaceId := by
    rw [hspaces, hspace]
  simp only [OwnKey, hlookup, relativeKeyForFile_congr hspace hnamespace hkey hversion]

theorem SameReference.refersToItself_iff (h : SameReference f f') (hspaces : db'.spaces = db.spaces) :
    RefersToItself tenantId db' f' ↔ RefersToItself tenantId db f := by
  unfold RefersToItself
  simp only [ownKey_congr hspaces h.storageSpaceId h.storageNamespace h.objectKey
    h.providerTargetVersion, h.publicFileRef, h.applicationId, h.metadata, h.checksum]

/-- What a row generated with the fields `a`, `k`, `m` and `c` needs to describe itself. -/
theorem refersToItself_iff {a : Option Uuid} {k : String} {m c : Option String}
    (href : f.publicFileRef = generateFileRef a k m c) :
    RefersToItself tenantId db f ↔ ∀ relativeKey, OwnKey tenantId db f relativeKey →
      Referenced a c ∨ Referenced f.applicationId f.checksum →
        a = f.applicationId ∧ k = relativeKey ∧ m = f.metadata ∧
          normalizedSha256 c = normalizedSha256 f.checksum := by
  unfold RefersToItself
  simp only [href, generateFileRef_eq_iff]

theorem commit_describes {now : Timestamp} {fileId id : Uuid} {row' : IngestionRecord}
    (h : commitVerifiedFile now fileId id db = .ok (row', db'))
    (hf : db'.files.lookup fileId = some f) (hnew : db.files.lookup fileId ≠ some f) :
    RefersToItself tenantId db' f ↔
      (ReferenceWrite.commit now fileId id).Describes tenantId db := by
  obtain ⟨row, hrow, hsame⟩ : ∃ row, db.ingestions.lookup id = some row ∧
      SameReference (newFile row) f ∧ db'.spaces = db.spaces := by
    cases commitVerifiedFile_eq_ok h with
    | replayed row hrow => exact absurd hf hnew
    | unreserved row hready | charged row hready =>
        refine ⟨row, hready.found, ?_, rfl⟩
        obtain rfl := Option.some.inj ((AList.lookup_insert db.files).symm.trans hf)
        exact ⟨rfl, rfl, rfl, rfl, rfl, rfl, rfl, rfl⟩
    | refused row hready =>
        refine ⟨row, hready.found, ?_, rfl⟩
        change ((db.files.insert fileId (newFile row)).update fileId _).lookup fileId = some f at hf
        rw [AList.lookup_update_self, AList.lookup_insert] at hf
        obtain rfl := Option.some.inj hf
        exact ⟨rfl, rfl, rfl, rfl, rfl, rfl, rfl, rfl⟩
  obtain ⟨hsame, hspaces⟩ := hsame
  rw [hsame.refersToItself_iff hspaces, refersToItself_iff rfl]
  constructor
  · intro hdescribes row₁ hrow₁ href relativeKey hkey
    obtain rfl := Option.some.inj (hrow.symm.trans hrow₁)
    exact (hdescribes relativeKey hkey (Or.inl href)).2.1.symm
  · intro hdescribes relativeKey hkey href
    exact ⟨rfl, (hdescribes row hrow (or_self_iff.mp href) relativeKey hkey).symm, rfl, rfl⟩

/-- A checksum which is a digest is not empty. -/
theorem Referenced.truthy_or {a : Option Uuid} {c : Option String} (h : Referenced a c)
    (c' : Option String) : Referenced a ((truthy c).or c') := by
  refine ⟨h.1, ?_⟩
  have htruthy : truthy c = c := by
    cases c with
    | none => rfl
    | some text =>
        have hne : text ≠ "" := by
          rintro rfl
          exact absurd h.2 (by decide)
        simp [truthy, hne]
  rw [htruthy]
  cases c with
  | none => exact absurd h.2 (by decide)
  | some text => exact h.2

/-- A row which passes its physical key never describes itself. -/
theorem physicalKey_describes {a : Option Uuid} {m c : Option String}
    (href : f.publicFileRef = generateFileRef a f.objectKey m c) :
    RefersToItself tenantId db f ↔ ∀ relativeKey, OwnKey tenantId db f relativeKey →
      ¬ (Referenced a c ∨ Referenced f.applicationId f.checksum) := by
  rw [refersToItself_iff href]
  refine forall₂_congr fun relativeKey hkey ↦ ?_
  constructor
  · intro hsame hreferenced
    exact ownKey_ne_objectKey hkey (hsame hreferenced).2.1.symm
  · intro hnot hreferenced
    exact absurd hreferenced hnot

theorem completeUpload_describes {now : Timestamp} {fileId id : Uuid} {data : CompletionData}
    (h : completeUpload now fileId id data db = .ok db') (hf : db'.files.lookup fileId = some f) :
    RefersToItself tenantId db' f ↔
      (ReferenceWrite.completeUpload now fileId id data).Describes tenantId db := by
  obtain ⟨u, hu, -, -, rfl⟩ := completeUpload_eq_ok.mp h
  obtain rfl := Option.some.inj ((AList.lookup_insert db.files).symm.trans hf)
  rw [physicalKey_describes rfl]
  constructor
  · intro hdescribes u₁ hu₁ hreferenced relativeKey hkey
    obtain rfl := Option.some.inj (hu.symm.trans hu₁)
    exact hdescribes relativeKey hkey (Or.inl hreferenced)
  · intro hdescribes relativeKey hkey hreferenced
    exact hdescribes u hu (or_self_iff.mp hreferenced) relativeKey hkey

theorem completeMultipart_describes {fileId id : Uuid} {data : CompletionData}
    (h : completeMultipart fileId id data db = .ok db') (hf : db'.files.lookup fileId = some f) :
    RefersToItself tenantId db' f ↔
      (ReferenceWrite.completeMultipart fileId id data).Describes tenantId db := by
  obtain ⟨m, hm, -, -, rfl⟩ := completeMultipart_eq_ok.mp h
  obtain rfl := Option.some.inj ((AList.lookup_insert db.files).symm.trans hf)
  rw [physicalKey_describes rfl]
  constructor
  · intro hdescribes m₁ hm₁ hreferenced relativeKey hkey
    obtain rfl := Option.some.inj (hm.symm.trans hm₁)
    exact hdescribes relativeKey hkey (Or.inl hreferenced)
  · intro hdescribes relativeKey hkey hreferenced
    refine hdescribes m hm ?_ relativeKey hkey
    -- The row keeps the checksum of the completion, the reference may take the session's.
    rcases hreferenced with hreferenced | hown
    · exact hreferenced
    · exact hown.truthy_or m.checksum

theorem rename_describes {ids : OperationIds} {spaceId : Uuid} {data : RenameData}
    {record : FileObject} {op : FileOperation}
    (h : createRenameOperation ids spaceId { data with resultFileRef := renameReference data record }
      db = .ok (op, db'))
    (hf : db'.files.lookup ids.resultFile = some f)
    (hnew : db.files.lookup ids.resultFile ≠ some f) :
    RefersToItself tenantId db' f ↔
      (ReferenceWrite.rename ids spaceId data record).Describes tenantId db := by
  rcases createRenameOperation_eq_ok h with
    rfl | ⟨source, files, -, hsource, -, -, -, -, -, -, hinsert, rfl⟩
  · exact absurd hf hnew
  obtain ⟨-, -, rfl⟩ := insertFile_eq_ok.mp hinsert
  let passed : RenameData := { data with resultFileRef := renameReference data record }
  have hsame : SameReference (renamedFile passed source) f := by
    change (occupy ids.operation _ _).lookup ids.resultFile = some f at hf
    rw [occupy, AList.lookup_updateWhere, AList.lookup_insert] at hf
    obtain rfl := Option.some.inj hf
    split <;> exact ⟨rfl, rfl, rfl, rfl, rfl, rfl, rfl, rfl⟩
  have hkeys : ∀ {relativeKey}, OwnKey tenantId db (renamedFile passed source) relativeKey ↔
      OwnKey tenantId db (renamedFile data source) relativeKey := by
    apply ownKey_congr <;> rfl
  have hspaces : ∀ {files outbox operations}, { db with operations, files, outbox }.spaces =
      db.spaces := rfl
  rw [hsame.refersToItself_iff hspaces, refersToItself_iff rfl]
  constructor
  · intro hdescribes source₁ hsource₁ hreferenced relativeKey hkey
    obtain rfl := Option.some.inj (hsource.symm.trans hsource₁)
    exact hdescribes relativeKey (hkeys.mpr hkey) hreferenced
  · intro hdescribes relativeKey hkey hreferenced
    exact hdescribes source hsource hreferenced relativeKey (hkeys.mp hkey)

theorem backfillReference_eq_ok {f : FileObject} {space : StorageSpace} {reads : BackfillReads}
    {ref : FileRef} (h : backfillReference tenantId f space reads = .ok (.ok ref)) :
    ∃ relativeKey a, relativeKeyForFile tenantId f space = .ok relativeKey ∧
      applicationIdForFile f space = .ok a ∧
      generateFileRef (some a) relativeKey f.metadata (some reads.checksum) = some ref := by
  unfold backfillReference at h
  cases hkey : relativeKeyForFile tenantId f space with
  | error e =>
      simp only [hkey] at h
      cases h
  | ok relativeKey =>
  cases ha : applicationIdForFile f space with
  | error e =>
      simp only [hkey, ha] at h
      cases h
  | ok a =>
  refine ⟨relativeKey, a, rfl, rfl, ?_⟩
  rw [hkey, ha] at h
  dsimp only [bind, Except.bind] at h
  split at h
  · cases h
  split at h
  · cases h
  split at h
  · cases h
  split at h
  · cases h
  split at h
  · cases h
  split at h
  · cases h
  · rename_i found hfound
    obtain rfl := Except.ok.inj (Except.ok.inj h)
    exact hfound

theorem backfill_describes {id : Uuid} {read : FileObject} {space : StorageSpace}
    {reads : BackfillReads} {outcome : String}
    (h : backfillFile tenantId id read space reads db = .ok (outcome, db'))
    (hf : db'.files.lookup id = some f) (hnew : db.files.lookup id ≠ some f) :
    RefersToItself tenantId db' f ↔
      (ReferenceWrite.backfill id read space reads).Describes tenantId db := by
  obtain ⟨ref, href, hpersist⟩ : ∃ ref, backfillReference tenantId read space reads = .ok (.ok ref) ∧
      persistReference id ref reads.checksum db = (outcome, db') := by
    unfold backfillFile at h
    cases hreference : backfillReference tenantId read space reads with
    | error e =>
        simp only [hreference] at h
        cases h
    | ok result =>
        simp only [hreference] at h
        cases result with
        | error reason =>
            cases h
            exact absurd hf hnew
        | ok ref => exact ⟨ref, rfl, Except.ok.inj h⟩
  obtain ⟨key, a, hkey, ha, hgenerated⟩ := backfillReference_eq_ok href
  have hdigest : Referenced (some a) (some reads.checksum) := by
    refine ⟨rfl, ?_⟩
    unfold generateFileRef at hgenerated
    cases hnormal : normalizedSha256 (some reads.checksum) with
    | none =>
        rw [hnormal] at hgenerated
        cases hgenerated
    | some digest => rfl
  unfold persistReference at hpersist
  split at hpersist
  · cases hpersist
    exact absurd hf hnew
  rename_i row hrow
  split at hpersist
  · cases hpersist
    exact absurd hf hnew
  split at hpersist
  · cases hpersist
    exact absurd hf hnew
  obtain rfl := (Prod.mk.inj hpersist).2
  have hrow' : f = row.backfilled ref reads.checksum := by
    change (db.files.update id _).lookup id = some f at hf
    rw [AList.lookup_update_self, hrow] at hf
    exact (Option.some.inj hf).symm
  subst hrow'
  have hkeys : ∀ {relativeKey}, OwnKey tenantId db (row.backfilled ref reads.checksum) relativeKey ↔
      OwnKey tenantId db row relativeKey := by
    apply ownKey_congr <;> rfl
  have hspaces : RefersToItself tenantId
      { db with files := db.files.update id (FileObject.backfilled ref reads.checksum) }
      (row.backfilled ref reads.checksum) ↔
      RefersToItself tenantId db (row.backfilled ref reads.checksum) :=
    SameReference.refersToItself_iff ⟨rfl, rfl, rfl, rfl, rfl, rfl, rfl, rfl⟩ rfl
  rw [hspaces, refersToItself_iff hgenerated.symm]
  constructor
  · intro hdescribes row₁ hrow₁ relativeKey hown
    obtain rfl := Option.some.inj (hrow.symm.trans hrow₁)
    obtain ⟨happ, rfl, hmetadata, -⟩ := hdescribes relativeKey (hkeys.mpr hown) (Or.inl hdigest)
    exact ⟨⟨a, ha, happ.symm⟩, hkey, hmetadata⟩
  · intro hdescribes relativeKey hown _
    obtain ⟨⟨a', ha', happ⟩, hkey', hmetadata⟩ := hdescribes row hrow relativeKey (hkeys.mp hown)
    obtain rfl := Except.ok.inj (ha.symm.trans ha')
    exact ⟨happ.symm, Except.ok.inj (hkey.symm.trans hkey'), hmetadata, rfl⟩

/-! ## All paths, and what a reference tells -/

theorem map_snd_toOption {ε α β : Type} {x : Except ε (α × β)} {b : β}
    (h : x.toOption.map (·.2) = some b) : ∃ a, x = .ok (a, b) := by
  cases x with
  | error e => cases h
  | ok p => exact ⟨p.1, congrArg Except.ok (Prod.ext rfl (Option.some.inj h))⟩

theorem eq_ok_of_toOption {ε α : Type} {x : Except ε α} {a : α} (h : x.toOption = some a) :
    x = .ok a := by
  cases x with
  | error e => cases h
  | ok b => exact congrArg Except.ok (Option.some.inj h)

theorem write_describes {w : ReferenceWrite} (h : w.exec tenantId db = some db')
    (hf : db'.files.lookup w.row = some f) (hnew : db.files.lookup w.row ≠ some f) :
    RefersToItself tenantId db' f ↔ w.Describes tenantId db := by
  cases w with
  | commit now fileId id =>
      obtain ⟨row', hok⟩ := map_snd_toOption h
      exact commit_describes hok hf hnew
  | completeUpload now fileId id data => exact completeUpload_describes (eq_ok_of_toOption h) hf
  | completeMultipart fileId id data => exact completeMultipart_describes (eq_ok_of_toOption h) hf
  | rename ids spaceId data record =>
      obtain ⟨op, hok⟩ := map_snd_toOption h
      exact rename_describes hok hf hnew
  | backfill id read space reads =>
      obtain ⟨outcome, hok⟩ := map_snd_toOption h
      exact backfill_describes hok hf hnew

/-- Rows which describe themselves and publish the same text are rows of one tenant and one
application, with one key, one metadata value and one digest. -/
theorem fields_eq_of_fileRefText_eq {sha256 : List UInt8 → List UInt8}
    (hsha : Function.Injective sha256) {json : Option String → Json} {t t' : Uuid}
    {k k' text : String} (hk : OwnKey t db f k) (hk' : OwnKey t' db' f' k')
    (hself : RefersToItself t db f) (hself' : RefersToItself t' db' f')
    (htext : f.fileRefText sha256 json t = .ok (some text))
    (htext' : f'.fileRefText sha256 json t' = .ok (some text)) :
    t = t' ∧ f.applicationId = f'.applicationId ∧ k = k' ∧
      (json f.metadata).sorted = (json f'.metadata).sorted ∧
      normalizedSha256 f.checksum = normalizedSha256 f'.checksum := by
  have hfields : ∀ {t : Uuid} {db : Db} {f : FileObject} {k : String}, OwnKey t db f k →
      RefersToItself t db f → f.fileRefText sha256 json t = .ok (some text) →
      ∃ a d, f.applicationId = some a ∧ normalizedSha256 f.checksum = some d ∧
        fileRefText sha256 t a k (json f.metadata) d = .ok text := by
    intro t db f k hk hself htext
    unfold FileObject.fileRefText at htext
    rw [hself k hk] at htext
    unfold generateFileRef at htext
    cases ha : f.applicationId with
    | none =>
        rw [ha] at htext
        cases htext
    | some a => cases hd : normalizedSha256 f.checksum with
      | none =>
          rw [ha, hd] at htext
          cases htext
      | some d =>
          rw [ha, hd] at htext
          obtain ⟨_, hpublished, heq⟩ := Except.map_eq_ok.mp htext
          obtain rfl := Option.some.inj heq
          exact ⟨a, d, rfl, rfl, hpublished⟩
  obtain ⟨a, d, ha, hd, hpublished⟩ := hfields hk hself htext
  obtain ⟨a', d', ha', hd', hpublished'⟩ := hfields hk' hself' htext'
  obtain ⟨ht, haa, hkk, hmm, hdd⟩ := fileRefText_inj hsha hpublished hpublished'
  exact ⟨ht, by rw [ha, ha', haa], hkk, hmm, by rw [hd, hd', hdd]⟩

/-- A written reference is that of its row exactly when the path passes the row's own columns;
rows which describe themselves are told apart by their references. -/
theorem public_reference_of_row (sha256 : List UInt8 → List UInt8) :
    (∀ (tenantId : Uuid) (w : ReferenceWrite) (db db' : Db) (f : FileObject),
      w.exec tenantId db = some db' → db'.files.lookup w.row = some f →
      db.files.lookup w.row ≠ some f →
        (RefersToItself tenantId db' f ↔ w.Describes tenantId db)) ∧
    (Function.Injective sha256 →
      ∀ (json : Option String → Json) (t t' : Uuid) (db db' : Db) (f f' : FileObject)
        (k k' text : String), OwnKey t db f k → OwnKey t' db' f' k' →
        RefersToItself t db f → RefersToItself t' db' f' →
        f.fileRefText sha256 json t = .ok (some text) →
        f'.fileRefText sha256 json t' = .ok (some text) →
          t = t' ∧ f.applicationId = f'.applicationId ∧ k = k' ∧
            (json f.metadata).sorted = (json f'.metadata).sorted ∧
            normalizedSha256 f.checksum = normalizedSha256 f'.checksum) := by
  constructor
  · intro tenantId w db db' f h hf hnew
    exact write_describes h hf hnew
  · intro hsha json t t' db db' f f' k k' text hk hk' hself hself' htext htext'
    exact fields_eq_of_fileRefText_eq hsha hk hk' hself hself' htext htext'

namespace Sample

/-- An upload with its record, once the provider has verified the object. -/
def verified : Db :=
  run exec tenant [.createUploadIntent (ids 10) (session 40) (data "a"),
    .recordProviderResult 12 (result 40 'a')]

/-- The session is completed without its record. -/
def completion : ReferenceWrite :=
  .completeUpload 0 30 11 ⟨40, "text/plain", some "etag",
    some (String.ofList (List.replicate 64 'a'))⟩

/-- Its reference is that of the key `ns/key`; the row lies at the key `key` of the space. -/
def completed : FileObject :=
  sessionFile 2 (some 5) (some "ns") 1 "ns/key" 1 40 "text/plain" (some "etag")
    (some (String.ofList (List.replicate 64 'a')))
    (some ⟨5, "ns/key", none, String.ofList (List.replicate 64 'a')⟩) none

end Sample

open Sample in
theorem public_reference_of_row_sample :
    ∃ db' f, (ReferenceWrite.commit 0 30 12).exec 1 verified = some db' ∧
      db'.files.lookup 30 = some f ∧ RefersToItself 1 db' f := by
  have hrow : (((ReferenceWrite.commit 0 30 12).exec 1 verified).bind
      fun db' ↦ db'.files.lookup 30).isSome := by decide
  obtain ⟨f, hf⟩ := Option.isSome_iff_exists.mp hrow
  obtain ⟨db', hdb', hf⟩ := Option.bind_eq_some_iff.mp hf
  refine ⟨db', f, hdb', hf, ?_⟩
  refine ((public_reference_of_row id).1 1 _ verified db' f hdb' hf ?_).mpr ?_
  · have hnone : verified.files.lookup 30 = none := by decide
    intro hsome
    cases hnone.symm.trans hsome
  · intro row hrow _ relativeKey hown
    obtain ⟨space, hspace, hkey⟩ := hown
    have hown : (verified.ingestions.lookup 12).all fun row ↦
        (verified.spaces.lookup row.storageSpaceId).all fun space ↦
          relativeKeyForFile 1 (newFile row) space = .ok row.relativeKey := by decide
    have hspace' : verified.spaces.lookup row.storageSpaceId = some space := hspace
    rw [hrow, Option.all_some, hspace', Option.all_some] at hown
    exact Except.ok.inj (hkey.symm.trans (of_decide_eq_true hown))

open Sample in
/-- A completed upload carries the reference of its physical key. -/
theorem completed_upload_refers_elsewhere :
    ∃ db', completion.exec 1 verified = some db' ∧ db'.files.lookup 30 = some completed ∧
      verified.files.lookup 30 ≠ some completed ∧ ¬ RefersToItself 1 db' completed := by
  have hrow : ((completion.exec 1 verified).bind fun db' ↦
      (db'.files.lookup 30).map fun f ↦ (f, db'.spaces.lookup 2)) =
        some (completed, some space) := by decide
  obtain ⟨db', hdb', hrow⟩ := Option.bind_eq_some_iff.mp hrow
  obtain ⟨f, hf, heq⟩ := Option.map_eq_some_iff.mp hrow
  obtain ⟨rfl, hspace⟩ := Prod.mk.inj heq
  refine ⟨db', hdb', hf, by decide, fun hself ↦ ?_⟩
  have hkey : relativeKeyForFile 1 completed space = .ok "key" := by decide
  have hown := hself "key" ⟨space, hspace, hkey⟩
  exact absurd hown (by decide)

end S3mp
