import S3mp.Files.UploadService
import S3mp.Uploads.Isolation

/-!
# The world of the file service

What the service runs on: the tenant's database, which answers the requests of the
stores by their transactions.  The object storage and the stores which authorize
may answer anything, and any request may raise, also after it has had its effect.
-/

namespace S3mp.Files

open Relational Authorization Identity Storage Transition

/-- The database, with the columns only the update of metadata uses. -/
structure Store where
  db : Db
  versions : Table Uuid MetadataVersion

/-- What is decided outside about one request. -/
structure ServiceChoice where
  now : Timestamp
  intent : IntentIds
  file : Uuid
  deletion : Uuid
  operation : OperationIds
  /-- What the request raises. -/
  raises : Option Raised
  /-- A request which raises has had its effect all the same. -/
  takesEffect : Bool
  /-- The answers which do not come from the tables. -/
  outside : (r : FileRequest) → Except Raised r.Value

/-- The record came through the session. -/
def IngestionRecord.through (row : IngestionRecord) : SessionRef → Bool
  | .upload id => row.uploadSessionId = some id
  | .multipart id => row.multipartSessionId = some id

namespace Store

variable (s : Store)

/-! ## Reads -/

/-- The join with the active spaces of an active tenant. -/
def serves (spaceId : Uuid) : Bool :=
  s.db.tenantActive && (s.db.spaces.lookup spaceId).any (·.active)

def stored (id : Uuid) (f : FileObject) : StoredFile :=
  ⟨id, f, ((s.versions.lookup id).getD .initial).recordVersion⟩

def readable (spaceId : Uuid) (f : FileObject) : Bool :=
  f.storageSpaceId = spaceId && f.status = .available && !f.softDeleted && s.serves spaceId

def getFile (spaceId fileId : Uuid) : Option StoredFile :=
  ((s.db.files.lookup fileId).filter (s.readable spaceId)).map (s.stored fileId)

def getFileByRef (spaceId : Uuid) (ref : FileRef) : Option StoredFile :=
  (s.db.files.selectFirst fun _ f ↦ f.publicFileRef = some ref && s.readable spaceId f).map
    fun (id, f) ↦ s.stored id f

/-- A directory prefix is a segment boundary, not a lexical prefix. -/
def listed (spaceId : Uuid) (pre : String) (status : FileStatus) (f : FileObject) : Bool :=
  f.storageSpaceId = spaceId && f.status = status && !f.softDeleted && s.serves spaceId &&
    (pre = "" || f.objectKey = pre || (removePrefix (pre ++ "/") f.objectKey).isSome)

def listFiles (spaceId : Uuid) (pre : String) (status : FileStatus) : List StoredFile :=
  ((s.db.files.select fun _ f ↦ s.listed spaceId pre status f).mergeSort
    fun a b ↦ a.2.objectKey ≤ b.2.objectKey).map fun (id, f) ↦ s.stored id f

def fileNameIsOccupied (spaceId : Uuid) (physicalKey : String) : Bool :=
  (s.db.files.anyRow fun _ f ↦
    f.storageSpaceId = spaceId && f.objectKey = physicalKey && f.holdsKey) ||
  s.db.resourceReservations.anyRow fun _ r ↦ r.storageSpaceId = spaceId && r.objectKey = physicalKey

/-- The space of a deletion record is that of its file. -/
def fileNameIsMigrating (spaceId : Uuid) (physicalKey : String) : Bool :=
  s.db.deletions.anyRow fun _ d ↦
    (s.db.files.lookup d.fileId).any (·.storageSpaceId = spaceId) &&
      d.originalPhysicalKey = physicalKey && d.status ∈ [.requested, .retrying]

def withResultFile (id : Uuid) (op : FileOperation) : RenameResult :=
  ⟨id, op, op.resultFileId.bind fun file ↦ (s.db.files.lookup file).map (file, ·)⟩

def replayRenameOperation (applicationId : Uuid) (idempotencyKey : String) : Option RenameResult :=
  (s.db.operations.selectFirst fun _ op ↦ op.applicationId = some applicationId &&
    op.operationType = .rename && op.idempotencyKey = idempotencyKey).map
      fun (id, op) ↦ s.withResultFile id op

def getOperation (id : Uuid) : Option FileOperation :=
  (s.db.operations.lookup id).filter fun op ↦ op.storageSpaceId.any s.serves

def getProvenance (id : Uuid) : Option Provenance :=
  (s.db.ingestions.lookup id).map fun row ↦
    ⟨row, s.db.ingestionEvents.filter (·.ingestionRecordId = id),
      row.fileObjectId.bind s.db.files.lookup⟩

def getUpload (id : Uuid) : Option UploadSession :=
  (s.db.uploads.lookup id).filter fun u ↦ s.serves u.storageSpaceId

def getMultipart (id : Uuid) : Option MultipartSession :=
  (s.db.multiparts.lookup id).filter fun m ↦ s.serves m.storageSpaceId

def listMultipartParts (id : Uuid) : List (ℕ × MultipartPart) :=
  ((s.db.parts.select fun key _ ↦ key.1 = id).map fun (key, part) ↦ (key.2, part)).mergeSort
    fun a b ↦ a.1 ≤ b.1

/-- Of several records of one session the latest. -/
def getForSession (ref : SessionRef) : Option (Uuid × IngestionRecord) :=
  s.db.ingestions.selectFirst fun _ row ↦ row.through ref

def reconciliationAttemptCount (id : Uuid) : ℕ :=
  s.db.ingestionEvents.countP fun event ↦
    event.ingestionRecordId = id && event.eventType = .reconciliationStarted

/-! ## Transactions -/

def put (db : Db) : Store :=
  { s with db }

/-- The file of a committed record goes with it, that of a quarantined one does not. -/
def committedFile (row : IngestionRecord) : Option StoredFile :=
  if row.status = .committed then
    row.fileObjectId.bind fun id ↦ (s.db.files.lookup id).map (s.stored id)
  else none

/-- A value the transaction has just written. -/
def written {α : Type} : Option α → Except Raised α
  | none => .error (.other "row not found")
  | some a => .ok a

/-- A transaction, and what it returns to the service. -/
def transact {α β : Type} (out : Tx (α × Db)) (f : α → Store → Except Raised β) :
    Except Raised (β × Store) :=
  match out with
  | .error e => .error (ReconcileWorld.raised e)
  | .ok (a, db) => (f a (s.put db)).map fun b ↦ (b, s.put db)

def execute (out : Tx Db) : Except Raised (Unit × Store) :=
  s.transact (out.map fun db ↦ ((), db)) fun _ _ ↦ .ok ()

def query {α : Type} (a : α) : Except Raised (α × Store) :=
  .ok (a, s)

variable (recordEtag : Uuid → ℕ → String) (c : ServiceChoice)

/-- A request as it is carried out.  A request which raises here has been rolled back. -/
def perform : (r : FileRequest) → Except Raised (r.Value × Store)
  | .read .now => s.query c.now
  | .read (.getSpace spaceId) => s.query (getSpace spaceId s.db)
  | .getFile spaceId fileId => s.query (s.getFile spaceId fileId)
  | .getFileByRef spaceId ref => s.query (s.getFileByRef spaceId ref)
  | .listFiles spaceId pre status => s.query (s.listFiles spaceId pre status)
  | .fileNameIsOccupied spaceId key => s.query (s.fileNameIsOccupied spaceId key)
  | .fileNameIsMigrating spaceId key => s.query (s.fileNameIsMigrating spaceId key)
  | .updateFileMetadata spaceId fileId data =>
    match updateFileMetadata recordEtag spaceId fileId data s.db s.versions with
    | .error e => .error (ReconcileWorld.raised e)
    | .ok (f, db, versions) =>
      .ok (f.map (Store.stored ⟨db, versions⟩ fileId), ⟨db, versions⟩)
  | .deleteFile spaceId fileId data =>
    s.transact (deleteFile c.now c.deletion spaceId fileId data s.db) fun f _ ↦ .ok f
  | .createOperation spaceId data =>
    s.transact (createOperation c.operation spaceId data s.db) fun op _ ↦
      .ok (c.operation.operation, op)
  | .createRenameOperation spaceId data =>
    s.transact (createRenameOperation c.operation spaceId data s.db) fun _ s ↦
      written (s.replayRenameOperation data.applicationId data.idempotencyKey)
  | .replayRenameOperation applicationId key => s.query (s.replayRenameOperation applicationId key)
  | .getOperation id => s.query (s.getOperation id)
  | .getProvenance id => s.query (s.getProvenance id)
  | .createUploadIntent session data =>
    s.transact (createUploadIntent c.intent session data s.db) fun result s ↦
      (written (s.db.uploads.lookup result.sessionId)).map fun u ↦
        ⟨result.sessionId, u, result.ingestionId, result.replayed⟩
  | .createMultipartIntent session data =>
    s.transact (createMultipartIntent c.intent session data s.db) fun result s ↦
      (written (s.db.multiparts.lookup result.sessionId)).map fun m ↦
        ⟨result.sessionId, m, result.ingestionId, result.replayed⟩
  | .getUpload id => s.query (s.getUpload id)
  | .getMultipart id => s.query (s.getMultipart id)
  | .listMultipartParts id => s.query (s.listMultipartParts id)
  | .getForSession ref => s.query (s.getForSession ref)
  | .expireUpload id => s.execute (.ok (expireUpload id s.db))
  | .expireMultipart id => s.execute (.ok (expireMultipart id s.db))
  | .abortMultipart id => s.execute (.ok (abortMultipart id s.db))
  | .setMultipartProviderId id uploadId =>
    s.transact (setMultipartProviderId id uploadId s.db) fun m _ ↦ .ok (some m)
  | .recordMultipartPart id n part =>
    s.transact (.ok (part, recordMultipartPart id n part s.db)) fun part _ ↦ .ok part
  | .completeUpload id data =>
    s.transact ((completeUpload c.now c.file id data s.db).map fun db ↦ ((), db)) fun _ s ↦
      (written (s.db.files.lookup c.file)).map (s.stored c.file)
  | .completeMultipart id data =>
    s.transact ((completeMultipart c.file id data s.db).map fun db ↦ ((), db)) fun _ s ↦
      (written (s.db.files.lookup c.file)).map (s.stored c.file)
  | .recordProviderResult id result =>
    s.transact (recordProviderResult id result s.db) fun row _ ↦ .ok row
  | .commitVerifiedFile id =>
    s.transact (commitVerifiedFile c.now c.file id s.db) fun row s ↦ .ok (row, s.committedFile row)
  | .failOrQuarantine id status reason =>
    s.transact (failOrQuarantine c.now id status reason s.db) fun row _ ↦ .ok row
  | .expire id => s.transact (expire c.now id s.db) fun row _ ↦ .ok row
  | .reconciliationAttemptCount id => s.query (s.reconciliationAttemptCount id)
  -- the object storage, the stores which authorize, and the records of all tenants
  | r => (c.outside r).map fun x ↦ (x, s)

/-- The answer to a request, and the store it leaves. -/
def answer (r : FileRequest) : Except Raised r.Value × Store :=
  match c.raises, s.perform recordEtag c r with
  | none, .ok (x, s') => (.ok x, s')
  | none, .error e => (.error e, s)
  | some e, .ok (_, s') => (.error e, if c.takesEffect then s' else s)
  | some e, .error _ => (.error e, s)

/-! ## What a request may leave -/

section

variable {s s' : Store} {α β : Type}

theorem transact_eq_ok {out : Tx (α × Db)} {f : α → Store → Except Raised β} {b : β}
    (h : s.transact out f = .ok (b, s')) :
    ∃ a db', out = .ok (a, db') ∧ f a (s.put db') = .ok b ∧ s' = s.put db' := by
  cases out with
  | error e => cases h
  | ok written =>
      obtain ⟨a, hf, heq⟩ := Except.map_eq_ok.mp h
      obtain ⟨rfl, rfl⟩ := Prod.mk.inj heq
      exact ⟨written.1, written.2, rfl, hf, rfl⟩

theorem execute_eq_ok {out : Tx Db} {u : Unit} (h : s.execute out = .ok (u, s')) :
    ∃ db', out = .ok db' ∧ s' = s.put db' := by
  obtain ⟨a, db', hout, -, rfl⟩ := transact_eq_ok h
  obtain ⟨db₁, hdb, heq⟩ := Except.map_eq_ok.mp hout
  obtain ⟨-, rfl⟩ := Prod.mk.inj heq
  exact ⟨_, hdb, rfl⟩

theorem query_eq_ok {a b : α} (h : s.query a = .ok (b, s')) : b = a ∧ s' = s := by
  obtain ⟨rfl, rfl⟩ := Prod.mk.inj (Except.ok.inj h)
  exact ⟨rfl, rfl⟩

theorem outside_eq_ok {out : Except Raised α} {x : α}
    (h : out.map (fun x ↦ (x, s)) = .ok (x, s')) : s' = s := by
  obtain ⟨_, -, heq⟩ := Except.map_eq_ok.mp h
  exact (Prod.mk.inj heq).2.symm

/-- A request raises and leaves nothing, or it is carried out, and perhaps raises then. -/
theorem answer_cases (recordEtag : Uuid → ℕ → String) (c : ServiceChoice) (r : FileRequest)
    (s : Store) :
    (∃ e, s.answer recordEtag c r = (.error e, s)) ∨
      ∃ x s', s.perform recordEtag c r = .ok (x, s') ∧
        (c.raises = none ∧ s.answer recordEtag c r = (.ok x, s') ∨
          ∃ e, c.raises = some e ∧ c.takesEffect ∧ s.answer recordEtag c r = (.error e, s')) := by
  unfold answer
  cases hraises : c.raises with
  | none => cases hperform : s.perform recordEtag c r with
    | error e => exact Or.inl ⟨e, rfl⟩
    | ok out => exact Or.inr ⟨out.1, out.2, rfl, Or.inl ⟨rfl, rfl⟩⟩
  | some raised => cases hperform : s.perform recordEtag c r with
    | error e => exact Or.inl ⟨raised, rfl⟩
    | ok out => cases htakes : c.takesEffect with
      | true => exact Or.inr ⟨out.1, out.2, rfl, Or.inr ⟨raised, rfl, rfl, rfl⟩⟩
      | false => exact Or.inl ⟨raised, rfl⟩

end

end Store

end S3mp.Files
