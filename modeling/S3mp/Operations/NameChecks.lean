import S3mp.Files.ServiceWorld
import S3mp.Operations.Absorbing
import S3mp.Operations.Locks

/-!
# Three answers about a name

Whether a key is free is asked by `file_name_is_occupied` before an upload, by
`create_rename_operation` about its destination and by `_occupy_operation_resources`
about that of a copy or a move.  The first looks at the rows which hold the key and at
the reservations, the second only at the rows which hold it, and the third at all rows,
also the tombstones, and at the reservations.
-/

namespace S3mp

open Relational Files

variable {db : Db} {ids : OperationIds} {spaceId : Uuid} {key : String}

/-! ## What each of them looks at -/

/-- Some row holds the key in the index on active keys. -/
def KeyHeld (spaceId : Uuid) (key : String) (db : Db) : Prop :=
  db.files.anyRow (fun _ f ↦ f.storageSpaceId = spaceId && f.objectKey = key && f.holdsKey) = true

def KeyReserved (spaceId : Uuid) (key : String) (db : Db) : Prop :=
  db.resourceReservations.anyRow
    (fun _ r ↦ r.storageSpaceId = spaceId && r.objectKey = key) = true

/-- Some row is at the key, perhaps one which is only historical. -/
def KeyRecorded (spaceId : Uuid) (key : String) (db : Db) : Prop :=
  ∃ j f, db.files.lookup j = some f ∧ f.storageSpaceId = spaceId ∧ f.objectKey = key

theorem KeyHeld.recorded (h : KeyHeld spaceId key db) : KeyRecorded spaceId key db := by
  obtain ⟨j, f, hf, hheld⟩ := AList.anyRow_eq_true.mp h
  simp only [Bool.and_eq_true, decide_eq_true_eq] at hheld
  exact ⟨j, f, hf, hheld.1.1, hheld.1.2⟩

theorem fileNameIsOccupied_iff {s : Store} :
    s.fileNameIsOccupied spaceId key = true ↔
      KeyHeld spaceId key s.db ∨ KeyReserved spaceId key s.db := by
  rw [Store.fileNameIsOccupied, Bool.or_eq_true]
  rfl

/-! ### The destination of a rename -/

/-- A request which `create_rename_operation` asks about its destination. -/
structure RenameReady (spaceId : Uuid) (data : RenameData) (db : Db) (source : FileObject) :
    Prop where
  found : db.files.lookup data.sourceFileId = some source
  inSpace : source.storageSpaceId = spaceId
  available : source.status = .available
  kept : source.softDeleted = false
  matched : ∀ etag, data.ifMatch = some etag → source.etag = some etag
  isNew : db.operations.selectFirst (fun _ op ↦ op.applicationId = some data.applicationId &&
    op.operationType = .rename && op.idempotencyKey = data.idempotencyKey) = none
  free : source.activeOperationId = none
  inactive : db.operations.anyRow (fun _ op ↦ op.activeRenameOf data.sourceFileId) = false

/-- The request is refused since its destination exists. -/
def RenameRefused (ids : OperationIds) (spaceId : Uuid) (data : RenameData) (db : Db) : Prop :=
  createRenameOperation ids spaceId data db =
    raise "duplicate_resource" "Destination file already exists" 409

theorem Except.bind_ne_error {ε α β : Type} {x : Except ε α} {f : α → Except ε β} {e : ε}
    (hx : x ≠ .error e) (hf : ∀ a, f a ≠ .error e) : (x >>= f) ≠ .error e := by
  cases x with
  | error e' =>
      intro h
      cases h
      exact hx rfl
  | ok a => exact hf a

theorem insertRow_ne_raise {α : Type} {constraint code message : String} {id : Uuid} {row : α}
    {t : Table Uuid α} {status : ℕ} :
    insertRow constraint id row t ≠ raise code message status := by
  unfold insertRow
  split
  · exact fun h ↦ by cases h
  · exact fun h ↦ by cases h

theorem insertFile_ne_raise {id : Uuid} {f : FileObject} {files : Table Uuid FileObject}
    {code message : String} {status : ℕ} :
    insertFile id f files ≠ raise code message status := by
  unfold insertFile
  split
  · exact fun h ↦ by cases h
  · exact insertRow_ne_raise

theorem addOutboxEvent_ne_raise {outbox operation : Uuid} {replayOf : Option Uuid}
    {code message : String} {status : ℕ} :
    addOutboxEvent outbox operation replayOf db ≠ raise code message status :=
  Except.bind_ne_error insertRow_ne_raise fun _ h ↦ by cases h

theorem renameRefused_iff {data : RenameData} {source : FileObject}
    (h : RenameReady spaceId data db source) :
    RenameRefused ids spaceId data db ↔ KeyHeld spaceId data.destinationPhysicalKey db := by
  have hserved : ¬ (source.storageSpaceId ≠ spaceId ∨ source.status ≠ .available ∨
      source.softDeleted) := by simp [h.inSpace, h.available, h.kept]
  have hmatched : ¬ (data.ifMatch.any fun etag ↦ source.etag ≠ some etag) = true := by
    rw [Option.any_eq_true]
    rintro ⟨etag, hetag, hneq⟩
    exact of_decide_eq_true hneq (h.matched etag hetag)
  unfold RenameRefused createRenameOperation
  simp only [h.found, if_neg hserved, if_neg hmatched, h.isNew]
  rw [if_neg (by simp [h.free]), if_neg (by simp [h.inactive])]
  split
  · rename_i hheld
    exact iff_of_true rfl hheld
  · rename_i hheld
    refine iff_of_false ?_ hheld
    -- past the check only constraints of the tables can fail
    refine Except.bind_ne_error insertFile_ne_raise fun files ↦ ?_
    refine Except.bind_ne_error insertRow_ne_raise fun operations ↦ ?_
    exact Except.bind_ne_error addOutboxEvent_ne_raise fun _ hraise ↦ by cases hraise

/-! ### The destination of a copy or a move -/

theorem rowByKey_isSome_iff :
    (rowByKey spaceId key db.files).isSome ↔ KeyRecorded spaceId key db := by
  constructor
  · intro h
    obtain ⟨⟨j, f⟩, hf⟩ := Option.isSome_iff_exists.mp h
    exact ⟨j, f, rowByKey_eq_some hf⟩
  · rintro ⟨j, f, hf, hspace, rfl⟩
    exact rowByKey_isSome hf hspace

/-- The key may become the destination of the operation. -/
def OperationTakes (ids : OperationIds) (spaceId : Uuid) (key : String) (db : Db) : Prop :=
  ∃ db', occupyOperationResources ids spaceId [] [key] db = .ok db'

theorem operationTakes_iff (hfresh : ids.reservation key ∉ db.resourceReservations) :
    OperationTakes ids spaceId key db ↔
      ¬ KeyRecorded spaceId key db ∧ ¬ KeyReserved spaceId key db := by
  rw [← rowByKey_isSome_iff]
  have hall : occupyOperationResources ids spaceId [] [key] db = do
      checkDestination spaceId db.files key
      let resourceReservations ← reserveKey spaceId ids.operation ids.reservation
        db.resourceReservations key
      return { db with files := occupy ids.operation [] db.files, resourceReservations } := by
    simp [occupyOperationResources]
  rw [OperationTakes, hall, checkDestination]
  by_cases hrecorded : (rowByKey spaceId key db.files).isSome
  · rw [if_pos hrecorded]
    refine iff_of_false ?_ fun h ↦ h.1 hrecorded
    rintro ⟨db', h⟩
    cases h
  rw [if_neg hrecorded, and_iff_right hrecorded]
  change (∃ db', (reserveKey _ _ _ _ _ >>= _) = _) ↔ _
  rw [reserveKey, KeyReserved]
  by_cases hreserved : db.resourceReservations.anyRow
      (fun _ r ↦ r.storageSpaceId = spaceId && r.objectKey = key) = true
  · rw [if_pos (Or.inl hreserved)]
    refine iff_of_false ?_ (not_not.mpr hreserved)
    rintro ⟨db', h⟩
    cases h
  · rw [if_neg (not_or.mpr ⟨hreserved, hfresh⟩)]
    exact iff_of_true ⟨_, rfl⟩ hreserved

/-! ## Agreement -/

/-- The three answer alike, and a key any of them calls free can be given to a new row. -/
structure NameChecksAgree (ids : OperationIds) (spaceId : Uuid) (data : RenameData) (s : Store) :
    Prop where
  rename : s.fileNameIsOccupied spaceId data.destinationPhysicalKey = true ↔
    RenameRefused ids spaceId data s.db
  operation : s.fileNameIsOccupied spaceId data.destinationPhysicalKey = true ↔
    ¬ OperationTakes ids spaceId data.destinationPhysicalKey s.db
  takeable : s.fileNameIsOccupied spaceId data.destinationPhysicalKey = false ∨
      ¬ RenameRefused ids spaceId data s.db ∨
      OperationTakes ids spaceId data.destinationPhysicalKey s.db →
    ∀ id (f : FileObject), f.storageSpaceId = spaceId → f.objectKey = data.destinationPhysicalKey →
      f.conflictsIn id s.db.files ≠ some "uq_file_object_active_key"

theorem conflictsIn_ne_active {id : Uuid} {f : FileObject} (h : ¬ KeyHeld spaceId key db)
    (hspace : f.storageSpaceId = spaceId) (hkey : f.objectKey = key) :
    f.conflictsIn id db.files ≠ some "uq_file_object_active_key" := by
  have hnone : db.files.anyRow (fun j g ↦ j ≠ id && g.holdsKey &&
      g.storageSpaceId = f.storageSpaceId && g.objectKey = f.objectKey) = false := by
    refine AList.anyRow_eq_false.mpr fun j g hg ↦ Bool.eq_false_iff.mpr fun hat ↦ h ?_
    simp only [Bool.and_eq_true, decide_eq_true_eq] at hat
    refine AList.anyRow_eq_true.mpr ⟨j, g, hg, ?_⟩
    simp [hat.1.2.trans hspace, hat.2.trans hkey, hat.1.1.2]
  rw [FileObject.conflictsIn, hnone, Bool.and_false, if_neg Bool.false_ne_true]
  split
  · exact fun heq ↦ absurd (Option.some.inj heq) (by decide)
  · exact fun heq ↦ by cases heq

theorem nameChecks_agree_iff {s : Store} {data : RenameData} {source : FileObject}
    (hready : RenameReady spaceId data s.db source)
    (hfresh : ids.reservation data.destinationPhysicalKey ∉ s.db.resourceReservations) :
    NameChecksAgree ids spaceId data s ↔
      KeyHeld spaceId data.destinationPhysicalKey s.db ∨
        ¬ KeyReserved spaceId data.destinationPhysicalKey s.db ∧
          ¬ KeyRecorded spaceId data.destinationPhysicalKey s.db := by
  have hname : s.fileNameIsOccupied spaceId data.destinationPhysicalKey = true ↔ _ :=
    fileNameIsOccupied_iff
  have hrename : RenameRefused ids spaceId data s.db ↔ _ := renameRefused_iff hready
  have htakes : OperationTakes ids spaceId data.destinationPhysicalKey s.db ↔ _ :=
    operationTakes_iff hfresh
  have hrecorded : KeyHeld spaceId data.destinationPhysicalKey s.db → _ := KeyHeld.recorded
  constructor
  · rintro ⟨hsame, hoperation, -⟩
    rw [hname, hrename] at hsame
    rw [hname, htakes] at hoperation
    tauto
  · intro h
    refine ⟨?_, ?_, fun hfree id f hspace hkey ↦ conflictsIn_ne_active ?_ hspace hkey⟩
    · rw [hname, hrename]
      tauto
    · rw [hname, htakes]
      tauto
    · rw [← Bool.not_eq_true, hname, hrename, htakes] at hfree
      tauto

namespace Sample

/-- Another file has been renamed away from the key `b`. -/
def renamedAway : Db :=
  { stored with
    files := stored.files.insert 31 { file with objectKey := "ns/b", status := .deleted } }

theorem renameReady_stored : RenameReady 2 rename stored file :=
  ⟨by decide, rfl, rfl, rfl, by decide, by decide, rfl, by decide⟩

theorem renameReady_renamedAway : RenameReady 2 rename renamedAway file :=
  ⟨by decide, rfl, rfl, rfl, by decide, by decide, rfl, by decide⟩

end Sample

theorem nameChecks_agree_vacant :
    NameChecksAgree Sample.operationIds 2 Sample.rename ⟨Sample.stored, ∅⟩ ↔
      KeyHeld 2 "ns/b" Sample.stored ∨
        ¬ KeyReserved 2 "ns/b" Sample.stored ∧ ¬ KeyRecorded 2 "ns/b" Sample.stored :=
  nameChecks_agree_iff Sample.renameReady_stored (by decide)

/-- A tombstone keeps a copy from a name which the other two checks call free. -/
theorem tombstone_blocks_copy : ¬ ∀ (s : Store) ids spaceId data source,
    RenameReady spaceId data s.db source →
      ids.reservation data.destinationPhysicalKey ∉ s.db.resourceReservations →
        NameChecksAgree ids spaceId data s := by
  intro h
  have hagree := h ⟨Sample.renamedAway, ∅⟩ Sample.operationIds 2 Sample.rename Sample.file
    Sample.renameReady_renamedAway (by decide)
  have hfree : ¬ Store.fileNameIsOccupied ⟨Sample.renamedAway, ∅⟩ 2 "ns/b" = true := by decide
  have htakes : OperationTakes Sample.operationIds 2 "ns/b" Sample.renamedAway :=
    not_not.mp fun hrefused ↦ hfree (hagree.operation.mpr hrefused)
  have hrecorded := ((operationTakes_iff (by decide)).mp htakes).1
  refine hrecorded ⟨31, { Sample.file with objectKey := "ns/b", status := .deleted }, ?_, rfl, rfl⟩
  decide

end S3mp
