import S3mp.Files.IngestionStore

/-!
# What the ingestion transactions do

One inversion lemma per transaction: the state a committed transaction leaves.
Everything later proved about runs goes through these lemmas.
-/

namespace S3mp.Files

open Relational Governance

variable {db db' : Db} {ids : IntentIds} {session : SessionData} {data : IngestionData}
  {now : Timestamp} {id fileId : Uuid} {row row' : IngestionRecord}

theorem insertIngestion_eq_ok (h : insertIngestion id row db = .ok db') :
    id ∉ db.ingestions ∧ db' = { db with
      ingestions := db.ingestions.insert id row
      ingestionEvents := ⟨id, .created, none⟩ :: db.ingestionEvents } := by
  unfold insertIngestion at h
  split at h
  · simp at h
  · obtain ⟨ingestions, hinsert, hdb⟩ := Except.bind_eq_ok.mp h
    obtain ⟨hfresh, rfl⟩ := insertRow_eq_ok.mp hinsert
    cases hdb
    exact ⟨hfresh, rfl⟩

/-- The database after a new intent whose session rows are `uploads` and `multiparts`. -/
def withIntent (ids : IntentIds) (record : IngestionRecord) (ledger : Ledger)
    (uploads : Table Uuid UploadSession) (multiparts : Table Uuid MultipartSession) (db : Db) :
    Db :=
  { db with
    ledger, uploads, multiparts
    ingestions := db.ingestions.insert ids.ingestion record
    ingestionEvents := ⟨ids.ingestion, .created, none⟩ :: db.ingestionEvents }

theorem createUploadIntent_eq_ok {result : IntentResult}
    (h : createUploadIntent ids session data db = .ok (result, db')) :
    (result.replayed = true ∧ db' = db) ∨
      (result = ⟨ids.session, ids.ingestion, false⟩ ∧ ids.session ∉ db.uploads ∧
        ids.ingestion ∉ db.ingestions ∧
        ∃ ledger, Held db.ledger ids.reservation session.contentLength ids.reservation ledger ∧
          db' = withIntent ids
            (buildIngestionModel data (some ids.session) none ids.reservation) ledger
            (db.uploads.insert ids.session (newUpload session)) db.multiparts db) := by
  unfold createUploadIntent at h
  obtain ⟨existing, -, h⟩ := Except.bind_eq_ok.mp h
  cases existing with
  | some existing =>
      left
      dsimp only at h
      split at h
      · simp at h
      · split at h
        · cases h
          exact ⟨rfl, rfl⟩
        · simp at h
  | none =>
      right
      dsimp only at h
      obtain ⟨⟨reservationId, ledger⟩, hreserve, h⟩ := Except.bind_eq_ok.mp h
      obtain ⟨uploads, huploads, h⟩ := Except.bind_eq_ok.mp h
      obtain ⟨db₁, hingestion, h⟩ := Except.bind_eq_ok.mp h
      cases h
      have hheld := reserveQuota_eq_ok hreserve
      obtain rfl := hheld.1
      obtain ⟨hsession, rfl⟩ := insertRow_eq_ok.mp huploads
      obtain ⟨hfresh, rfl⟩ := insertIngestion_eq_ok hingestion
      exact ⟨rfl, hsession, hfresh, ledger, hheld, rfl⟩

/-- A new intent leaves the ledger of its reservation. -/
theorem createUploadIntent_reserves {result : IntentResult}
    (h : createUploadIntent ids session data db = .ok (result, db')) :
    db' = db ∨ ∃ id, reserveQuota ids.reservation session.storageSpaceId session.contentLength
      db.spaces db.ledger = .ok (id, db'.ledger) := by
  unfold createUploadIntent at h
  obtain ⟨existing, -, h⟩ := Except.bind_eq_ok.mp h
  cases existing with
  | some existing =>
      dsimp only at h
      split at h
      · simp at h
      · split at h
        · cases h
          exact Or.inl rfl
        · simp at h
  | none =>
      dsimp only at h
      obtain ⟨⟨id, ledger⟩, hreserve, h⟩ := Except.bind_eq_ok.mp h
      obtain ⟨uploads, -, h⟩ := Except.bind_eq_ok.mp h
      obtain ⟨db₁, hingestion, h⟩ := Except.bind_eq_ok.mp h
      cases h
      obtain ⟨-, rfl⟩ := insertIngestion_eq_ok hingestion
      exact Or.inr ⟨id, hreserve⟩

theorem createMultipartIntent_reserves {result : IntentResult}
    (h : createMultipartIntent ids session data db = .ok (result, db')) :
    db' = db ∨ ∃ id, reserveQuota ids.reservation session.storageSpaceId session.contentLength
      db.spaces db.ledger = .ok (id, db'.ledger) := by
  unfold createMultipartIntent at h
  obtain ⟨existing, -, h⟩ := Except.bind_eq_ok.mp h
  cases existing with
  | some existing =>
      dsimp only at h
      split at h
      · simp at h
      · split at h
        · cases h
          exact Or.inl rfl
        · simp at h
  | none =>
      dsimp only at h
      obtain ⟨⟨id, ledger⟩, hreserve, h⟩ := Except.bind_eq_ok.mp h
      obtain ⟨multiparts, -, h⟩ := Except.bind_eq_ok.mp h
      obtain ⟨db₁, hingestion, h⟩ := Except.bind_eq_ok.mp h
      cases h
      obtain ⟨-, rfl⟩ := insertIngestion_eq_ok hingestion
      exact Or.inr ⟨id, hreserve⟩

theorem createMultipartIntent_eq_ok {result : IntentResult}
    (h : createMultipartIntent ids session data db = .ok (result, db')) :
    (result.replayed = true ∧ db' = db) ∨
      (result = ⟨ids.session, ids.ingestion, false⟩ ∧ ids.session ∉ db.multiparts ∧
        ids.ingestion ∉ db.ingestions ∧
        ∃ ledger, Held db.ledger ids.reservation session.contentLength ids.reservation ledger ∧
          db' = withIntent ids
            (buildIngestionModel data none (some ids.session) ids.reservation) ledger
            db.uploads (db.multiparts.insert ids.session (newMultipart session ids.reservation))
            db) := by
  unfold createMultipartIntent at h
  obtain ⟨existing, -, h⟩ := Except.bind_eq_ok.mp h
  cases existing with
  | some existing =>
      left
      dsimp only at h
      split at h
      · simp at h
      · split at h
        · cases h
          exact ⟨rfl, rfl⟩
        · simp at h
  | none =>
      right
      dsimp only at h
      obtain ⟨⟨reservationId, ledger⟩, hreserve, h⟩ := Except.bind_eq_ok.mp h
      obtain ⟨multiparts, hmultiparts, h⟩ := Except.bind_eq_ok.mp h
      obtain ⟨db₁, hingestion, h⟩ := Except.bind_eq_ok.mp h
      cases h
      have hheld := reserveQuota_eq_ok hreserve
      obtain rfl := hheld.1
      obtain ⟨hsession, rfl⟩ := insertRow_eq_ok.mp hmultiparts
      obtain ⟨hfresh, rfl⟩ := insertIngestion_eq_ok hingestion
      exact ⟨rfl, hsession, hfresh, ledger, hheld, rfl⟩

/-! ## Transitions -/

theorem lockIngestionRow_eq_ok :
    lockIngestionRow id db = .ok row ↔ db.ingestions.lookup id = some row := by
  unfold lockIngestionRow
  split
  · simp_all
  · simp_all

theorem validateTransition_eq_ok {target : IngestionStatus} :
    validateTransition row target = .ok () ↔ target ∈ validTransitions row.status := by
  unfold validateTransition
  split
  · simp_all
  · simp_all

/-- The record with what the provider reported. -/
def IngestionRecord.verifiedAs (result : ProviderResult) (row : IngestionRecord) :
    IngestionRecord :=
  { row with
    providerEtag := result.providerEtag
    providerVersionId := result.providerVersionId
    actualSize := result.actualSize
    actualContentType := result.actualContentType
    checksum := result.checksum
    status := .verified }

theorem recordProviderResult_eq_ok {result : ProviderResult} :
    recordProviderResult id result db = .ok (row', db') ↔
      ∃ row, db.ingestions.lookup id = some row ∧ .verified ∈ validTransitions row.status ∧
        row' = row.verifiedAs result ∧
        db' = appendEvent id .verificationPassed none (putIngestion id row' db) := by
  unfold recordProviderResult
  constructor
  · intro h
    obtain ⟨row, hrow, h⟩ := Except.bind_eq_ok.mp h
    obtain ⟨⟨⟩, hvalid, h⟩ := Except.bind_eq_ok.mp h
    cases h
    exact ⟨row, lockIngestionRow_eq_ok.mp hrow, validateTransition_eq_ok.mp hvalid, rfl, rfl⟩
  · rintro ⟨row, hrow, hvalid, rfl, rfl⟩
    exact Except.bind_eq_ok.mpr ⟨row, lockIngestionRow_eq_ok.mpr hrow,
      Except.bind_eq_ok.mpr ⟨(), validateTransition_eq_ok.mpr hvalid, rfl⟩⟩

/-! ## Commit -/

/-- Nothing but the quota decides whether the commit makes the file available. -/
structure CommitReady (fileId id : Uuid) (row : IngestionRecord) (db : Db) : Prop where
  found : db.ingestions.lookup id = some row
  uncommitted : row.status ≠ .committed
  valid : .committed ∈ validTransitions row.status
  unique : (newFile row).conflictsIn fileId db.files = none
  fresh : fileId ∉ db.files

/-- The database after a commit with the ledger `ledger`, before the quota decides. -/
def withFile (fileId : Uuid) (row : IngestionRecord) (ledger : Ledger) (db : Db) : Db :=
  { db with files := db.files.insert fileId (newFile row), ledger }

def committedDb (now : Timestamp) (fileId id : Uuid) (row : IngestionRecord) (ledger : Ledger)
    (db : Db) : Db :=
  appendEvent id .committed none (completeSessions now (row.committedAs fileId now)
    (putIngestion id (row.committedAs fileId now) (withFile fileId row ledger db)))

def quarantinedDb (now : Timestamp) (fileId id : Uuid) (row : IngestionRecord) (db : Db) : Db :=
  quarantine now id fileId (row.committedAs fileId now) (withFile fileId row db.ledger db)

/-- How a successful commit ends. -/
inductive Commit (now : Timestamp) (fileId id : Uuid) (db : Db) : Db → Prop
  | replayed (row : IngestionRecord) (hrow : db.ingestions.lookup id = some row)
      (hstatus : row.status = .committed) : Commit now fileId id db db
  | unreserved (row : IngestionRecord) (hready : CommitReady fileId id row db)
      (hnone : db.ledger.openReservation row.quotaReservationId = none) :
      Commit now fileId id db (committedDb now fileId id row db.ledger db)
  | charged (row : IngestionRecord) (hready : CommitReady fileId id row db)
      (rid : Uuid) (r : QuotaReservation)
      (hopen : db.ledger.openReservation row.quotaReservationId = some (rid, r))
      (hfits : ¬ Overcharged db.ledger r (row.actualSize.getD 0)) :
      Commit now fileId id db (committedDb now fileId id row
        (db.ledger.settle now rid r (row.actualSize.getD 0 : ℕ)) db)
  | refused (row : IngestionRecord) (hready : CommitReady fileId id row db)
      (rid : Uuid) (r : QuotaReservation)
      (hopen : db.ledger.openReservation row.quotaReservationId = some (rid, r))
      (hover : Overcharged db.ledger r (row.actualSize.getD 0)) :
      Commit now fileId id db (quarantinedDb now fileId id row db)

theorem commitVerifiedFile_eq_ok (h : commitVerifiedFile now fileId id db = .ok (row', db')) :
    Commit now fileId id db db' := by
  unfold commitVerifiedFile at h
  obtain ⟨row, hrow, h⟩ := Except.bind_eq_ok.mp h
  rw [lockIngestionRow_eq_ok] at hrow
  split at h
  · rename_i hstatus
    obtain ⟨rfl, rfl⟩ := Prod.mk.inj (Except.pure_eq_ok.mp h)
    exact .replayed _ hrow hstatus
  · rename_i hstatus
    obtain ⟨⟨⟩, hvalid, h⟩ := Except.bind_eq_ok.mp h
    rw [validateTransition_eq_ok] at hvalid
    obtain ⟨files, hfiles, h⟩ := Except.bind_eq_ok.mp h
    obtain ⟨hunique, hfresh, rfl⟩ := insertFile_eq_ok.mp hfiles
    have hready : CommitReady fileId id row db := ⟨hrow, hstatus, hvalid, hunique, hfresh⟩
    dsimp only at h
    have hsettled := settlement now (row.committedAs fileId now) db.ledger
    generalize settleQuotaReservation now (row.committedAs fileId now) db.ledger = out at h hsettled
    cases hsettled with
    | unreserved hnone =>
        cases h
        exact .unreserved row hready hnone
    | refused rid r hopen hover =>
        cases h
        exact .refused row hready rid r hopen hover
    | charged rid r hopen hfits =>
        cases h
        exact .charged row hready rid r hopen hfits

theorem commitVerifiedFile_of_ready (hready : CommitReady fileId id row db) :
    ∃ row' db', commitVerifiedFile now fileId id db = .ok (row', db') := by
  have hvalid := validateTransition_eq_ok.mpr hready.valid
  have hfiles := insertFile_eq_ok.mpr ⟨hready.unique, hready.fresh, rfl⟩
  unfold commitVerifiedFile
  rw [lockIngestionRow_eq_ok.mpr hready.found]
  change ∃ row' db', (if row.status = .committed then _ else _) = _
  rw [if_neg hready.uncommitted, hvalid]
  change ∃ row' db', (insertFile fileId (newFile row) db.files >>= _) = _
  rw [hfiles]
  cases hsettled : (settleQuotaReservation now (row.committedAs fileId now) db.ledger).1 with
  | true => exact ⟨_, _, if_pos hsettled⟩
  | false => exact ⟨_, _, if_neg (Bool.eq_false_iff.mp hsettled)⟩

/-- Which branch a commit takes is decided by the state it finds. -/
theorem Commit.eq_charged (h : Commit now fileId id db db') (hready : CommitReady fileId id row db)
    {rid : Uuid} {r : QuotaReservation}
    (hopen : db.ledger.openReservation row.quotaReservationId = some (rid, r))
    (hfits : ¬ Overcharged db.ledger r (row.actualSize.getD 0)) :
    db' = committedDb now fileId id row
      (db.ledger.settle now rid r (row.actualSize.getD 0 : ℕ)) db := by
  cases h with
  | replayed row' hrow hstatus =>
      obtain rfl : row = row' := Option.some.inj (hready.found.symm.trans hrow)
      exact absurd hstatus hready.uncommitted
  | unreserved row' hready' hnone =>
      obtain rfl : row = row' := Option.some.inj (hready.found.symm.trans hready'.found)
      rw [hopen] at hnone
      cases hnone
  | charged row' hready' rid' r' hopen' hfits' =>
      obtain rfl : row = row' := Option.some.inj (hready.found.symm.trans hready'.found)
      obtain ⟨rfl, rfl⟩ := Prod.mk.inj (Option.some.inj (hopen.symm.trans hopen'))
      rfl
  | refused row' hready' rid' r' hopen' hover =>
      obtain rfl : row = row' := Option.some.inj (hready.found.symm.trans hready'.found)
      obtain ⟨rfl, rfl⟩ := Prod.mk.inj (Option.some.inj (hopen.symm.trans hopen'))
      exact absurd hover hfits

theorem Commit.eq_unreserved (h : Commit now fileId id db db')
    (hready : CommitReady fileId id row db)
    (hnone : db.ledger.openReservation row.quotaReservationId = none) :
    db' = committedDb now fileId id row db.ledger db := by
  cases h with
  | replayed row' hrow hstatus =>
      obtain rfl : row = row' := Option.some.inj (hready.found.symm.trans hrow)
      exact absurd hstatus hready.uncommitted
  | unreserved row' hready' hnone' =>
      obtain rfl : row = row' := Option.some.inj (hready.found.symm.trans hready'.found)
      rfl
  | charged row' hready' rid r hopen hfits =>
      obtain rfl : row = row' := Option.some.inj (hready.found.symm.trans hready'.found)
      rw [hnone] at hopen
      cases hopen
  | refused row' hready' rid r hopen hover =>
      obtain rfl : row = row' := Option.some.inj (hready.found.symm.trans hready'.found)
      rw [hnone] at hopen
      cases hopen

/-! ## Failure, expiry and reaping -/

/-- The record and its ledger after the transaction has ended the intent in `status`. -/
def endedDb (now : Timestamp) (id : Uuid) (row : IngestionRecord) (status : IngestionStatus)
    (db : Db) : Db :=
  putIngestion id { row with status }
    { db with ledger := releaseQuotaReservation now { row with status } db.ledger }

theorem failOrQuarantine_eq_ok {status : IngestionStatus} {reason : FailureReason}
    (h : failOrQuarantine now id status reason db = .ok (row', db')) :
    ∃ row, db.ingestions.lookup id = some row ∧
      ((status = .failed ∧ .failed ∈ validTransitions row.status ∧
          db' = appendEvent id .failedPermanently (some (.failure reason))
            (endedDb now id row .failed db)) ∨
        (status = .reconciliationRequired ∧
          (row.status = .reconciliationRequired ∨
            .reconciliationRequired ∈ validTransitions row.status) ∧
          db' = appendEvent id .reconciliationStarted (some (.failure reason))
            (putIngestion id { row with status := .reconciliationRequired } db))) := by
  unfold failOrQuarantine at h
  split at h
  · cases h
  rename_i hstatus
  obtain ⟨row, hrow, hbody⟩ := Except.bind_eq_ok.mp h
  clear h
  rw [lockIngestionRow_eq_ok] at hrow
  refine ⟨row, hrow, ?_⟩
  split at hbody
  · rename_i hsame
    obtain ⟨hsame, rfl⟩ := hsame
    obtain ⟨-, rfl⟩ := Prod.mk.inj (Except.pure_eq_ok.mp hbody)
    refine Or.inr ⟨rfl, Or.inl hsame, ?_⟩
    have hid : putIngestion id { row with status := .reconciliationRequired } db = db := by
      have hrow' : { row with status := IngestionStatus.reconciliationRequired } = row := by
        rw [← hsame]
      rw [hrow', putIngestion, AList.update_eq_self hrow rfl]
    rw [hid]
  · obtain ⟨⟨⟩, hvalid, hbody'⟩ := Except.bind_eq_ok.mp hbody
    clear hbody
    rw [validateTransition_eq_ok] at hvalid
    dsimp only at hbody'
    split at hbody'
    · rename_i hfailed
      subst hfailed
      obtain ⟨-, rfl⟩ := Prod.mk.inj (Except.pure_eq_ok.mp hbody')
      exact Or.inl ⟨rfl, hvalid, rfl⟩
    · rename_i hfailed
      obtain rfl : status = .reconciliationRequired := by
        simpa [hfailed] using hstatus
      obtain ⟨-, rfl⟩ := Prod.mk.inj (Except.pure_eq_ok.mp hbody')
      exact Or.inr ⟨rfl, Or.inr hvalid, rfl⟩

theorem expire_eq_ok (h : expire now id db = .ok (row', db')) :
    ∃ row, db.ingestions.lookup id = some row ∧
      ((row.status = .expired ∧ db' = db) ∨
        (.expired ∈ validTransitions row.status ∧
          db' = appendEvent id .expired (some .sessionExpired)
            (endedDb now id row .expired db))) := by
  unfold expire at h
  obtain ⟨row, hrow, h⟩ := Except.bind_eq_ok.mp h
  rw [lockIngestionRow_eq_ok] at hrow
  refine ⟨row, hrow, ?_⟩
  split at h
  · rename_i hexpired
    obtain ⟨-, rfl⟩ := Prod.mk.inj (Except.pure_eq_ok.mp h)
    exact Or.inl ⟨hexpired, rfl⟩
  · obtain ⟨⟨⟩, hvalid, h⟩ := Except.bind_eq_ok.mp h
    obtain ⟨-, rfl⟩ := Prod.mk.inj (Except.pure_eq_ok.mp h)
    exact Or.inr ⟨validateTransition_eq_ok.mp hvalid, rfl⟩

/-- The reaper writes nothing but the ledger. -/
theorem reapReservation_frame (sub : ℤ → Quota → Quota) :
    reapReservation sub now id db =
      { db with ledger := (reapReservation sub now id db).ledger } := by
  unfold reapReservation
  split
  · rfl
  · split
    · rfl
    · split
      · split <;> rfl
      · split <;> rfl

theorem reapOrphanReservationsWith_frame (sub : ℤ → Quota → Quota) (picked : List Uuid) :
    reapOrphanReservationsWith sub now picked db =
      { db with ledger := (reapOrphanReservationsWith sub now picked db).ledger } := by
  unfold reapOrphanReservationsWith
  induction picked generalizing db with
  | nil => rfl
  | cons id picked ih =>
      rw [List.foldl_cons, ih]
      generalize (picked.foldl (fun db id ↦ reapReservation sub now id db)
        (reapReservation sub now id db)).ledger = ledger
      rw [reapReservation_frame sub]

theorem lookup_putIngestion (j : Uuid) :
    (putIngestion id row db).ingestions.lookup j =
      if j = id then (db.ingestions.lookup id).map fun _ ↦ row else db.ingestions.lookup j :=
  AList.lookup_update j id _ _

end S3mp.Files
