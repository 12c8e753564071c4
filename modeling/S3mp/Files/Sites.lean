import S3mp.Operations.RowCores
import S3mp.Platform.System
import S3mp.Relational.Grown
import S3mp.Uploads.SessionStates

/-!
# Where a row says its object is

A session, an ingestion record and a file row each say in which space the object is,
under which namespace the space had, and at which key.  The transactions copy
these columns from row to row; apart from the key of a file, which moves into the
trash, none of them is written a second time.
-/

namespace S3mp

open Relational Files Governance Applications Platform

/-- The columns which say where the object of a row is. -/
structure Files.Site where
  storageSpaceId : Uuid
  storageNamespace : Option String
  providerTargetVersion : ℕ
  objectKey : String
  /-- The row is that of a file which has been kept for its purge. -/
  retained : Bool
  deriving DecidableEq, Repr

/-- The columns which no transaction writes again stay, and so does the key unless the file is
kept for its purge. -/
structure Files.Site.Stays (site site' : Site) : Prop where
  storageSpaceId : site'.storageSpaceId = site.storageSpaceId
  storageNamespace : site'.storageNamespace = site.storageNamespace
  providerTargetVersion : site'.providerTargetVersion = site.providerTargetVersion
  unretained : site'.retained = false → site' = site

instance : Std.Refl Site.Stays :=
  ⟨fun _ ↦ ⟨rfl, rfl, rfl, fun _ ↦ rfl⟩⟩

def Files.UploadSession.site (u : UploadSession) : Site :=
  ⟨u.storageSpaceId, u.storageNamespace, u.providerTargetVersion, u.objectKey, false⟩

def Files.MultipartSession.site (m : MultipartSession) : Site :=
  ⟨m.storageSpaceId, m.storageNamespace, m.providerTargetVersion, m.objectKey, false⟩

def Files.IngestionRecord.site (row : IngestionRecord) : Site :=
  ⟨row.storageSpaceId, row.storageNamespace, row.providerTargetVersion, row.physicalKey, false⟩

def Files.FileObject.site (f : FileObject) : Site :=
  ⟨f.storageSpaceId, f.storageNamespace, f.providerTargetVersion, f.objectKey,
    f.purgeState.isSome⟩

/-- A row of one of the tables which have sites. -/
inductive RowId where
  | upload (id : Uuid)
  | multipart (id : Uuid)
  | ingestion (id : Uuid)
  | file (id : Uuid)
  deriving DecidableEq, Repr

def Db.site (db : Db) : RowId → Option Site
  | .upload id => (db.uploads.lookup id).map (·.site)
  | .multipart id => (db.multiparts.lookup id).map (·.site)
  | .ingestion id => (db.ingestions.lookup id).map (·.site)
  | .file id => (db.files.lookup id).map (·.site)

/-! ## New rows -/

/-- The site of a session the service has asked for. -/
def Files.SessionData.site (session : SessionData) (version : ℕ) : Site :=
  ⟨session.storageSpaceId, session.storageNamespace, version, session.objectKey, false⟩

def Files.IngestionData.site (data : IngestionData) : Site :=
  ⟨data.storageSpaceId, data.storageNamespace, data.providerTargetVersion, data.physicalKey, false⟩

/-- The site of a session of the file store, which falls back on the namespace of its space. -/
def sessionSite (db : Db) (session : SessionData) (version : ℕ) : Option Site :=
  (db.spaces.lookup session.storageSpaceId).map fun space ↦ (session.inSpace space).site version

/-- The site of the row a command adds to a table. -/
def TenantCmd.written (db : Db) : TenantCmd → RowId → Option Site
  | .stored (.createUploadIntent _ session _), .upload _ => some (session.site 1)
  | .stored (.createUploadIntent _ _ data), .ingestion _ => some data.site
  | .stored (.createMultipartIntent _ session _), .multipart _ => some (session.site 1)
  | .stored (.createMultipartIntent _ _ data), .ingestion _ => some data.site
  | .createUpload _ version session, .upload _ => sessionSite db session version
  | .createMultipart _ _ version session, .multipart _ => sessionSite db session version
  | .stored (.commitVerifiedFile _ _ id), .file _ => db.site (.ingestion id)
  | .completeUpload _ _ id _, .file _ => db.site (.upload id)
  | .completeMultipart _ id _, .file _ => db.site (.multipart id)
  | .operation (.createRenameOperation _ _ data), .file _ =>
      -- The namespace is that of the source; the key need not have been derived under it.
      (db.site (.file data.sourceFileId)).map fun site ↦
        { site with objectKey := data.destinationPhysicalKey, retained := false }
  | _, _ => none

/-- What a command does to the sites of the rows. -/
structure SitesGrown (c : TenantCmd) (db db' : Db) : Prop where
  uploads : Grown UploadSession.site Site.Stays (fun j ↦ c.written db (.upload j)) db.uploads
    db'.uploads
  multiparts : Grown MultipartSession.site Site.Stays (fun j ↦ c.written db (.multipart j))
    db.multiparts db'.multiparts
  ingestions : Grown IngestionRecord.site Site.Stays (fun j ↦ c.written db (.ingestion j))
    db.ingestions db'.ingestions
  files : Grown FileObject.site Site.Stays (fun j ↦ c.written db (.file j)) db.files db'.files

variable {db db' : Db}

theorem grown_putIngestion {new : Uuid → Option Site} {recordId : Uuid}
    {row row' : IngestionRecord}
    (hrow : db.ingestions.lookup recordId = some row) (hsite : row'.site = row.site) :
    Grown IngestionRecord.site Site.Stays new db.ingestions
      (db.ingestions.update recordId fun _ ↦ row') := by
  apply KeepsKey.grown
  apply keeps_update
  intro x hx
  obtain rfl := Option.some.inj (hrow.symm.trans hx)
  exact hsite

theorem exec_ingestionSites {c : Cmd} (h : exec c db = .ok db') :
    Grown IngestionRecord.site Site.Stays (fun j ↦ (TenantCmd.stored c).written db (.ingestion j))
      db.ingestions db'.ingestions := by
  cases exec_step h with
  | idle | sessions | edited | deleted | purged | quotaCreated | quotaOverwritten | quotaRevoked
  | platformLimitSet | limitSet => exact .refl _
  | appDeleted applicationId =>
      unfold Applications.deleteApp
      split
      · exact .refl _
      · split <;> exact .refl _
  | reaped now picked =>
      rw [reapOrphanReservations, reapOrphanReservationsWith_frame]
      exact .refl _
  | uploadCreated ids session data ledger hsession hrecord hheld => exact grown_insert hrecord rfl
  | multipartCreated ids session data ledger hsession hrecord hheld =>
      exact grown_insert hrecord rfl
  | verified id result row hrow hvalid => exact grown_putIngestion hrow (by rfl)
  | failed now id reason row hrow hvalid => exact grown_putIngestion hrow (by rfl)
  | requeued now id reason row hrow hvalid => exact grown_putIngestion hrow (by rfl)
  | expired now id row hrow hvalid => exact grown_putIngestion hrow (by rfl)
  | commit now fileId id _ hcommit =>
      cases hcommit with
      | replayed => exact .refl _
      | unreserved row hready hnone => exact grown_putIngestion hready.found (by rfl)
      | charged row hready rid r hopen hfits => exact grown_putIngestion hready.found (by rfl)
      | refused row hready rid r hopen hover => exact grown_putIngestion hready.found (by rfl)

theorem FileEdit.stays {f f' : FileObject} (h : FileEdit f f') : f.site.Stays f'.site := by
  cases h with
  | retried => exact ⟨rfl, rfl, rfl, fun _ ↦ rfl⟩
  | retained | migrated | claimed | postponed => exact ⟨rfl, rfl, rfl, fun hnone ↦ by cases hnone⟩

theorem grown_putFile {new : Uuid → Option Site} {fileId : Uuid} {f f' : FileObject}
    (hf : db.files.lookup fileId = some f) (hstays : f.site.Stays f'.site) :
    Grown FileObject.site Site.Stays new db.files (db.files.update fileId fun _ ↦ f') := by
  apply grown_update
  intro x hx
  obtain rfl := Option.some.inj (hf.symm.trans hx)
  exact hstays

theorem grown_newFile {now : Timestamp} {fileId id : Uuid} {row : IngestionRecord}
    (hready : CommitReady fileId id row db) :
    Grown FileObject.site Site.Stays
      (fun j ↦ (TenantCmd.stored (.commitVerifiedFile now fileId id)).written db (.file j))
      db.files (db.files.insert fileId (newFile row)) := by
  refine grown_insert hready.fresh ?_
  simp only [TenantCmd.written, Db.site, hready.found]
  rfl

theorem exec_fileSites {c : Cmd} (h : exec c db = .ok db') :
    Grown FileObject.site Site.Stays (fun j ↦ (TenantCmd.stored c).written db (.file j))
      db.files db'.files := by
  cases exec_step h with
  | idle | sessions | quotaCreated | quotaOverwritten | quotaRevoked | platformLimitSet | limitSet
  | uploadCreated | multipartCreated | verified | failed | requeued | expired =>
      exact .refl _
  | appDeleted applicationId =>
      unfold Applications.deleteApp
      split
      · exact .refl _
      · split <;> exact .refl _
  | reaped now picked =>
      rw [reapOrphanReservations, reapOrphanReservationsWith_frame]
      exact .refl _
  | edited c fileId f f' deletions hf hedit hkey => exact grown_putFile hf hedit.stays
  | deleted now fileId f hf hstatus => exact grown_putFile hf ⟨rfl, rfl, rfl, fun _ ↦ rfl⟩
  | purged now fileId f hf hsoft hstate =>
      exact grown_putFile hf ⟨rfl, rfl, rfl, fun hnone ↦ by cases hnone⟩
  | commit now fileId id _ hcommit =>
      cases hcommit with
      | replayed => exact .refl _
      | unreserved row hready hnone => exact grown_newFile hready
      | charged row hready rid r hopen hfits => exact grown_newFile hready
      | refused row hready rid r hopen hover =>
          exact (grown_newFile hready).keeps (keeps_update fun _ _ ↦ rfl)

/-! ## Sessions -/

/-- What a command does to the sites of the sessions. -/
def SessionSites (c : TenantCmd) (db db' : Db) : Prop :=
  Grown UploadSession.site Site.Stays (fun j ↦ c.written db (.upload j)) db.uploads db'.uploads ∧
    Grown MultipartSession.site Site.Stays (fun j ↦ c.written db (.multipart j))
      db.multiparts db'.multiparts

theorem SessionSites.of_keeps {c : TenantCmd}
    (huploads : KeepsKey UploadSession.site db.uploads db'.uploads)
    (hmultiparts : KeepsKey MultipartSession.site db.multiparts db'.multiparts) :
    SessionSites c db db' :=
  ⟨huploads.grown, hmultiparts.grown⟩

theorem SameSessions.sites {c : TenantCmd} (h : SameSessions db db') : SessionSites c db db' := by
  obtain ⟨huploads, hmultiparts⟩ := h
  apply SessionSites.of_keeps
  · rw [huploads]
    exact .refl _ _
  · rw [hmultiparts]
    exact .refl _ _

theorem completeSessions_sites {c : TenantCmd} {now : Timestamp} {row : IngestionRecord} :
    SessionSites c db (completeSessions now row db) := by
  apply SessionSites.of_keeps
  · unfold completeSessions
    dsimp only
    split
    · exact .refl _ _
    · exact keeps_update fun _ _ ↦ rfl
  · unfold completeSessions
    dsimp only
    split
    · exact .refl _ _
    · exact keeps_update fun _ _ ↦ rfl

theorem exec_sessionSites {c : Cmd} (h : exec c db = .ok db') :
    SessionSites (.stored c) db db' := by
  cases hwrites : c.writesSessions with
  | false => exact (exec_sameSessions hwrites h).sites
  | true =>
      obtain ⟨answer, h⟩ := exec_eq_ok.mp h
      cases c with
      | createUploadIntent ids session data =>
          rcases createUploadIntent_eq_ok h with ⟨-, rfl⟩ | ⟨-, hfresh, -, ledger, -, rfl⟩
          · exact SameSessions.sites ⟨rfl, rfl⟩
          · exact ⟨grown_insert hfresh rfl, .refl _⟩
      | createMultipartIntent ids session data =>
          rcases createMultipartIntent_eq_ok h with ⟨-, rfl⟩ | ⟨-, hfresh, -, ledger, -, rfl⟩
          · exact SameSessions.sites ⟨rfl, rfl⟩
          · exact ⟨.refl _, grown_insert hfresh rfl⟩
      | commitVerifiedFile now fileId id =>
          cases commitVerifiedFile_eq_ok h with
          | replayed => exact SameSessions.sites ⟨rfl, rfl⟩
          | unreserved | charged => exact completeSessions_sites
          | refused => exact SameSessions.sites ⟨rfl, rfl⟩
      | expireUpload id =>
          cases h
          refine .of_keeps (keeps_update fun u _ ↦ ?_) (.refl _ _)
          split <;> rfl
      | expireMultipart id =>
          cases h
          refine .of_keeps (.refl _ _) (keeps_update fun m _ ↦ ?_)
          split <;> rfl
      | abortMultipart id =>
          cases h
          exact .of_keeps (.refl _ _) (keeps_update fun _ _ ↦ rfl)
      | setMultipartProviderId id pid =>
          simp only [Cmd.perform, setMultipartProviderId] at h
          split at h
          · cases h
          · rename_i m hm
            cases h
            refine .of_keeps (.refl _ _) (keeps_update fun m' hm' ↦ ?_)
            obtain rfl := Option.some.inj (hm.symm.trans hm')
            rfl
      | deleteApp applicationId =>
          have hdb : (deleteApp applicationId db).2 = db' := congrArg Prod.snd (Except.ok.inj h)
          subst hdb
          rcases deleteApp_sessions applicationId db with hsame | ⟨_, huploads, hmultiparts⟩
          · exact hsame.sites
          · refine .of_keeps ?_ ?_
            · rw [huploads]
              exact keeps_updateWhere fun _ ↦ rfl
            · rw [hmultiparts]
              exact keeps_updateWhere fun _ ↦ rfl
      | recordProviderResult | failOrQuarantine | expire | reapOrphanReservations
      | recordMultipartPart | deleteFile | finalizeFileTrashMigration | recordDeleteFailure
      | finalizeFileDelete | claimRetainedFileForPurge | finalizeRetainedFilePurge
      | recordRetainedPurgeFailure | createPlatformQuota | revokePlatformQuota
      | updatePlatformQuota | updateQuota => cases hwrites

/-! ## Operations -/

theorem SameCores.sites {files files' : Table Uuid FileObject} (h : SameCores files files') :
    KeepsKey FileObject.site files files' := by
  intro j f' hf'
  obtain ⟨f, hf, hcore⟩ := h.back hf'
  have hsite : f'.core.site = f.core.site := congrArg FileObject.site hcore.symm
  exact ⟨f, hf, hsite⟩

theorem settledFiles_sites (now : Timestamp) (o : Uuid) (op : FileOperation)
    (status : OperationStatus) (files : Table Uuid FileObject) :
    KeepsKey FileObject.site files (settledFiles now o op status files) := by
  have hrename : KeepsKey FileObject.site files (settleRename now o op status files) := by
    unfold settleRename
    split
    · split
      · refine .trans (keeps_update fun _ _ ↦ ?_) (keeps_update fun _ _ ↦ ?_) <;> rfl
      · split
        · exact keeps_update fun _ _ ↦ rfl
        · exact .refl _ _
    · split
      · exact keeps_update fun _ _ ↦ rfl
      · exact .refl _ _
    · exact .refl _ _
  have hmoved : KeepsKey FileObject.site files
      (if op.operationType = .rename then settleRename now o op status files else files) := by
    split
    · exact hrename
    · exact .refl _ _
  unfold settledFiles
  dsimp only
  split
  · exact hmoved.trans (keeps_updateWhere fun _ ↦ rfl)
  · exact hmoved

theorem opExec_fileSites {c : OpCmd} (hother : ∀ c₀, c ≠ .other c₀) (h : opExec c db = .ok db') :
    Grown FileObject.site Site.Stays (fun j ↦ (TenantCmd.operation c).written db (.file j))
      db.files db'.files := by
  cases opExec_rowsOf hother h with
  | kept _ hsame _ => exact hsame.sites.grown
  | renamed ids spaceId data source hsource hfresh hsame =>
      refine (grown_insert hfresh ?_).keeps hsame.sites
      simp only [TenantCmd.written, Db.site, hsource]
      rfl
  | settled now o status reason op _ hfiles _ =>
      rw [hfiles]
      exact (settledFiles_sites now o op status db.files).grown

/-! ## The whole system -/

theorem activeSpace_eq_ok {spaceId : Uuid} {space : StorageSpace}
    (h : activeSpace spaceId db = .ok space) : db.spaces.lookup spaceId = some space := by
  unfold activeSpace at h
  split at h
  · cases h
  · rename_i found hfound
    split at h
    · obtain rfl := Except.ok.inj h
      exact hfound
    · cases h

variable {t t' : Tenant}

theorem createUpload_sites {id : Uuid} {version : ℕ} {session : SessionData}
    (h : createUpload id version session db = .ok db') :
    SitesGrown (.createUpload id version session) db db' := by
  obtain ⟨space, hspace, h⟩ := Except.bind_eq_ok.mp h
  obtain ⟨uploads, hinsert, h⟩ := Except.bind_eq_ok.mp h
  obtain ⟨hfresh, rfl⟩ := insertRow_eq_ok.mp hinsert
  obtain rfl := Except.pure_eq_ok.mp h
  refine ⟨grown_insert hfresh ?_, .refl _, .refl _, .refl _⟩
  simp only [TenantCmd.written, sessionSite, activeSpace_eq_ok hspace]
  rfl

theorem createMultipart_sites {id reservationId : Uuid} {version : ℕ} {session : SessionData}
    (h : createMultipart id reservationId version session db = .ok db') :
    SitesGrown (.createMultipart id reservationId version session) db db' := by
  obtain ⟨space, hspace, h⟩ := Except.bind_eq_ok.mp h
  obtain ⟨multiparts, hinsert, h⟩ := Except.bind_eq_ok.mp h
  obtain ⟨hfresh, rfl⟩ := insertRow_eq_ok.mp hinsert
  obtain rfl := Except.pure_eq_ok.mp h
  refine ⟨.refl _, grown_insert hfresh ?_, .refl _, .refl _⟩
  simp only [TenantCmd.written, sessionSite, activeSpace_eq_ok hspace]
  rfl

/-- A change of the database besides the tables with sites. -/
theorem SitesGrown.of_same {c : TenantCmd} (huploads : db'.uploads = db.uploads)
    (hmultiparts : db'.multiparts = db.multiparts) (hingestions : db'.ingestions = db.ingestions)
    (hfiles : db'.files = db.files) : SitesGrown c db db' := by
  constructor
  · rw [huploads]
    exact .refl _
  · rw [hmultiparts]
    exact .refl _
  · rw [hingestions]
    exact .refl _
  · rw [hfiles]
    exact .refl _

theorem tenantExec_sites {c : TenantCmd} (h : tenantExec c t = .ok t') :
    SitesGrown c t.db t'.db := by
  cases tenantExec_step h with
  | idle _ hsame =>
      rw [hsame]
      exact .of_same rfl rfl rfl rfl
  | stored c _ hexec =>
      obtain ⟨huploads, hmultiparts⟩ := exec_sessionSites hexec
      exact ⟨huploads, hmultiparts, exec_ingestionSites hexec, exec_fileSites hexec⟩
  | operated c hother _ hexec hside =>
      have hsame : SitesGrown (.operation c) t.db { t'.db with files := t.db.files } :=
        .of_same hside.uploads hside.multiparts hside.ingestions rfl
      exact ⟨hsame.uploads, hsame.multiparts, hsame.ingestions, opExec_fileSites hother hexec⟩
  | uploadCreated id version session =>
      obtain ⟨-, hcreate⟩ := Tenant.transact_eq_ok h fun db' hdb' ↦ by
        obtain ⟨u, -, -, rfl⟩ := createUpload_eq_ok hdb'
        rfl
      exact createUpload_sites hcreate
  | multipartCreated id reservationId version session =>
      obtain ⟨-, hcreate⟩ := Tenant.transact_eq_ok h fun db' hdb' ↦ by
        obtain ⟨m, -, -, rfl⟩ := createMultipart_eq_ok hdb'
        rfl
      exact createMultipart_sites hcreate
  | uploadCompleted now fileId id data u _ hu hunique hfresh hdb =>
      rw [hdb]
      refine ⟨(keeps_update fun _ _ ↦ by rfl).grown, .refl _, .refl _,
        grown_insert hfresh ?_⟩
      simp only [TenantCmd.written, Db.site, hu]
      rfl
  | multipartCompleted fileId id data m _ hm hunique hfresh hdb =>
      rw [hdb]
      refine ⟨.refl _, (keeps_update fun _ _ ↦ by rfl).grown, .refl _,
        grown_insert hfresh ?_⟩
      simp only [TenantCmd.written, Db.site, hm]
      rfl
  | appRestored _ _ _ _ _ hnext | switched _ _ _ hnext | restored _ hnext =>
      rw [hnext.2]
      exact .of_same rfl rfl rfl rfl
  | deleted _ hnext =>
      rw [hnext.2]
      exact ⟨(keeps_updateWhere fun _ ↦ by rfl).grown, (keeps_updateWhere fun _ ↦ by rfl).grown,
        .refl _, .refl _⟩

/-- The site of a row has stayed, or the row is new and has the site foreseen for it. -/
theorem SitesGrown.site {c : TenantCmd} (h : SitesGrown c db db') {r : RowId} {site' : Site}
    (hsite : db'.site r = some site') :
    (∃ site, db.site r = some site ∧ site.Stays site') ∨
      db.site r = none ∧ c.written db r = some site' := by
  cases r with
  | upload j => exact h.uploads.lookup_key hsite
  | multipart j => exact h.multiparts.lookup_key hsite
  | ingestion j => exact h.ingestions.lookup_key hsite
  | file j => exact h.files.lookup_key hsite

end S3mp
