import S3mp.Uploads.RecordStates
import Mathlib.Tactic.MkIffOfInductiveProp

/-!
# The statuses of upload sessions

The expiry and the deletions of applications and tenants write the status of a
session only while it is pending.  The abort and the three ways of completing
one write it whatever it is.
-/

namespace S3mp

open Relational Files Governance Applications Platform Transition

/-- Rows which are no longer pending keep their status. -/
def Kept {α : Type} (status : α → SessionStatus) (rows rows' : Table Uuid α) : Prop :=
  ∀ id s, rows.lookup id = some s → status s ≠ .pending →
    ∃ s', rows'.lookup id = some s' ∧ status s' = status s

section Kept

variable {α : Type} {status : α → SessionStatus} {rows rows' : Table Uuid α}

theorem Kept.refl (status : α → SessionStatus) (rows : Table Uuid α) : Kept status rows rows :=
  fun _ s hs _ ↦ ⟨s, hs, rfl⟩

theorem Kept.trans {rows'' : Table Uuid α} (h : Kept status rows rows')
    (h' : Kept status rows' rows'') : Kept status rows rows'' := by
  intro id s hs hleft
  obtain ⟨s', hs', hsame⟩ := h id s hs hleft
  obtain ⟨s'', hs'', hsame'⟩ := h' id s' hs' (hsame ▸ hleft)
  exact ⟨s'', hs'', hsame'.trans hsame⟩

theorem kept_insert {id : Uuid} {s : α} (hfresh : id ∉ rows) :
    Kept status rows (rows.insert id s) := by
  intro j r hj _
  exact ⟨r, AList.lookup_insert_of_lookup hj hfresh, rfl⟩

theorem kept_of_lookup {g : Uuid → α → α}
    (hlookup : ∀ k, rows'.lookup k = (rows.lookup k).map (g k))
    (hg : ∀ k s, status s ≠ .pending → status (g k s) = status s) : Kept status rows rows' :=
  fun id s hs hleft ↦ ⟨g id s, by rw [hlookup, hs, Option.map_some], hg id s hleft⟩

theorem kept_updateWhere {p : Uuid → α → Bool} {f : α → α}
    (hp : ∀ k s, p k s → status s = .pending) : Kept status rows (rows.updateWhere p f) := by
  refine kept_of_lookup (AList.lookup_updateWhere p f rows) fun k s hleft ↦ ?_
  split
  · rename_i hps
    exact absurd (hp k s hps) hleft
  · rfl

theorem kept_update {id : Uuid} {f : α → α}
    (hf : ∀ s, rows.lookup id = some s → status s ≠ .pending → status (f s) = status s) :
    Kept status rows (rows.update id f) := by
  intro j s hj hleft
  by_cases hid : j = id
  · subst hid
    exact ⟨f s, by rw [AList.lookup_update_self, hj, Option.map_some], hf s hj hleft⟩
  · exact ⟨s, by rw [AList.lookup_update_of_ne hid, hj], rfl⟩

end Kept

@[mk_iff] structure SessionsKept (t t' : Tenant) : Prop where
  uploads : Kept UploadSession.status t.db.uploads t'.db.uploads
  multiparts : Kept MultipartSession.status t.db.multiparts t'.db.multiparts

/-- Ended without a file. -/
def Files.SessionStatus.abandoned (status : SessionStatus) : Bool :=
  status ∈ [.aborted, .expired, .cancelled]

/-- No session the record came through has ended without a file. -/
def SessionsLive (t : Tenant) (row : IngestionRecord) : Prop :=
  (∀ id u, row.uploadSessionId = some id → t.db.uploads.lookup id = some u →
    u.status.abandoned = false) ∧
  ∀ id m, row.multipartSessionId = some id → t.db.multiparts.lookup id = some m →
    m.status.abandoned = false

/-- What the command commits, through a record or directly, comes from a live session. -/
structure CommitsLive (t : Tenant) (c : TenantCmd) (t' : Tenant) : Prop where
  record : ∀ i row row', t.db.ingestions.lookup i = some row →
    t'.db.ingestions.lookup i = some row' → row.status ≠ .committed → row'.status = .committed →
      SessionsLive t row
  upload : ∀ now fileId id data u, c = .completeUpload now fileId id data →
    fileId ∉ t.db.files → fileId ∈ t'.db.files → t.db.uploads.lookup id = some u →
      u.status.abandoned = false
  multipart : ∀ fileId id data m, c = .completeMultipart fileId id data →
    fileId ∉ t.db.files → fileId ∈ t'.db.files → t.db.multiparts.lookup id = some m →
      m.status.abandoned = false

/-- No open reservation stands against the actual size. -/
def Settles (row : IngestionRecord) (l : Ledger) : Prop :=
  ∀ rid r, l.openReservation row.quotaReservationId = some (rid, r) →
    ¬ Overcharged l r (row.actualSize.getD 0)

/-- The commands which do not look at the status they overwrite find it open. -/
def SessionsOpen (t : Tenant) : TenantCmd → Prop
  | .stored (.abortMultipart id) => ∀ m, t.db.multiparts.lookup id = some m →
      m.status = .pending ∨ m.status = .aborted
  | .stored (.commitVerifiedFile _ fileId id) => ∀ row, CommitReady fileId id row t.db →
      Settles row t.db.ledger → SessionsLive t row
  | .completeUpload _ fileId id data => ∀ u, t.db.uploads.lookup id = some u →
      (uploadFile data u).conflictsIn fileId t.db.files = none → fileId ∉ t.db.files →
        u.status.abandoned = false
  | .completeMultipart fileId id data => ∀ m, t.db.multiparts.lookup id = some m →
      (multipartFile data m).conflictsIn fileId t.db.files = none → fileId ∉ t.db.files →
        m.status.abandoned = false
  | _ => True

/-! ## The commands which look at the status -/

variable {db db' : Db} {t t' : Tenant}

/-- Both session tables are as they were. -/
def SameSessions (db db' : Db) : Prop :=
  db'.uploads = db.uploads ∧ db'.multiparts = db.multiparts

theorem SameSessions.kept (h : SameSessions t.db t'.db) : SessionsKept t t' :=
  ⟨h.1 ▸ .refl _ _, h.2 ▸ .refl _ _⟩

section Files

variable {now : Timestamp} {fileId : Uuid}

theorem deleteFile_sessions {deletionId spaceId : Uuid} {data : DeleteData}
    {out : Option FileObject}
    (h : deleteFile now deletionId spaceId fileId data db = .ok (out, db')) :
    SameSessions db db' := by
  rcases deleteFile_cases h with rfl | ⟨f, -, -, -, -, -, rfl⟩
  · exact ⟨rfl, rfl⟩
  · exact ⟨rfl, rfl⟩

theorem finalizeFileTrashMigration_sessions (h : finalizeFileTrashMigration fileId db = .ok db') :
    SameSessions db db' := by
  rcases finalizeFileTrashMigration_cases h with rfl | ⟨f, f', id, deletion, -, -, -, -, -, -, rfl⟩
  · exact ⟨rfl, rfl⟩
  · exact ⟨rfl, rfl⟩

theorem recordDeleteFailure_sessions (n : ℕ) :
    SameSessions db (recordDeleteFailure now fileId n db) := by
  unfold recordDeleteFailure
  split
  · exact ⟨rfl, rfl⟩
  · split <;> exact ⟨rfl, rfl⟩

theorem finalizeFileDelete_sessions : SameSessions db (finalizeFileDelete now fileId db) := by
  unfold finalizeFileDelete
  split
  · exact ⟨rfl, rfl⟩
  · split <;> exact ⟨rfl, rfl⟩

theorem claimRetainedFileForPurge_sessions :
    SameSessions db (claimRetainedFileForPurge now fileId db).2 := by
  unfold claimRetainedFileForPurge
  split
  · exact ⟨rfl, rfl⟩
  · split <;> exact ⟨rfl, rfl⟩

theorem finalizeRetainedFilePurge_sessions :
    SameSessions db (finalizeRetainedFilePurge now fileId db) := by
  unfold finalizeRetainedFilePurge
  split
  · exact ⟨rfl, rfl⟩
  · split <;> exact ⟨rfl, rfl⟩

theorem recordRetainedPurgeFailure_sessions (n : ℕ) :
    SameSessions db (recordRetainedPurgeFailure now fileId n db) := by
  unfold recordRetainedPurgeFailure
  split
  · exact ⟨rfl, rfl⟩
  · split <;> exact ⟨rfl, rfl⟩

end Files

/-- The commands which write a session table. -/
def Cmd.writesSessions : Cmd → Bool
  | .createUploadIntent .. | .createMultipartIntent .. | .commitVerifiedFile .. | .expireUpload _
  | .expireMultipart _ | .abortMultipart _ | .setMultipartProviderId .. | .deleteApp _ => true
  | _ => false

theorem exec_sameSessions {c : Cmd} (hc : c.writesSessions = false) (h : exec c db = .ok db') :
    SameSessions db db' := by
  obtain ⟨answer, h⟩ := exec_eq_ok.mp h
  have hledger : ∀ ledger, db' = { db with ledger } → SameSessions db db' := by
    rintro ledger rfl
    exact ⟨rfl, rfl⟩
  cases c with
  | createUploadIntent | createMultipartIntent | commitVerifiedFile | expireUpload | expireMultipart
  | abortMultipart | setMultipartProviderId | deleteApp => cases hc
  | recordProviderResult id result =>
      obtain ⟨row, -, -, -, rfl⟩ := recordProviderResult_eq_ok.mp h
      exact ⟨rfl, rfl⟩
  | failOrQuarantine now id status reason =>
      obtain ⟨row, -, ⟨-, -, rfl⟩ | ⟨-, -, rfl⟩⟩ := failOrQuarantine_eq_ok h
      · exact ⟨rfl, rfl⟩
      · exact ⟨rfl, rfl⟩
  | expire now id =>
      obtain ⟨row, -, ⟨-, rfl⟩ | ⟨-, rfl⟩⟩ := expire_eq_ok h
      · exact ⟨rfl, rfl⟩
      · exact ⟨rfl, rfl⟩
  | reapOrphanReservations now picked =>
      cases h
      rw [reapOrphanReservations, reapOrphanReservationsWith_frame]
      exact ⟨rfl, rfl⟩
  | recordMultipartPart id n part =>
      cases h
      exact ⟨rfl, rfl⟩
  | deleteFile now deletionId spaceId fileId data => exact deleteFile_sessions h
  | finalizeFileTrashMigration fileId =>
      simp only [Cmd.perform] at h
      cases hfile : finalizeFileTrashMigration fileId db with
      | error e =>
          rw [hfile] at h
          cases h
      | ok db₁ =>
          rw [hfile] at h
          cases h
          exact finalizeFileTrashMigration_sessions hfile
  | recordDeleteFailure now fileId n =>
      cases h
      exact recordDeleteFailure_sessions n
  | finalizeFileDelete now fileId =>
      cases h
      exact finalizeFileDelete_sessions
  | claimRetainedFileForPurge now fileId =>
      have heq : (claimRetainedFileForPurge now fileId db).2 = db' :=
        congrArg Prod.snd (Except.ok.inj h)
      exact heq ▸ claimRetainedFileForPurge_sessions
  | finalizeRetainedFilePurge now fileId =>
      cases h
      exact finalizeRetainedFilePurge_sessions
  | recordRetainedPurgeFailure now fileId n =>
      cases h
      exact recordRetainedPurgeFailure_sessions n
  | createPlatformQuota fresh applicationId limit capacity =>
      simp only [Cmd.perform] at h
      cases hcreate : createPlatformQuota fresh applicationId limit capacity db with
      | error e =>
          rw [hcreate] at h
          cases h
      | ok db₁ =>
          rw [hcreate] at h
          cases h
          rcases createPlatformQuota_eq_ok hcreate with ⟨-, -, mode, rfl⟩ | ⟨id, -, rfl⟩
          · exact hledger _ rfl
          · exact hledger _ rfl
  | revokePlatformQuota id =>
      rcases revokePlatformQuota_eq_ok h with rfl | rfl
      · exact hledger _ rfl
      · exact hledger _ rfl
  | updatePlatformQuota id limit capacity =>
      rcases updatePlatformQuota_eq_ok h with rfl | ⟨-, rfl⟩
      · exact hledger _ rfl
      · exact hledger _ rfl
  | updateQuota id limit =>
      rcases updateQuota_eq_ok h with rfl | ⟨-, rfl⟩
      · exact hledger _ rfl
      · exact hledger _ rfl

/-- What the deletion of an application leaves of the two session tables. -/
theorem deleteApp_sessions (applicationId : Uuid) (db : Db) :
    SameSessions db (deleteApp applicationId db).2 ∨ ∃ principalId,
      (deleteApp applicationId db).2.uploads = db.uploads.updateWhere
        (fun _ u ↦ u.principalId = principalId && u.status = .pending)
        (fun u ↦ { u with status := .cancelled }) ∧
      (deleteApp applicationId db).2.multiparts = db.multiparts.updateWhere
        (fun _ m ↦ m.principalId = principalId && m.status = .pending)
        fun m ↦ { m with status := .cancelled } := by
  unfold deleteApp
  split
  · exact Or.inl ⟨rfl, rfl⟩
  split
  · exact Or.inl ⟨rfl, rfl⟩
  · exact Or.inr ⟨_, rfl, rfl⟩

/-- The commands which write the status of a session whatever it is. -/
def Cmd.overwritesSession : Cmd → Bool
  | .abortMultipart _ | .commitVerifiedFile .. => true
  | _ => false

theorem stored_sessionsKept {c : Cmd} (hc : c.overwritesSession = false)
    (h : exec c t.db = .ok t'.db) : SessionsKept t t' := by
  cases hwrites : c.writesSessions with
  | false => exact (exec_sameSessions hwrites h).kept
  | true =>
    obtain ⟨answer, h⟩ := exec_eq_ok.mp h
    generalize hdb : t'.db = db' at h
    have hsame : SameSessions t.db db' → SessionsKept t t' :=
      fun hs ↦ (hdb ▸ hs : SameSessions t.db t'.db).kept
    cases c with
    | createUploadIntent ids session data =>
        rcases createUploadIntent_eq_ok h with ⟨-, rfl⟩ | ⟨-, hfresh, -, ledger, -, rfl⟩
        · exact hsame ⟨rfl, rfl⟩
        · exact ⟨hdb ▸ kept_insert hfresh, hdb ▸ .refl _ _⟩
    | createMultipartIntent ids session data =>
        rcases createMultipartIntent_eq_ok h with ⟨-, rfl⟩ | ⟨-, hfresh, -, ledger, -, rfl⟩
        · exact hsame ⟨rfl, rfl⟩
        · exact ⟨hdb ▸ .refl _ _, hdb ▸ kept_insert hfresh⟩
    | commitVerifiedFile | abortMultipart => cases hc
    | expireUpload id =>
        cases h
        refine ⟨hdb ▸ kept_update fun u _ hleft ↦ ?_, hdb ▸ .refl _ _⟩
        rw [if_neg hleft]
    | expireMultipart id =>
        cases h
        refine ⟨hdb ▸ .refl _ _, hdb ▸ kept_update fun m _ hleft ↦ ?_⟩
        rw [if_neg hleft]
    | setMultipartProviderId id pid =>
        simp only [Cmd.perform, setMultipartProviderId] at h
        split at h
        · cases h
        · rename_i m hm
          cases h
          refine ⟨hdb ▸ .refl _ _, hdb ▸ kept_update fun m' hm' _ ↦ ?_⟩
          rw [Option.some.inj (hm'.symm.trans hm)]
    | deleteApp applicationId =>
        have heq : (deleteApp applicationId t.db).2 = db' := congrArg Prod.snd (Except.ok.inj h)
        subst heq
        rcases deleteApp_sessions applicationId t.db with hs | ⟨principalId, huploads, hmultiparts⟩
        · exact hsame hs
        · rw [← hdb] at huploads hmultiparts
          refine ⟨huploads ▸ kept_updateWhere fun k u hp ↦ ?_,
            hmultiparts ▸ kept_updateWhere fun k m hp ↦ ?_⟩
          · simp only [Bool.and_eq_true, decide_eq_true_eq] at hp
            exact hp.2
          · simp only [Bool.and_eq_true, decide_eq_true_eq] at hp
            exact hp.2
    | recordProviderResult | failOrQuarantine | expire | reapOrphanReservations
    | recordMultipartPart | deleteFile | finalizeFileTrashMigration | recordDeleteFailure
    | finalizeFileDelete | claimRetainedFileForPurge | finalizeRetainedFilePurge
    | recordRetainedPurgeFailure | createPlatformQuota | revokePlatformQuota
    | updatePlatformQuota | updateQuota => cases hwrites

/-! ## The commands which do not -/

theorem kept_completed {α : Type} {status : α → SessionStatus} {f : α → α} {rows : Table Uuid α}
    (hf : ∀ s, status (f s) = .completed) {id : Uuid}
    (hlive : ∀ s, rows.lookup id = some s → (status s).abandoned = false) :
    Kept status rows (rows.update id f) := by
  refine kept_update fun s hs hleft ↦ (hf s).trans ?_
  have hopen := hlive s hs
  revert hleft hopen
  cases status s <;> decide

/-- What a commit leaves of the two session tables. -/
theorem completeSessions_kept {now : Timestamp} {row : IngestionRecord}
    (huploads : t'.db.uploads = (completeSessions now row t.db).uploads)
    (hmultiparts : t'.db.multiparts = (completeSessions now row t.db).multiparts)
    (hlive : SessionsLive t row) : SessionsKept t t' := by
  constructor
  · rw [huploads]
    cases hs : row.uploadSessionId with
    | none => simp [completeSessions, hs, Kept.refl]
    | some id =>
        simp only [completeSessions, hs]
        exact kept_completed (fun _ ↦ rfl) fun u hu ↦ hlive.1 id u hs hu
  · rw [hmultiparts]
    cases hs : row.multipartSessionId with
    | none => simp [completeSessions, hs, Kept.refl]
    | some id =>
        simp only [completeSessions, hs]
        exact kept_completed (fun _ ↦ rfl) fun m hm ↦ hlive.2 id m hs hm

theorem commit_sessionsKept {now : Timestamp} {fileId id : Uuid}
    (h : Commit now fileId id t.db t'.db)
    (hopen : SessionsOpen t (.stored (.commitVerifiedFile now fileId id))) :
    SessionsKept t t' := by
  generalize hdb : t'.db = db' at h
  cases h with
  | replayed row hrow hstatus => exact SameSessions.kept (hdb ▸ ⟨rfl, rfl⟩)
  | unreserved row hready hnone =>
      refine completeSessions_kept
        (by rw [hdb]; rfl) (by rw [hdb]; rfl) ?_
      exact hopen row hready fun rid r hr ↦ by simp [hnone] at hr
  | charged row hready rid r hreservation hfits =>
      refine completeSessions_kept
        (by rw [hdb]; rfl) (by rw [hdb]; rfl) ?_
      refine hopen row hready fun rid' r' hr ↦ ?_
      obtain ⟨rfl, rfl⟩ := Prod.mk.inj (Option.some.inj (hr.symm.trans hreservation))
      exact hfits
  | refused row hready rid r hreservation hover =>
      exact SameSessions.kept (hdb ▸ ⟨rfl, rfl⟩)

theorem tenantStep_sessionsKept {c : TenantCmd} (h : TenantStep t t' c) (hopen : SessionsOpen t c) :
    SessionsKept t t' := by
  cases h with
  | idle _ hsame => exact hsame ▸ ⟨.refl _ _, .refl _ _⟩
  | stored c hstatus h =>
      cases hc : c.overwritesSession with
      | false => exact stored_sessionsKept hc h
      | true =>
          obtain ⟨answer, hok⟩ := exec_eq_ok.mp h
          cases c with
          | abortMultipart id =>
              have hdb := congrArg Prod.snd (Except.ok.inj hok)
              refine ⟨(congrArg Db.uploads hdb) ▸ .refl _ _, ?_⟩
              have hmultiparts := congrArg Db.multiparts hdb
              rw [← hmultiparts]
              refine kept_update fun m hm hleft ↦ ?_
              rw [(hopen m hm).resolve_left hleft]
          | commitVerifiedFile now fileId id =>
              exact commit_sessionsKept (commitVerifiedFile_eq_ok hok) hopen
          | _ => cases hc
  | operated c hother hstatus h hside => exact SameSessions.kept ⟨hside.uploads, hside.multiparts⟩
  | uploadCreated _ _ _ _ _ hfresh _ hdb =>
      rw [sessionsKept_iff, hdb]
      exact ⟨kept_insert hfresh, .refl _ _⟩
  | multipartCreated _ _ _ _ _ _ hfresh _ hdb =>
      rw [sessionsKept_iff, hdb]
      exact ⟨.refl _ _, kept_insert hfresh⟩
  | uploadCompleted now fileId id data u _ hu hunique hfresh hdb =>
      have hunique' : ∀ u', t.db.uploads.lookup id = some u' →
          (uploadFile data u').conflictsIn fileId t.db.files = none := fun u' hu' ↦
        Option.some.inj (hu.symm.trans hu') ▸ hunique
      rw [sessionsKept_iff, hdb]
      exact ⟨kept_completed (fun _ ↦ rfl) fun u hu ↦ hopen u hu (hunique' u hu) hfresh, .refl _ _⟩
  | multipartCompleted fileId id data m _ hm hunique hfresh hdb =>
      have hunique' : ∀ m', t.db.multiparts.lookup id = some m' →
          (multipartFile data m').conflictsIn fileId t.db.files = none := fun m' hm' ↦
        Option.some.inj (hm.symm.trans hm') ▸ hunique
      rw [sessionsKept_iff, hdb]
      exact ⟨.refl _ _, kept_completed (fun _ ↦ rfl) fun m hm ↦ hopen m hm (hunique' m hm) hfresh⟩
  | appRestored _ _ _ _ _ h | switched _ _ _ h | restored _ h =>
      rw [sessionsKept_iff, h.2]
      exact ⟨.refl _ _, .refl _ _⟩
  | deleted _ h =>
      rw [sessionsKept_iff, h.2]
      exact ⟨kept_updateWhere fun _ _ hp ↦ of_decide_eq_true hp,
        kept_updateWhere fun _ _ hp ↦ of_decide_eq_true hp⟩

/-! ## What a command commits -/

/-- A record is committed only when its open reservation settles. -/
theorem settles_of_committed {now : Timestamp} {fileId id : Uuid} {row row' : IngestionRecord}
    (h : TenantStep t t' (.stored (.commitVerifiedFile now fileId id)))
    (hready : CommitReady fileId id row t.db) (hrow' : t'.db.ingestions.lookup id = some row')
    (hcommitted : row'.status = .committed) : Settles row t.db.ledger := by
  intro rid r hreservation hover
  cases h with
  | idle _ hsame =>
      rw [hsame, hready.found, Option.some.injEq] at hrow'
      exact hready.uncommitted (hrow' ▸ hcommitted)
  | operated _ hother => exact hother _ rfl
  | stored _ hstatus h =>
      obtain ⟨answer, hok⟩ := exec_eq_ok.mp h
      generalize hdb : t'.db = db' at hok
      cases commitVerifiedFile_eq_ok hok with
      | replayed row₀ hrow₀ hstatus₀ =>
          obtain rfl := Option.some.inj (hready.found.symm.trans hrow₀)
          exact hready.uncommitted hstatus₀
      | unreserved row₀ hready₀ hnone =>
          obtain rfl := Option.some.inj (hready.found.symm.trans hready₀.found)
          rw [hnone] at hreservation
          cases hreservation
      | charged row₀ hready₀ rid₀ r₀ hreservation₀ hfits =>
          obtain rfl := Option.some.inj (hready.found.symm.trans hready₀.found)
          obtain ⟨rfl, rfl⟩ := Prod.mk.inj (Option.some.inj (hreservation.symm.trans hreservation₀))
          exact hfits hover
      | refused row₀ hready₀ rid₀ r₀ hreservation₀ hover₀ =>
          rw [hdb] at hrow'
          change (t.db.ingestions.update id _).lookup id = _ at hrow'
          rw [AList.lookup_update_self, hready.found] at hrow'
          rw [← Option.some.inj hrow'] at hcommitted
          cases hcommitted

theorem tenantStep_commitsLive {c : TenantCmd} (h : TenantStep t t' c) (hopen : SessionsOpen t c) :
    CommitsLive t c t' := by
  refine ⟨fun i row row' hrow hrow' hbefore hafter ↦ ?_, ?_, ?_⟩
  · cases tenantStep_record h hrow' with
    | kept hkept =>
        obtain rfl := Option.some.inj (hrow.symm.trans hkept)
        exact absurd hafter hbefore
    | created hfresh hstatus hfile => exact absurd (AList.mem_of_lookup hrow) hfresh
    | moved row₀ hrow₀ hvalid hstatus hfile => exact absurd hafter hstatus
    | filed now fileId row₀ hc hready hvalid hfile hmem =>
        obtain rfl := Option.some.inj (hrow.symm.trans hready.found)
        subst hc
        refine hopen row hready ?_
        exact settles_of_committed h hready hrow' hafter
  · rintro now fileId id data u rfl hfresh hmem hu
    cases h with
    | idle _ hsame => exact absurd (hsame ▸ hmem) hfresh
    | uploadCompleted _ _ _ _ u' hstatus hu' hunique _ hdb =>
        obtain rfl := Option.some.inj (hu.symm.trans hu')
        exact hopen u hu hunique hfresh
  · rintro fileId id data m rfl hfresh hmem hm
    cases h with
    | idle _ hsame => exact absurd (hsame ▸ hmem) hfresh
    | multipartCompleted _ _ _ m' hstatus hm' hunique _ hdb =>
        obtain rfl := Option.some.inj (hm.symm.trans hm')
        exact hopen m hm hunique hfresh

/-! ## The law -/

theorem advance_keeps {c : TenantCmd} (hopen : SessionsOpen t c) :
    SessionsKept t (advance tenantExec t c) ∧ CommitsLive t c (advance tenantExec t c) := by
  cases hexec : tenantExec c t with
  | ok t' =>
      rw [advance_of_ok hexec]
      exact ⟨tenantStep_sessionsKept (tenantExec_step hexec) hopen,
        tenantStep_commitsLive (tenantExec_step hexec) hopen⟩
  | error e =>
      rw [advance_of_error hexec]
      exact ⟨⟨.refl _ _, .refl _ _⟩, tenantStep_commitsLive (.idle c rfl) hopen⟩

/-- A ready commit which settles leaves the record committed. -/
theorem committed_of_ready {now : Timestamp} {fileId id : Uuid} {row : IngestionRecord}
    (hready : CommitReady fileId id row t.db) (hsettles : Settles row t.db.ledger) :
    ∃ row', (advance tenantExec t (.stored (.commitVerifiedFile now fileId id))).db.ingestions.lookup
      id = some row' ∧ row'.status = .committed := by
  obtain ⟨answer, db', hok⟩ := commitVerifiedFile_of_ready hready
  have hexec : exec (.commitVerifiedFile now fileId id) t.db = .ok db' :=
    exec_eq_ok.mpr ⟨answer, hok⟩
  obtain ⟨t', htenant, -, rfl⟩ :=
    operation_of_ok (c := .other (.commitVerifiedFile now fileId id)) hexec
  rw [advance_of_ok htenant]
  generalize t'.db = db' at hok
  have hput : ∀ ledger, (committedDb now fileId id row ledger t.db).ingestions.lookup id =
      some (row.committedAs fileId now) := by
    intro ledger
    change (t.db.ingestions.update id _).lookup id = _
    rw [AList.lookup_update_self, hready.found]
    rfl
  cases hreservation : t.db.ledger.openReservation row.quotaReservationId with
  | none =>
      obtain rfl := (commitVerifiedFile_eq_ok hok).eq_unreserved hready hreservation
      exact ⟨_, hput _, rfl⟩
  | some entry =>
      obtain rfl := (commitVerifiedFile_eq_ok hok).eq_charged hready hreservation
        (hsettles _ _ hreservation)
      exact ⟨_, hput _, rfl⟩

theorem sessionsOpen_of_keeps {c : TenantCmd} (hkept : SessionsKept t (advance tenantExec t c))
    (hlive : CommitsLive t c (advance tenantExec t c)) : SessionsOpen t c := by
  unfold SessionsOpen
  split
  · rename_i id
    intro m hm
    by_cases hpending : m.status = .pending
    · exact Or.inl hpending
    · obtain ⟨t', htenant, -, hdb⟩ :=
        operation_of_ok (t := t) (c := .other (.abortMultipart id))
          rfl
      rw [advance_of_ok htenant] at hkept
      obtain ⟨m', hm', hsame⟩ := hkept.multiparts id m hm hpending
      rw [hdb, abortMultipart, AList.lookup_update_self, hm, Option.map_some,
        Option.some.injEq] at hm'
      exact Or.inr (hsame.symm.trans (hm' ▸ rfl))
  · rename_i now fileId id
    intro row hready hsettles
    obtain ⟨row', hrow', hcommitted⟩ := committed_of_ready hready hsettles
    exact hlive.record id row row' hready.found hrow' hready.uncommitted hcommitted
  · rename_i now fileId id data
    intro u hu hunique hfresh
    have hok : completeUpload now fileId id data t.db = _ :=
      completeUpload_eq_ok.mpr ⟨u, hu, hunique, hfresh, rfl⟩
    obtain ⟨t', htenant, -, hdb⟩ := Tenant.transact_of_ok hok rfl t.one_total
    have htenant : tenantExec (.completeUpload now fileId id data) t = .ok t' := htenant
    refine hlive.upload now fileId id data u rfl hfresh ?_ hu
    rw [advance_of_ok htenant, hdb]
    exact AList.mem_insert'.mpr (Or.inl rfl)
  · rename_i fileId id data
    intro m hm hunique hfresh
    have hok := completeMultipart_eq_ok.mpr ⟨m, hm, hunique, hfresh, rfl⟩
    obtain ⟨t', htenant, -, hdb⟩ := Tenant.transact_of_ok hok rfl t.one_total
    have htenant : tenantExec (.completeMultipart fileId id data) t = .ok t' := htenant
    refine hlive.multipart fileId id data m rfl hfresh ?_ hm
    rw [advance_of_ok htenant, hdb]
    exact AList.mem_insert'.mpr (Or.inl rfl)
  · trivial

theorem sessionsKept_run {cs : List TenantCmd} (hmeets : Meets tenantExec SessionsOpen t cs) :
    SessionsKept t (run tenantExec t cs) := by
  induction cs generalizing t with
  | nil => exact ⟨.refl _ _, .refl _ _⟩
  | cons c cs ih =>
      obtain ⟨hc, hrest⟩ := hmeets
      have hfirst := (advance_keeps hc).1
      have hlast := ih hrest
      exact ⟨hfirst.uploads.trans hlast.uploads, hfirst.multiparts.trans hlast.multiparts⟩

/-- Sessions are monotone along a run, and nothing is committed from an abandoned one, exactly
when every abort, commit and completion finds the session still open. -/
theorem sessions_monotone_iff (t : Tenant) (cs : List TenantCmd) :
    ((∀ pre mid post, cs = pre ++ mid ++ post →
        SessionsKept (run tenantExec t pre) (run tenantExec t (pre ++ mid))) ∧
      ∀ pre c post, cs = pre ++ c :: post →
        CommitsLive (run tenantExec t pre) c (run tenantExec t (pre ++ [c]))) ↔
      Meets tenantExec SessionsOpen t cs := by
  constructor
  · rintro ⟨hkept, hlive⟩
    induction cs generalizing t with
    | nil => trivial
    | cons c cs ih =>
        refine ⟨sessionsOpen_of_keeps (hkept [] [c] cs rfl) (hlive [] c cs rfl), ih _ ?_ ?_⟩
        · rintro pre mid post rfl
          exact hkept (c :: pre) mid post rfl
        · rintro pre d post rfl
          exact hlive (c :: pre) d post rfl
  · intro hmeets
    refine ⟨?_, ?_⟩
    · rintro pre mid post rfl
      rw [run_append]
      exact sessionsKept_run
        ((meets_append tenantExec).mp ((meets_append tenantExec).mp hmeets).1).2
    · rintro pre c post rfl
      rw [run_append]
      exact (advance_keeps ((meets_append tenantExec).mp hmeets).2.1).2

namespace Sample

/-- A multipart upload is aborted by its client while its record waits for reconciliation. -/
def abortedUpload : List TenantCmd :=
  [.createMultipartIntent (ids 10) (session 40) (data "a"),
    .failOrQuarantine 0 12 .reconciliationRequired .multipartProviderFailed,
    .abortMultipart 11,
    .recordProviderResult 12 (result 40 'a')].map .stored

end Sample

theorem aborted_session_completed : ¬ ∀ t cs pre mid post, cs = pre ++ mid ++ post →
    SessionsKept (run tenantExec t pre) (run tenantExec t (pre ++ mid)) := by
  intro h
  have hkept := h Sample.live _ Sample.abortedUpload
    [.stored (.commitVerifiedFile 0 30 12)] [] rfl
  have hbefore : ((run tenantExec Sample.live Sample.abortedUpload).db.multiparts.lookup 11).map
      (·.status) = some .aborted := by decide
  have hafter : ((run tenantExec Sample.live (Sample.abortedUpload ++
      [.stored (.commitVerifiedFile 0 30 12)])).db.multiparts.lookup 11).map
      (·.status) = some .completed := by decide
  obtain ⟨m, hm, hstatus⟩ := Option.map_eq_some_iff.mp hbefore
  obtain ⟨m', hm', hsame⟩ := hkept.multiparts 11 m hm (by simp [hstatus])
  rw [hm', Option.map_some, hsame, hstatus] at hafter
  cases hafter

end S3mp
