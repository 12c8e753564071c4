import S3mp.Files.ServiceWorld
import S3mp.Uploads.SessionStates

/-!
# Sessions and their ingestion records

A session and its record are written by different transactions, most of which
look at one of them only.  What all of them keep: a completed session has left a
file, and a committed record has completed its session.
-/

namespace S3mp

open Relational Files Governance Applications Platform Transition

def Db.sessionStatus (db : Db) : SessionRef → Option SessionStatus
  | .upload id => (db.uploads.lookup id).map (·.status)
  | .multipart id => (db.multiparts.lookup id).map (·.status)

/-- A session of this status agrees with its record. -/
structure Agree (row : IngestionRecord) (ref : SessionRef) (status : SessionStatus) : Prop where
  completed : status = .completed → row.fileObjectId ≠ none
  committed : row.status = .committed →
    status = .completed ∨ status = .aborted ∧ ∃ id, ref = .multipart id

/-- Every record came through one session, through which no other came, and agrees with it. -/
structure Paired (db : Db) : Prop where
  session : ∀ i row, db.ingestions.lookup i = some row →
    ∃ ref status, (∀ ref', row.through ref' ↔ ref' = ref) ∧
      db.sessionStatus ref = some status ∧ Agree row ref status
  apart : ∀ i j row row' ref, db.ingestions.lookup i = some row →
    db.ingestions.lookup j = some row' → row.through ref → row'.through ref → i = j

section Paired

variable {db db' : Db} {id : Uuid} {row : IngestionRecord}

theorem Paired.exists_session (hdb : Paired db) (hrow : db.ingestions.lookup id = some row)
    {ref : SessionRef} (href : row.through ref) : ∃ status, db.sessionStatus ref = some status := by
  obtain ⟨own, status, hown, hstatus, -⟩ := hdb.session id row hrow
  rw [(hown ref).mp href]
  exact ⟨status, hstatus⟩

/-- No record appears, and each goes on agreeing with its session. -/
theorem Paired.keep (hdb : Paired db)
    (h : ∀ i row', db'.ingestions.lookup i = some row' → ∃ row,
      db.ingestions.lookup i = some row ∧ (∀ ref, row'.through ref = row.through ref) ∧
        ∀ ref status, row.through ref → db.sessionStatus ref = some status →
          Agree row ref status → ∃ status', db'.sessionStatus ref = some status' ∧
            Agree row' ref status') : Paired db' := by
  constructor
  · intro i row' hi
    obtain ⟨row, hrow, hthrough, hagree⟩ := h i row' hi
    obtain ⟨ref, status, href, hstatus, hold⟩ := hdb.session i row hrow
    obtain ⟨status', hstatus', hnew⟩ := hagree ref status ((href ref).mpr rfl) hstatus hold
    exact ⟨ref, status', fun ref' ↦ by rw [hthrough, href], hstatus', hnew⟩
  · intro i j row₁' row₂' ref hi hj h₁ h₂
    obtain ⟨row₁, hrow₁, hthrough₁, -⟩ := h i row₁' hi
    obtain ⟨row₂, hrow₂, hthrough₂, -⟩ := h j row₂' hj
    exact hdb.apart i j row₁ row₂ ref hrow₁ hrow₂ (hthrough₁ ref ▸ h₁) (hthrough₂ ref ▸ h₂)

/-! ## Sessions which drift -/

/-- Rows stay, and one whose status changes goes from `pending` to anything but `completed`. -/
def Drift {α : Type} (status : α → SessionStatus) (rows rows' : Table Uuid α) : Prop :=
  ∀ id s, rows.lookup id = some s → ∃ s', rows'.lookup id = some s' ∧
    (status s' = status s ∨ status s = .pending ∧ status s' ≠ .completed)

section Drift

variable {α : Type} {status : α → SessionStatus} {rows : Table Uuid α}

theorem Drift.refl (status : α → SessionStatus) (rows : Table Uuid α) : Drift status rows rows :=
  fun _ s hs ↦ ⟨s, hs, Or.inl rfl⟩

theorem drift_insert {s : α} (hfresh : id ∉ rows) : Drift status rows (rows.insert id s) :=
  fun _ r hr ↦ ⟨r, AList.lookup_insert_of_lookup hr hfresh, Or.inl rfl⟩

theorem drift_update {f : α → α}
    (hf : ∀ s, rows.lookup id = some s →
      status (f s) = status s ∨ status s = .pending ∧ status (f s) ≠ .completed) :
    Drift status rows (rows.update id f) := by
  intro j s hs
  by_cases hj : j = id
  · subst hj
    exact ⟨f s, by rw [AList.lookup_update_self, hs, Option.map_some], hf s hs⟩
  · exact ⟨s, by rw [AList.lookup_update_of_ne hj, hs], Or.inl rfl⟩

theorem drift_updateWhere {p : Uuid → α → Bool} {f : α → α}
    (hf : ∀ k s, p k s → status s = .pending ∧ status (f s) ≠ .completed) :
    Drift status rows (rows.updateWhere p f) := by
  intro j s hs
  by_cases hp : p j s
  · exact ⟨f s, by rw [AList.lookup_updateWhere, hs, Option.map_some, if_pos hp],
      Or.inr (hf j s hp)⟩
  · exact ⟨s, by rw [AList.lookup_updateWhere, hs, Option.map_some, if_neg hp], Or.inl rfl⟩

end Drift

theorem Paired.drift (hdb : Paired db) (hingestions : db'.ingestions = db.ingestions)
    (huploads : Drift UploadSession.status db.uploads db'.uploads)
    (hmultiparts : Drift MultipartSession.status db.multiparts db'.multiparts) : Paired db' := by
  refine hdb.keep fun i row hi ↦ ⟨row, hingestions ▸ hi, fun _ ↦ rfl, ?_⟩
  intro ref status _ hstatus hagree
  have hmoved : ∃ status', db'.sessionStatus ref = some status' ∧
      (status' = status ∨ status = .pending ∧ status' ≠ .completed) := by
    cases ref with
    | upload j =>
        obtain ⟨s, hs, rfl⟩ := Option.map_eq_some_iff.mp hstatus
        obtain ⟨s', hs', hmove⟩ := huploads j s hs
        exact ⟨s'.status, Option.map_eq_some_iff.mpr ⟨s', hs', rfl⟩, hmove⟩
    | multipart j =>
        obtain ⟨s, hs, rfl⟩ := Option.map_eq_some_iff.mp hstatus
        obtain ⟨s', hs', hmove⟩ := hmultiparts j s hs
        exact ⟨s'.status, Option.map_eq_some_iff.mpr ⟨s', hs', rfl⟩, hmove⟩
  obtain ⟨status', hstatus', rfl | ⟨rfl, hleft⟩⟩ := hmoved
  · exact ⟨status', hstatus', hagree⟩
  · refine ⟨status', hstatus', fun h ↦ absurd h hleft, fun h ↦ ?_⟩
    rcases hagree.committed h with hpending | ⟨hpending, -⟩ <;> cases hpending

/-! ## Transactions on a record -/

/-- A record is written which is not committed, and the sessions stay. -/
theorem Paired.put (hdb : Paired db) (row' : IngestionRecord)
    (hrow : db.ingestions.lookup id = some row)
    (hput : db'.ingestions = db.ingestions.update id fun _ ↦ row')
    (hsessions : SameSessions db db') (hthrough : ∀ ref, row'.through ref = row.through ref)
    (hfile : row.fileObjectId ≠ none → row'.fileObjectId ≠ none)
    (hstatus : row'.status ≠ .committed) : Paired db' := by
  have hsame : ∀ ref, db'.sessionStatus ref = db.sessionStatus ref := by
    rintro (j | j)
    · exact congrArg (fun rows : Table Uuid UploadSession ↦ (rows.lookup j).map (·.status))
        hsessions.1
    · exact congrArg (fun rows : Table Uuid MultipartSession ↦ (rows.lookup j).map (·.status))
        hsessions.2
  refine hdb.keep fun i new hi ↦ ?_
  rw [hput, AList.lookup_update] at hi
  split at hi
  · rename_i heq
    subst heq
    rw [hrow, Option.map_some, Option.some.injEq] at hi
    subst hi
    refine ⟨row, hrow, hthrough, fun ref status _ hs hagree ↦ ⟨status, (hsame ref).trans hs, ?_⟩⟩
    exact ⟨fun h ↦ hfile (hagree.completed h), fun h ↦ absurd h hstatus⟩
  · exact ⟨new, hi, fun _ ↦ rfl, fun ref status _ hs hagree ↦
      ⟨status, (hsame ref).trans hs, hagree⟩⟩

section Commit

variable {now : Timestamp} {fileId : Uuid} {ledger : Ledger}

theorem status_completed {α : Type} (status : α → SessionStatus) (f : α → α)
    (hf : ∀ a, status (f a) = .completed) (ref : Option Uuid) (rows : Table Uuid α) (j : Uuid) :
    ((match ref with
      | none => rows
      | some k => rows.update k f).lookup j).map status =
        if ref = some j then ((rows.lookup j).map status).map fun _ ↦ .completed
        else (rows.lookup j).map status := by
  cases ref with
  | none => rw [if_neg (by simp)]
  | some k =>
      by_cases hk : j = k
      · subst hk
        rw [AList.lookup_update_self, Option.map_map, Option.map_map, if_pos rfl]
        exact congrArg (Option.map · _) (funext hf)
      · rw [AList.lookup_update_of_ne hk, if_neg (by simpa using Ne.symm hk)]

/-- The sessions of a committed record are completed, the others stay. -/
theorem sessionStatus_committedDb (ref : SessionRef) :
    (committedDb now fileId id row ledger db).sessionStatus ref =
      if row.through ref then (db.sessionStatus ref).map fun _ ↦ .completed
      else db.sessionStatus ref := by
  cases ref with
  | upload j =>
      have h := status_completed UploadSession.status
        (fun u ↦ { u with status := .completed, completedAt := some now }) (fun _ ↦ rfl)
        row.uploadSessionId db.uploads j
      simp only [IngestionRecord.through, decide_eq_true_eq]
      exact h
  | multipart j =>
      have h := status_completed MultipartSession.status
        (fun m ↦ { m with status := .completed }) (fun _ ↦ rfl)
        row.multipartSessionId db.multiparts j
      simp only [IngestionRecord.through, decide_eq_true_eq]
      exact h

theorem Paired.committed (hdb : Paired db) (hrow : db.ingestions.lookup id = some row) :
    Paired (committedDb now fileId id row ledger db) := by
  refine hdb.keep fun i new hi ↦ ?_
  change (putIngestion id (row.committedAs fileId now) db).ingestions.lookup i = _ at hi
  rw [lookup_putIngestion] at hi
  split at hi
  · rename_i heq
    subst heq
    rw [hrow, Option.map_some, Option.some.injEq] at hi
    subst hi
    refine ⟨row, hrow, fun ref ↦ by cases ref <;> rfl, fun ref status href hs _ ↦
      ⟨.completed, ?_, fun _ h ↦ (by cases h), fun _ ↦ Or.inl rfl⟩⟩
    rw [sessionStatus_committedDb, if_pos href, hs, Option.map_some]
  · rename_i hne
    refine ⟨new, hi, fun _ ↦ rfl, fun ref status href hs hagree ↦ ⟨status, ?_, hagree⟩⟩
    have hother : ¬ row.through ref := fun h ↦ hne (hdb.apart i id new row ref hi hrow href h)
    rw [sessionStatus_committedDb, if_neg hother, hs]

theorem Paired.commit (hdb : Paired db) (h : Commit now fileId id db db') : Paired db' := by
  cases h with
  | replayed => exact hdb
  | unreserved row hready | charged row hready => exact hdb.committed hready.found
  | refused row hready =>
      exact hdb.put { row.committedAs fileId now with status := .reconciliationRequired }
        hready.found rfl ⟨rfl, rfl⟩ (fun ref ↦ by cases ref <;> rfl) (fun _ h ↦ by cases h)
        (by simp)

end Commit

/-- A record is created, and its session with it. -/
theorem Paired.created {record : IngestionRecord} (hdb : Paired db) (ref : SessionRef)
    (hput : db'.ingestions = db.ingestions.insert id record) (hstatus : record.status = .initiated)
    (href : ∀ ref', record.through ref' ↔ ref' = ref) (hnew : db.sessionStatus ref = none)
    (hpending : db'.sessionStatus ref = some .pending)
    (hothers : ∀ ref', ref' ≠ ref → db'.sessionStatus ref' = db.sessionStatus ref') :
    Paired db' := by
  have hsplit : ∀ j row, db'.ingestions.lookup j = some row →
      (j = id ∧ row = record) ∨ (j ≠ id ∧ db.ingestions.lookup j = some row) := by
    intro j row hj
    rw [hput, AList.lookup_insert'] at hj
    split at hj
    · rename_i heq
      exact Or.inl ⟨heq, (Option.some.inj hj).symm⟩
    · rename_i hne
      exact Or.inr ⟨hne, hj⟩
  have hunknown : ∀ j row, db.ingestions.lookup j = some row → ¬ row.through ref := by
    intro j row hj h
    obtain ⟨status, hsome⟩ := hdb.exists_session hj h
    rw [hnew] at hsome
    cases hsome
  constructor
  · intro j row hj
    rcases hsplit j row hj with ⟨rfl, rfl⟩ | ⟨-, hj⟩
    · refine ⟨ref, .pending, href, hpending, (nomatch ·), fun h ↦ ?_⟩
      rw [hstatus] at h
      cases h
    · obtain ⟨own, status, hown, hsome, hagree⟩ := hdb.session j row hj
      have hne : own ≠ ref := by
        rintro rfl
        exact hunknown j row hj ((hown own).mpr rfl)
      exact ⟨own, status, hown, (hothers own hne).trans hsome, hagree⟩
  · intro j k row₁ row₂ ref' hj hk h₁ h₂
    rcases hsplit j row₁ hj with ⟨rfl, rfl⟩ | ⟨-, hj⟩
    · rcases hsplit k row₂ hk with ⟨rfl, rfl⟩ | ⟨-, hk⟩
      · rfl
      · exact absurd ((href ref').mp h₁ ▸ h₂) (hunknown k row₂ hk)
    · rcases hsplit k row₂ hk with ⟨rfl, rfl⟩ | ⟨-, hk⟩
      · exact absurd ((href ref').mp h₂ ▸ h₁) (hunknown j row₁ hj)
      · exact hdb.apart j k row₁ row₂ ref' hj hk h₁ h₂

/-! ## Commands -/

theorem Paired.exec_record (hdb : Paired db) {c : Cmd} (hc : c.writesSessions = false)
    (h : exec c db = .ok db') : Paired db' := by
  have hsame := exec_sameSessions hc h
  have hrecords : db'.ingestions = db.ingestions → Paired db' := fun hingestions ↦
    hdb.drift hingestions (hsame.1 ▸ .refl _ _) (hsame.2 ▸ .refl _ _)
  cases exec_step h with
  | uploadCreated | multipartCreated | commit | appDeleted => cases hc
  | idle | sessions | edited | deleted | purged | quotaCreated | quotaOverwritten | quotaRevoked
  | platformLimitSet | limitSet => exact hrecords rfl
  | reaped now picked =>
      refine hrecords ?_
      rw [reapOrphanReservations, reapOrphanReservationsWith_frame]
  | verified id result row hrow hvalid =>
      exact hdb.put (row.verifiedAs result) hrow rfl hsame (fun ref ↦ by cases ref <;> rfl)
        (fun h ↦ h) (by simp [IngestionRecord.verifiedAs])
  | failed now id reason row hrow hvalid =>
      exact hdb.put { row with status := .failed } hrow rfl hsame (fun _ ↦ rfl) (fun h ↦ h)
        (by simp)
  | requeued now id reason row hrow hvalid =>
      exact hdb.put { row with status := .reconciliationRequired } hrow rfl hsame (fun _ ↦ rfl)
        (fun h ↦ h) (by simp)
  | expired now id row hrow hvalid =>
      exact hdb.put { row with status := .expired } hrow rfl hsame (fun _ ↦ rfl) (fun h ↦ h)
        (by simp)

theorem Paired.abortMultipart (hdb : Paired db) (id : Uuid) :
    Paired (Files.abortMultipart id db) := by
  refine hdb.keep fun i row hi ↦ ⟨row, hi, fun _ ↦ rfl, fun ref status _ hs hagree ↦ ?_⟩
  by_cases href : ref = .multipart id
  · subst href
    obtain ⟨m, hm, -⟩ := Option.map_eq_some_iff.mp hs
    refine ⟨.aborted, ?_, (nomatch ·), fun _ ↦ Or.inr ⟨rfl, id, rfl⟩⟩
    simp [Db.sessionStatus, Files.abortMultipart, hm]
  · refine ⟨status, ?_, hagree⟩
    cases ref with
    | upload j => exact hs
    | multipart j =>
        have hj : j ≠ id := fun h ↦ href (congrArg SessionRef.multipart h)
        simpa [Db.sessionStatus, Files.abortMultipart, AList.lookup_update_of_ne hj] using hs

theorem Paired.exec (hdb : Paired db) {c : Cmd} (h : exec c db = .ok db') : Paired db' := by
  cases hwrites : c.writesSessions with
  | false => exact hdb.exec_record hwrites h
  | true =>
    obtain ⟨answer, h⟩ := exec_eq_ok.mp h
    cases c with
    | createUploadIntent ids session data =>
        rcases createUploadIntent_eq_ok h with ⟨-, rfl⟩ | ⟨-, hsession, -, ledger, -, rfl⟩
        · exact hdb
        refine hdb.created (.upload ids.session) rfl rfl (fun ref' ↦ ?_) ?_ ?_ fun ref' hne ↦ ?_
        · cases ref' <;> simp [IngestionRecord.through, buildIngestionModel, eq_comm]
        · simp [Db.sessionStatus, AList.lookup_eq_none.mpr hsession]
        · simp [Db.sessionStatus, withIntent, newUpload]
        · cases ref' with
          | upload j =>
              have hj : j ≠ ids.session := fun h ↦ hne (congrArg SessionRef.upload h)
              simp [Db.sessionStatus, withIntent, AList.lookup_insert_ne hj]
          | multipart j => rfl
    | createMultipartIntent ids session data =>
        rcases createMultipartIntent_eq_ok h with ⟨-, rfl⟩ | ⟨-, hsession, -, ledger, -, rfl⟩
        · exact hdb
        refine hdb.created (.multipart ids.session) rfl rfl (fun ref' ↦ ?_) ?_ ?_
          fun ref' hne ↦ ?_
        · cases ref' <;> simp [IngestionRecord.through, buildIngestionModel, eq_comm]
        · simp [Db.sessionStatus, AList.lookup_eq_none.mpr hsession]
        · simp [Db.sessionStatus, withIntent, newMultipart]
        · cases ref' with
          | upload j => rfl
          | multipart j =>
              have hj : j ≠ ids.session := fun h ↦ hne (congrArg SessionRef.multipart h)
              simp [Db.sessionStatus, withIntent, AList.lookup_insert_ne hj]
    | commitVerifiedFile now fileId id => exact hdb.commit (commitVerifiedFile_eq_ok h)
    | abortMultipart id =>
        cases h
        exact hdb.abortMultipart id
    | expireUpload id =>
        cases h
        refine hdb.drift rfl (drift_update fun u _ ↦ ?_) (.refl _ _)
        by_cases hu : u.status = .pending <;> simp [hu]
    | expireMultipart id =>
        cases h
        refine hdb.drift rfl (.refl _ _) (drift_update fun m _ ↦ ?_)
        by_cases hm : m.status = .pending <;> simp [hm]
    | setMultipartProviderId id pid =>
        simp only [Cmd.perform, setMultipartProviderId] at h
        split at h
        · cases h
        · rename_i m hm
          cases h
          refine hdb.drift rfl (.refl _ _) (drift_update fun m' hm' ↦ Or.inl ?_)
          rw [Option.some.inj (hm'.symm.trans hm)]
    | deleteApp applicationId =>
        have heq : (deleteApp applicationId db).2 = db' := congrArg Prod.snd (Except.ok.inj h)
        subst heq
        have hingestions : (deleteApp applicationId db).2.ingestions = db.ingestions := by
          unfold deleteApp
          split
          · rfl
          · split <;> rfl
        rcases deleteApp_sessions applicationId db with hs | ⟨principalId, huploads, hmultiparts⟩
        · exact hdb.drift hingestions (hs.1 ▸ .refl _ _) (hs.2 ▸ .refl _ _)
        · refine hdb.drift hingestions (huploads ▸ drift_updateWhere fun k u hp ↦ ?_)
            (hmultiparts ▸ drift_updateWhere fun k m hp ↦ ?_) <;>
          · simp only [Bool.and_eq_true, decide_eq_true_eq] at hp
            exact ⟨hp.2, by simp⟩
    | recordProviderResult | failOrQuarantine | expire | reapOrphanReservations
    | recordMultipartPart | deleteFile | finalizeFileTrashMigration | recordDeleteFailure
    | finalizeFileDelete | claimRetainedFileForPurge | finalizeRetainedFilePurge
    | recordRetainedPurgeFailure | createPlatformQuota | revokePlatformQuota
    | updatePlatformQuota | updateQuota => cases hwrites

end Paired

/-! ## Runs -/

/-- A session is completed without a record only where it has none. -/
def Unrecorded (t : Tenant) : TenantCmd → Prop
  | .completeUpload _ _ id _ => ∀ i row, t.db.ingestions.lookup i = some row →
      row.through (.upload id) = false
  | .completeMultipart _ id _ => ∀ i row, t.db.ingestions.lookup i = some row →
      row.through (.multipart id) = false
  | _ => True

theorem Paired.update_unrecorded {db db' : Db} (hdb : Paired db) {own : SessionRef}
    (hingestions : db'.ingestions = db.ingestions)
    (hown : ∀ i row, db.ingestions.lookup i = some row → row.through own = false)
    (hothers : ∀ ref, ref ≠ own → db'.sessionStatus ref = db.sessionStatus ref) : Paired db' := by
  refine hdb.keep fun i row hi ↦ ⟨row, hingestions ▸ hi, fun _ ↦ rfl, ?_⟩
  intro ref status href hs hagree
  refine ⟨status, (hothers ref ?_).trans hs, hagree⟩
  rintro rfl
  rw [hown i row (hingestions ▸ hi)] at href
  cases href

theorem Paired.step {t t' : Tenant} (ht : Paired t.db) {c : TenantCmd} (hc : Unrecorded t c)
    (h : TenantStep t t' c) : Paired t'.db := by
  cases h with
  | idle _ hsame => exact hsame ▸ ht
  | stored c hstatus h => exact ht.exec h
  | operated c hother hstatus h hside =>
      exact ht.drift hside.ingestions (hside.uploads ▸ .refl _ _) (hside.multiparts ▸ .refl _ _)
  | uploadCreated id version session u hstatus hfresh hpending hdb =>
      rw [hdb]
      exact ht.drift rfl (drift_insert hfresh) (.refl _ _)
  | multipartCreated id reservationId version session m hstatus hfresh hpending hdb =>
      rw [hdb]
      exact ht.drift rfl (.refl _ _) (drift_insert hfresh)
  | uploadCompleted now fileId id data u hstatus hu hunique hfresh hdb =>
      rw [hdb]
      refine ht.update_unrecorded rfl hc fun ref hne ↦ ?_
      cases ref with
      | upload j =>
          have hj : j ≠ id := fun h ↦ hne (congrArg SessionRef.upload h)
          simp [Db.sessionStatus, AList.lookup_update_of_ne hj]
      | multipart j => rfl
  | multipartCompleted fileId id data m hstatus hm hunique hfresh hdb =>
      rw [hdb]
      refine ht.update_unrecorded rfl hc fun ref hne ↦ ?_
      cases ref with
      | upload j => rfl
      | multipart j =>
          have hj : j ≠ id := fun h ↦ hne (congrArg SessionRef.multipart h)
          simp [Db.sessionStatus, AList.lookup_update_of_ne hj]
  | appRestored _ _ _ _ _ h | switched _ _ _ h | restored _ h =>
      rw [h.2]
      exact ht.drift rfl (.refl _ _) (.refl _ _)
  | deleted _ h =>
      rw [h.2]
      refine ht.drift rfl (drift_updateWhere fun k u hp ↦ ?_)
        (drift_updateWhere fun k m hp ↦ ?_) <;>
      exact ⟨of_decide_eq_true hp, by simp⟩

namespace Sample

end Sample

end S3mp
