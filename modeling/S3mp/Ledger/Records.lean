import S3mp.Ledger.Balance

/-!
# Ingestion records and their reservations

Each record names a reservation of its own for life, and a record whose file has
been committed or refused by the quota no longer holds an open one.
-/

namespace S3mp

open Relational Files Governance Transition Relation

variable {db db' : Db}

/-- How the row `row'` with key `i` of the later state came about. -/
inductive RecordStep (db : Db) (c : Cmd) (db' : Db) (i : Uuid) (row' : IngestionRecord) : Prop
  | kept (h : db.ingestions.lookup i = some row')
  | written (row : IngestionRecord) (h : db.ingestions.lookup i = some row)
      (href : row'.quotaReservationId = row.quotaReservationId)
      (hfile : row'.fileObjectId = row.fileObjectId ∨ ∃ now fileId,
        c = .commitVerifiedFile now fileId i ∧ row'.fileObjectId = some fileId ∧
          fileId ∈ db'.files)
      (hclosed : row'.status = .committed ∨ row'.status = .available →
        db'.ledger.openReservation row'.quotaReservationId = none)
  | created (rid : Uuid) (hfresh : i ∉ db.ingestions) (hstatus : row'.status = .initiated)
      (hfile : row'.fileObjectId = none)
      (href : row'.quotaReservationId = some rid) (hnew : rid ∉ db.ledger.reservations)
      (hmem : rid ∈ db'.ledger.reservations)
      (honly : ∀ j, j ∈ db'.ingestions → j ∉ db.ingestions → j = i)

theorem recordStep_of_put {c : Cmd} {id : Uuid} {row : IngestionRecord} (new : IngestionRecord)
    (hrow : db.ingestions.lookup id = some row)
    (hput : db'.ingestions = db.ingestions.update id fun _ ↦ new)
    (href : new.quotaReservationId = row.quotaReservationId)
    (hfile : new.fileObjectId = row.fileObjectId ∨ ∃ now fileId,
      c = .commitVerifiedFile now fileId id ∧ new.fileObjectId = some fileId ∧ fileId ∈ db'.files)
    (hclosed : new.status = .committed ∨ new.status = .available →
      db'.ledger.openReservation new.quotaReservationId = none)
    {i : Uuid} {row' : IngestionRecord} (h : db'.ingestions.lookup i = some row') :
    RecordStep db c db' i row' := by
  rw [hput, AList.lookup_update] at h
  split at h
  · rename_i hi
    subst hi
    rw [hrow, Option.map_some, Option.some.injEq] at h
    subst h
    exact .written row hrow href hfile hclosed
  · exact .kept h

theorem recordStep_of_created {c : Cmd} {ids : IntentIds} {record : IngestionRecord} {ledger : Ledger}
    {uploads : Table Uuid UploadSession} {multiparts : Table Uuid MultipartSession} {n : ℤ}
    (hfresh : ids.ingestion ∉ db.ingestions) (hstatus : record.status = .initiated)
    (hfile : record.fileObjectId = none) (href : record.quotaReservationId = some ids.reservation)
    (hheld : Held db.ledger ids.reservation n ids.reservation ledger)
    {i : Uuid} {row' : IngestionRecord}
    (h : (withIntent ids record ledger uploads multiparts db).ingestions.lookup i = some row') :
    RecordStep db c (withIntent ids record ledger uploads multiparts db) i row' := by
  obtain ⟨-, r, -, hr, rfl⟩ := hheld
  rw [withIntent, AList.lookup_insert'] at h
  split at h
  · rename_i hi
    cases h
    subst hi
    refine .created ids.reservation hfresh hstatus hfile href hr.fresh
      (AList.mem_insert'.mpr (Or.inl rfl)) fun j hj hj' ↦ ?_
    exact (AList.mem_insert'.mp hj).resolve_right hj'
  · exact .kept h

theorem openReservation_settle {l : Ledger} {ref : Option Uuid} {rid : Uuid}
    {r : QuotaReservation} {now : Timestamp} {actual : ℤ}
    (hopen : l.openReservation ref = some (rid, r)) :
    (l.settle now rid r actual).Closed ref := by
  obtain ⟨rfl, hid, -⟩ := Ledger.openReservation_eq_some.mp hopen
  exact ⟨rid, _, rfl, by rw [Ledger.settle, AList.lookup_update_self, hid]; rfl, by simp⟩

theorem closed_releaseQuotaReservation {l : Ledger} {row : IngestionRecord} {rid : Uuid}
    {r : QuotaReservation} {now : Timestamp}
    (hopen : l.openReservation row.quotaReservationId = some (rid, r)) :
    (releaseQuotaReservation now row l).Closed row.quotaReservationId := by
  obtain ⟨href, hid, -⟩ := Ledger.openReservation_eq_some.mp hopen
  simp only [releaseQuotaReservation, hopen]
  exact ⟨rid, _, href, by rw [Ledger.close, AList.lookup_update_self, hid]; rfl, by simp⟩

theorem step_record {c : Cmd} (h : Step db c db') {i : Uuid} {row' : IngestionRecord}
    (hi : db'.ingestions.lookup i = some row') : RecordStep db c db' i row' := by
  cases h with
  | idle | sessions | edited | deleted | purged | quotaCreated | quotaOverwritten | quotaRevoked
  | platformLimitSet | limitSet => exact .kept hi
  | appDeleted applicationId =>
      apply RecordStep.kept
      rw [← hi]
      unfold Applications.deleteApp
      split
      · rfl
      · split <;> rfl
  | reaped now picked =>
      rw [reapOrphanReservations, reapOrphanReservationsWith_frame] at hi
      exact .kept hi
  | uploadCreated ids session data ledger hsession hrecord hheld =>
      exact recordStep_of_created hrecord rfl rfl rfl hheld hi
  | multipartCreated ids session data ledger hsession hrecord hheld =>
      exact recordStep_of_created hrecord rfl rfl rfl hheld hi
  | verified id result row hrow hvalid =>
      exact recordStep_of_put (row.verifiedAs result) hrow rfl rfl (Or.inl rfl)
        (by simp [IngestionRecord.verifiedAs]) hi
  | failed now id reason row hrow hvalid =>
      exact recordStep_of_put { row with status := .failed } hrow rfl rfl
        (Or.inl rfl) (by simp) hi
  | requeued now id reason row hrow hvalid =>
      exact recordStep_of_put { row with status := .reconciliationRequired } hrow rfl rfl
        (Or.inl rfl) (by simp) hi
  | expired now id row hrow hvalid =>
      exact recordStep_of_put { row with status := .expired } hrow rfl rfl
        (Or.inl rfl) (by simp) hi
  | commit now fileId id _ hcommit =>
      cases hcommit with
      | replayed => exact .kept hi
      | unreserved row hready hnone =>
          refine recordStep_of_put (row.committedAs fileId now) hready.found rfl rfl
            (Or.inr ⟨now, fileId, rfl, rfl, AList.mem_insert'.mpr (Or.inl rfl)⟩) ?_ hi
          exact fun _ ↦ hnone
      | charged row hready rid r hopen hfits =>
          exact recordStep_of_put (row.committedAs fileId now) hready.found rfl rfl
            (Or.inr ⟨now, fileId, rfl, rfl, AList.mem_insert'.mpr (Or.inl rfl)⟩)
            (fun _ ↦ (openReservation_settle hopen).openReservation_eq_none) hi
      | refused row hready rid r hopen hover =>
          exact recordStep_of_put
            { row.committedAs fileId now with status := .reconciliationRequired } hready.found
            rfl rfl (Or.inr ⟨now, fileId, rfl, rfl,
              AList.mem_update.mpr (AList.mem_insert'.mpr (Or.inl rfl))⟩) (by simp) hi

theorem step_mem_ingestions {c : Cmd} (h : Step db c db') {i : Uuid} (hi : i ∈ db.ingestions) :
    i ∈ db'.ingestions := by
  cases h with
  | idle | sessions | edited | deleted | purged | quotaCreated | quotaOverwritten | quotaRevoked
  | platformLimitSet | limitSet => exact hi
  | appDeleted applicationId =>
      unfold Applications.deleteApp
      split
      · exact hi
      · split <;> exact hi
  | reaped now picked =>
      rw [reapOrphanReservations, reapOrphanReservationsWith_frame]
      exact hi
  | uploadCreated | multipartCreated => exact AList.mem_insert'.mpr (Or.inr hi)
  | verified | failed | requeued | expired => exact AList.mem_update.mpr hi
  | commit now fileId id _ hcommit =>
      cases hcommit with
      | replayed => exact hi
      | unreserved | charged | refused => exact AList.mem_update.mpr hi

theorem step_mem_files {c : Cmd} (h : Step db c db') {j : Uuid} (hj : j ∈ db.files) :
    j ∈ db'.files := by
  cases h with
  | idle | sessions | uploadCreated | multipartCreated | verified | failed | requeued | expired
  | quotaCreated | quotaOverwritten | quotaRevoked | platformLimitSet | limitSet => exact hj
  | edited | deleted | purged => exact AList.mem_update.mpr hj
  | appDeleted applicationId =>
      unfold Applications.deleteApp
      split
      · exact hj
      · split <;> exact hj
  | reaped now picked =>
      rw [reapOrphanReservations, reapOrphanReservationsWith_frame]
      exact hj
  | commit now fileId id _ hcommit =>
      cases hcommit with
      | replayed => exact hj
      | unreserved | charged => exact AList.mem_insert'.mpr (Or.inr hj)
      | refused => exact AList.mem_update.mpr (AList.mem_insert'.mpr (Or.inr hj))

/-- No command removes a record or gives it another reservation. -/
theorem step_keeps_record {c : Cmd} (h : Step db c db') {i : Uuid} {row : IngestionRecord}
    (hi : db.ingestions.lookup i = some row) :
    ∃ row', db'.ingestions.lookup i = some row' ∧
      row'.quotaReservationId = row.quotaReservationId := by
  have hmem : i ∈ db'.ingestions := step_mem_ingestions h (AList.mem_of_lookup hi)
  obtain ⟨row', hrow'⟩ := AList.exists_lookup_of_mem hmem
  refine ⟨row', hrow', ?_⟩
  cases step_record h hrow' with
  | kept hkept => rw [Option.some.inj (hi.symm.trans hkept)]
  | written old hold href _ _ => rw [href, Option.some.inj (hi.symm.trans hold)]
  | created _ hfresh _ _ _ _ _ _ => exact absurd (AList.mem_of_lookup hi) hfresh

/-- The records of a reachable state and the reservations they name. -/
structure Linked (db : Db) : Prop where
  balanced : db.ledger.Balanced
  reserved : ∀ i row, db.ingestions.lookup i = some row →
    ∃ rid, row.quotaReservationId = some rid ∧ rid ∈ db.ledger.reservations
  injective : ∀ i j row row', db.ingestions.lookup i = some row →
    db.ingestions.lookup j = some row' → row.quotaReservationId = row'.quotaReservationId → i = j
  filed : ∀ i row fileId, db.ingestions.lookup i = some row →
    row.fileObjectId = some fileId → fileId ∈ db.files
  closed : ∀ i row, db.ingestions.lookup i = some row →
    row.status = .committed ∨ row.status = .available →
      db.ledger.openReservation row.quotaReservationId = none

/-- Without an open reservation now there is none later: the row exists already. -/
theorem openReservation_none_effects {l l' : Ledger} (h : ReflTransGen Ledger.Effect l l')
    {rid : Uuid} (hmem : rid ∈ l.reservations) (hnone : l.openReservation (some rid) = none) :
    l'.openReservation (some rid) = none := by
  obtain ⟨r, hr⟩ := AList.exists_lookup_of_mem hmem
  have hclosed : r.status ≠ .reserved := by
    intro hopen
    rw [Ledger.openReservation_eq_some.mpr ⟨rfl, hr, hopen⟩] at hnone
    cases hnone
  exact (closed_effects h ⟨rid, r, rfl, hr, hclosed⟩).openReservation_eq_none

theorem Linked.step {c : Cmd} (hdb : Linked db) (h : Step db c db') : Linked db' := by
  have heffects := step_effects hdb.balanced h
  have href : ∀ i row', db'.ingestions.lookup i = some row' →
      (∃ row, db.ingestions.lookup i = some row ∧
        row'.quotaReservationId = row.quotaReservationId) ∨
      ∃ rid, i ∉ db.ingestions ∧ row'.quotaReservationId = some rid ∧
        rid ∉ db.ledger.reservations ∧
        ∀ j, j ∈ db'.ingestions → j ∉ db.ingestions → j = i := by
    intro i row' hi
    cases step_record h hi with
    | kept hrow => exact Or.inl ⟨row', hrow, rfl⟩
    | written row hrow hq _ _ => exact Or.inl ⟨row, hrow, hq⟩
    | created rid hfresh _ _ hq hnew _ honly => exact Or.inr ⟨rid, hfresh, hq, hnew, honly⟩
  refine ⟨balanced_effects heffects hdb.balanced, ?_, ?_, ?_, ?_⟩
  · intro i row' hi
    cases step_record h hi with
    | kept hrow =>
        obtain ⟨rid, hq, hmem⟩ := hdb.reserved i row' hrow
        exact ⟨rid, hq, mem_reservations_effects heffects hmem⟩
    | written row hrow hq _ _ =>
        obtain ⟨rid, hq', hmem⟩ := hdb.reserved i row hrow
        exact ⟨rid, hq.trans hq', mem_reservations_effects heffects hmem⟩
    | created rid _ _ _ hq _ hmem _ => exact ⟨rid, hq, hmem⟩
  · intro i j row row' hi hj heq
    rcases href i row hi with ⟨old, hold, hq⟩ | ⟨rid, -, hq, hnew, honly⟩
    · rcases href j row' hj with ⟨old', hold', hq'⟩ | ⟨rid', -, hq', hnew', -⟩
      · exact hdb.injective i j old old' hold hold' (hq ▸ hq' ▸ heq)
      · obtain ⟨rid, hrid, hmem⟩ := hdb.reserved i old hold
        have hsame : rid = rid' := by
          rw [← Option.some.injEq, ← hrid, ← hq, heq, hq']
        exact absurd (hsame ▸ hmem) hnew'
    · rcases href j row' hj with ⟨old', hold', hq'⟩ | ⟨-, hfresh', -⟩
      · obtain ⟨rid', hrid, hmem⟩ := hdb.reserved j old' hold'
        have hsame : rid' = rid := by
          rw [← Option.some.injEq, ← hrid, ← hq', ← heq, hq]
        exact absurd (hsame ▸ hmem) hnew
      · exact (honly j (AList.mem_of_lookup hj) hfresh').symm
  · intro i row' fileId hi hfile
    cases step_record h hi with
    | kept hrow => exact step_mem_files h (hdb.filed i row' fileId hrow hfile)
    | written row hrow _ hfiles _ =>
        rcases hfiles with hsame | ⟨now, fileId', -, hnew, hmem⟩
        · exact step_mem_files h (hdb.filed i row fileId hrow (hsame ▸ hfile))
        · rwa [Option.some.inj (hfile.symm.trans hnew)]
    | created _ _ _ hnone _ _ _ _ =>
        rw [hnone] at hfile
        cases hfile
  · intro i row' hi hstatus
    cases step_record h hi with
    | kept hrow =>
        obtain ⟨rid, hq, hmem⟩ := hdb.reserved i row' hrow
        have hnone := hdb.closed i row' hrow hstatus
        rw [hq] at hnone ⊢
        exact openReservation_none_effects heffects hmem hnone
    | written _ _ _ _ hclosed => exact hclosed hstatus
    | created _ _ hinitiated _ _ _ _ _ =>
        rw [hinitiated] at hstatus
        simp at hstatus

theorem Linked.exec (hdb : Linked db) {c : Cmd} (h : exec c db = .ok db') : Linked db' :=
  hdb.step (exec_step h)

theorem linked_run (hdb : Linked db) (cs : List Cmd) : Linked (run exec db cs) :=
  run_preserves (fun _ _ _ hs hok ↦ hs.exec hok) hdb cs

/-- A tenant no upload has been accepted for yet. -/
theorem linked_of_unreserved (h : Unreserved db) (hempty : db.ingestions = ∅) : Linked db where
  balanced := h.balanced
  reserved := by simp [hempty]
  injective := by simp [hempty]
  filed := by simp [hempty]
  closed := by simp [hempty]

/-! ## Closing without charge -/

/-- The ledger is left as it is, or with an open reservation closed without charge. -/
inductive Closes (now : Timestamp) (l : Ledger) : Ledger → Prop
  | nothing : Closes now l l
  | closed (id : Uuid) (r : QuotaReservation) (status : ReservationStatus)
      (hid : l.reservations.lookup id = some r) (hopen : r.status = .reserved)
      (hstatus : status ≠ .reserved) (hcharge : status ≠ .settled) :
      Closes now l (l.close Quota.subReserved status now id r)

/-- The reaper's branch for committed records is never taken with an open reservation. -/
theorem reapReservation_closes (hdb : Linked db) (now : Timestamp) (id : Uuid) :
    Closes now db.ledger (reapReservation Quota.subReservedClamped now id db).ledger := by
  rw [reapReservation_unclamped hdb.balanced]
  unfold reapReservation
  split
  · exact .nothing
  · rename_i j r hopen
    obtain ⟨hj, hid, hstatus⟩ := Ledger.openReservation_eq_some.mp hopen
    obtain rfl := Option.some.inj hj
    split
    · exact .closed id r .quarantined hid hstatus (by decide) (by decide)
    · rename_i i ingestion hfirst
      obtain ⟨hi, href⟩ := AList.lookup_of_selectFirst hfirst
      split
      · rename_i hcommitted
        have hnone := hdb.closed i ingestion hi (by simpa using hcommitted)
        rw [of_decide_eq_true href, hopen] at hnone
        cases hnone
      · split
        · exact .nothing
        · exact .closed id r .released hid hstatus (by decide) (by decide)

/-- Rule for the reaper: what each closing keeps, the whole loop keeps. -/
theorem reap_preserves {I : Db → Prop} {now : Timestamp}
    (hstep : ∀ s l', Linked s → I s → Closes now s.ledger l' → I { s with ledger := l' })
    (picked : List Uuid) (hdb : Linked db) (hI : I db) :
    I (reapOrphanReservations now picked db) := by
  induction picked generalizing db with
  | nil => exact hI
  | cons id picked ih =>
      have hone : Linked (reapOrphanReservations now [id] db) := hdb.step (.reaped now [id])
      refine ih hone ?_
      have hclose := hstep db _ hdb hI (reapReservation_closes hdb now id)
      rwa [← reapReservation_frame] at hclose

theorem releaseQuotaReservation_closes (now : Timestamp) (row : IngestionRecord) (l : Ledger) :
    Closes now l (releaseQuotaReservation now row l) := by
  unfold releaseQuotaReservation
  split
  · exact .nothing
  · rename_i id r hopen
    obtain ⟨-, hid, hstatus⟩ := Ledger.openReservation_eq_some.mp hopen
    exact .closed id r .released hid hstatus (by decide) (by decide)

end S3mp
