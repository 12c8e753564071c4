import S3mp.Platform.System

/-!
# The states of an ingestion record

Ten transactions write the status of a record, one of them the file it names.
Every one of them moves the status along the table of valid transitions.  A
commit, however, does not look at the file the record names already, and the
table leads back to it from `reconciliation_required`.
-/

namespace S3mp

open Relational Files Governance Applications Platform Transition

variable {db db' : Db} {t t' : Tenant} {i : Uuid} {row' : IngestionRecord}

/-- The status is written along the table of valid transitions. -/
def ValidChange (before after : IngestionStatus) : Prop :=
  after = before ∨ after ∈ validTransitions before

/-- What a command makes of the record `i`. -/
inductive RecordMove (t t' : Tenant) (c : TenantCmd) (i : Uuid) (row' : IngestionRecord) : Prop
  | kept (hrow : t.db.ingestions.lookup i = some row') : RecordMove t t' c i row'
  | created (hfresh : i ∉ t.db.ingestions) (hstatus : row'.status = .initiated)
      (hfile : row'.fileObjectId = none) : RecordMove t t' c i row'
  | moved (row : IngestionRecord) (hrow : t.db.ingestions.lookup i = some row)
      (hvalid : ValidChange row.status row'.status) (hstatus : row'.status ≠ .committed)
      (hfile : row'.fileObjectId = row.fileObjectId) : RecordMove t t' c i row'
  | filed (now : Timestamp) (fileId : Uuid) (row : IngestionRecord)
      (hc : c = .operation (.other (.commitVerifiedFile now fileId i)))
      (hready : CommitReady fileId i row t.db) (hvalid : ValidChange row.status row'.status)
      (hfile : row'.fileObjectId = some fileId) (hmem : fileId ∈ t'.db.files) :
      RecordMove t t' c i row'

/-- The commit is accepted from `verified` or `reconciliation_required`, and a refusal leaves
the record in the second of them. -/
theorem validChange_refused {status : IngestionStatus}
    (h : IngestionStatus.committed ∈ validTransitions status) :
    ValidChange status .reconciliationRequired := by
  revert h
  unfold ValidChange
  cases status <;> decide

theorem recordMove_of_put {c : TenantCmd} {id : Uuid} {row : IngestionRecord}
    (new : IngestionRecord) (hrow : t.db.ingestions.lookup id = some row)
    (hput : t'.db.ingestions = t.db.ingestions.update id fun _ ↦ new)
    (hnew : RecordMove t t' c id new) (h : t'.db.ingestions.lookup i = some row') :
    RecordMove t t' c i row' := by
  rw [hput, AList.lookup_update] at h
  split at h
  · rename_i hi
    subst hi
    rw [hrow, Option.map_some, Option.some.injEq] at h
    subst h
    exact hnew
  · exact .kept h

theorem recordMove_of_intent {c : TenantCmd} {ids : IntentIds} {record : IngestionRecord}
    (hfresh : ids.ingestion ∉ t.db.ingestions) (hstatus : record.status = .initiated)
    (hfile : record.fileObjectId = none)
    (hput : t'.db.ingestions = t.db.ingestions.insert ids.ingestion record)
    (h : t'.db.ingestions.lookup i = some row') : RecordMove t t' c i row' := by
  rw [hput, AList.lookup_insert'] at h
  split at h
  · rename_i hi
    cases h
    subst hi
    exact .created hfresh hstatus hfile
  · exact .kept h

theorem stored_recordMove {c : Cmd} (h : Step t.db c t'.db)
    (hi : t'.db.ingestions.lookup i = some row') :
    RecordMove t t' (.operation (.other c)) i row' := by
  generalize hdb : t'.db = db' at h
  cases h with
  | idle | sessions | edited | deleted | purged | quotaCreated | quotaOverwritten | quotaRevoked
  | platformLimitSet | limitSet =>
      rw [hdb] at hi
      exact .kept hi
  | appDeleted applicationId =>
      refine .kept (Eq.trans ?_ hi)
      rw [hdb]
      unfold Applications.deleteApp
      split
      · rfl
      · split <;> rfl
  | reaped now picked =>
      rw [hdb, reapOrphanReservations, reapOrphanReservationsWith_frame] at hi
      exact .kept hi
  | uploadCreated ids session data ledger hsession hrecord hheld =>
      exact recordMove_of_intent hrecord rfl rfl (congrArg Db.ingestions hdb) hi
  | multipartCreated ids session data ledger hsession hrecord hheld =>
      exact recordMove_of_intent hrecord rfl rfl (congrArg Db.ingestions hdb) hi
  | verified id result row hrow hvalid =>
      exact recordMove_of_put (row.verifiedAs result) hrow (congrArg Db.ingestions hdb)
        (.moved row hrow (Or.inr hvalid) (by simp [IngestionRecord.verifiedAs]) rfl) hi
  | failed now id reason row hrow hvalid =>
      exact recordMove_of_put { row with status := .failed } hrow (congrArg Db.ingestions hdb)
        (.moved row hrow (Or.inr hvalid) (by simp) rfl) hi
  | requeued now id reason row hrow hvalid =>
      exact recordMove_of_put { row with status := .reconciliationRequired } hrow
        (congrArg Db.ingestions hdb)
        (.moved row hrow (hvalid.imp_left Eq.symm) (by simp) rfl) hi
  | expired now id row hrow hvalid =>
      exact recordMove_of_put { row with status := .expired } hrow (congrArg Db.ingestions hdb)
        (.moved row hrow (Or.inr hvalid) (by simp) rfl) hi
  | commit now fileId id _ hcommit =>
      cases hcommit with
      | replayed =>
          rw [hdb] at hi
          exact .kept hi
      | unreserved row hready hnone =>
          have hmem : fileId ∈ t'.db.files := hdb ▸ AList.mem_insert'.mpr (Or.inl rfl)
          exact recordMove_of_put (row.committedAs fileId now) hready.found
            (congrArg Db.ingestions hdb)
            (.filed now fileId row rfl hready (Or.inr hready.valid) rfl hmem) hi
      | charged row hready rid r hopen hfits =>
          have hmem : fileId ∈ t'.db.files := hdb ▸ AList.mem_insert'.mpr (Or.inl rfl)
          exact recordMove_of_put (row.committedAs fileId now) hready.found
            (congrArg Db.ingestions hdb)
            (.filed now fileId row rfl hready (Or.inr hready.valid) rfl hmem) hi
      | refused row hready rid r hopen hover =>
          have hmem : fileId ∈ t'.db.files :=
            hdb ▸ AList.mem_update.mpr (AList.mem_insert'.mpr (Or.inl rfl))
          exact recordMove_of_put
            { row.committedAs fileId now with status := .reconciliationRequired } hready.found
            (congrArg Db.ingestions hdb)
            (.filed now fileId row rfl hready (validChange_refused hready.valid) rfl hmem) hi

theorem tenantStep_record {c : TenantCmd} (h : TenantStep t t' c)
    (hi : t'.db.ingestions.lookup i = some row') : RecordMove t t' c i row' := by
  cases h with
  | idle _ hsame =>
      rw [hsame] at hi
      exact .kept hi
  | stored c hstatus h => exact stored_recordMove (exec_step h) hi
  | operated c hother hstatus h hside => exact .kept (hside.ingestions ▸ hi)
  | uploadCreated _ _ _ _ _ _ _ hdb | multipartCreated _ _ _ _ _ _ _ _ hdb
  | uploadCompleted _ _ _ _ _ _ _ _ _ hdb | multipartCompleted _ _ _ _ _ _ _ _ hdb =>
      rw [hdb] at hi
      exact .kept hi
  | appRestored _ _ _ _ _ h | switched _ _ _ h | deleted _ h | restored _ h =>
      rw [h.2] at hi
      exact .kept hi

/-! ## The file of a record -/

/-- The record's file exists; a committed record has one. -/
def Filed (t : Tenant) : Prop :=
  ∀ i row, t.db.ingestions.lookup i = some row →
    (∀ fileId, row.fileObjectId = some fileId → fileId ∈ t.db.files) ∧
      (row.status = .committed → row.fileObjectId ≠ none)

theorem Filed.step {c : TenantCmd} (ht : Filed t) (h : TenantStep t t' c) : Filed t' := by
  intro i row' hi
  cases tenantStep_record h hi with
  | kept hrow =>
      obtain ⟨hfile, hcommitted⟩ := ht i row' hrow
      exact ⟨fun fileId hid ↦ tenantStep_mem_files h (hfile fileId hid), hcommitted⟩
  | created hfresh hstatus hfile =>
      refine ⟨fun fileId hid ↦ ?_, fun hcommitted ↦ ?_⟩
      · rw [hfile] at hid
        cases hid
      · rw [hstatus] at hcommitted
        cases hcommitted
  | moved row hrow hvalid hstatus hfile =>
      refine ⟨fun fileId hid ↦ ?_, fun hcommitted ↦ absurd hcommitted hstatus⟩
      exact tenantStep_mem_files h ((ht i row hrow).1 fileId (hfile ▸ hid))
  | filed now fileId row hc hready hvalid hfile hmem =>
      refine ⟨fun fileId' hid ↦ ?_, fun _ hnone ↦ ?_⟩
      · rwa [← Option.some.inj (hfile.symm.trans hid)]
      · rw [hfile] at hnone
        cases hnone

/-- The record names a file. -/
def HasFile (t : Tenant) (id : Uuid) : Prop :=
  ∃ row fileId, t.db.ingestions.lookup id = some row ∧ row.fileObjectId = some fileId

/-- A record which names a file goes on naming one. -/
theorem HasFile.step {c : TenantCmd} (hi : HasFile t i) (h : TenantStep t t' c) : HasFile t' i := by
  obtain ⟨row, fileId, hrow, hfile⟩ := hi
  have hmem : i ∈ t'.db.ingestions := tenantStep_mem_ingestions h (AList.mem_of_lookup hrow)
  obtain ⟨row', hi⟩ := AList.exists_lookup_of_mem hmem
  cases tenantStep_record h hi with
  | kept hkept =>
      obtain rfl := Option.some.inj (hrow.symm.trans hkept)
      exact ⟨row, fileId, hi, hfile⟩
  | created hfresh hstatus hnone => exact absurd (AList.mem_of_lookup hrow) hfresh
  | moved row₀ hrow₀ hvalid hstatus hsame =>
      obtain rfl := Option.some.inj (hrow.symm.trans hrow₀)
      exact ⟨row', fileId, hi, hsame.trans hfile⟩
  | filed now fileId' row₀ hc hready hvalid hfile' hmem => exact ⟨row', fileId', hi, hfile'⟩

theorem HasFile.advance (hi : HasFile t i) (c : TenantCmd) :
    HasFile (advance tenantExec t c) i :=
  advance_preserves (I := fun s ↦ HasFile s i) hi fun _ hok ↦ hi.step (tenantExec_step hok)

namespace Sample

/-- An object of 150 bytes is quarantined by the limit of 100; the next one put through the
same URL fits, and the same record is committed again. -/
def retried : List TenantCmd :=
  [.createUploadIntent (ids 10) (session 40) (data "a"),
    .failOrQuarantine 0 12 .reconciliationRequired .providerUnavailable,
    .recordProviderResult 12 (result 150 'a'),
    .commitVerifiedFile 0 30 12,
    .recordProviderResult 12 (result 50 'b'),
    .commitVerifiedFile 0 31 12].map .stored

end Sample

end S3mp
