import S3mp.Ledger.Ceiling

/-!
# Bypassing the quota quarantine

A commit refused by the quota leaves the record in `reconciliation_required` with
its reservation released.  The reconciler may verify and commit such a record
again, and this second commit finds no open reservation: it skips the check and
charges nothing.
-/

namespace S3mp

open Relational Files Governance Transition

variable {db db' : Db}

/-- The commit of this record was refused by the quota at some time. -/
def Refused (db : Db) (id : Uuid) : Prop :=
  ∃ e ∈ db.ingestionEvents, e.ingestionRecordId = id ∧ e.reason = some .verifiedSizeExceedsQuota

/-- The transition makes the object of this record available. -/
def BecomesAvailable (db db' : Db) (id : Uuid) : Prop :=
  ∃ row fileId f, db'.ingestions.lookup id = some row ∧ row.fileObjectId = some fileId ∧
    db'.files.lookup fileId = some f ∧ f.status = .available ∧
    ∀ f₀, db.files.lookup fileId = some f₀ → f₀.status ≠ .available

/-- The transition settles the record's open reservation at the actual size, which every
named quota has room for, and adds it to the usage of each. -/
def ChargesWithinLimit (db db' : Db) (id : Uuid) : Prop :=
  ∃ row rid r, db.ingestions.lookup id = some row ∧ row.quotaReservationId = some rid ∧
    db.ledger.reservations.lookup rid = some r ∧ r.status = .reserved ∧
    (∃ r', db'.ledger.reservations.lookup rid = some r' ∧ r'.status = .settled ∧
      r'.actualBytes = some (row.actualSize.getD 0 : ℕ)) ∧
    ∀ k ∈ r.quotaIds, ∃ q q', db.ledger.quotas.lookup k = some q ∧
      db'.ledger.quotas.lookup k = some q' ∧
      q.usedBytes + row.actualSize.getD 0 ≤ q.limitBytes ∧
      q'.usedBytes = q.usedBytes + row.actualSize.getD 0

/-- Along the run, whatever makes a refused record's object available charges it. -/
def QuarantineHolds (db : Db) (cs : List Cmd) : Prop :=
  ∀ pre c post id, cs = pre ++ c :: post → Refused (run exec db pre) id →
    BecomesAvailable (run exec db pre) (advance exec (run exec db pre) c) id →
    ChargesWithinLimit (run exec db pre) (advance exec (run exec db pre) c) id

/-- The commit of a refused record is turned away by its status or by a unique index. -/
def TurnedAway (db : Db) : Cmd → Prop
  | .commitVerifiedFile _ fileId id => Refused db id → ∀ row, ¬ CommitReady fileId id row db
  | _ => True

/-! ## Refused records hold nothing -/

theorem refused_append {id i : Uuid} {eventType : IngestionEventType} {reason : Option EventReason}
    (hreason : reason ≠ some .verifiedSizeExceedsQuota)
    (h : ∃ e ∈ (⟨i, eventType, reason⟩ : IngestionEvent) :: db.ingestionEvents,
      e.ingestionRecordId = id ∧ e.reason = some .verifiedSizeExceedsQuota) : Refused db id := by
  obtain ⟨e, he, hid, hr⟩ := h
  rcases List.mem_cons.mp he with rfl | he
  · exact absurd hr hreason
  · exact ⟨e, he, hid, hr⟩

/-- Only a refusing commit refuses, and it leaves the record without an open reservation. -/
theorem step_refused {c : Cmd} (h : Step db c db') {id : Uuid} (href : Refused db' id) :
    Refused db id ∨ ∃ row, db'.ingestions.lookup id = some row ∧
      db'.ledger.Closed row.quotaReservationId := by
  cases h with
  | idle | sessions | edited | deleted | purged | quotaCreated | quotaOverwritten | quotaRevoked
  | platformLimitSet | limitSet => exact Or.inl href
  | appDeleted applicationId =>
      left
      unfold Applications.deleteApp at href
      split at href
      · exact href
      · split at href <;> exact href
  | reaped now picked =>
      rw [reapOrphanReservations, reapOrphanReservationsWith_frame] at href
      exact Or.inl href
  | uploadCreated | multipartCreated | verified | failed | requeued | expired =>
      exact Or.inl (refused_append (by simp) href)
  | commit now fileId i _ hcommit =>
      cases hcommit with
      | replayed => exact Or.inl href
      | unreserved | charged => exact Or.inl (refused_append (by simp) href)
      | refused row hready rid r hopen hover =>
          obtain ⟨e, he, hid, hr⟩ := href
          rcases List.mem_cons.mp he with rfl | he
          · obtain rfl : i = id := hid
            right
            refine ⟨{ row.committedAs fileId now with status := .reconciliationRequired }, ?_,
              closed_releaseQuotaReservation hopen⟩
            change (db.ingestions.update i _).lookup i = _
            rw [AList.lookup_update_self, hready.found]
            rfl
          · exact Or.inl ⟨e, he, hid, hr⟩

/-- The record of every refusal exists and has no open reservation. -/
def RefusedClosed (db : Db) : Prop :=
  ∀ id, Refused db id →
    ∃ row, db.ingestions.lookup id = some row ∧ db.ledger.Closed row.quotaReservationId

theorem refusedClosed_step {c : Cmd} (hdb : Linked db) (hrefused : RefusedClosed db)
    (h : Step db c db') : RefusedClosed db' := by
  intro id href
  rcases step_refused h href with hold | hnew
  · obtain ⟨row, hrow, hclosed⟩ := hrefused id hold
    obtain ⟨row', hrow', hq⟩ := step_keeps_record h hrow
    exact ⟨row', hrow', hq ▸ closed_effects (step_effects hdb.balanced h) hclosed⟩
  · exact hnew

theorem refusedClosed_run (hdb : Linked db) (hrefused : RefusedClosed db) (cs : List Cmd) :
    RefusedClosed (run exec db cs) := by
  refine And.right (run_preserves (I := fun s : Db ↦ Linked s ∧ RefusedClosed s)
    (fun _ _ _ hs hok ↦ ?_) ⟨hdb, hrefused⟩ cs)
  exact ⟨hs.1.exec hok, refusedClosed_step hs.1 hs.2 (exec_step hok)⟩

/-! ## The second commit -/

/-- Only a ready commit makes a file available. -/
theorem step_available {c : Cmd} (h : Step db c db') {j : Uuid} {f : FileObject}
    (hj : db'.files.lookup j = some f) (havailable : f.status = .available) :
    (∃ f₀, db.files.lookup j = some f₀ ∧ f₀.status = .available) ∨
      ∃ now id row, c = .commitVerifiedFile now j id ∧ CommitReady j id row db := by
  have hkept : ∀ (fileId : Uuid) (f₀ f' : FileObject), db.files.lookup fileId = some f₀ →
      (f'.status = .available → f₀.status = .available) →
      (db.files.update fileId fun _ ↦ f').lookup j = some f →
      ∃ f₀, db.files.lookup j = some f₀ ∧ f₀.status = .available := by
    intro fileId f₀ f' hf₀ hstatus hlookup
    rw [AList.lookup_update] at hlookup
    split at hlookup
    · rename_i hjf
      rw [hf₀, Option.map_some, Option.some.injEq] at hlookup
      exact ⟨f₀, hjf ▸ hf₀, hstatus (hlookup ▸ havailable)⟩
    · exact ⟨f, hlookup, havailable⟩
  cases h with
  | idle | sessions | uploadCreated | multipartCreated | verified | failed | requeued | expired
  | quotaCreated | quotaOverwritten | quotaRevoked | platformLimitSet | limitSet =>
      exact Or.inl ⟨f, hj, havailable⟩
  | appDeleted applicationId =>
      refine Or.inl ⟨f, ?_, havailable⟩
      rw [← hj]
      unfold Applications.deleteApp
      split
      · rfl
      · split <;> rfl
  | reaped now picked =>
      rw [reapOrphanReservations, reapOrphanReservationsWith_frame] at hj
      exact Or.inl ⟨f, hj, havailable⟩
  | edited c fileId f₀ f' deletions hf₀ hedit _ =>
      refine Or.inl (hkept fileId f₀ f' hf₀ (fun hstatus ↦ ?_) hj)
      cases hedit with
      | retained | migrated => cases hstatus
      | retried _ attempts retryAt status hdeleting hnext =>
          dsimp only at hstatus
          rcases hnext with h | h
          · exact absurd (h ▸ hstatus) (by decide)
          · exact absurd (h ▸ hstatus) (by decide)
      | claimed | postponed => exact hstatus
  | deleted now fileId f₀ hf₀ hdeleting =>
      exact Or.inl (hkept fileId f₀ _ hf₀ (fun hstatus ↦ by cases hstatus) hj)
  | purged now fileId f₀ hf₀ hsoft hstate =>
      exact Or.inl (hkept fileId f₀ (purgedFile now f₀) hf₀ (fun hstatus ↦ hstatus) hj)
  | commit now fileId id _ hcommit =>
      have hnew : ∀ row, CommitReady fileId id row db →
          (db.files.insert fileId (newFile row)).lookup j = some f →
          (∃ f₀, db.files.lookup j = some f₀ ∧ f₀.status = .available) ∨
            ∃ now' id' row, Cmd.commitVerifiedFile now fileId id = .commitVerifiedFile now' j id' ∧
              CommitReady j id' row db := by
        intro row hready hlookup
        rw [AList.lookup_insert'] at hlookup
        split at hlookup
        · rename_i hjf
          subst hjf
          exact Or.inr ⟨now, id, row, rfl, hready⟩
        · exact Or.inl ⟨f, hlookup, havailable⟩
      cases hcommit with
      | replayed => exact Or.inl ⟨f, hj, havailable⟩
      | unreserved row hready hnone => exact hnew row hready hj
      | charged row hready rid r hopen hfits => exact hnew row hready hj
      | refused row hready rid r hopen hover =>
          change ((db.files.insert fileId (newFile row)).update fileId _).lookup j = _ at hj
          rw [AList.lookup_update] at hj
          split at hj
          · rw [AList.lookup_insert, Option.map_some, Option.some.injEq] at hj
            rw [← hj] at havailable
            cases havailable
          · exact hnew row hready hj

/-- Only a commit of the record itself makes its object available. -/
theorem ready_of_becomesAvailable {c : Cmd} (hdb : Linked db) (h : Step db c db') {id : Uuid}
    (havailable : BecomesAvailable db db' id) :
    ∃ now fileId row, c = .commitVerifiedFile now fileId id ∧ CommitReady fileId id row db := by
  obtain ⟨row', fileId, f, hrow', hfile, hf, hstatus, hbefore⟩ := havailable
  rcases step_available h hf hstatus with ⟨f₀, hf₀, hstatus₀⟩ | ⟨now, i, row, rfl, hready⟩
  · exact absurd hstatus₀ (hbefore f₀ hf₀)
  · have hold : ∀ row, db.ingestions.lookup id = some row →
        row.fileObjectId ≠ some fileId := fun row hrow hfile ↦
      hready.fresh (hdb.filed id row fileId hrow hfile)
    cases step_record h hrow' with
    | kept hrow => exact absurd hfile (hold row' hrow)
    | written old hrow _ hfiles _ =>
        rcases hfiles with hsame | ⟨now', fileId', hc, -, -⟩
        · exact absurd (hsame ▸ hfile) (hold old hrow)
        · cases hc
          exact ⟨now, fileId, row, rfl, hready⟩
    | created _ _ _ hnone _ _ _ _ =>
        rw [hnone] at hfile
        cases hfile

/-- A ready commit without an open reservation makes the file available for nothing. -/
theorem becomesAvailable_unreserved {now : Timestamp} {fileId id : Uuid} {row : IngestionRecord}
    (hready : CommitReady fileId id row db)
    (hnone : db.ledger.openReservation row.quotaReservationId = none) :
    BecomesAvailable db (advance exec db (.commitVerifiedFile now fileId id)) id := by
  obtain ⟨row', db', hok⟩ := commitVerifiedFile_of_ready hready
  have hexec : exec (.commitVerifiedFile now fileId id) db = .ok db' :=
    exec_eq_ok.mpr ⟨row', hok⟩
  obtain rfl := (commitVerifiedFile_eq_ok hok).eq_unreserved hready hnone
  rw [advance_of_ok hexec]
  refine ⟨row.committedAs fileId now, fileId, newFile row, ?_, rfl, AList.lookup_insert _, rfl,
    fun f₀ hf₀ ↦ absurd (AList.mem_of_lookup hf₀) hready.fresh⟩
  change (db.ingestions.update id _).lookup id = _
  rw [AList.lookup_update_self, hready.found]
  rfl

theorem turnedAway_of_charges {c : Cmd} (hrefused : RefusedClosed db)
    (h : ∀ id, Refused db id → BecomesAvailable db (advance exec db c) id →
      ChargesWithinLimit db (advance exec db c) id) : TurnedAway db c := by
  cases c with
  | commitVerifiedFile now fileId id =>
      intro href row hready
      obtain ⟨row', hrow', hclosed⟩ := hrefused id href
      obtain rfl : row = row' := Option.some.inj (hready.found.symm.trans hrow')
      have hnone := hclosed.openReservation_eq_none
      obtain ⟨row'', rid, r, hrow'', hq, hr, hopen, -⟩ :=
        h id href (becomesAvailable_unreserved hready hnone)
      obtain rfl : row = row'' := Option.some.inj (hready.found.symm.trans hrow'')
      rw [Ledger.openReservation_eq_some.mpr ⟨hq, hr, hopen⟩] at hnone
      cases hnone
  | _ => trivial

theorem not_becomesAvailable {c : Cmd} (hdb : Linked db) (hc : TurnedAway db c) {id : Uuid}
    (href : Refused db id) : ¬ BecomesAvailable db (advance exec db c) id := by
  intro havailable
  cases hexec : exec c db with
  | ok db' =>
      rw [advance_of_ok hexec] at havailable
      obtain ⟨now, fileId, row, rfl, hready⟩ :=
        ready_of_becomesAvailable hdb (exec_step hexec) havailable
      exact hc href row hready
  | error e =>
      rw [advance_of_error hexec] at havailable
      obtain ⟨row, fileId, f, -, -, hf, hstatus, hbefore⟩ := havailable
      exact hbefore f hf hstatus

/-- The quarantine holds along a run exactly when every later commit of a refused record
is turned away before it reaches the settlement. -/
theorem quarantine_holds_iff (h : Unreserved db) (hempty : db.ingestions = ∅)
    (hevents : db.ingestionEvents = []) (cs : List Cmd) :
    QuarantineHolds db cs ↔ Meets exec TurnedAway db cs := by
  have hdb := linked_of_unreserved h hempty
  have hrefused : RefusedClosed db := by
    rintro id ⟨e, he, -⟩
    simp [hevents] at he
  clear h hempty hevents
  constructor
  · intro hholds
    induction cs generalizing db with
    | nil => trivial
    | cons c cs ih =>
        refine ⟨turnedAway_of_charges hrefused fun id ↦ hholds [] c cs id rfl,
          ih (linked_run hdb [c]) (refusedClosed_run hdb hrefused [c]) ?_⟩
        rintro pre c' post id rfl
        exact hholds (c :: pre) c' post id rfl
  · rintro hmeets pre c post id rfl href havailable
    obtain ⟨-, hturned, -⟩ := (meets_append exec).mp hmeets
    exact absurd havailable (not_becomesAvailable (linked_run hdb pre) hturned href)

namespace Sample

/-- An object of 150 bytes is refused by the limit of 100.  Another one of the same size,
put through the same URL, is then verified and committed. -/
def secondCommit : List Cmd :=
  [.createUploadIntent (ids 10) (session 40) (data "a"),
    .failOrQuarantine 0 12 .reconciliationRequired .providerUnavailable,
    .recordProviderResult 12 (result 150 'a'),
    .commitVerifiedFile 0 30 12,
    .recordProviderResult 12 (result 150 'b')]

end Sample

theorem quarantine_holds_iff_sample :
    QuarantineHolds Sample.tenant (Sample.secondCommit ++ [.commitVerifiedFile 0 31 12]) ↔
      Meets exec TurnedAway Sample.tenant
        (Sample.secondCommit ++ [.commitVerifiedFile 0 31 12]) :=
  quarantine_holds_iff Sample.unreserved rfl rfl _

theorem quarantine_bypassed : ¬ ∀ db, Unreserved db → db.ingestions = ∅ →
    db.ingestionEvents = [] → ∀ cs, QuarantineHolds db cs := by
  intro h
  have hholds := h Sample.tenant Sample.unreserved rfl rfl
    (Sample.secondCommit ++ [.commitVerifiedFile 0 31 12]) Sample.secondCommit _ [] 12 rfl
  have hrefused : Refused (run exec Sample.tenant Sample.secondCommit) 12 :=
    ⟨⟨12, .reconciliationStarted, some .verifiedSizeExceedsQuota⟩, by decide, rfl, rfl⟩
  have hreservation : ((run exec Sample.tenant
      Sample.secondCommit).ledger.reservations.lookup 10).map (·.status) = some .released := by
    decide
  have hrecord : ((run exec Sample.tenant Sample.secondCommit).ingestions.lookup 12).map
      (·.quotaReservationId) = some (some 10) := by decide
  have hafter : ((run exec Sample.tenant
      (Sample.secondCommit ++ [.commitVerifiedFile 0 31 12])).ingestions.lookup 12).map
        (·.fileObjectId) = some (some 31) := by decide
  have hfile : ((run exec Sample.tenant
      (Sample.secondCommit ++ [.commitVerifiedFile 0 31 12])).files.lookup 31).map
        (·.status) = some .available := by decide
  have hfresh : (run exec Sample.tenant Sample.secondCommit).files.lookup 31 = none := by decide
  obtain ⟨row', hrow', hfileId⟩ := Option.map_eq_some_iff.mp hafter
  obtain ⟨f, hf, hstatus⟩ := Option.map_eq_some_iff.mp hfile
  obtain ⟨row, rid, r, hrow, hq, hr, hopen, -⟩ := hholds hrefused
    ⟨row', 31, f, hrow', hfileId, hf, hstatus, fun f₀ hf₀ ↦ by simp [hfresh] at hf₀⟩
  rw [hrow, Option.map_some, hq, Option.some.injEq, Option.some.injEq] at hrecord
  rw [← hrecord, hr, Option.map_some, hopen] at hreservation
  cases hreservation

end S3mp
