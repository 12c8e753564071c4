import S3mp.Ledger.Records

/-!
# Every file is charged once

A commit which settles an open reservation charges the quotas the reservation
names, and the end of a deletion takes the charge back.  As long as every commit
finds its reservation open, and every release hits the quotas the file was
charged to, the usage of a quota is the content of the files charged to it.
-/

namespace S3mp

open Relational Files Governance Transition Relation

variable {db db' : Db} {l l' : Ledger}

/-! ## Charges -/

/-- The reservation has been settled into the usage of this quota. -/
def Governance.Ledger.SettledOn (l : Ledger) (rid k : Uuid) : Prop :=
  ∃ r, l.reservations.lookup rid = some r ∧ r.status = .settled ∧ k ∈ r.quotaIds

/-- The record `i` has made the file and names the reservation. -/
def Files.Names (db : Db) (i fileId rid : Uuid) : Prop :=
  ∃ row, db.ingestions.lookup i = some row ∧ row.fileObjectId = some fileId ∧
    row.quotaReservationId = some rid

def ChargedTo (db : Db) (fileId k : Uuid) : Prop :=
  ∃ i rid, Names db i fileId rid ∧ db.ledger.SettledOn rid k

/-- The record that made the file has its reservation settled at this many bytes. -/
def ChargedAt (db : Db) (fileId : Uuid) (n : ℕ) : Prop :=
  ∃ i rid r, Names db i fileId rid ∧ db.ledger.reservations.lookup rid = some r ∧
    r.status = .settled ∧ r.actualBytes = some (n : ℤ)

/-- A deletion or a purge of the file has been finalized. -/
def Files.FileObject.Released (f : FileObject) : Prop :=
  f.purgeState = some .purged ∨ (f.status = .deleted ∧ f.purgeState = some .pendingMigration)

open Classical in
/-- The bytes a file contributes to the usage of the quota `k`. -/
noncomputable def chargeOn (db : Db) (k fileId : Uuid) (f : FileObject) : ℤ :=
  if ChargedTo db fileId k ∧ ¬ f.Released then f.contentLength else 0

/-- Every available file is charged, and usage is what the charged files contain. -/
structure ChargedOnce (db : Db) : Prop where
  available : ∀ fileId f, db.files.lookup fileId = some f → f.status = .available →
    ¬ f.Released ∧ ChargedAt db fileId f.contentLength
  usage : ∀ k q, db.ledger.quotas.lookup k = some q →
    q.usedBytes = db.files.total (chargeOn db k)

/-- The quotas the release takes bytes from are those the file was charged to. -/
def ReleaseMatches (db : Db) (fileId : Uuid) (f : FileObject) : Prop :=
  ∀ k q, db.ledger.quotas.lookup k = some q → 0 < q.usedBytes → 0 < f.contentLength →
    (releasesFrom f q ↔ ChargedTo db fileId k)

/-- A commit finds its reservation open, a release matches the charge. -/
def KeepsCharge (db : Db) : Cmd → Prop
  | .commitVerifiedFile _ fileId id => ∀ row, CommitReady fileId id row db →
      db.ledger.openReservation row.quotaReservationId ≠ none
  | .finalizeFileDelete _ fileId => ∀ f, db.files.lookup fileId = some f →
      f.status = .deleting → ReleaseMatches db fileId f
  | .finalizeRetainedFilePurge _ fileId => ∀ f, db.files.lookup fileId = some f →
      f.softDeleted = true → f.purgeState = some .processing → ReleaseMatches db fileId f
  | _ => True

/-! ## The life of a file row -/

/-- The combinations of the three status columns which occur. -/
inductive Lifecycle : FileStatus → Bool → Option PurgeState → Prop
  | available : Lifecycle .available false none
  | quarantined : Lifecycle .quarantined false none
  | deleting : Lifecycle .deleting true (some .pendingMigration)
  | deleteFailed : Lifecycle .deleteFailed true (some .pendingMigration)
  | deleted : Lifecycle .deleted true (some .pendingMigration)
  | scheduled : Lifecycle .deleted true (some .scheduled)
  | processing : Lifecycle .deleted true (some .processing)
  | retryWait : Lifecycle .deleted true (some .retryWait)
  | purged : Lifecycle .deleted false (some .purged)

def Files.FileObject.Alive (f : FileObject) : Prop :=
  Lifecycle f.status f.softDeleted f.purgeState

theorem Lifecycle.deleting_inv {soft : Bool} {state : Option PurgeState}
    (h : Lifecycle .deleting soft state) : soft = true ∧ state = some .pendingMigration := by
  cases h
  exact ⟨rfl, rfl⟩

theorem Lifecycle.available_inv {soft : Bool} {state : Option PurgeState}
    (h : Lifecycle .available soft state) : soft = false ∧ state = none := by
  cases h
  exact ⟨rfl, rfl⟩

theorem Lifecycle.soft_inv {status : FileStatus} {soft : Bool} {state : PurgeState}
    (h : Lifecycle status soft (some state)) (hpending : state ≠ .pendingMigration) :
    status = .deleted := by
  cases h with
  | deleting | deleteFailed => exact absurd rfl hpending
  | deleted | scheduled | processing | retryWait | purged => rfl

/-- What an edit keeps of a row: its content, its charge and a legal combination. -/
theorem FileEdit.spec {f f' : FileObject} (h : FileEdit f f') (hf : f.Alive) :
    f'.Alive ∧ ¬ f.Released ∧ ¬ f'.Released ∧ f'.contentLength = f.contentLength ∧
      f'.status ≠ .available ∧ f.status ≠ .quarantined := by
  unfold FileObject.Alive at hf
  cases h with
  | retained now data _ hstatus hsoft hfree =>
      rw [hstatus] at hf
      obtain ⟨-, hstate⟩ := hf.available_inv
      refine ⟨.deleting, ?_, ?_, rfl, by simp [FileObject.retained], by simp [hstatus]⟩
      · simp [FileObject.Released, hstate]
      · simp [FileObject.Released, FileObject.retained]
  | migrated _ key hstatus hsoft =>
      rw [hstatus] at hf
      obtain ⟨-, hstate⟩ := hf.deleting_inv
      refine ⟨?_, ?_, ?_, rfl, by simp, by simp [hstatus]⟩
      · simpa [FileObject.Alive, hsoft] using Lifecycle.scheduled
      · simp [FileObject.Released, hstate, hstatus]
      · simp [FileObject.Released]
  | retried _ attempts retryAt status hstatus hnext =>
      rw [hstatus] at hf
      obtain ⟨hsoft, hstate⟩ := hf.deleting_inv
      rcases hnext with rfl | rfl
      · refine ⟨?_, ?_, ?_, rfl, by simp, by simp [hstatus]⟩
        · simpa [FileObject.Alive, hsoft, hstate] using Lifecycle.deleting
        · simp [FileObject.Released, hstate, hstatus]
        · simp [FileObject.Released, hstate]
      · refine ⟨?_, ?_, ?_, rfl, by simp, by simp [hstatus]⟩
        · simpa [FileObject.Alive, hsoft, hstate] using Lifecycle.deleteFailed
        · simp [FileObject.Released, hstate, hstatus]
        · simp [FileObject.Released, hstate]
  | claimed _ hsoft hstate =>
      have hdeleted : f.status = .deleted := by
        rcases hstate with hstate | hstate
        · rw [hstate] at hf
          exact hf.soft_inv (by decide)
        · rw [hstate] at hf
          exact hf.soft_inv (by decide)
      refine ⟨?_, ?_, ?_, rfl, by simp [hdeleted], by simp [hdeleted]⟩
      · simpa [FileObject.Alive, hsoft, hdeleted] using Lifecycle.processing
      · rcases hstate with hstate | hstate <;> simp [FileObject.Released, hstate]
      · simp [FileObject.Released]
  | postponed _ retryAt hsoft hstate =>
      rw [hstate] at hf
      have hdeleted := hf.soft_inv (by decide)
      refine ⟨?_, ?_, ?_, rfl, by simp [hdeleted], by simp [hdeleted]⟩
      · simpa [FileObject.Alive, hsoft, hdeleted] using Lifecycle.retryWait
      · simp [FileObject.Released, hstate]
      · simp [FileObject.Released]

/-! ## What moves charges -/

/-- No charge is made or taken back between the two ledgers. -/
structure Governance.Ledger.Unmoved (l l' : Ledger) : Prop where
  settled : ∀ rid k, l'.SettledOn rid k ↔ l.SettledOn rid k
  used : ∀ k q', l'.quotas.lookup k = some q' →
    (∃ q, l.quotas.lookup k = some q ∧ q'.usedBytes = q.usedBytes) ∨
      (k ∉ l.quotas ∧ q'.usedBytes = 0)
  adjustments : l'.adjustments = l.adjustments

theorem Governance.Ledger.Unmoved.refl (l : Ledger) : l.Unmoved l :=
  ⟨fun _ _ ↦ Iff.rfl, fun _ q hq ↦ Or.inl ⟨q, hq, rfl⟩, rfl⟩

theorem Governance.Ledger.Unmoved.trans {l'' : Ledger} (h : l.Unmoved l') (h' : l'.Unmoved l'')
    (hkeep : ∀ k, k ∈ l.quotas → k ∈ l'.quotas) : l.Unmoved l'' := by
  refine ⟨fun rid k ↦ (h'.settled rid k).trans (h.settled rid k), fun k q'' hq'' ↦ ?_,
    h'.adjustments.trans h.adjustments⟩
  rcases h'.used k q'' hq'' with ⟨q', hq', hsame'⟩ | ⟨hnew, hzero⟩
  · rcases h.used k q' hq' with ⟨q, hq, hsame⟩ | ⟨hnew, hzero⟩
    · exact Or.inl ⟨q, hq, hsame'.trans hsame⟩
    · exact Or.inr ⟨hnew, hsame'.trans hzero⟩
  · exact Or.inr ⟨fun hk ↦ hnew (hkeep k hk), hzero⟩

/-- Quota rows rewritten without touching their usage. -/
theorem unmoved_of_lookup {g : Uuid → Quota → Quota} (hres : l'.reservations = l.reservations)
    (hadj : l'.adjustments = l.adjustments)
    (hlookup : ∀ k, l'.quotas.lookup k = (l.quotas.lookup k).map (g k))
    (hg : ∀ k q, (g k q).usedBytes = q.usedBytes) : l.Unmoved l' := by
  refine ⟨fun rid k ↦ by simp only [Ledger.SettledOn, hres], fun k q' hq' ↦ ?_, hadj⟩
  rw [hlookup, Option.map_eq_some_iff] at hq'
  obtain ⟨q, hq, rfl⟩ := hq'
  exact Or.inl ⟨q, hq, hg k q⟩

theorem unmoved_update {id : Uuid} {f : Quota → Quota}
    (hf : ∀ q, (f q).usedBytes = q.usedBytes) :
    l.Unmoved { l with quotas := l.quotas.update id f } := by
  refine unmoved_of_lookup (g := fun k q ↦ if k = id then f q else q) rfl rfl (fun k ↦ ?_)
    fun k q ↦ ?_
  · by_cases hk : k = id
    · subst hk
      simp
    · simp [hk, AList.lookup_update_of_ne hk]
  · split
    · exact hf q
    · rfl

/-- Quotas and one reservation rewritten: usage stays, the reservation is not settled
before or after. -/
theorem unmoved_of_reservation {id : Uuid} {ids : List Uuid} {f : Quota → Quota}
    {reservations : Table Uuid QuotaReservation}
    (hf : ∀ q, (f q).usedBytes = q.usedBytes)
    (hoff : ∀ j, j ≠ id → reservations.lookup j = l.reservations.lookup j)
    (hbefore : ∀ r, l.reservations.lookup id = some r → r.status ≠ .settled)
    (hafter : ∀ r, reservations.lookup id = some r → r.status ≠ .settled) :
    l.Unmoved { l.updateQuotas ids f with reservations } := by
  refine ⟨fun rid k ↦ ?_, fun k q' hq' ↦ ?_, rfl⟩
  · by_cases hid : rid = id
    · subst hid
      constructor
      · rintro ⟨r, hr, hstatus, -⟩
        exact absurd hstatus (hafter r hr)
      · rintro ⟨r, hr, hstatus, -⟩
        exact absurd hstatus (hbefore r hr)
    · simp only [Ledger.SettledOn, hoff rid hid]
  · change (l.updateQuotas ids f).quotas.lookup k = some q' at hq'
    rw [Ledger.lookup_updateQuotas, Option.map_eq_some_iff] at hq'
    obtain ⟨q, hq, rfl⟩ := hq'
    refine Or.inl ⟨q, hq, ?_⟩
    split
    · exact hf q
    · rfl

theorem unmoved_held {fresh id : Uuid} {n : ℤ} (h : Held l fresh n id l') : l.Unmoved l' := by
  obtain ⟨-, r, -, hr, rfl⟩ := h
  refine unmoved_of_reservation (fun _ ↦ rfl)
    (fun j hj ↦ AList.lookup_insert_ne hj) ?_ ?_
  · intro s hs
    exact absurd (AList.mem_of_lookup hs) hr.fresh
  · intro s hs
    rw [AList.lookup_insert, Option.some.injEq] at hs
    rw [← hs, hr.opened]
    decide

theorem unmoved_closes {now : Timestamp} (h : Closes now l l') : l.Unmoved l' := by
  cases h with
  | nothing => exact .refl l
  | closed id r status hid hopen hstatus hcharge =>
      refine unmoved_of_reservation (fun _ ↦ rfl)
        (fun j hj ↦ AList.lookup_update_of_ne hj _ _) ?_ ?_
      · intro s hs
        rw [← Option.some.inj (hid.symm.trans hs), hopen]
        decide
      · intro s hs
        rw [AList.lookup_update_self, hid] at hs
        rw [← Option.some.inj hs]
        exact hcharge

theorem mem_quotas_closes {now : Timestamp} (h : Closes now l l') {k : Uuid} :
    k ∈ l'.quotas ↔ k ∈ l.quotas := by
  cases h with
  | nothing => exact Iff.rfl
  | closed => exact Ledger.mem_updateQuotas

theorem unmoved_insert {id : Uuid} {q : Quota} (hfresh : id ∉ l.quotas) (hq : q.usedBytes = 0) :
    l.Unmoved { l with quotas := l.quotas.insert id q } := by
  refine ⟨fun _ _ ↦ Iff.rfl, fun k q' hk ↦ ?_, rfl⟩
  rw [AList.lookup_insert'] at hk
  split at hk
  · rename_i hid
    cases hk
    exact Or.inr ⟨hid ▸ hfresh, hq⟩
  · exact Or.inl ⟨q', hk, rfl⟩

/-- Only a commit makes a record the maker of a file. -/
theorem step_names {c : Cmd} (h : Step db c db')
    (hc : ∀ now fileId id, c ≠ .commitVerifiedFile now fileId id) (i fileId rid : Uuid) :
    Names db' i fileId rid ↔ Names db i fileId rid := by
  constructor
  · rintro ⟨row', hrow', hfile, hq⟩
    cases step_record h hrow' with
    | kept hrow => exact ⟨row', hrow, hfile, hq⟩
    | written row hrow href hfiles _ =>
        rcases hfiles with hsame | ⟨now, fileId', hcommit, -, -⟩
        · exact ⟨row, hrow, hsame ▸ hfile, href ▸ hq⟩
        · exact absurd hcommit (hc now fileId' i)
    | created _ _ _ hnone _ _ _ _ =>
        rw [hnone] at hfile
        cases hfile
  · rintro ⟨row, hrow, hfile, hq⟩
    obtain ⟨row', hrow', hq'⟩ := step_keeps_record h hrow
    refine ⟨row', hrow', ?_, hq'.trans hq⟩
    cases step_record h hrow' with
    | kept hkept => rw [Option.some.inj (hkept.symm.trans hrow), hfile]
    | written old hold _ hfiles _ =>
        rcases hfiles with hsame | ⟨now, fileId', hcommit, -, -⟩
        · rw [hsame, Option.some.inj (hold.symm.trans hrow), hfile]
        · exact absurd hcommit (hc now fileId' i)
    | created _ hfresh _ _ _ _ _ _ => exact absurd (AList.mem_of_lookup hrow) hfresh

/-! ## The invariant -/

structure Charged (db : Db) : Prop where
  linked : Linked db
  alive : ∀ fileId f, db.files.lookup fileId = some f → f.Alive
  adjusted : ∀ reason fileId k, db.ledger.adjusted reason fileId k = true →
    ∃ f, db.files.lookup fileId = some f ∧ f.Released
  charged : ∀ fileId f, db.files.lookup fileId = some f → f.status ≠ .quarantined →
    ChargedAt db fileId f.contentLength
  usage : ∀ k q, db.ledger.quotas.lookup k = some q →
    q.usedBytes = db.files.total (chargeOn db k)

theorem Charged.once (h : Charged db) : ChargedOnce db := by
  refine ⟨fun fileId f hf hstatus ↦ ⟨?_, h.charged fileId f hf (by simp [hstatus])⟩, h.usage⟩
  have hlife := h.alive fileId f hf
  rw [FileObject.Alive, hstatus] at hlife
  simp [FileObject.Released, hlife.available_inv.2, hstatus]

theorem ChargedTo.mem_quotas (h : Linked db) {fileId k : Uuid} (hcharge : ChargedTo db fileId k) :
    k ∈ db.ledger.quotas := by
  obtain ⟨-, rid, -, r, hr, -, hk⟩ := hcharge
  exact h.balanced.named rid r hr k hk

theorem chargeOn_nonneg (k fileId : Uuid) (f : FileObject) : 0 ≤ chargeOn db k fileId f := by
  unfold chargeOn
  split
  · exact Int.natCast_nonneg _
  · exact le_rfl

theorem chargeOn_of_charged {k fileId : Uuid} {f : FileObject} (hcharge : ChargedTo db fileId k)
    (hf : ¬ f.Released) : chargeOn db k fileId f = f.contentLength := by
  simp [chargeOn, hcharge, hf]

theorem chargeOn_of_not_charged {k fileId : Uuid} (hcharge : ¬ ChargedTo db fileId k)
    (f : FileObject) : chargeOn db k fileId f = 0 := by
  simp [chargeOn, hcharge]

theorem chargeOn_of_released {k : Uuid} {f : FileObject} (hf : f.Released) (fileId : Uuid) :
    chargeOn db k fileId f = 0 := by
  simp [chargeOn, hf]

theorem chargeOn_congr {k fileId : Uuid} {f f' : FileObject}
    (hcharge : ChargedTo db' fileId k ↔ ChargedTo db fileId k)
    (hreleased : f'.Released ↔ f.Released) (hlength : f'.contentLength = f.contentLength) :
    chargeOn db' k fileId f' = chargeOn db k fileId f := by
  by_cases hold : ChargedTo db fileId k
  · by_cases hf : f.Released
    · rw [chargeOn_of_released hf, chargeOn_of_released (hreleased.mpr hf)]
    · rw [chargeOn_of_charged hold hf,
        chargeOn_of_charged (hcharge.mpr hold) (mt hreleased.mp hf), hlength]
  · rw [chargeOn_of_not_charged hold, chargeOn_of_not_charged (mt hcharge.mp hold)]

theorem chargedAt_step {c : Cmd} (hdb : Linked db) (h : Step db c db') {i fileId rid : Uuid}
    {n : ℕ} {r : QuotaReservation} (hnames : Names db' i fileId rid)
    (hr : db.ledger.reservations.lookup rid = some r) (hstatus : r.status = .settled)
    (hactual : r.actualBytes = some (n : ℤ)) : ChargedAt db' fileId n :=
  ⟨i, rid, r, hnames, frozen_effects (step_effects hdb.balanced h) hr (by simp [hstatus]),
    hstatus, hactual⟩

/-- The row stays, or is edited by the deletion pipeline. -/
def FilesKept (files files' : Table Uuid FileObject) : Prop :=
  ∀ fileId, files'.lookup fileId = files.lookup fileId ∨
    ∃ f f', files.lookup fileId = some f ∧ files'.lookup fileId = some f' ∧ FileEdit f f'

/-- A step which moves no charge keeps the invariant. -/
theorem Charged.quiet {c : Cmd} (hdb : Charged db) (h : Step db c db')
    (hnames : ∀ i fileId rid, Names db' i fileId rid ↔ Names db i fileId rid)
    (hledger : db.ledger.Unmoved db'.ledger) (hfiles : FilesKept db.files db'.files) :
    Charged db' := by
  have hcharge : ∀ fileId k, ChargedTo db' fileId k ↔ ChargedTo db fileId k := by
    intro fileId k
    simp only [ChargedTo, hnames, hledger.settled]
  refine ⟨hdb.linked.step h, fun fileId f' hf' ↦ ?_, fun reason fileId k hadj ↦ ?_,
    fun fileId f' hf' hstatus ↦ ?_, fun k q' hq' ↦ ?_⟩
  · rcases hfiles fileId with hsame | ⟨f, f'', hf, hf'', hedit⟩
    · exact hdb.alive fileId f' (hsame ▸ hf')
    · obtain rfl : f'' = f' := Option.some.inj (hf''.symm.trans hf')
      exact (hedit.spec (hdb.alive fileId f hf)).1
  · have hold : db.ledger.adjusted reason fileId k = true := by
      rwa [Ledger.adjusted, hledger.adjustments] at hadj
    obtain ⟨f, hf, hreleased⟩ := hdb.adjusted reason fileId k hold
    rcases hfiles fileId with hsame | ⟨f₀, f', hf₀, -, hedit⟩
    · exact ⟨f, hsame ▸ hf, hreleased⟩
    · obtain rfl : f₀ = f := Option.some.inj (hf₀.symm.trans hf)
      exact absurd hreleased (hedit.spec (hdb.alive fileId f₀ hf)).2.1
  · have hold : ChargedAt db fileId f'.contentLength := by
      rcases hfiles fileId with hsame | ⟨f, f'', hf, hf'', hedit⟩
      · exact hdb.charged fileId f' (hsame ▸ hf') hstatus
      · obtain rfl : f'' = f' := Option.some.inj (hf''.symm.trans hf')
        obtain ⟨-, -, -, hlength, -, hquarantined⟩ := hedit.spec (hdb.alive fileId f hf)
        exact hlength ▸ hdb.charged fileId f hf hquarantined
    obtain ⟨i, rid, r, hn, hr, hsettled, hactual⟩ := hold
    exact chargedAt_step hdb.linked h ((hnames i fileId rid).mpr hn) hr hsettled hactual
  · have htotal : db'.files.total (chargeOn db' k) = db.files.total (chargeOn db k) := by
      refine AList.total_congr fun fileId ↦ ?_
      rcases hfiles fileId with hsame | ⟨f, f', hf, hf', hedit⟩
      · unfold AList.weightAt
        rw [hsame]
        cases db.files.lookup fileId with
        | none => rfl
        | some f => exact chargeOn_congr (hcharge fileId k) Iff.rfl rfl
      · obtain ⟨-, hreleased, hreleased', hlength, -, -⟩ := hedit.spec (hdb.alive fileId f hf)
        rw [AList.weightAt_of_lookup hf, AList.weightAt_of_lookup hf']
        exact chargeOn_congr (hcharge fileId k) (iff_of_false hreleased' hreleased) hlength
    rw [htotal]
    rcases hledger.used k q' hq' with ⟨q, hq, hsame⟩ | ⟨hnew, hzero⟩
    · rw [hsame, hdb.usage k q hq]
    · rw [hzero, AList.total_eq_zero]
      intro fileId f _
      have huncharged : ¬ ChargedTo db fileId k := fun hcharge ↦
        hnew (hcharge.mem_quotas hdb.linked)
      simp [chargeOn, huncharged]

/-! ## Releases -/

/-- A release which matches the charge takes exactly the charge back. -/
theorem Charged.release {c : Cmd} {reason : AdjustmentReason} {fileId : Uuid}
    {f f' : FileObject} (hdb : Charged db)
    (h : Step db c (releasedDb reason fileId f f' db))
    (hc : ∀ now fileId id, c ≠ .commitVerifiedFile now fileId id)
    (hf : db.files.lookup fileId = some f) (hunreleased : ¬ f.Released) (hreleased : f'.Released)
    (halive : f'.Alive) (hlength : f'.contentLength = f.contentLength)
    (hquarantined : f.status ≠ .quarantined) (hmatch : ReleaseMatches db fileId f) :
    Charged (releasedDb reason fileId f f' db) := by
  have hnames := step_names h hc
  have hres : (releasedDb reason fileId f f' db).ledger.reservations = db.ledger.reservations :=
    reservations_releaseUsage
  have hcharge : ∀ j k, ChargedTo (releasedDb reason fileId f f' db) j k ↔ ChargedTo db j k := by
    intro j k
    simp only [ChargedTo, hnames, Ledger.SettledOn, hres]
  have hlookup : ∀ j, (releasedDb reason fileId f f' db).files.lookup j =
      if j = fileId then some f' else db.files.lookup j := by
    intro j
    simp only [releasedDb, AList.lookup_update, hf, Option.map_some]
  refine ⟨hdb.linked.step h, fun j g hg ↦ ?_, fun reason' j k hadj ↦ ?_,
    fun j g hg hstatus ↦ ?_, fun k q' hq' ↦ ?_⟩
  · rw [hlookup] at hg
    split at hg
    · cases hg
      exact halive
    · exact hdb.alive j g hg
  · rcases adjusted_releaseUsage hadj with hold | ⟨-, rfl⟩
    · obtain ⟨g, hg, hg'⟩ := hdb.adjusted reason' j k hold
      by_cases hj : j = fileId
      · exact ⟨f', by rw [hlookup, if_pos hj], hreleased⟩
      · exact ⟨g, by rw [hlookup, if_neg hj, hg], hg'⟩
    · exact ⟨f', by rw [hlookup, if_pos rfl], hreleased⟩
  · have hold : ChargedAt db j g.contentLength := by
      rw [hlookup] at hg
      split at hg
      · rename_i hj
        cases hg
        exact hj ▸ hlength ▸ hdb.charged fileId f hf hquarantined
      · exact hdb.charged j g hg hstatus
    obtain ⟨i, rid, r, hn, hr, hsettled, hactual⟩ := hold
    exact chargedAt_step hdb.linked h ((hnames i j rid).mpr hn) hr hsettled hactual
  · have hnotyet : db.ledger.adjusted reason fileId k = false := by
      rw [← Bool.not_eq_true]
      intro hadj
      obtain ⟨g, hg, hg'⟩ := hdb.adjusted reason fileId k hadj
      exact hunreleased (Option.some.inj (hf.symm.trans hg) ▸ hg')
    have hweights : chargeOn (releasedDb reason fileId f f' db) k = chargeOn db k := by
      funext j g
      exact chargeOn_congr (hcharge j k) Iff.rfl rfl
    have htotal : (releasedDb reason fileId f f' db).files.total (chargeOn db k) =
        db.files.total (chargeOn db k) - chargeOn db k fileId f + chargeOn db k fileId f' :=
      AList.total_update hf
    have hle : chargeOn db k fileId f ≤ db.files.total (chargeOn db k) :=
      AList.le_total (fun j g _ ↦ chargeOn_nonneg k j g) hf
    change (releaseUsage reason fileId f db.ledger).quotas.lookup k = some q' at hq'
    rw [lookup_releaseUsage, Option.map_eq_some_iff] at hq'
    obtain ⟨q, hq, rfl⟩ := hq'
    rw [hweights, htotal, chargeOn_of_released hreleased, ← hdb.usage k q hq]
    rw [← hdb.usage k q hq] at hle
    have hiff := hmatch k q hq
    by_cases hcharged : ChargedTo db fileId k
    · rw [chargeOn_of_charged hcharged hunreleased] at hle ⊢
      rw [iff_true_right hcharged] at hiff
      split
      · simp only [Quota.subUsed]
        omega
      · rename_i hnot
        have hzero : ¬ (0 < q.usedBytes ∧ 0 < f.contentLength) := fun hpos ↦
          hnot ⟨hiff hpos.1 hpos.2, hnotyet⟩
        omega
    · rw [chargeOn_of_not_charged hcharged] at hle ⊢
      rw [iff_false_right hcharged] at hiff
      split
      · rename_i hfrom
        have hzero : ¬ (0 < q.usedBytes ∧ 0 < f.contentLength) := fun hpos ↦
          hiff hpos.1 hpos.2 hfrom.1
        simp only [Quota.subUsed]
        omega
      · omega

/-! ## Commits -/

theorem names_update {id fileId : Uuid} {row new : IngestionRecord}
    (hrow : db.ingestions.lookup id = some row)
    (hput : db'.ingestions = db.ingestions.update id fun _ ↦ new)
    (hfile : new.fileObjectId = some fileId)
    (href : new.quotaReservationId = row.quotaReservationId) (i j rid : Uuid) :
    Names db' i j rid ↔ (i ≠ id ∧ Names db i j rid) ∨
      (i = id ∧ j = fileId ∧ row.quotaReservationId = some rid) := by
  unfold Names
  rw [hput]
  by_cases hi : i = id
  · subst hi
    simp [hrow, hfile, href, eq_comm]
  · simp [hi, AList.lookup_update_of_ne hi]

/-- The record of an open reservation has charged nothing so far. -/
theorem not_settledOn_of_open {ref : Option Uuid} {rid : Uuid} {r : QuotaReservation}
    (hopen : l.openReservation ref = some (rid, r)) (k : Uuid) : ¬ l.SettledOn rid k := by
  rintro ⟨r', hr', hstatus, -⟩
  obtain ⟨-, hr, hreserved⟩ := Ledger.openReservation_eq_some.mp hopen
  rw [← Option.some.inj (hr.symm.trans hr'), hreserved] at hstatus
  cases hstatus

/-- What a commit which finds its reservation open does to the charges: those of other
files stay, and the new file is charged as far as the reservation has been settled. -/
theorem chargedTo_commit {id fileId rid : Uuid} {row new : IngestionRecord}
    {r : QuotaReservation} (hdb : Linked db) (hrow : db.ingestions.lookup id = some row)
    (hfresh : fileId ∉ db.files)
    (hopen : db.ledger.openReservation row.quotaReservationId = some (rid, r))
    (hput : db'.ingestions = db.ingestions.update id fun _ ↦ new)
    (hfile : new.fileObjectId = some fileId)
    (href : new.quotaReservationId = row.quotaReservationId)
    (hoff : ∀ j k, j ≠ rid → (db'.ledger.SettledOn j k ↔ db.ledger.SettledOn j k)) (j k : Uuid) :
    ChargedTo db' j k ↔
      if j = fileId then db'.ledger.SettledOn rid k else ChargedTo db j k := by
  have hnames := names_update hrow hput hfile href
  obtain ⟨hrid, -, -⟩ := Ledger.openReservation_eq_some.mp hopen
  have hother : ∀ i j' rid', i ≠ id → Names db i j' rid' → rid' ≠ rid := by
    rintro i j' rid' hi ⟨row', hrow', -, hq⟩ rfl
    exact hi (hdb.injective i id row' row hrow' hrow (hq.trans hrid.symm))
  by_cases hj : j = fileId
  · subst hj
    rw [if_pos rfl]
    constructor
    · rintro ⟨i, rid', hn, hsettled⟩
      rcases (hnames i j rid').mp hn with ⟨-, row', hrow', hfile', -⟩ | ⟨-, -, hq⟩
      · exact absurd (hdb.filed i row' j hrow' hfile') hfresh
      · rwa [← Option.some.inj (hrid.symm.trans hq)] at hsettled
    · intro hsettled
      exact ⟨id, rid, (hnames id j rid).mpr (Or.inr ⟨rfl, rfl, hrid⟩), hsettled⟩
  · rw [if_neg hj]
    constructor
    · rintro ⟨i, rid', hn, hsettled⟩
      rcases (hnames i j rid').mp hn with ⟨hi, hold⟩ | ⟨-, heq, -⟩
      · exact ⟨i, rid', hold, (hoff rid' k (hother i j rid' hi hold)).mp hsettled⟩
      · exact absurd heq hj
    · rintro ⟨i, rid', hold, hsettled⟩
      have hi : i ≠ id := by
        rintro rfl
        obtain ⟨row', hrow', -, hq⟩ := hold
        rw [← Option.some.inj (hrow.symm.trans hrow'), hrid, Option.some.injEq] at hq
        exact not_settledOn_of_open hopen k (hq ▸ hsettled)
      exact ⟨i, rid', (hnames i j rid').mpr (Or.inl ⟨hi, hold⟩),
        (hoff rid' k (hother i j rid' hi hold)).mpr hsettled⟩

theorem settledOn_settle {now : Timestamp} {rid : Uuid} {r : QuotaReservation} {actual : ℤ}
    (hr : l.reservations.lookup rid = some r) (k : Uuid) :
    (l.settle now rid r actual).SettledOn rid k ↔ k ∈ r.quotaIds := by
  simp only [Ledger.SettledOn, Ledger.settle, AList.lookup_update_self, hr, Option.map_some,
    Option.some.injEq, exists_eq_left', true_and]
  rfl

/-- The common part of the two commits: the table of files gains one row. -/
theorem Charged.commit {now : Timestamp} {id fileId rid : Uuid} {row new : IngestionRecord}
    {r : QuotaReservation} {f : FileObject} (hdb : Charged db)
    (h : Step db (.commitVerifiedFile now fileId id) db')
    (hready : CommitReady fileId id row db)
    (hopen : db.ledger.openReservation row.quotaReservationId = some (rid, r))
    (hput : db'.ingestions = db.ingestions.update id fun _ ↦ new)
    (hfile : new.fileObjectId = some fileId)
    (href : new.quotaReservationId = row.quotaReservationId)
    (hoff : ∀ j k, j ≠ rid → (db'.ledger.SettledOn j k ↔ db.ledger.SettledOn j k))
    (hadj : db'.ledger.adjustments = db.ledger.adjustments)
    (hfiles : ∀ j, db'.files.lookup j = if j = fileId then some f else db.files.lookup j)
    (halive : f.Alive)
    (hcharged : f.status ≠ .quarantined → ChargedAt db' fileId f.contentLength)
    (husage : ∀ k q', db'.ledger.quotas.lookup k = some q' →
      ∃ q, db.ledger.quotas.lookup k = some q ∧
        q'.usedBytes = q.usedBytes + chargeOn db' k fileId f) : Charged db' := by
  have hcharge := chargedTo_commit hdb.linked hready.found hready.fresh hopen hput hfile href hoff
  have hnames := names_update hready.found hput hfile href
  refine ⟨hdb.linked.step h, fun j g hg ↦ ?_, fun reason j k hadjusted ↦ ?_,
    fun j g hg hstatus ↦ ?_, fun k q' hq' ↦ ?_⟩
  · rw [hfiles] at hg
    split at hg
    · cases hg
      exact halive
    · exact hdb.alive j g hg
  · rw [Ledger.adjusted, hadj] at hadjusted
    obtain ⟨g, hg, hreleased⟩ := hdb.adjusted reason j k hadjusted
    have hj : j ≠ fileId := by
      rintro rfl
      exact hready.fresh (AList.mem_of_lookup hg)
    exact ⟨g, by rw [hfiles, if_neg hj, hg], hreleased⟩
  · rw [hfiles] at hg
    split at hg
    · rename_i hj
      cases hg
      exact hj ▸ hcharged hstatus
    · obtain ⟨i, rid', r', hn, hr', hsettled, hactual⟩ := hdb.charged j g hg hstatus
      have hi : i ≠ id := by
        rintro rfl
        obtain ⟨row', hrow', -, hq⟩ := hn
        rw [← Option.some.inj (hready.found.symm.trans hrow')] at hq
        obtain ⟨hrid, hr, hreserved⟩ := Ledger.openReservation_eq_some.mp hopen
        rw [hrid, Option.some.injEq] at hq
        rw [← hq, hr, Option.some.injEq] at hr'
        rw [← hr', hreserved] at hsettled
        cases hsettled
      exact chargedAt_step hdb.linked h ((hnames i j rid').mpr (Or.inl ⟨hi, hn⟩)) hr' hsettled
        hactual
  · obtain ⟨q, hq, hused⟩ := husage k q' hq'
    have hagree : ∀ j, j ≠ fileId → db'.files.weightAt (chargeOn db' k) j =
        db.files.weightAt (chargeOn db k) j := by
        intro j hj
        unfold AList.weightAt
        rw [hfiles, if_neg hj]
        cases db.files.lookup j with
        | none => rfl
        | some g =>
            have hsame := hcharge j k
            rw [if_neg hj] at hsame
            exact chargeOn_congr hsame Iff.rfl rfl
    rw [AList.total_of_agree_off fileId hagree, AList.weightAt_of_notMem hready.fresh, sub_zero,
      AList.weightAt_of_lookup (v := f) (by rw [hfiles, if_pos rfl]), hused, hdb.usage k q hq]

theorem newFile_alive (row : IngestionRecord) : (newFile row).Alive :=
  Lifecycle.available

theorem Charged.charge {now : Timestamp} {id fileId rid : Uuid} {row : IngestionRecord}
    {r : QuotaReservation} (hdb : Charged db) (hready : CommitReady fileId id row db)
    (hopen : db.ledger.openReservation row.quotaReservationId = some (rid, r))
    (hfits : ¬ Overcharged db.ledger r (row.actualSize.getD 0)) :
    Charged (committedDb now fileId id row
      (db.ledger.settle now rid r (row.actualSize.getD 0 : ℕ)) db) := by
  have hstep := Step.commit now fileId id _ (Commit.charged row hready rid r hopen hfits)
  obtain ⟨hrid, hr, -⟩ := Ledger.openReservation_eq_some.mp hopen
  generalize hdb' : committedDb now fileId id row
    (db.ledger.settle now rid r (row.actualSize.getD 0 : ℕ)) db = db' at hstep ⊢
  have hledger : db'.ledger = db.ledger.settle now rid r (row.actualSize.getD 0 : ℕ) := by
    rw [← hdb']
    rfl
  have hput : db'.ingestions = db.ingestions.update id fun _ ↦ row.committedAs fileId now := by
    rw [← hdb']
    rfl
  have hfiles : ∀ j, db'.files.lookup j =
      if j = fileId then some (newFile row) else db.files.lookup j := by
    intro j
    rw [← hdb']
    exact AList.lookup_insert' j fileId (newFile row) db.files
  have hoff : ∀ j k, j ≠ rid → (db'.ledger.SettledOn j k ↔ db.ledger.SettledOn j k) := by
    intro j k hj
    simp only [Ledger.SettledOn, hledger, Ledger.settle, AList.lookup_update_of_ne hj]
  have hunreleased : ¬ (newFile row).Released := by simp [FileObject.Released, newFile]
  have hcharge := chargedTo_commit hdb.linked hready.found hready.fresh hopen hput rfl rfl hoff
  refine hdb.commit hstep hready hopen hput rfl rfl hoff (by rw [hledger]; rfl) hfiles
    (newFile_alive row) (fun _ ↦ ?_) fun k q' hq' ↦ ?_
  · refine ⟨id, rid, { r with
      actualBytes := some (row.actualSize.getD 0 : ℕ), status := .settled, settledAt := some now },
      (names_update hready.found hput rfl rfl id fileId rid).mpr (Or.inr ⟨rfl, rfl, hrid⟩),
      ?_, rfl, rfl⟩
    rw [hledger, Ledger.settle, AList.lookup_update_self, hr]
    rfl
  · rw [hledger, Ledger.settle, Ledger.lookup_updateQuotas, Option.map_eq_some_iff] at hq'
    obtain ⟨q, hq, rfl⟩ := hq'
    refine ⟨q, hq, ?_⟩
    have hthis := hcharge fileId k
    rw [if_pos rfl, hledger, settledOn_settle hr] at hthis
    by_cases hk : k ∈ r.quotaIds
    · rw [chargeOn_of_charged (hthis.mpr hk) hunreleased, if_pos hk]
      rfl
    · rw [chargeOn_of_not_charged (mt hthis.mp hk), if_neg hk, add_zero]

theorem Charged.refuse {now : Timestamp} {id fileId rid : Uuid} {row : IngestionRecord}
    {r : QuotaReservation} (hdb : Charged db) (hready : CommitReady fileId id row db)
    (hopen : db.ledger.openReservation row.quotaReservationId = some (rid, r))
    (hover : Overcharged db.ledger r (row.actualSize.getD 0)) :
    Charged (quarantinedDb now fileId id row db) := by
  have hstep := Step.commit now fileId id _ (Commit.refused row hready rid r hopen hover)
  generalize hdb' : quarantinedDb now fileId id row db = db' at hstep ⊢
  have hledger : db'.ledger =
      releaseQuotaReservation now (row.committedAs fileId now) db.ledger := by
    rw [← hdb']
    rfl
  have hput : db'.ingestions = db.ingestions.update id fun _ ↦
      { row.committedAs fileId now with status := .reconciliationRequired } := by
    rw [← hdb']
    rfl
  have hunmoved : db.ledger.Unmoved db'.ledger := by
    rw [hledger]
    exact unmoved_closes (releaseQuotaReservation_closes now _ _)
  have hfiles : ∀ j, db'.files.lookup j =
      if j = fileId then some { newFile row with status := .quarantined }
      else db.files.lookup j := by
    intro j
    rw [← hdb']
    change ((db.files.insert fileId (newFile row)).update fileId _).lookup j = _
    rw [AList.lookup_update, AList.lookup_insert, AList.lookup_insert']
    split <;> rfl
  have hoff : ∀ j k, j ≠ rid → (db'.ledger.SettledOn j k ↔ db.ledger.SettledOn j k) :=
    fun j k _ ↦ hunmoved.settled j k
  have huncharged : ∀ k, ¬ ChargedTo db' fileId k := by
    intro k hcharged
    have hthis := chargedTo_commit hdb.linked hready.found hready.fresh hopen hput rfl rfl hoff
      fileId k
    rw [if_pos rfl, hunmoved.settled] at hthis
    exact not_settledOn_of_open hopen k (hthis.mp hcharged)
  refine hdb.commit hstep hready hopen hput rfl rfl hoff hunmoved.adjustments hfiles
    Lifecycle.quarantined (fun h ↦ absurd rfl h)
    fun k q' hq' ↦ ?_
  rw [chargeOn_of_not_charged (huncharged k)]
  simp only [add_zero]
  rcases hunmoved.used k q' hq' with hold | ⟨hnew, -⟩
  · exact hold
  · rw [hledger] at hq'
    have hkept := AList.mem_of_lookup hq'
    rw [mem_quotas_closes (releaseQuotaReservation_closes now _ _)] at hkept
    exact absurd hkept hnew

/-! ## Every step -/

theorem unmoved_reap {now : Timestamp} (hdb : Linked db) (picked : List Uuid) :
    db.ledger.Unmoved (reapOrphanReservations now picked db).ledger := by
  refine And.left (reap_preserves
    (I := fun s : Db ↦ db.ledger.Unmoved s.ledger ∧ ∀ k, k ∈ db.ledger.quotas → k ∈ s.ledger.quotas)
    (fun s l' _ hI hcloses ↦ ?_) picked hdb ⟨.refl _, fun _ hk ↦ hk⟩)
  exact ⟨hI.1.trans (unmoved_closes hcloses) hI.2,
    fun k hk ↦ (mem_quotas_closes hcloses).mpr (hI.2 k hk)⟩

theorem unmoved_deleteApp (applicationId : Uuid) :
    db.ledger.Unmoved (Applications.deleteApp applicationId db).2.ledger := by
  unfold Applications.deleteApp
  split
  · exact .refl _
  split
  · exact .refl _
  refine unmoved_of_lookup rfl rfl (fun k ↦ AList.lookup_updateWhere _ _ _ _) fun k q ↦ ?_
  split <;> rfl

theorem filesKept_refl (files : Table Uuid FileObject) : FilesKept files files :=
  fun _ ↦ Or.inl rfl

theorem Charged.step {c : Cmd} (hdb : Charged db) (hc : KeepsCharge db c) (h : Step db c db') :
    Charged db' := by
  have hstep := h
  cases h with
  | idle => exact hdb
  | uploadCreated ids session data ledger hsession hrecord hheld =>
      exact hdb.quiet hstep (step_names hstep (by simp)) (unmoved_held hheld) (filesKept_refl _)
  | multipartCreated ids session data ledger hsession hrecord hheld =>
      exact hdb.quiet hstep (step_names hstep (by simp)) (unmoved_held hheld) (filesKept_refl _)
  | verified | requeued => exact hdb.quiet hstep (step_names hstep (by simp)) (.refl _) (filesKept_refl _)
  | failed now id reason row hrow hvalid =>
      exact hdb.quiet hstep (step_names hstep (by simp)) (unmoved_closes (releaseQuotaReservation_closes now _ _))
        (filesKept_refl _)
  | expired now id row hrow hvalid =>
      exact hdb.quiet hstep (step_names hstep (by simp)) (unmoved_closes (releaseQuotaReservation_closes now _ _))
        (filesKept_refl _)
  | reaped now picked =>
      refine hdb.quiet hstep (step_names hstep (by simp)) (unmoved_reap hdb.linked picked) fun j ↦ Or.inl ?_
      rw [reapOrphanReservations, reapOrphanReservationsWith_frame]
  | commit now fileId id _ hcommit =>
      cases hcommit with
      | replayed => exact hdb
      | unreserved row hready hnone => exact absurd hnone (hc row hready)
      | charged row hready rid r hopen hfits => exact hdb.charge hready hopen hfits
      | refused row hready rid r hopen hover => exact hdb.refuse hready hopen hover
  | deleted now fileId f hf hstatus =>
      have hlife := hdb.alive fileId f hf
      rw [FileObject.Alive, hstatus] at hlife
      obtain ⟨hsoft, hstate⟩ := hlife.deleting_inv
      refine hdb.release hstep (by simp) hf (by simp [FileObject.Released, hstatus, hstate])
        (Or.inr ⟨rfl, hstate⟩) ?_ rfl (by simp [hstatus]) (hc f hf hstatus)
      simpa [FileObject.Alive, deletedFile, hsoft, hstate] using Lifecycle.deleted
  | purged now fileId f hf hsoft hstate =>
      have hlife := hdb.alive fileId f hf
      rw [FileObject.Alive, hstate] at hlife
      have hdeleted := hlife.soft_inv (by decide)
      refine hdb.release hstep (by simp) hf (by simp [FileObject.Released, hstate])
        (Or.inl rfl) ?_ rfl (by simp [hdeleted]) (hc f hf hsoft hstate)
      simpa [FileObject.Alive, purgedFile, hdeleted] using Lifecycle.purged
  | quotaCreated fresh applicationId limit capacity mode hfresh hlimit =>
      exact hdb.quiet hstep (step_names hstep (by simp)) (unmoved_insert hfresh rfl) (filesKept_refl _)
  | quotaOverwritten | quotaRevoked | platformLimitSet | limitSet =>
      exact hdb.quiet hstep (step_names hstep (by simp)) (unmoved_update fun _ ↦ rfl) (filesKept_refl _)
  | appDeleted applicationId =>
      refine hdb.quiet hstep (step_names hstep (by simp)) (unmoved_deleteApp applicationId) fun j ↦ Or.inl ?_
      unfold Applications.deleteApp
      split
      · rfl
      · split <;> rfl
  | sessions =>
      exact hdb.quiet hstep (fun _ _ _ ↦ Iff.rfl) (.refl _) (filesKept_refl _)
  | edited _ fileId f f' deletions hf hedit _ =>
      refine hdb.quiet hstep (fun _ _ _ ↦ Iff.rfl) (.refl _) fun j ↦ ?_
      by_cases hj : j = fileId
      · subst hj
        exact Or.inr ⟨f, f', hf, by simp [hf], hedit⟩
      · exact Or.inl (AList.lookup_update_of_ne hj _ _)

/-! ## Runs -/

/-- A tenant which has neither uploads nor files nor usage yet. -/
structure Untouched (db : Db) : Prop where
  unreserved : Unreserved db
  ingestions : db.ingestions = ∅
  files : db.files = ∅
  adjustments : db.ledger.adjustments = []
  used : ∀ k q, db.ledger.quotas.lookup k = some q → q.usedBytes = 0

theorem Untouched.charged (h : Untouched db) : Charged db where
  linked := linked_of_unreserved h.unreserved h.ingestions
  alive := by simp [h.files]
  adjusted := by simp [Ledger.adjusted, h.adjustments]
  charged := by simp [h.files]
  usage := by
    intro k q hk
    rw [h.used k q hk, h.files]
    rfl

/-- In every state of a run whose commits find their reservation open and whose releases
match the charge, every available file is charged exactly once, and the usage of a quota is
the content of the files charged to it and not yet released. -/
theorem charged_exactly_once (h : Untouched db) {cs : List Cmd}
    (hmeets : Meets exec KeepsCharge db cs) {pre post : List Cmd} (heq : cs = pre ++ post) :
    ChargedOnce (run exec db pre) := by
  subst heq
  obtain ⟨hpre, -⟩ := (meets_append exec).mp hmeets
  exact (run_invariant (fun _ _ _ hs hc hok ↦ hs.step hc (exec_step hok)) h.charged hpre).once

namespace Sample

theorem untouched : Untouched tenant where
  unreserved := unreserved
  ingestions := rfl
  files := rfl
  adjustments := rfl
  used := by
    intro k q hk
    rw [tenant, AList.lookup_insert'] at hk
    split at hk
    · cases hk
      rfl
    · simp at hk

/-- An upload is verified by the client path and committed. -/
def committed : List Cmd :=
  [.createUploadIntent (ids 10) (session 40) (data "a"),
    .recordProviderResult 12 (result 40 'a'),
    .commitVerifiedFile 0 30 12]

/-- The provider is unavailable when the client completes, the reaper gives the reservation
back, and the reconciler then commits the object. -/
def reapedThenCommitted : List Cmd :=
  [.createUploadIntent (ids 10) (session 40) (data "a"),
    .failOrQuarantine 0 12 .reconciliationRequired .providerUnavailable,
    .reapOrphanReservations 0 [10],
    .recordProviderResult 12 (result 40 'a'),
    .commitVerifiedFile 0 30 12]

theorem keepsCharge_committed : Meets exec KeepsCharge tenant committed := by
  refine ⟨trivial, trivial, fun row hready ↦ ?_, trivial⟩
  have hopen : ∀ row, (run exec tenant (committed.take 2)).ingestions.lookup 12 = some row →
      (run exec tenant (committed.take 2)).ledger.openReservation row.quotaReservationId ≠
        none := by
    intro row hrow
    have hrid : ((run exec tenant (committed.take 2)).ingestions.lookup 12).map
        (·.quotaReservationId) = some (some 10) := by decide
    rw [hrow, Option.map_some, Option.some.injEq] at hrid
    rw [hrid]
    decide
  exact hopen row hready.found

end Sample

theorem charged_exactly_once_sample : ChargedOnce (run exec Sample.tenant Sample.committed) :=
  charged_exactly_once Sample.untouched Sample.keepsCharge_committed
    (List.append_nil Sample.committed).symm

theorem committed_without_charge : ¬ ∀ db, Untouched db → ∀ cs, ChargedOnce (run exec db cs) := by
  intro h
  have honce := h Sample.tenant Sample.untouched Sample.reapedThenCommitted
  have hfile : ((run exec Sample.tenant Sample.reapedThenCommitted).files.lookup 30).map
      (·.status) = some .available := by decide
  have hnone : (run exec Sample.tenant Sample.reapedThenCommitted).ledger.reservations.anyRow
      (fun _ r ↦ r.status = .settled) = false := by decide
  obtain ⟨f, hf, hstatus⟩ := Option.map_eq_some_iff.mp hfile
  obtain ⟨-, i, rid, r, -, hr, hsettled, -⟩ := honce.available 30 f hf hstatus
  simpa [hsettled] using AList.anyRow_eq_false.mp hnone rid r hr

end S3mp
