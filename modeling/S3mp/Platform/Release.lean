import S3mp.Platform.Guarantee
import Mathlib.Logic.Function.Basic

/-!
# Charge and release

The settlement of an upload charges the quotas its reservation names.  The end of
a deletion looks the quotas up again: those which have the file's application or
space by then, whatever their status, and every tenant total.  A book kept next
to the tenant records what the settlement of each file has added to each quota,
so that a release can be compared with it.
-/

namespace S3mp

open Relational Files Governance Applications Platform Transition

/-! ## The book -/

def Governance.Ledger.usage (l : Ledger) (k : Uuid) : ℤ :=
  ((l.quotas.lookup k).map (·.usedBytes)).getD 0

/-- What the settlement of each file has added to each quota. -/
abbrev Book : Type := Uuid → Uuid → ℤ

/-- The transaction has inserted the file row. -/
def Inserts (fileId : Uuid) (t t' : Tenant) : Prop :=
  fileId ∉ t.db.files ∧ fileId ∈ t'.db.files

instance (fileId : Uuid) (t t' : Tenant) : Decidable (Inserts fileId t t') :=
  inferInstanceAs (Decidable (_ ∧ _))

/-- A commit books what it has added.  The result of a rename is another row for the content of
its source. -/
def entered (c : TenantCmd) (t t' : Tenant) (book : Book) : Book :=
  match c with
  | .stored (.commitVerifiedFile _ fileId _) =>
      if Inserts fileId t t' then
        Function.update book fileId fun k ↦ t'.db.ledger.usage k - t.db.ledger.usage k
      else book
  | .operation (.createRenameOperation ids _ data) =>
      if Inserts ids.resultFile t t' then
        Function.update book ids.resultFile (book data.sourceFileId)
      else book
  | _ => book

section Entries

variable {t t' : Tenant} {book : Book}

theorem entered_commit {now : Timestamp} {fileId id : Uuid} (h : Inserts fileId t t') :
    entered (.stored (.commitVerifiedFile now fileId id)) t t' book =
      Function.update book fileId fun k ↦ t'.db.ledger.usage k - t.db.ledger.usage k :=
  if_pos h

theorem entered_rename {ids : OperationIds} {spaceId : Uuid} {data : RenameData}
    (h : Inserts ids.resultFile t t') :
    entered (.operation (.createRenameOperation ids spaceId data)) t t' book =
      Function.update book ids.resultFile (book data.sourceFileId) :=
  if_pos h

end Entries

/-- A tenant with its book. -/
structure Booked where
  tenant : Tenant
  book : Book

def bookedExec (c : TenantCmd) (s : Booked) : Tx Booked :=
  (tenantExec c s.tenant).map fun t' ↦ ⟨t', entered c s.tenant t' s.book⟩

theorem bookedExec_eq_ok {c : TenantCmd} {s s' : Booked} :
    bookedExec c s = .ok s' ↔ ∃ t', tenantExec c s.tenant = .ok t' ∧
      s' = ⟨t', entered c s.tenant t' s.book⟩ := by
  unfold bookedExec
  cases tenantExec c s.tenant with
  | error e => simp [Except.map]
  | ok t' => simp [Except.map, eq_comm]

theorem advance_tenant (c : TenantCmd) (s : Booked) :
    (advance bookedExec s c).tenant = advance tenantExec s.tenant c := by
  cases hexec : tenantExec c s.tenant with
  | error e =>
      have herror : bookedExec c s = .error e := by
        simp [bookedExec, hexec, Except.map]
      rw [advance_of_error hexec, advance_of_error herror]
  | ok t' => rw [advance_of_ok hexec, advance_of_ok (bookedExec_eq_ok.mpr ⟨t', hexec, rfl⟩)]

/-- The book is kept without any influence on the tenant. -/
theorem run_tenant (s : Booked) (cs : List TenantCmd) :
    (run bookedExec s cs).tenant = run tenantExec s.tenant cs := by
  induction cs generalizing s with
  | nil => rfl
  | cons c cs ih => rw [run_cons, run_cons, ih, advance_tenant]

/-! ## Releases -/

/-- The command ends the deletion or the retention of the file. -/
inductive Releases (t : Tenant) : TenantCmd → AdjustmentReason → Uuid → FileObject → Prop
  | deleted (now : Timestamp) (fileId : Uuid) (f : FileObject)
      (hf : t.db.files.lookup fileId = some f) (hstatus : f.status = .deleting) :
      Releases t (.stored (.finalizeFileDelete now fileId)) .fileDeleted fileId f
  | purged (now : Timestamp) (fileId : Uuid) (f : FileObject)
      (hf : t.db.files.lookup fileId = some f) (hsoft : f.softDeleted = true)
      (hstate : f.purgeState = some .processing) :
      Releases t (.stored (.finalizeRetainedFilePurge now fileId)) .fileRetentionPurged fileId f

/-- Every quota loses what the settlement of the file had added to it, which is the content
length of the file or nothing. -/
structure TakesBack (s : Booked) (fileId : Uuid) (f : FileObject) (t' : Tenant) : Prop where
  taken : ∀ k, s.tenant.db.ledger.usage k - t'.db.ledger.usage k = s.book fileId k
  length : ∀ k, s.book fileId k ≠ 0 → s.book fileId k = f.contentLength

def Symmetric (s : Booked) (c : TenantCmd) (s' : Booked) : Prop :=
  ∀ reason fileId f, Releases s.tenant c reason fileId f → TakesBack s fileId f s'.tenant

/-- The quotas charged for the file are found again and hold its bytes, and of the other quotas
found none has anything to lose. -/
structure FindsCharged (s : Booked) (reason : AdjustmentReason) (fileId : Uuid) (f : FileObject) :
    Prop where
  charged : ∀ k, s.book fileId k ≠ 0 → ∃ q, s.tenant.db.ledger.quotas.lookup k = some q ∧
    releasesFrom f q ∧ s.tenant.db.ledger.adjusted reason fileId k = false ∧
    f.contentLength ≤ q.usedBytes
  others : ∀ k q, s.tenant.db.ledger.quotas.lookup k = some q → s.book fileId k = 0 →
    releasesFrom f q → s.tenant.db.ledger.adjusted reason fileId k ∨ q.usedBytes ≤ 0 ∨
      f.contentLength = 0

def KeepsSymmetry (s : Booked) (c : TenantCmd) : Prop :=
  ∀ reason fileId f, Releases s.tenant c reason fileId f → FindsCharged s reason fileId f

/-! ## Files keep their length -/

/-- The two tables have the same files, with the same lengths. -/
def SameLengths (files files' : Table Uuid FileObject) : Prop :=
  ∀ j, (files'.lookup j).map (·.contentLength) = (files.lookup j).map (·.contentLength)

section Lengths

variable {files files' : Table Uuid FileObject}

theorem SameLengths.refl (files : Table Uuid FileObject) : SameLengths files files :=
  fun _ ↦ rfl

theorem SameLengths.trans {files'' : Table Uuid FileObject} (h : SameLengths files files')
    (h' : SameLengths files' files'') : SameLengths files files'' :=
  fun j ↦ (h' j).trans (h j)

theorem sameLengths_updateWhere {p : Uuid → FileObject → Bool} {g : FileObject → FileObject}
    (hg : ∀ f, (g f).contentLength = f.contentLength) :
    SameLengths files (files.updateWhere p g) := by
  intro j
  rw [AList.lookup_updateWhere, Option.map_map]
  congr 1
  funext f
  simp only [Function.comp_apply]
  split
  · exact hg f
  · rfl

theorem sameLengths_update {id : Uuid} {g : FileObject → FileObject}
    (hg : ∀ f, (g f).contentLength = f.contentLength) : SameLengths files (files.update id g) :=
  sameLengths_updateWhere hg

theorem sameLengths_settledFiles {now : Timestamp} {o : Uuid} {op : FileOperation}
    {status : OperationStatus} : SameLengths files (settledFiles now o op status files) := by
  have hmoved : SameLengths files
      (if op.operationType = .rename then settleRename now o op status files else files) := by
    split
    · unfold settleRename
      split
      · split
        · refine (sameLengths_update ?_).trans (sameLengths_update ?_)
          · exact fun _ ↦ rfl
          · exact fun _ ↦ rfl
        · split
          · exact sameLengths_update fun _ ↦ rfl
          · exact .refl files
      · split
        · exact sameLengths_update fun _ ↦ rfl
        · exact .refl files
      · exact .refl files
    · exact .refl files
  unfold settledFiles
  dsimp only
  split
  · exact hmoved.trans (sameLengths_updateWhere fun _ ↦ rfl)
  · exact hmoved

theorem mem_of_sameLengths (h : SameLengths files files') {j : Uuid} : j ∈ files' ↔ j ∈ files := by
  rw [← AList.lookup_isSome, ← AList.lookup_isSome, ← Option.isSome_map, h j, Option.isSome_map]

/-- A row is written back with its length. -/
theorem sameLengths_put {id : Uuid} {f f' : FileObject} (hf : files.lookup id = some f)
    (hlength : f'.contentLength = f.contentLength) :
    SameLengths files (files.update id fun _ ↦ f') := by
  intro j
  rw [AList.lookup_update]
  split
  · rename_i hj
    subst hj
    simp [hf, hlength]
  · rfl

theorem FileEdit.contentLength {f f' : FileObject} (h : FileEdit f f') :
    f'.contentLength = f.contentLength := by
  cases h <;> rfl

end Lengths

variable {db db' : Db} {t t' : Tenant} {s : Booked}

/-- Only a new rename adds a file row, for the content of its source. -/
theorem opExec_lengths {c : OpCmd} (hother : ∀ c₀, c ≠ .other c₀) (h : opExec c db = .ok db') :
    SameLengths db.files db'.files ∨ ∃ ids spaceId data source,
      c = .createRenameOperation ids spaceId data ∧
      db.files.lookup data.sourceFileId = some source ∧ ids.resultFile ∉ db.files ∧
      SameLengths (db.files.insert ids.resultFile (renamedFile data source)) db'.files := by
  cases c with
  | createOperation ids spaceId data =>
      obtain ⟨op, h⟩ := Except.map_snd_eq_ok.mp h
      obtain ⟨_, _, _, _, -, -, -, -, rfl⟩ := createOperation_eq_ok h
      exact Or.inl (sameLengths_updateWhere fun _ ↦ rfl)
  | createRenameOperation ids spaceId data =>
      obtain ⟨op, h⟩ := Except.map_snd_eq_ok.mp h
      rcases createRenameOperation_eq_ok h with
        rfl | ⟨source, _, _, hsource, -, -, -, -, -, -, hinsert, rfl⟩
      · exact Or.inl (.refl _)
      · obtain ⟨-, hfresh, rfl⟩ := insertFile_eq_ok.mp hinsert
        exact Or.inr ⟨ids, spaceId, data, source, rfl, hsource, hfresh,
          sameLengths_updateWhere fun _ ↦ rfl⟩
  | startBrokerOperation now id =>
      obtain rfl := Except.ok.inj h
      unfold startBrokerOperation
      split
      · exact Or.inl (.refl _)
      · split
        · exact Or.inl (.refl _)
        · exact Or.inl (sameLengths_updateWhere fun _ ↦ rfl)
  | settleBrokerOperation now id status reason =>
      rcases settleBrokerOperation_eq_ok h with ⟨-, rfl⟩ | ⟨op, -, rfl⟩
      · exact Or.inl (.refl _)
      · exact Or.inl sameLengths_settledFiles
  | recordRenameProviderResult id etag =>
      obtain rfl := Except.ok.inj h
      unfold recordRenameProviderResult
      split
      · exact Or.inl (.refl _)
      split
      · exact Or.inl (.refl _)
      split
      · exact Or.inl (.refl _)
      · exact Or.inl (sameLengths_update fun _ ↦ rfl)
  | scheduleBrokerRetry now id reason =>
      obtain rfl := Except.ok.inj h
      unfold scheduleBrokerRetry
      split
      · exact Or.inl (.refl _)
      · split
        · exact Or.inl (.refl _)
        · exact Or.inl (sameLengths_updateWhere fun _ ↦ rfl)
  | recoverTimedOutOperations now timeout maxRecoveries outboxId picked =>
      refine Or.inl (Tx.foldlM_relates (R := fun db db' : Db ↦ SameLengths db.files db'.files)
        (fun _ ↦ .refl _) .trans (fun {db db' o} hturn ↦ ?_) h)
      unfold recoverOperation at hturn
      split at hturn
      · cases hturn
        exact .refl _
      split at hturn
      · cases hturn
        exact .refl _
      split at hturn
      · cases hturn
        exact .refl _
      · obtain ⟨-, rfl⟩ := addOutboxEvent_eq_ok hturn
        exact sameLengths_updateWhere fun _ ↦ rfl
  | replayDeadLetterOperation outboxId id replayOf =>
      obtain ⟨out, h⟩ := Except.map_snd_eq_ok.mp h
      rw [replayDeadLetterOperation_files h]
      exact Or.inl (.refl _)
  | enqueueLegacyOperations now outboxId picked =>
      refine Or.inl (Tx.foldlM_relates (R := fun db db' : Db ↦ SameLengths db.files db'.files)
        (fun _ ↦ .refl _) .trans (fun {db db' o} hturn ↦ ?_) h)
      unfold enqueueLegacyOperation at hturn
      split at hturn
      · cases hturn
        exact .refl _
      split at hturn
      · cases hturn
        exact .refl _
      dsimp only at hturn
      split at hturn
      · cases hturn
        exact .refl _
      · obtain ⟨-, rfl⟩ := addOutboxEvent_eq_ok hturn
        exact .refl _
  | other c => exact absurd rfl (hother c)

/-- Beside the operations only a commit adds a file row. -/
theorem step_lengths {c : Cmd} (h : Step db c db') : SameLengths db.files db'.files ∨
    ∃ now fileId id row, c = .commitVerifiedFile now fileId id ∧ CommitReady fileId id row db ∧
      Commit now fileId id db db' ∧
      SameLengths (db.files.insert fileId (newFile row)) db'.files := by
  cases h with
  | idle | sessions | uploadCreated | multipartCreated | verified | failed | requeued | expired
  | quotaCreated | quotaOverwritten | quotaRevoked | platformLimitSet | limitSet =>
      exact Or.inl (.refl _)
  | edited _ fileId f f' deletions hf hedit hkey =>
      exact Or.inl (sameLengths_put hf hedit.contentLength)
  | deleted now fileId f hf hstatus => exact Or.inl (sameLengths_put hf rfl)
  | purged now fileId f hf hsoft hstate => exact Or.inl (sameLengths_put hf rfl)
  | appDeleted applicationId =>
      unfold Applications.deleteApp
      split
      · exact Or.inl (.refl _)
      · split
        · exact Or.inl (.refl _)
        · exact Or.inl (.refl _)
  | reaped now picked =>
      rw [reapOrphanReservations, reapOrphanReservationsWith_frame]
      exact Or.inl (.refl _)
  | commit now fileId id _ hcommit =>
      cases hcommit with
      | replayed => exact Or.inl (.refl _)
      | unreserved row hready hnone =>
          exact Or.inr ⟨now, fileId, id, row, rfl, hready, .unreserved row hready hnone, .refl _⟩
      | charged row hready rid r hopen hfits =>
          exact Or.inr ⟨now, fileId, id, row, rfl, hready, .charged row hready rid r hopen hfits,
            .refl _⟩
      | refused row hready rid r hopen hover =>
          exact Or.inr ⟨now, fileId, id, row, rfl, hready, .refused row hready rid r hopen hover,
            sameLengths_update fun _ ↦ rfl⟩

/-! ## What a commit adds -/

section Usage

variable {l l' : Ledger} {k : Uuid}

theorem usage_of_lookup {q : Quota} (hq : l.quotas.lookup k = some q) :
    l.usage k = q.usedBytes := by
  rw [Ledger.usage, hq, Option.map_some, Option.getD_some]

theorem usage_of_none (hnone : l.quotas.lookup k = none) : l.usage k = 0 := by
  rw [Ledger.usage, hnone, Option.map_none, Option.getD_none]

theorem usage_updateQuotas (ids : List Uuid) {g : Quota → Quota} {n : ℤ}
    (hg : ∀ q, (g q).usedBytes = q.usedBytes + n) :
    (l.updateQuotas ids g).usage k - l.usage k = 0 ∨
      (l.updateQuotas ids g).usage k - l.usage k = n := by
  cases hq : l.quotas.lookup k with
  | none =>
      have hnone : (l.updateQuotas ids g).quotas.lookup k = none := by
        rw [Ledger.lookup_updateQuotas, hq, Option.map_none]
      rw [usage_of_none hq, usage_of_none hnone]
      exact Or.inl rfl
  | some q =>
      have hupdated := Ledger.lookup_updateQuotas ids g l k
      rw [hq, Option.map_some] at hupdated
      rw [usage_of_lookup hq, usage_of_lookup hupdated]
      split
      · exact Or.inr (by rw [hg, add_sub_cancel_left])
      · exact Or.inl (sub_self _)

theorem usage_closes {now : Timestamp} (h : Closes now l l') : l'.usage k = l.usage k := by
  cases h with
  | nothing => rfl
  | closed id r status hid hopen hstatus hcharge =>
      have hkept := usage_updateQuotas r.quotaIds (l := l) (k := k)
        (g := Quota.subReserved r.requestedBytes) (n := 0) fun q ↦ (add_zero _).symm
      rcases hkept with hsame | hsame
      · exact sub_eq_zero.mp hsame
      · exact sub_eq_zero.mp hsame

end Usage

/-- A commit adds the length of its file to a quota, or nothing. -/
theorem usage_commit {now : Timestamp} {fileId id : Uuid} {row : IngestionRecord}
    (hready : CommitReady fileId id row db) (h : Commit now fileId id db db') (k : Uuid) :
    db'.ledger.usage k - db.ledger.usage k = 0 ∨
      db'.ledger.usage k - db.ledger.usage k = (newFile row).contentLength := by
  cases h with
  | replayed => exact Or.inl (sub_self _)
  | unreserved => exact Or.inl (sub_self _)
  | charged row' hready' rid r hopen hfits =>
      obtain rfl : row = row' := Option.some.inj (hready.found.symm.trans hready'.found)
      exact usage_updateQuotas r.quotaIds
        (g := Quota.settleBytes r.requestedBytes (row.actualSize.getD 0 : ℕ)) fun _ ↦ rfl
  | refused row' hready' rid r hopen hover =>
      exact Or.inl (sub_eq_zero.mpr (usage_closes (releaseQuotaReservation_closes now _ _)))

/-! ## What the book says of a file -/

/-- The book has an entry for a file only once its row exists, and only for its whole length. -/
structure WellBooked (s : Booked) : Prop where
  length : ∀ fileId f, s.tenant.db.files.lookup fileId = some f → ∀ k,
    s.book fileId k = 0 ∨ s.book fileId k = f.contentLength
  absent : ∀ fileId, fileId ∉ s.tenant.db.files → s.book fileId = 0

theorem not_inserts_of_sameLengths (h : SameLengths t.db.files t'.db.files) (fileId : Uuid) :
    ¬ Inserts fileId t t' :=
  fun hinserts ↦ hinserts.1 ((mem_of_sameLengths h).mp hinserts.2)

theorem entered_of_sameLengths (h : SameLengths t.db.files t'.db.files) (c : TenantCmd)
    (book : Book) : entered c t t' book = book := by
  unfold entered
  split
  · exact if_neg (not_inserts_of_sameLengths h _)
  · exact if_neg (not_inserts_of_sameLengths h _)
  · rfl

theorem WellBooked.kept (h : WellBooked s) (hfiles : SameLengths s.tenant.db.files t'.db.files) :
    WellBooked ⟨t', s.book⟩ := by
  refine ⟨fun fileId f' hf' k ↦ ?_, fun fileId hfileId ↦ ?_⟩
  · have hsame := hfiles fileId
    rw [hf', Option.map_some, eq_comm, Option.map_eq_some_iff] at hsame
    obtain ⟨f, hf, hlength⟩ := hsame
    exact hlength ▸ h.length fileId f hf k
  · exact h.absent fileId fun hmem ↦ hfileId ((mem_of_sameLengths hfiles).mpr hmem)

theorem WellBooked.inserted (h : WellBooked s) {fileId : Uuid} {f : FileObject} {entry : Uuid → ℤ}
    (hfresh : fileId ∉ s.tenant.db.files)
    (hfiles : SameLengths (s.tenant.db.files.insert fileId f) t'.db.files)
    (hentry : ∀ k, entry k = 0 ∨ entry k = f.contentLength) :
    WellBooked ⟨t', Function.update s.book fileId entry⟩ := by
  refine ⟨fun j f' hf' k ↦ ?_, fun j hj ↦ ?_⟩
  · have hsame := hfiles j
    rw [hf', Option.map_some, eq_comm, Option.map_eq_some_iff, AList.lookup_insert'] at hsame
    obtain ⟨g, hg, hlength⟩ := hsame
    split at hg
    · rename_i hj
      subst hj
      obtain rfl := Option.some.inj hg
      dsimp only
      rw [Function.update_self, ← hlength]
      exact hentry k
    · rename_i hj
      dsimp only
      rw [Function.update_of_ne hj, ← hlength]
      exact h.length j g hg k
  · have hmem : j ∉ s.tenant.db.files.insert fileId f :=
      fun hmem ↦ hj ((mem_of_sameLengths hfiles).mpr hmem)
    rw [AList.mem_insert', not_or] at hmem
    dsimp only
    rw [Function.update_of_ne hmem.1]
    exact h.absent j hmem.2

theorem inserts_of_sameLengths {fileId : Uuid} {f : FileObject} (hfresh : fileId ∉ t.db.files)
    (hfiles : SameLengths (t.db.files.insert fileId f) t'.db.files) : Inserts fileId t t' :=
  ⟨hfresh, (mem_of_sameLengths hfiles).mpr (AList.mem_insert'.mpr (Or.inl rfl))⟩

/-- A completion without a record inserts a file nothing is booked for. -/
theorem WellBooked.unbooked (h : WellBooked s) {fileId : Uuid} {f : FileObject}
    (hfresh : fileId ∉ s.tenant.db.files)
    (hfiles : SameLengths (s.tenant.db.files.insert fileId f) t'.db.files) :
    WellBooked ⟨t', s.book⟩ := by
  have hnone := h.absent fileId hfresh
  have hinserted := h.inserted hfresh hfiles fun k ↦
    Or.inl (congrFun hnone k)
  rwa [Function.update_eq_self] at hinserted

theorem WellBooked.step {c : TenantCmd} (h : WellBooked s) (hstep : TenantStep s.tenant t' c) :
    WellBooked ⟨t', entered c s.tenant t' s.book⟩ := by
  have hquiet : SameLengths s.tenant.db.files t'.db.files →
      WellBooked ⟨t', entered c s.tenant t' s.book⟩ := fun hfiles ↦ by
    rw [entered_of_sameLengths hfiles]
    exact h.kept hfiles
  cases hstep with
  | idle _ hsame => exact hquiet (hsame ▸ .refl _)
  | stored c hstatus hexec =>
      rcases step_lengths (exec_step hexec) with
        hfiles | ⟨now, fileId, id, row, rfl, hready, hcommit, hfiles⟩
      · exact hquiet hfiles
      · rw [entered_commit (inserts_of_sameLengths hready.fresh hfiles)]
        exact h.inserted hready.fresh hfiles (usage_commit hready hcommit)
  | operated c hother hstatus hexec hside =>
      rcases opExec_lengths hother hexec with
        hfiles | ⟨ids, spaceId, data, source, rfl, hsource, hfresh, hfiles⟩
      · exact hquiet hfiles
      · rw [entered_rename (inserts_of_sameLengths hfresh hfiles)]
        exact h.inserted hfresh hfiles (h.length data.sourceFileId source hsource)
  | uploadCreated _ _ _ _ _ _ _ hdb | multipartCreated _ _ _ _ _ _ _ _ hdb =>
      exact hquiet (hdb ▸ .refl _)
  | uploadCompleted now fileId id data u hstatus hu hunique hfresh hdb =>
      exact h.unbooked (f := uploadFile data u) hfresh (hdb ▸ .refl _)
  | multipartCompleted fileId id data m hstatus hm hunique hfresh hdb =>
      exact h.unbooked (f := multipartFile data m) hfresh (hdb ▸ .refl _)
  | appRestored _ _ _ _ _ hbecomes | switched _ _ _ hbecomes | deleted _ hbecomes
  | restored _ hbecomes =>
      exact hquiet (hbecomes.2 ▸ .refl _)

theorem WellBooked.advance (h : WellBooked s) (c : TenantCmd) :
    WellBooked (advance bookedExec s c) := by
  refine advance_preserves h fun s' hok ↦ ?_
  obtain ⟨t', hexec, rfl⟩ := bookedExec_eq_ok.mp hok
  exact h.step (tenantExec_step hexec)

/-! ## What a release takes back -/

theorem usage_releaseUsage {reason : AdjustmentReason} {fileId k : Uuid} {f : FileObject} {l : Ledger}
    {q : Quota} (hq : l.quotas.lookup k = some q) :
    l.usage k - (releaseUsage reason fileId f l).usage k = givenBack reason fileId f l k q := by
  have hreleased : (releaseUsage reason fileId f l).quotas.lookup k = _ := lookup_releaseUsage k
  rw [hq, Option.map_some] at hreleased
  rw [usage_of_lookup hq, usage_of_lookup hreleased, givenBack]
  split
  · exact sub_sub_cancel _ _
  · exact sub_self _

theorem usage_releaseUsage_of_none {reason : AdjustmentReason} {fileId k : Uuid} {f : FileObject}
    {l : Ledger} (hnone : l.quotas.lookup k = none) :
    l.usage k - (releaseUsage reason fileId f l).usage k = 0 := by
  have hreleased : (releaseUsage reason fileId f l).quotas.lookup k = _ := lookup_releaseUsage k
  rw [hnone, Option.map_none] at hreleased
  rw [usage_of_none hnone, usage_of_none hreleased, sub_zero]

/-- A release takes the booked bytes from every quota exactly when it finds the charged quotas. -/
theorem takesBack_iff (h : WellBooked s) {reason : AdjustmentReason} {fileId : Uuid}
    {f : FileObject} (hf : s.tenant.db.files.lookup fileId = some f)
    (hledger : t'.db.ledger = releaseUsage reason fileId f s.tenant.db.ledger) :
    FindsCharged s reason fileId f ↔ TakesBack s fileId f t' := by
  have hbooked : ∀ k, s.book fileId k ≠ 0 → s.book fileId k = f.contentLength := fun k hne ↦
    (h.length fileId f hf k).resolve_left hne
  constructor
  · intro hfinds
    refine ⟨fun k ↦ ?_, hbooked⟩
    rw [hledger]
    by_cases hzero : s.book fileId k = 0
    · rw [hzero]
      cases hq : s.tenant.db.ledger.quotas.lookup k with
      | none => exact usage_releaseUsage_of_none hq
      | some q =>
          rw [usage_releaseUsage hq, givenBack]
          split
          · rename_i hreleases
            rcases hfinds.others k q hq hzero hreleases.1 with hadjusted | hused | hempty
            · rw [hreleases.2] at hadjusted
              cases hadjusted
            · omega
            · omega
          · rfl
    · obtain ⟨q, hq, hreleases, hadjusted, hle⟩ := hfinds.charged k hzero
      rw [usage_releaseUsage hq, givenBack, if_pos ⟨hreleases, hadjusted⟩, hbooked k hzero]
      omega
  · intro htakes
    refine ⟨fun k hne ↦ ?_, fun k q hq hzero hreleases ↦ ?_⟩
    · have htaken := htakes.taken k
      have hlength := hbooked k hne
      rw [hledger] at htaken
      cases hq : s.tenant.db.ledger.quotas.lookup k with
      | none =>
          rw [usage_releaseUsage_of_none hq] at htaken
          exact absurd htaken.symm hne
      | some q =>
          rw [usage_releaseUsage hq, givenBack] at htaken
          split at htaken
          · rename_i hreleases
            refine ⟨q, rfl, hreleases.1, hreleases.2, ?_⟩
            omega
          · exact absurd htaken.symm hne
    · have htaken := htakes.taken k
      rw [hledger, usage_releaseUsage hq, givenBack, hzero] at htaken
      cases hadjusted : s.tenant.db.ledger.adjusted reason fileId k with
      | true => exact Or.inl rfl
      | false =>
          rw [if_pos ⟨hreleases, hadjusted⟩] at htaken
          refine Or.inr ?_
          omega

/-- A command which ends the deletion of a file commits and writes the release. -/
theorem releases_commits {c : TenantCmd} {reason : AdjustmentReason} {fileId : Uuid}
    {f : FileObject} (h : Releases t c reason fileId f) :
    t.db.files.lookup fileId = some f ∧ ∃ t', tenantExec c t = .ok t' ∧
      t'.db.ledger = releaseUsage reason fileId f t.db.ledger := by
  cases h with
  | deleted now fileId f hf hstatus =>
      obtain ⟨t', hok, -, hdb⟩ := operation_of_ok (t := t) (c := .other (.finalizeFileDelete now fileId))
        rfl
      refine ⟨hf, t', hok, ?_⟩
      rw [hdb]
      simp only [finalizeFileDelete, hf, hstatus]
      rfl
  | purged now fileId f hf hsoft hstate =>
      obtain ⟨t', hok, -, hdb⟩ := operation_of_ok (t := t)
        (c := .other (.finalizeRetainedFilePurge now fileId))
        rfl
      refine ⟨hf, t', hok, ?_⟩
      rw [hdb]
      simp only [finalizeRetainedFilePurge, hf, hsoft, hstate]
      rfl

theorem symmetric_iff (h : WellBooked s) (c : TenantCmd) :
    KeepsSymmetry s c ↔ Symmetric s c (advance bookedExec s c) := by
  have hrelease : ∀ reason fileId f, Releases s.tenant c reason fileId f →
      (FindsCharged s reason fileId f ↔
        TakesBack s fileId f (advance bookedExec s c).tenant) := by
    intro reason fileId f hreleases
    obtain ⟨hf, t', hok, hledger⟩ := releases_commits hreleases
    rw [advance_tenant, advance_of_ok hok]
    exact takesBack_iff h hf hledger
  constructor
  · intro hkeeps reason fileId f hreleases
    exact (hrelease reason fileId f hreleases).mp (hkeeps reason fileId f hreleases)
  · intro hsymmetric reason fileId f hreleases
    exact (hrelease reason fileId f hreleases).mpr (hsymmetric reason fileId f hreleases)

theorem wellBooked_of_no_files (h : t.db.files = ∅) : WellBooked ⟨t, 0⟩ := by
  refine ⟨fun fileId f hf ↦ ?_, fun _ _ ↦ rfl⟩
  have hf : t.db.files.lookup fileId = some f := hf
  rw [h] at hf
  cases hf

/-- Every purge and every final deletion of a run takes back what the settlement of its file has
added, quota by quota, exactly when each finds the charged quotas with the bytes of the file, and
no other quota which has something to lose. -/
theorem release_symmetric_iff (h : t.db.files = ∅) (cs : List TenantCmd) :
    (∀ pre c post, cs = pre ++ c :: post →
      Symmetric (run bookedExec ⟨t, 0⟩ pre) c (run bookedExec ⟨t, 0⟩ (pre ++ [c]))) ↔
    Meets bookedExec KeepsSymmetry ⟨t, 0⟩ cs :=
  run_commands_iff (W := WellBooked) (P := Symmetric) (fun _ c hs ↦ hs.advance c)
    (fun _ c hs ↦ symmetric_iff hs c) (wellBooked_of_no_files h)

namespace Sample

/-- One upload through its commit, which makes it file `fileId`. -/
def uploaded (n fileId : Uuid) (size : ℕ) (key : String) : List TenantCmd :=
  [.createUploadIntent (ids n) (session size) (data key),
    .recordProviderResult (n + 2) (result size 'a'),
    .commitVerifiedFile 0 fileId (n + 2)].map .stored

def byReference : DeleteData where
  actorPrincipalId := some 3
  authorizationVersion := none
  authorizationEvidence := none
  idempotencyKey := none
  ifMatch := none
  isFileRef := true
  originalRelativeKey := none
  purgeDueAt := 50

/-- The file is deleted and its retention runs out. -/
def retained (fileId : Uuid) : List TenantCmd :=
  [.deleteFile 0 40 2 fileId byReference, .finalizeFileTrashMigration fileId,
    .claimRetainedFileForPurge 100 fileId].map .stored

/-- The file of 40 bytes is charged to the total alone.  The application then gets a quota of its
own, which holds the 20 bytes of another file when the first one is purged. -/
def quotaAfterFile : List TenantCmd :=
  uploaded 10 30 40 "a" ++ [.stored (.createPlatformQuota 2 (some 5) 30 none)] ++
    uploaded 20 31 20 "b" ++ retained 30

def kept : List TenantCmd :=
  uploaded 10 30 40 "a" ++ retained 30

def purge : TenantCmd :=
  .stored (.finalizeRetainedFilePurge 100 30)

theorem processing {cs : List TenantCmd} (h : ((run tenantExec live cs).db.files.lookup 30).map
    (fun f ↦ (f.softDeleted, f.purgeState)) = some (true, some .processing)) :
    ∃ f, Releases (run tenantExec live cs) purge .fileRetentionPurged 30 f := by
  obtain ⟨f, hf, hstate⟩ := Option.map_eq_some_iff.mp h
  obtain ⟨hsoft, hpurge⟩ := Prod.mk.inj hstate
  exact ⟨f, .purged 100 30 f hf hsoft hpurge⟩

end Sample

theorem release_symmetric_iff_sample :
    (∀ pre c post, Sample.kept ++ [Sample.purge] = pre ++ c :: post →
      Symmetric (run bookedExec ⟨Sample.live, 0⟩ pre) c
        (run bookedExec ⟨Sample.live, 0⟩ (pre ++ [c]))) ↔
    Meets bookedExec KeepsSymmetry ⟨Sample.live, 0⟩ (Sample.kept ++ [Sample.purge]) :=
  release_symmetric_iff rfl _

/-- The purge takes the bytes of another file off a quota the file was never charged to. -/
theorem purge_hits_later_quota : ¬ ∀ (t : Tenant) (cs : List TenantCmd), t.db.files = ∅ →
    ∀ pre c post, cs = pre ++ c :: post →
      Symmetric (run bookedExec ⟨t, 0⟩ pre) c (run bookedExec ⟨t, 0⟩ (pre ++ [c])) := by
  intro h
  have hstate : ((run tenantExec Sample.live Sample.quotaAfterFile).db.files.lookup 30).map
      (fun f ↦ (f.softDeleted, f.purgeState)) = some (true, some .processing) := by
    decide +kernel
  obtain ⟨f, hreleases⟩ := Sample.processing hstate
  have hsymmetric := h Sample.live (Sample.quotaAfterFile ++ [Sample.purge]) rfl
    Sample.quotaAfterFile Sample.purge [] rfl
  rw [Symmetric, run_tenant] at hsymmetric
  have htaken := (hsymmetric _ _ f hreleases).taken 2
  rw [run_tenant, run_tenant] at htaken
  dsimp only at htaken
  have hbefore : (run tenantExec Sample.live Sample.quotaAfterFile).db.ledger.usage 2 = 20 := by
    decide +kernel
  have hafter : (run tenantExec Sample.live
      (Sample.quotaAfterFile ++ [Sample.purge])).db.ledger.usage 2 = 0 := by
    decide +kernel
  have hbook : (run bookedExec ⟨Sample.live, 0⟩ Sample.quotaAfterFile).book 30 2 = 0 := by
    decide +kernel
  rw [hbefore, hafter, hbook] at htaken
  exact absurd htaken (by decide)

end S3mp
