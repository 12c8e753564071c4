import S3mp.Files.SessionStore
import S3mp.Ledger.Records
import S3mp.Ledger.Terms
import S3mp.Operations.Deliveries
import S3mp.Platform.TenantStore

/-!
# The whole system of one tenant

The transactions of all stores on one tenant as commands: those on files, quotas
and operations, the sessions kept without a record, the restoration of an
application, and the life cycle of the tenant itself.
-/

namespace S3mp

open Relational Files Governance Applications Platform

inductive TenantCmd where
  | operation (c : OpCmd)
  | createUpload (id : Uuid) (providerTargetVersion : ℕ) (session : SessionData)
  | createMultipart (id reservationId : Uuid) (providerTargetVersion : ℕ) (session : SessionData)
  | completeUpload (now : Timestamp) (fileId id : Uuid) (data : CompletionData)
  | completeMultipart (fileId id : Uuid) (data : CompletionData)
  | restoreApp (applicationId : Uuid) (ownerActive : Bool)
  | updateTenant (status : Option TenantLifecycleStatus)
  | deleteTenant
  | restoreTenant

/-- A transaction of the ingestion, file, quota or application stores. -/
@[match_pattern] abbrev TenantCmd.stored (c : Cmd) : TenantCmd :=
  .operation (.other c)

/-- A transaction which leaves the tenant row alone. -/
def Platform.Tenant.transact (f : Db → Tx Db) (t : Tenant) : Tx Tenant := do
  Tenant.commit t.status (← f t.db)

def tenantExec : TenantCmd → Tenant → Tx Tenant
  | .operation c, t => t.transact (opExec c)
  | .createUpload id version session, t => t.transact (Files.createUpload id version session)
  | .createMultipart id reservationId version session, t =>
      t.transact (Files.createMultipart id reservationId version session)
  | .completeUpload now fileId id data, t => t.transact (Files.completeUpload now fileId id data)
  | .completeMultipart fileId id data, t => t.transact (Files.completeMultipart fileId id data)
  | .restoreApp applicationId ownerActive, t =>
      t.transact fun db ↦ (Applications.restoreApp applicationId ownerActive db).map Prod.snd
  | .updateTenant status, t => Platform.updateTenant status t
  | .deleteTenant, t => Platform.deleteTenant t
  | .restoreTenant, t => Platform.restoreTenant t

/-! ## What a command can do -/

variable {db db' : Db} {t t' : Tenant}

theorem step_tenantActive {c : Cmd} (h : Step db c db') : db'.tenantActive = db.tenantActive := by
  cases h with
  | idle | sessions | edited | deleted | purged | quotaCreated | quotaOverwritten | quotaRevoked
  | platformLimitSet | limitSet | uploadCreated | multipartCreated | verified | failed | requeued
  | expired => rfl
  | reaped now picked =>
      rw [reapOrphanReservations, reapOrphanReservationsWith_frame]
  | commit now fileId id _ hcommit =>
      cases hcommit with
      | replayed | unreserved | charged | refused => rfl
  | appDeleted applicationId =>
      unfold Applications.deleteApp
      split
      · rfl
      · split <;> rfl

theorem opExec_tenantActive {c : OpCmd} (h : opExec c db = .ok db') :
    db'.tenantActive = db.tenantActive := by
  rcases opExec_eq_ok h with ⟨c₀, -, hexec⟩ | ⟨-, hside⟩
  · exact step_tenantActive (exec_step hexec)
  · exact hside.tenantActive

/-! ## The index of the active totals -/

theorem oneActiveTotal_iff {quotas : Table Uuid Quota} :
    oneActiveTotal quotas = true ↔ ∀ j k q r, quotas.lookup j = some q →
      quotas.lookup k = some r → q.isTenantTotal && q.status = .active →
        r.isTenantTotal && r.status = .active → j = k := by
  have hnodup := AList.nodup_keys_select (fun _ q ↦ q.isTenantTotal && q.status = .active) quotas
  have hmem : ∀ k q, (k, q) ∈ quotas.select (fun _ q ↦ q.isTenantTotal && q.status = .active) ↔ _ :=
    fun k q ↦ AList.mem_select_iff
  unfold oneActiveTotal
  generalize quotas.select (fun _ q ↦ q.isTenantTotal && q.status = .active) = rows at hnodup hmem
  rw [decide_eq_true_eq]
  constructor
  · intro hlength j k q r hj hk hq hr
    rcases rows with _ | ⟨e, _ | ⟨e', rest⟩⟩
    · simpa using (hmem j q).mpr ⟨hj, hq⟩
    · have hj := List.mem_singleton.mp ((hmem j q).mpr ⟨hj, hq⟩)
      have hk := List.mem_singleton.mp ((hmem k r).mpr ⟨hk, hr⟩)
      exact congrArg Prod.fst (hj.trans hk.symm)
    · simp at hlength
  · intro hone
    rcases rows with _ | ⟨e, _ | ⟨e', rest⟩⟩
    · exact Nat.zero_le 1
    · exact le_rfl
    · obtain ⟨j, q⟩ := e
      obtain ⟨k, r⟩ := e'
      obtain ⟨hj, hq⟩ := (hmem j q).mp (by simp)
      obtain ⟨hk, hr⟩ := (hmem k r).mp (by simp)
      have hjk := hone j k q r hj hk hq hr
      simp [hjk] at hnodup

/-- A table whose active totals were active totals before has no more of them. -/
theorem oneActiveTotal_of_kept {quotas quotas' : Table Uuid Quota} (h : oneActiveTotal quotas)
    (hkept : ∀ k q', quotas'.lookup k = some q' → q'.isTenantTotal → q'.status = .active →
      ∃ q, quotas.lookup k = some q ∧ q.isTenantTotal ∧ q.status = .active) :
    oneActiveTotal quotas' := by
  rw [oneActiveTotal_iff] at h ⊢
  intro j k q r hj hk hq hr
  simp only [Bool.and_eq_true, decide_eq_true_eq] at hq hr
  obtain ⟨q₀, hj₀, hq₀⟩ := hkept j q hj hq.1 hq.2
  obtain ⟨r₀, hk₀, hr₀⟩ := hkept k r hk hr.1 hr.2
  exact h j k q₀ r₀ hj₀ hk₀ (by simpa using hq₀) (by simpa using hr₀)

theorem SameTerms.oneActiveTotal {quotas quotas' : Table Uuid Quota} (h : SameTerms quotas quotas')
    (hone : oneActiveTotal quotas) : oneActiveTotal quotas' := by
  refine oneActiveTotal_of_kept hone fun k q' hk htotal hactive ↦ ?_
  obtain ⟨q, hq, hterms⟩ := h.exists_lookup hk
  exact ⟨q, hq, isTenantTotal_congr hterms ▸ htotal, (terms_eq hterms).2.1 ▸ hactive⟩

/-- The row a creation overwrites is an active total, or belongs to the application. -/
theorem overwritten_row {applicationId : Option Uuid} {limit : ℤ} {capacity : Option ℤ} {id : Uuid}
    (h : createPlatformQuotaTarget applicationId limit capacity db = .ok (some id)) :
    ∃ q, db.ledger.quotas.lookup id = some q ∧
      ((applicationId = none ∧ q.isTenantTotal ∧ q.status = .active) ∨
        (applicationId.isSome ∧ q.applicationId = applicationId)) := by
  have hrow : ∀ row : Option (Uuid × Quota),
      createPlatformQuotaTarget.overwritten limit row = .ok (some id) → ∃ q, row = some (id, q) := by
    rintro (_ | ⟨k, q⟩) hok
    · cases hok
    · obtain ⟨-, -, hok⟩ := Except.bind_eq_ok.mp hok
      obtain rfl := Option.some.inj (Except.pure_eq_ok.mp hok)
      exact ⟨q, rfl⟩
  unfold createPlatformQuotaTarget at h
  split at h
  · simp at h
  split at h
  · simp at h
  split at h
  · split at h
    · simp at h
    · obtain ⟨q, hq⟩ := hrow _ h
      obtain ⟨hlookup, htotal, hactive⟩ := lookup_activeTenantQuota hq
      exact ⟨q, hlookup, Or.inl ⟨rfl, htotal, hactive⟩⟩
  · split at h
    · simp at h
    split at h
    · simp at h
    split at h
    · simp at h
    · obtain ⟨q, hq⟩ := hrow _ h
      obtain ⟨hlookup, happ⟩ := AList.lookup_of_selectFirst hq
      exact ⟨q, hlookup, Or.inr ⟨rfl, of_decide_eq_true happ⟩⟩

/-- A total is created only where no total is active. -/
theorem no_total_of_created {limit : ℤ} {capacity : Option ℤ}
    (h : createPlatformQuotaTarget none limit capacity db = .ok none) :
    activeTenantQuota db.ledger.quotas = none := by
  unfold createPlatformQuotaTarget at h
  split at h
  · simp at h
  split at h
  · simp at h
  dsimp only at h
  split at h
  · simp at h
  · cases hrow : activeTenantQuota db.ledger.quotas with
    | none => rfl
    | some row =>
        rw [hrow] at h
        obtain ⟨-, -, h⟩ := Except.bind_eq_ok.mp h
        cases h

/-- The stores never make a second total active. -/
theorem QuotaStep.oneActiveTotal {c : Cmd} {quotas : Table Uuid Quota} (h : QuotaStep db c quotas)
    (hone : oneActiveTotal db.ledger.quotas) : oneActiveTotal quotas := by
  cases h with
  | counted c _ hterms => exact hterms.oneActiveTotal hone
  | created fresh applicationId limit capacity mode htarget hfresh =>
      cases applicationId with
      | none =>
          have hnone := no_total_of_created htarget
          rw [activeTenantQuota, AList.selectFirst_eq_none] at hnone
          rw [oneActiveTotal_iff]
          intro j k q r hj hk hq hr
          rw [AList.lookup_insert'] at hj hk
          split at hj
          · rename_i hjf
            split at hk
            · rename_i hkf
              exact hjf.trans hkf.symm
            · rw [hnone k r hk] at hr
              cases hr
          · rw [hnone j q hj] at hq
            cases hq
      | some applicationId =>
          refine oneActiveTotal_of_kept hone fun k q' hk htotal hactive ↦ ?_
          rw [AList.lookup_insert'] at hk
          split at hk
          · cases hk
            cases htotal
          · exact ⟨q', hk, htotal, hactive⟩
  | overwritten fresh id applicationId limit capacity htarget =>
      refine oneActiveTotal_of_kept hone fun k q' hk htotal hactive ↦ ?_
      obtain ⟨q, hq, rfl⟩ := AList.of_lookup_update hk
      split at htotal
      · rename_i hkid
        subst hkid
        obtain ⟨q₀, hq₀, ⟨-, hrow⟩ | ⟨happ, hrow⟩⟩ := overwritten_row htarget
        · exact ⟨q₀, hq₀, hrow⟩
        · obtain rfl := Option.some.inj (hq.symm.trans hq₀)
          have htotal : q.isTenantTotal := htotal
          rw [← hrow] at happ
          simp [Quota.isTenantTotal, Option.isNone_iff_eq_none] at htotal
          simp [htotal.1] at happ
      · rename_i hne
        rw [if_neg hne] at hactive
        exact ⟨q, hq, htotal, hactive⟩
  | revoked id _ _ _ =>
      refine oneActiveTotal_of_kept hone fun k q' hk htotal hactive ↦ ?_
      obtain ⟨q, hq, rfl⟩ := AList.of_lookup_update hk
      split at hactive
      · cases hactive
      · rename_i hne
        rw [if_neg hne] at htotal
        exact ⟨q, hq, htotal, hactive⟩
  | limited c id limit hlimit =>
      refine oneActiveTotal_of_kept hone fun k q' hk htotal hactive ↦ ?_
      obtain ⟨q, hq, rfl⟩ := AList.of_lookup_update hk
      split at htotal
      · rename_i heq
        rw [if_pos heq] at hactive
        exact ⟨q, hq, htotal, hactive⟩
      · rename_i hne
        rw [if_neg hne] at hactive
        exact ⟨q, hq, htotal, hactive⟩
  | suspended applicationId happ htenant =>
      refine oneActiveTotal_of_kept hone fun k q' hk htotal hactive ↦ ?_
      rw [AList.lookup_updateWhere, Option.map_eq_some_iff] at hk
      obtain ⟨q, hq, rfl⟩ := hk
      split at hactive
      · cases hactive
      · rename_i hne
        rw [if_neg hne] at htotal
        exact ⟨q, hq, htotal, hactive⟩

theorem opExec_oneActiveTotal {c : OpCmd} (h : opExec c db = .ok db')
    (hone : oneActiveTotal db.ledger.quotas) : oneActiveTotal db'.ledger.quotas := by
  rcases opExec_eq_ok h with ⟨c₀, -, hexec⟩ | ⟨-, hside⟩
  · exact (exec_quotas hexec).oneActiveTotal hone
  · rwa [hside.ledger]

theorem Platform.Tenant.commit_eq_ok {status : TenantLifecycleStatus}
    (h : Tenant.commit status db = .ok t') :
    t'.status = status ∧ t'.db = { db with tenantActive := decide (status = .active) } := by
  unfold Tenant.commit at h
  split at h
  · cases h
    exact ⟨rfl, rfl⟩
  · simp at h

theorem Platform.Tenant.transact_eq_ok {f : Db → Tx Db} (h : t.transact f = .ok t')
    (hactive : ∀ db', f t.db = .ok db' → db'.tenantActive = t.db.tenantActive) :
    t'.status = t.status ∧ f t.db = .ok t'.db := by
  obtain ⟨db', hdb', hcommit⟩ := Except.bind_eq_ok.mp h
  obtain ⟨hstatus, hdb⟩ := Tenant.commit_eq_ok hcommit
  refine ⟨hstatus, ?_⟩
  have hsame : { db' with tenantActive := decide (t.status = .active) } = db' := by
    rw [← t.active_iff, ← hactive db' hdb']
  rw [hdb, hsame, hdb']

/-- A transaction which keeps the index and the activity of the tenant commits. -/
theorem Platform.Tenant.transact_of_ok {f : Db → Tx Db} (h : f t.db = .ok db')
    (hactive : db'.tenantActive = t.db.tenantActive) (hone : oneActiveTotal db'.ledger.quotas) :
    ∃ t', t.transact f = .ok t' ∧ t'.status = t.status ∧ t'.db = db' := by
  have hsame : { db' with tenantActive := decide (t.status = .active) } = db' := by
    rw [← t.active_iff, ← hactive]
  refine ⟨⟨t.status, db', hactive.trans t.active_iff, hone⟩, ?_, rfl, rfl⟩
  refine Except.bind_eq_ok.mpr ⟨db', h, ?_⟩
  unfold Tenant.commit
  rw [dif_pos hone]
  simp only [hsame]

/-- A command on files, quotas or operations commits in the tenant when it does in its rows. -/
theorem operation_of_ok {c : OpCmd} (h : opExec c t.db = .ok db') :
    ∃ t', tenantExec (.operation c) t = .ok t' ∧ t'.status = t.status ∧ t'.db = db' :=
  Tenant.transact_of_ok h (opExec_tenantActive h) (opExec_oneActiveTotal h t.one_total)

/-! ## Steps of the whole system -/

section Sessions

variable {id fileId : Uuid}

theorem createUpload_eq_ok {version : ℕ} {session : SessionData}
    (h : createUpload id version session db = .ok db') :
    ∃ u : UploadSession, id ∉ db.uploads ∧ u.status = .pending ∧
      db' = { db with uploads := db.uploads.insert id u } := by
  obtain ⟨space, -, h⟩ := Except.bind_eq_ok.mp h
  obtain ⟨uploads, hinsert, h⟩ := Except.bind_eq_ok.mp h
  obtain ⟨hfresh, rfl⟩ := insertRow_eq_ok.mp hinsert
  exact ⟨_, hfresh, rfl, (Except.pure_eq_ok.mp h).symm⟩

theorem createMultipart_eq_ok {reservationId : Uuid} {version : ℕ} {session : SessionData}
    (h : createMultipart id reservationId version session db = .ok db') :
    ∃ m : MultipartSession, id ∉ db.multiparts ∧ m.status = .pending ∧
      db' = { db with multiparts := db.multiparts.insert id m } := by
  obtain ⟨space, -, h⟩ := Except.bind_eq_ok.mp h
  obtain ⟨multiparts, hinsert, h⟩ := Except.bind_eq_ok.mp h
  obtain ⟨hfresh, rfl⟩ := insertRow_eq_ok.mp hinsert
  exact ⟨_, hfresh, rfl, (Except.pure_eq_ok.mp h).symm⟩

/-- The file row a completed upload session becomes. -/
def uploadFile (data : CompletionData) (u : UploadSession) : FileObject :=
  let checksum := (truthy data.checksum).or u.checksum
  sessionFile u.storageSpaceId u.applicationId u.storageNamespace u.profileVersion u.objectKey
    u.providerTargetVersion u.declaredLength.toNat u.contentType data.etag checksum
    (generateFileRef u.applicationId u.objectKey u.metadata checksum) u.metadata

def multipartFile (data : CompletionData) (m : MultipartSession) : FileObject :=
  sessionFile m.storageSpaceId m.applicationId m.storageNamespace m.profileVersion m.objectKey
    m.providerTargetVersion data.contentLength data.contentType data.etag data.checksum
    (generateFileRef m.applicationId m.objectKey m.metadata ((truthy data.checksum).or m.checksum))
    m.metadata

def completedUpload (now : Timestamp) (u : UploadSession) : UploadSession :=
  { u with status := .completed, completedAt := some now }

def completedMultipart (m : MultipartSession) : MultipartSession :=
  { m with status := .completed }

theorem completeUpload_eq_ok {now : Timestamp} {data : CompletionData} :
    completeUpload now fileId id data db = .ok db' ↔
      ∃ u, db.uploads.lookup id = some u ∧
        (uploadFile data u).conflictsIn fileId db.files = none ∧ fileId ∉ db.files ∧
        db' = { db with
          files := db.files.insert fileId (uploadFile data u)
          uploads := db.uploads.update id (completedUpload now) } := by
  unfold completeUpload
  constructor
  · intro h
    split at h
    · cases h
    · rename_i u hu
      obtain ⟨files, hinsert, h⟩ := Except.bind_eq_ok.mp h
      obtain ⟨hunique, hfresh, rfl⟩ := insertFile_eq_ok.mp hinsert
      exact ⟨u, hu, hunique, hfresh, (Except.pure_eq_ok.mp h).symm⟩
  · rintro ⟨u, hu, hunique, hfresh, rfl⟩
    rw [hu]
    exact Except.bind_eq_ok.mpr ⟨_, insertFile_eq_ok.mpr ⟨hunique, hfresh, rfl⟩, rfl⟩

theorem completeMultipart_eq_ok {data : CompletionData} :
    completeMultipart fileId id data db = .ok db' ↔
      ∃ m, db.multiparts.lookup id = some m ∧
        (multipartFile data m).conflictsIn fileId db.files = none ∧ fileId ∉ db.files ∧
        db' = { db with
          files := db.files.insert fileId (multipartFile data m)
          multiparts := db.multiparts.update id completedMultipart } := by
  unfold completeMultipart
  constructor
  · intro h
    split at h
    · cases h
    · rename_i m hm
      obtain ⟨files, hinsert, h⟩ := Except.bind_eq_ok.mp h
      obtain ⟨hunique, hfresh, rfl⟩ := insertFile_eq_ok.mp hinsert
      exact ⟨m, hm, hunique, hfresh, (Except.pure_eq_ok.mp h).symm⟩
  · rintro ⟨m, hm, hunique, hfresh, rfl⟩
    rw [hm]
    exact Except.bind_eq_ok.mpr ⟨_, insertFile_eq_ok.mpr ⟨hunique, hfresh, rfl⟩, rfl⟩

end Sessions

theorem restoreApp_eq_ok {applicationId : Uuid} {ownerActive restored : Bool}
    (h : restoreApp applicationId ownerActive db = .ok (restored, db')) :
    db' = db ∨ ∃ app, db.applications.lookup applicationId = some app ∧ app.status = .deleted ∧
      db.tenantActive = true ∧ ownerActive = true ∧ db' = restoredApp applicationId db := by
  unfold restoreApp at h
  split at h
  · cases h
    exact Or.inl rfl
  rename_i app happ
  split at h
  · cases h
    exact Or.inl rfl
  rename_i hdeleted
  split at h
  · cases h
  · rename_i hactive
    cases h
    simp only [Bool.not_eq_true, Bool.not_eq_false', Bool.and_eq_true] at hactive
    exact Or.inr ⟨app, happ, not_not.mp hdeleted, hactive.1, hactive.2, rfl⟩

/-- The tenant row is written with `status`, its other rows are those of `db`. -/
def Platform.Tenant.Becomes (t' : Tenant) (status : TenantLifecycleStatus) (db : Db) : Prop :=
  t'.status = status ∧ t'.db = { db with tenantActive := decide (status = .active) }

inductive TenantStep (t t' : Tenant) : TenantCmd → Prop
  | idle (c : TenantCmd) (hsame : t' = t) : TenantStep t t' c
  | stored (c : Cmd) (hstatus : t'.status = t.status) (h : exec c t.db = .ok t'.db) :
      TenantStep t t' (.stored c)
  | operated (c : OpCmd) (hother : ∀ c₀, c ≠ .other c₀) (hstatus : t'.status = t.status)
      (h : opExec c t.db = .ok t'.db) (hside : OperationSide t.db t'.db) :
      TenantStep t t' (.operation c)
  | uploadCreated (id : Uuid) (version : ℕ) (session : SessionData) (u : UploadSession)
      (hstatus : t'.status = t.status) (hfresh : id ∉ t.db.uploads) (hpending : u.status = .pending)
      (hdb : t'.db = { t.db with uploads := t.db.uploads.insert id u }) :
      TenantStep t t' (.createUpload id version session)
  | multipartCreated (id reservationId : Uuid) (version : ℕ) (session : SessionData)
      (m : MultipartSession) (hstatus : t'.status = t.status) (hfresh : id ∉ t.db.multiparts)
      (hpending : m.status = .pending)
      (hdb : t'.db = { t.db with multiparts := t.db.multiparts.insert id m }) :
      TenantStep t t' (.createMultipart id reservationId version session)
  | uploadCompleted (now : Timestamp) (fileId id : Uuid) (data : CompletionData)
      (u : UploadSession) (hstatus : t'.status = t.status) (hu : t.db.uploads.lookup id = some u)
      (hunique : (uploadFile data u).conflictsIn fileId t.db.files = none)
      (hfresh : fileId ∉ t.db.files)
      (hdb : t'.db = { t.db with
        files := t.db.files.insert fileId (uploadFile data u)
        uploads := t.db.uploads.update id (completedUpload now) }) :
      TenantStep t t' (.completeUpload now fileId id data)
  | multipartCompleted (fileId id : Uuid) (data : CompletionData) (m : MultipartSession)
      (hstatus : t'.status = t.status) (hm : t.db.multiparts.lookup id = some m)
      (hunique : (multipartFile data m).conflictsIn fileId t.db.files = none)
      (hfresh : fileId ∉ t.db.files)
      (hdb : t'.db = { t.db with
        files := t.db.files.insert fileId (multipartFile data m)
        multiparts := t.db.multiparts.update id completedMultipart }) :
      TenantStep t t' (.completeMultipart fileId id data)
  | appRestored (applicationId : Uuid) (app : Application)
      (happ : t.db.applications.lookup applicationId = some app) (hdeleted : app.status = .deleted)
      (hstatus : t.status = .active)
      (h : t'.Becomes .active (restoredApp applicationId t.db)) :
      TenantStep t t' (.restoreApp applicationId true)
  | switched (status : TenantLifecycleStatus) (hlive : t.status ≠ .deleted)
      (hnext : status ≠ .deleted)
      (h : t'.Becomes status (switchQuotas switchable (quotaStatus status) t.db)) :
      TenantStep t t' (.updateTenant (some status))
  | deleted (hlive : t.status ≠ .deleted) (h : t'.Becomes .deleted (deleteRows t.db)) :
      TenantStep t t' .deleteTenant
  | restored (hdeleted : t.status = .deleted)
      (h : t'.Becomes .suspended (switchQuotas (·.status = .suspended) .active t.db)) :
      TenantStep t t' .restoreTenant

theorem found_eq_ok {missing : String} {result : Bool × Tenant}
    (h : found missing result = .ok t') : t' = result.2 := by
  unfold found at h
  split at h
  · exact (Except.ok.inj h).symm
  · simp at h

theorem updateTenant_eq_ok {status : Option TenantLifecycleStatus}
    (h : Platform.updateTenant status t = .ok t') :
    t' = t ∨ ∃ next, status = some next ∧ t.status ≠ .deleted ∧ next ≠ .deleted ∧
      t'.Becomes next (switchQuotas switchable (quotaStatus next) t.db) := by
  unfold Platform.updateTenant at h
  split at h
  · simp at h
  rename_i hvalid
  obtain ⟨⟨written, t₁⟩, hupdate, hfound⟩ := Except.bind_eq_ok.mp h
  obtain rfl := found_eq_ok hfound
  unfold updatePlatformTenant at hupdate
  split at hupdate
  · cases hupdate
    exact Or.inl rfl
  rename_i hlive
  split at hupdate
  · cases hupdate
    exact Or.inl rfl
  · rename_i next
    obtain ⟨t₂, hcommit, hpure⟩ := Except.bind_eq_ok.mp hupdate
    obtain ⟨-, rfl⟩ := Prod.mk.inj (Except.pure_eq_ok.mp hpure)
    exact Or.inr ⟨next, rfl, hlive, fun hs ↦ hvalid (congrArg some hs),
      Tenant.commit_eq_ok hcommit⟩

theorem deleteTenant_eq_ok (h : Platform.deleteTenant t = .ok t') :
    t' = t ∨ t.status ≠ .deleted ∧ t'.Becomes .deleted (deleteRows t.db) := by
  obtain ⟨⟨written, t₁⟩, hdelete, hfound⟩ := Except.bind_eq_ok.mp h
  obtain rfl := found_eq_ok hfound
  unfold deletePlatformTenant at hdelete
  split at hdelete
  · cases hdelete
    exact Or.inl rfl
  · rename_i hlive
    obtain ⟨t₂, hcommit, hpure⟩ := Except.bind_eq_ok.mp hdelete
    obtain ⟨-, rfl⟩ := Prod.mk.inj (Except.pure_eq_ok.mp hpure)
    exact Or.inr ⟨hlive, Tenant.commit_eq_ok hcommit⟩

theorem restoreTenant_eq_ok (h : Platform.restoreTenant t = .ok t') :
    t' = t ∨ t.status = .deleted ∧
      t'.Becomes .suspended (switchQuotas (·.status = .suspended) .active t.db) := by
  obtain ⟨⟨written, t₁⟩, hrestore, hfound⟩ := Except.bind_eq_ok.mp h
  obtain rfl := found_eq_ok hfound
  unfold restorePlatformTenant at hrestore
  split at hrestore
  · cases hrestore
    exact Or.inl rfl
  · rename_i hdeleted
    obtain ⟨t₂, hcommit, hpure⟩ := Except.bind_eq_ok.mp hrestore
    obtain ⟨-, rfl⟩ := Prod.mk.inj (Except.pure_eq_ok.mp hpure)
    exact Or.inr ⟨not_not.mp hdeleted, Tenant.commit_eq_ok hcommit⟩

theorem tenantExec_step {c : TenantCmd} (h : tenantExec c t = .ok t') : TenantStep t t' c := by
  cases c with
  | operation c =>
      obtain ⟨hstatus, hexec⟩ := Tenant.transact_eq_ok h fun _ ↦ opExec_tenantActive
      rcases opExec_eq_ok hexec with ⟨c₀, rfl, hstored⟩ | ⟨hother, hside⟩
      · exact .stored c₀ hstatus hstored
      · exact .operated c hother hstatus hexec hside
  | createUpload id version session =>
      obtain ⟨hstatus, hcreate⟩ := Tenant.transact_eq_ok h fun db' hdb' ↦ by
        obtain ⟨u, -, -, rfl⟩ := createUpload_eq_ok hdb'
        rfl
      obtain ⟨u, hfresh, hpending, hdb⟩ := createUpload_eq_ok hcreate
      exact .uploadCreated id version session u hstatus hfresh hpending hdb
  | createMultipart id reservationId version session =>
      obtain ⟨hstatus, hcreate⟩ := Tenant.transact_eq_ok h fun db' hdb' ↦ by
        obtain ⟨m, -, -, rfl⟩ := createMultipart_eq_ok hdb'
        rfl
      obtain ⟨m, hfresh, hpending, hdb⟩ := createMultipart_eq_ok hcreate
      exact .multipartCreated id reservationId version session m hstatus hfresh hpending hdb
  | completeUpload now fileId id data =>
      obtain ⟨hstatus, hcomplete⟩ := Tenant.transact_eq_ok h fun db' hdb' ↦ by
        obtain ⟨u, -, -, -, rfl⟩ := completeUpload_eq_ok.mp hdb'
        rfl
      obtain ⟨u, hu, hunique, hfresh, hdb⟩ := completeUpload_eq_ok.mp hcomplete
      exact .uploadCompleted now fileId id data u hstatus hu hunique hfresh hdb
  | completeMultipart fileId id data =>
      obtain ⟨hstatus, hcomplete⟩ := Tenant.transact_eq_ok h fun db' hdb' ↦ by
        obtain ⟨m, -, -, -, rfl⟩ := completeMultipart_eq_ok.mp hdb'
        rfl
      obtain ⟨m, hm, hunique, hfresh, hdb⟩ := completeMultipart_eq_ok.mp hcomplete
      exact .multipartCompleted fileId id data m hstatus hm hunique hfresh hdb
  | restoreApp applicationId ownerActive =>
      obtain ⟨db', hdb', hcommit⟩ := Except.bind_eq_ok.mp h
      obtain ⟨restored, hrestore⟩ := Except.map_snd_eq_ok.mp hdb'
      obtain ⟨hstatus, hdb⟩ := Tenant.commit_eq_ok hcommit
      rcases restoreApp_eq_ok hrestore with rfl | ⟨app, happ, hdeleted, hactive, rfl, rfl⟩
      · refine .idle _ ?_
        have hsame : t'.db = t.db := by
          rw [hdb, ← t.active_iff]
        cases t
        cases t'
        cases hstatus
        cases hsame
        rfl
      · have hlive : t.status = .active := by
          rwa [t.active_iff, decide_eq_true_eq] at hactive
        exact .appRestored applicationId app happ hdeleted hlive ⟨hstatus.trans hlive, hlive ▸ hdb⟩
  | updateTenant status =>
      rcases updateTenant_eq_ok h with rfl | ⟨status, rfl, hlive, hnext, hbecomes⟩
      · exact .idle _ rfl
      · exact .switched status hlive hnext hbecomes
  | deleteTenant =>
      rcases deleteTenant_eq_ok h with rfl | ⟨hlive, hbecomes⟩
      · exact .idle _ rfl
      · exact .deleted hlive hbecomes
  | restoreTenant =>
      rcases restoreTenant_eq_ok h with rfl | ⟨hdeleted, hbecomes⟩
      · exact .idle _ rfl
      · exact .restored hdeleted hbecomes

theorem tenantStep_mem_files {c : TenantCmd} (h : TenantStep t t' c) {j : Uuid}
    (hj : j ∈ t.db.files) : j ∈ t'.db.files := by
  cases h with
  | idle _ hsame => rwa [hsame]
  | stored c hstatus h => exact step_mem_files (exec_step h) hj
  | operated c hother hstatus h hside => exact hside.files j hj
  | uploadCreated _ _ _ _ _ _ _ hdb | multipartCreated _ _ _ _ _ _ _ _ hdb =>
      rw [hdb]
      exact hj
  | uploadCompleted _ _ _ _ _ _ _ _ _ hdb | multipartCompleted _ _ _ _ _ _ _ _ hdb =>
      rw [hdb]
      exact AList.mem_insert'.mpr (Or.inr hj)
  | appRestored _ _ _ _ _ h | switched _ _ _ h | deleted _ h | restored _ h =>
      rw [h.2]
      exact hj

theorem tenantStep_mem_ingestions {c : TenantCmd} (h : TenantStep t t' c) {i : Uuid}
    (hi : i ∈ t.db.ingestions) : i ∈ t'.db.ingestions := by
  cases h with
  | idle _ hsame => rwa [hsame]
  | stored c hstatus h => exact step_mem_ingestions (exec_step h) hi
  | operated c hother hstatus h hside => rwa [hside.ingestions]
  | uploadCreated _ _ _ _ _ _ _ hdb | multipartCreated _ _ _ _ _ _ _ _ hdb
  | uploadCompleted _ _ _ _ _ _ _ _ _ hdb | multipartCompleted _ _ _ _ _ _ _ _ hdb =>
      rw [hdb]
      exact hi
  | appRestored _ _ _ _ _ h | switched _ _ _ h | deleted _ h | restored _ h =>
      rw [h.2]
      exact hi

namespace Sample

/-- The small tenant as an active one. -/
def live : Tenant := ⟨.active, tenant, rfl, by decide⟩

end Sample

end S3mp
