import S3mp.Ledger.Records

/-!
# The quota ceiling

Admission keeps `used + reserved` within the limit of every active quota.  Two
places look at less than that sum: the settlement compares usage and the actual
size with the limit and leaves the other reservations out, and the floors of a
new limit take usage and reservations one at a time or not at all.  The ceiling
survives every run in which these two never find the gap.
-/

namespace S3mp

open Relational Files Governance Transition

variable {db db' : Db} {l : Ledger}

/-- The command does not pass a check of the code which is weaker than the ceiling.
A settlement is measured with the other reservations counted in, a new limit against
usage and reservations together. -/
def KeepsCeiling (db : Db) : Cmd → Prop
  | .commitVerifiedFile _ fileId id => ∀ row rid r, CommitReady fileId id row db →
      db.ledger.openReservation row.quotaReservationId = some (rid, r) →
      ¬ Overcharged db.ledger r (row.actualSize.getD 0) →
      ∀ k q, k ∈ r.quotaIds → db.ledger.quotas.lookup k = some q → q.status = .active →
        q.usedBytes + row.actualSize.getD 0 + (q.reservedBytes - r.requestedBytes) ≤ q.limitBytes
  | .createPlatformQuota _ applicationId limit capacity => ∀ id q,
      createPlatformQuotaTarget applicationId limit capacity db = .ok (some id) →
      db.ledger.quotas.lookup id = some q → q.usedBytes + q.reservedBytes ≤ limit
  | .updatePlatformQuota id limit capacity => ∀ q,
      updatePlatformQuotaAllowed id limit capacity db = .ok true →
      db.ledger.quotas.lookup id = some q → q.usedBytes + q.reservedBytes ≤ limit
  | .updateQuota id limit => ∀ q, updateQuotaAllowed id limit db = .ok true →
      db.ledger.quotas.lookup id = some q → q.usedBytes + q.reservedBytes ≤ limit
  | _ => True

/-- Every active quota is within its limit. -/
def CeilingHolds (db : Db) : Prop :=
  ∀ k q, db.ledger.quotas.lookup k = some q → q.status = .active → q.WithinLimit

/-! ## What keeps the ledger within its limits -/

theorem withinLimits_hold {id : Uuid} {r : QuotaReservation} (hl : l.WithinLimits)
    (hr : l.Admits id r) : (l.hold id r).WithinLimits := by
  intro k q hk
  rw [Ledger.hold, Ledger.lookup_updateQuotas, Option.map_eq_some_iff] at hk
  obtain ⟨q₀, hk, rfl⟩ := hk
  obtain ⟨⟨hused, hreserved⟩, hwithin⟩ := hl k q₀ hk
  have hn := hr.nonneg
  split
  · rename_i hmem
    refine ⟨⟨hused, ?_⟩, fun hactive ↦ ?_⟩
    · simp only [Quota.addReserved]
      omega
    · have hfits := hr.fits hl k q₀ hmem hk hactive
      simp only [Quota.addReserved, Quota.WithinLimit]
      omega
  · exact ⟨⟨hused, hreserved⟩, hwithin⟩

theorem withinLimits_close {now : Timestamp} {id : Uuid} {r : QuotaReservation}
    {status : ReservationStatus} (hl : l.WithinLimits) (hb : l.Balanced)
    (hid : l.reservations.lookup id = some r) (hopen : r.status = .reserved) :
    (l.close Quota.subReserved status now id r).WithinLimits := by
  intro k q hk
  rw [Ledger.close, Ledger.lookup_updateQuotas, Option.map_eq_some_iff] at hk
  obtain ⟨q₀, hk, rfl⟩ := hk
  obtain ⟨⟨hused, hreserved⟩, hwithin⟩ := hl k q₀ hk
  have hn := hb.requested_nonneg id r hid
  split
  · rename_i hmem
    have hle := hb.requested_le_reserved hid hopen hk hmem
    refine ⟨⟨hused, ?_⟩, fun hactive ↦ ?_⟩
    · simp only [Quota.subReserved]
      omega
    · have := hwithin hactive
      simp only [Quota.subReserved, Quota.WithinLimit] at this ⊢
      omega
  · exact ⟨⟨hused, hreserved⟩, hwithin⟩

theorem withinLimits_settle {now : Timestamp} {id : Uuid} {r : QuotaReservation} {actual : ℕ}
    (hl : l.WithinLimits) (hb : l.Balanced) (hid : l.reservations.lookup id = some r)
    (hopen : r.status = .reserved)
    (hfits : ∀ k q, k ∈ r.quotaIds → l.quotas.lookup k = some q → q.status = .active →
      q.usedBytes + actual + (q.reservedBytes - r.requestedBytes) ≤ q.limitBytes) :
    (l.settle now id r actual).WithinLimits := by
  intro k q hk
  rw [Ledger.settle, Ledger.lookup_updateQuotas, Option.map_eq_some_iff] at hk
  obtain ⟨q₀, hk, rfl⟩ := hk
  obtain ⟨⟨hused, hreserved⟩, hwithin⟩ := hl k q₀ hk
  split
  · rename_i hmem
    have hle := hb.requested_le_reserved hid hopen hk hmem
    refine ⟨⟨?_, ?_⟩, fun hactive ↦ ?_⟩
    · simp only [Quota.settleBytes]
      omega
    · simp only [Quota.settleBytes]
      omega
    · have := hfits k q₀ hmem hk hactive
      simp only [Quota.settleBytes, Quota.WithinLimit]
      omega
  · exact ⟨⟨hused, hreserved⟩, hwithin⟩

/-- A row rewritten with less usage, or with a limit its columns fit, keeps the ceiling. -/
theorem withinLimits_of_lookup {l' : Ledger} {g : Uuid → Quota → Quota} (hl : l.WithinLimits)
    (hlookup : ∀ k, l'.quotas.lookup k = (l.quotas.lookup k).map (g k))
    (hg : ∀ k q, l.quotas.lookup k = some q → q.NonNeg → (q.status = .active → q.WithinLimit) →
      (g k q).NonNeg ∧ ((g k q).status = .active → (g k q).WithinLimit)) : l'.WithinLimits := by
  intro k q' hk
  rw [hlookup, Option.map_eq_some_iff] at hk
  obtain ⟨q, hk, rfl⟩ := hk
  exact hg k q hk (hl k q hk).1 (hl k q hk).2

theorem withinLimits_update {id : Uuid} {f : Quota → Quota} (hl : l.WithinLimits)
    (hf : ∀ q, l.quotas.lookup id = some q → q.NonNeg → (q.status = .active → q.WithinLimit) →
      (f q).NonNeg ∧ ((f q).status = .active → (f q).WithinLimit)) :
    Ledger.WithinLimits { l with quotas := l.quotas.update id f } := by
  intro k q' hk
  dsimp only at hk
  rw [AList.lookup_update] at hk
  split at hk
  · rename_i heq
    subst heq
    obtain ⟨q, hq, rfl⟩ := Option.map_eq_some_iff.mp hk
    exact hf q hq (hl k q hq).1 (hl k q hq).2
  · exact hl k q' hk

theorem withinLimits_releaseUsage {reason : AdjustmentReason} {fileId : Uuid} {f : FileObject}
    (hl : l.WithinLimits) : (releaseUsage reason fileId f l).WithinLimits := by
  refine withinLimits_of_lookup hl lookup_releaseUsage fun k q _ hnonneg hwithin ↦ ?_
  split
  · simp only [Quota.NonNeg, Quota.WithinLimit, Quota.subUsed] at hnonneg hwithin ⊢
    refine ⟨⟨?_, hnonneg.2⟩, fun hactive ↦ ?_⟩
    · omega
    · have := hwithin hactive
      omega
  · exact ⟨hnonneg, hwithin⟩

theorem withinLimits_closes {l' : Ledger} {now : Timestamp} (hl : l.WithinLimits)
    (hb : l.Balanced) (h : Closes now l l') : l'.WithinLimits := by
  cases h with
  | nothing => exact hl
  | closed id r status hid hopen _ _ => exact withinLimits_close hl hb hid hopen

theorem withinLimits_relimited {id : Uuid} {limit : ℤ} {f : Quota → Quota}
    (hf : ∀ q, (f q).usedBytes = q.usedBytes ∧ (f q).reservedBytes = q.reservedBytes ∧
      (f q).limitBytes = limit) (hl : l.WithinLimits)
    (hfits : ∀ q, l.quotas.lookup id = some q → q.usedBytes + q.reservedBytes ≤ limit) :
    Ledger.WithinLimits { l with quotas := l.quotas.update id f } := by
  refine withinLimits_update hl fun q hq hnonneg _ ↦ ?_
  obtain ⟨hused, hreserved, hlimit⟩ := hf q
  simp only [Quota.NonNeg, Quota.WithinLimit, hused, hreserved, hlimit]
  exact ⟨hnonneg, fun _ ↦ hfits q hq⟩

/-! ## Steps and runs -/

theorem withinLimits_step {c : Cmd} (hdb : Linked db) (hl : db.ledger.WithinLimits)
    (hc : KeepsCeiling db c) (h : Step db c db') : db'.ledger.WithinLimits := by
  cases h with
  | idle | verified | requeued | sessions | edited => exact hl
  | uploadCreated ids session data ledger hsession hrecord hheld =>
      obtain ⟨-, r, -, hr, rfl⟩ := hheld
      exact withinLimits_hold hl hr
  | multipartCreated ids session data ledger hsession hrecord hheld =>
      obtain ⟨-, r, -, hr, rfl⟩ := hheld
      exact withinLimits_hold hl hr
  | commit now fileId id _ hcommit =>
      cases hcommit with
      | replayed | unreserved => exact hl
      | charged row hready rid r hopen hfits =>
          obtain ⟨-, hid, hstatus⟩ := Ledger.openReservation_eq_some.mp hopen
          exact withinLimits_settle hl hdb.balanced hid hstatus (hc row rid r hready hopen hfits)
      | refused row hready rid r hopen hover =>
          exact withinLimits_closes hl hdb.balanced (releaseQuotaReservation_closes now _ _)
  | failed now id reason row hrow hvalid =>
      exact withinLimits_closes hl hdb.balanced (releaseQuotaReservation_closes now _ _)
  | expired now id row hrow hvalid =>
      exact withinLimits_closes hl hdb.balanced (releaseQuotaReservation_closes now _ _)
  | reaped now picked =>
      exact reap_preserves (I := fun s ↦ s.ledger.WithinLimits)
        (fun _ _ hs hI hcloses ↦ withinLimits_closes hI hs.balanced hcloses) picked hdb hl
  | deleted | purged => exact withinLimits_releaseUsage hl
  | quotaCreated fresh applicationId limit capacity mode hfresh hlimit =>
      intro k q hk
      simp only [setQuotas, AList.lookup_insert'] at hk
      split at hk
      · cases hk
        exact ⟨⟨le_rfl, le_rfl⟩, fun _ ↦ by simpa [newQuota, Quota.WithinLimit] using hlimit⟩
      · exact hl k q hk
  | quotaOverwritten fresh id applicationId limit capacity htarget =>
      exact withinLimits_relimited (fun _ ↦ ⟨rfl, rfl, rfl⟩) hl fun q hq ↦ hc id q htarget hq
  | quotaRevoked id =>
      exact withinLimits_update hl fun q _ hnonneg _ ↦ ⟨hnonneg, fun h ↦ by simp at h⟩
  | platformLimitSet id limit capacity hallowed =>
      exact withinLimits_relimited (fun _ ↦ ⟨rfl, rfl, rfl⟩) hl fun q hq ↦ hc q hallowed hq
  | limitSet id limit hallowed =>
      exact withinLimits_relimited (fun _ ↦ ⟨rfl, rfl, rfl⟩) hl fun q hq ↦ hc q hallowed hq
  | appDeleted applicationId =>
      unfold Applications.deleteApp
      split
      · exact hl
      split
      · exact hl
      refine withinLimits_of_lookup hl (fun k ↦ AList.lookup_updateWhere _ _ _ _)
        fun k q _ hnonneg hwithin ↦ ?_
      split
      · exact ⟨hnonneg, fun h ↦ by simp at h⟩
      · exact ⟨hnonneg, hwithin⟩

theorem withinLimits_advance {c : Cmd} (hdb : Linked db) (hl : db.ledger.WithinLimits)
    (hc : KeepsCeiling db c) : (advance exec db c).ledger.WithinLimits :=
  advance_preserves (I := fun s ↦ s.ledger.WithinLimits) hl
    fun _ hok ↦ withinLimits_step hdb hl hc (exec_step hok)

/-- A limit below usage and reservations breaks the ceiling of an active quota. -/
theorem fits_of_withinLimits_update {id : Uuid} {limit : ℤ} {f : Quota → Quota} {q : Quota}
    (hq : l.quotas.lookup id = some q) (hactive : (f q).status = .active)
    (hf : (f q).usedBytes = q.usedBytes ∧ (f q).reservedBytes = q.reservedBytes ∧
      (f q).limitBytes = limit)
    (h : ∀ k q, (l.quotas.update id f).lookup k = some q → q.status = .active → q.WithinLimit) :
    q.usedBytes + q.reservedBytes ≤ limit := by
  have hwithin := h id (f q) (by simp [hq]) hactive
  obtain ⟨hused, hreserved, hlimit⟩ := hf
  rwa [Quota.WithinLimit, hused, hreserved, hlimit] at hwithin

theorem keepsCeiling_of_advance {c : Cmd} (h : CeilingHolds (advance exec db c)) :
    KeepsCeiling db c := by
  cases c with
  | commitVerifiedFile now fileId id =>
      intro row rid r hready hopen hfits k q hk hq hactive
      obtain ⟨row', db', hok⟩ := commitVerifiedFile_of_ready hready
      have hexec : exec (.commitVerifiedFile now fileId id) db = .ok db' :=
        exec_eq_ok.mpr ⟨row', hok⟩
      rw [advance_of_ok hexec,
        (commitVerifiedFile_eq_ok hok).eq_charged hready hopen hfits] at h
      have hcharged := h k (q.settleBytes r.requestedBytes (row.actualSize.getD 0 : ℕ)) (by
        change (Ledger.settle now rid r _ db.ledger).quotas.lookup k = _
        rw [Ledger.settle, Ledger.lookup_updateQuotas, hq]
        simp [hk]) hactive
      simp only [Quota.WithinLimit, Quota.settleBytes] at hcharged
      omega
  | createPlatformQuota fresh applicationId limit capacity =>
      intro id q htarget hq
      have hexec : exec (.createPlatformQuota fresh applicationId limit capacity) db =
          .ok (setQuotas (db.ledger.quotas.update id (relimit applicationId limit)) db) := by
        simp only [exec, Cmd.perform, createPlatformQuota_of_target htarget]
        rfl
      rw [advance_of_ok hexec] at h
      exact fits_of_withinLimits_update hq rfl ⟨rfl, rfl, rfl⟩ h
  | updatePlatformQuota id limit capacity =>
      intro q hallowed hq
      have hexec : exec (.updatePlatformQuota id limit capacity) db = .ok (setLimit id limit db) :=
        exec_eq_ok.mpr ⟨true, updatePlatformQuota_of_allowed hallowed⟩
      rw [advance_of_ok hexec] at h
      have hactive := active_of_updatePlatformQuotaAllowed hallowed hq
      exact fits_of_withinLimits_update (f := fun q ↦ { q with limitBytes := limit }) hq
        hactive ⟨rfl, rfl, rfl⟩ h
  | updateQuota id limit =>
      intro q hallowed hq
      have hexec : exec (.updateQuota id limit) db = .ok (setLimit id limit db) :=
        exec_eq_ok.mpr ⟨true, updateQuota_of_allowed hallowed⟩
      rw [advance_of_ok hexec] at h
      have hactive := active_of_updateQuotaAllowed hallowed hq
      exact fits_of_withinLimits_update (f := fun q ↦ { q with limitBytes := limit }) hq
        hactive ⟨rfl, rfl, rfl⟩ h
  | _ => trivial

theorem settleQuotaReservation_refused {now : Timestamp} {row : IngestionRecord}
    (h : (settleQuotaReservation now row l).1 = false) :
    (settleQuotaReservation now row l).2 = l := by
  have hsettled := settlement now row l
  generalize settleQuotaReservation now row l = out at hsettled h
  cases hsettled with
  | unreserved | charged => cases h
  | refused => rfl

/-- The ceiling holds in every state of a run exactly when none of its commands passes
one of the two weak checks inside the gap.  A rejected command changes nothing, nor
does the settlement when it refuses. -/
theorem quota_ceiling_iff (h : Unreserved db) (hempty : db.ingestions = ∅)
    (hl : db.ledger.WithinLimits) (cs : List Cmd) :
    ((∀ pre post, cs = pre ++ post → CeilingHolds (run exec db pre)) ↔
      Meets exec KeepsCeiling db cs) ∧
    (∀ s c e, exec c s = .error e → advance exec s c = s) ∧
    (∀ now row l, (settleQuotaReservation now row l).1 = false →
      (settleQuotaReservation now row l).2 = l) := by
  refine ⟨?_, fun _ _ _ ↦ advance_of_error, fun _ _ _ ↦ settleQuotaReservation_refused⟩
  have hdb := linked_of_unreserved h hempty
  clear h hempty
  induction cs generalizing db with
  | nil =>
      refine ⟨fun _ ↦ trivial, fun _ pre post heq ↦ ?_⟩
      obtain ⟨rfl, -⟩ := List.append_eq_nil_iff.mp heq.symm
      exact fun k q hk ↦ (hl k q hk).2
  | cons c cs ih =>
      have hstep : Linked (advance exec db c) := linked_run hdb [c]
      constructor
      · intro hall
        have hc := keepsCeiling_of_advance (hall [c] cs rfl)
        refine ⟨hc, (ih (withinLimits_advance hdb hl hc) hstep).mp fun pre post heq ↦ ?_⟩
        exact hall (c :: pre) post (by rw [heq, List.cons_append])
      · rintro ⟨hc, hrest⟩ pre post heq
        have hfirst := withinLimits_advance hdb hl hc
        cases pre with
        | nil => exact fun k q hk ↦ (hl k q hk).2
        | cons c' pre =>
            obtain ⟨rfl, hpost⟩ := List.cons.inj heq
            exact (ih hfirst hstep).mpr hrest pre post hpost

namespace Sample

theorem withinLimits : tenant.ledger.WithinLimits := by
  intro k q hk
  rw [tenant, AList.lookup_insert'] at hk
  split at hk
  · cases hk
    exact ⟨⟨le_rfl, le_rfl⟩, fun _ ↦ by decide⟩
  · simp at hk

/-- Two uploads hold the whole limit.  The provider is unavailable when the first is
completed, and the reconciler then finds an object of 100 bytes. -/
def overshoot : List Cmd :=
  [.createUploadIntent (ids 10) (session 40) (data "a"),
    .createUploadIntent (ids 20) (session 60) (data "b"),
    .failOrQuarantine 0 12 .reconciliationRequired .providerUnavailable,
    .recordProviderResult 12 (result 100 'a'),
    .commitVerifiedFile 0 30 12]

end Sample

theorem quota_ceiling_iff_overshoot :
    ((∀ pre post, Sample.overshoot = pre ++ post → CeilingHolds (run exec Sample.tenant pre)) ↔
      Meets exec KeepsCeiling Sample.tenant Sample.overshoot) ∧
    (∀ s c e, exec c s = .error e → advance exec s c = s) ∧
    (∀ now row l, (settleQuotaReservation now row l).1 = false →
      (settleQuotaReservation now row l).2 = l) :=
  quota_ceiling_iff Sample.unreserved rfl Sample.withinLimits Sample.overshoot

theorem quota_ceiling_fails : ¬ ∀ db, Unreserved db → db.ingestions = ∅ →
    db.ledger.WithinLimits → ∀ cs, CeilingHolds (run exec db cs) := by
  intro h
  have hrun := h Sample.tenant Sample.unreserved rfl Sample.withinLimits Sample.overshoot
  have hrow : (run exec Sample.tenant Sample.overshoot).ledger.quotas.lookup 1 =
      some { Sample.tenantQuota with usedBytes := 100, reservedBytes := 60 } := by decide
  exact absurd (hrun 1 _ hrow rfl) (by decide)

end S3mp
