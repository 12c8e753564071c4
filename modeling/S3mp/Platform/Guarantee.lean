import S3mp.Platform.Orderly

/-!
# The guarantee of an allocation

An application with a quota of its own is to find its free bytes in the tenant
total.  It does as long as the room the applications may still claim stays within
the room of the total.  An upload charged to an application moves both sides
alike; a quota made for an application which has used the shared pool before
moves one.
-/

namespace S3mp

open Relational Governance Files Applications Platform Transition

variable {t t' : Tenant} {db : Db} {l l' : Ledger} {quotas quotas' : Table Uuid Quota}

/-- The bytes the row still admits, below zero when it is over its limit. -/
def Governance.Quota.room (q : Quota) : ℤ :=
  q.limitBytes - q.usedBytes - q.reservedBytes

/-- What the applications may still claim under what the total still has. -/
def rooms : Measure := ⟨fun q ↦ max q.room 0, Quota.room⟩

theorem rooms_blind : rooms.Blind :=
  ⟨fun _ _ ↦ rfl, fun _ _ ↦ rfl⟩

/-- An upload an application has room for in its own quota is not refused for the total. -/
def Guaranteed (t : Tenant) : Prop :=
  ∀ fresh spaceId n space applicationId k q, t.db.spaces.lookup spaceId = some space →
    space.applicationId = some applicationId → t.quotas.lookup k = some q →
    q.applicationId = some applicationId → q.status = .active →
    activeTenantQuota t.quotas ≠ none → 0 ≤ n → fresh ∉ t.db.ledger.reservations →
    q.usedBytes + q.reservedBytes + n ≤ q.limitBytes →
    ∃ l', reserveQuota fresh spaceId n t.db.spaces t.db.ledger = .ok (fresh, l')

/-- Bytes charged, used or reserved. -/
def charges : Measure :=
  ⟨fun q ↦ q.usedBytes + q.reservedBytes, fun q ↦ q.usedBytes + q.reservedBytes⟩

/-- What the total is charged beyond the applications in force fits beside their limits. -/
def SharedPoolKept (t : Tenant) : Prop :=
  ∀ k total, activeTenantQuota t.quotas = some (k, total) →
    charges.size total - granted charges inForce t.quotas ≤
      total.limitBytes - granted limits inForce t.quotas

/-! ## The commands which take room -/

/-- No application in force is over its limit. -/
def ApplicationsWithin (quotas : Table Uuid Quota) : Prop :=
  ∀ k q, quotas.lookup k = some q → q.applicationId.isSome → inForce q → q.WithinLimit

/-- An upload to the shared pool leaves the applications their room; it does when none of them
is over its limit. -/
def KeepsShared (t : Tenant) (session : SessionData) : Prop :=
  ∀ space, t.db.spaces.lookup session.storageSpaceId = some space →
    reserveQuota.scopedQuota t.db.ledger space = none →
    ApplicationsWithin t.quotas ∨ ∀ k total, activeTenantQuota t.quotas = some (k, total) →
      session.contentLength + granted rooms inForce t.quotas ≤ total.room

/-- What a file needs beyond its reservation is in the total's room, or in the room of an
application the reservation names. -/
def KeepsSettled (t : Tenant) (fileId id : Uuid) : Prop :=
  ∀ row rid r k total, CommitReady fileId id row t.db →
    t.db.ledger.openReservation row.quotaReservationId = some (rid, r) →
    ¬ Overcharged t.db.ledger r (row.actualSize.getD 0) →
    activeTenantQuota t.quotas = some (k, total) → k ∈ r.quotaIds →
    row.actualSize.getD 0 - r.requestedBytes + granted rooms inForce t.quotas ≤ total.room ∨
      ∃ j q, j ∈ r.quotaIds ∧ t.quotas.lookup j = some q ∧ q.applicationId.isSome ∧ inForce q ∧
        row.actualSize.getD 0 - r.requestedBytes ≤ q.room

/-- The bytes the row gets back with the file. -/
def givenBack (reason : AdjustmentReason) (fileId : Uuid) (f : FileObject) (l : Ledger) (k : Uuid)
    (q : Quota) : ℤ :=
  if releasesFrom f q ∧ l.adjusted reason fileId k = false then
    min (max q.usedBytes 0) f.contentLength
  else 0

/-- An application gets back no more than the total, or the total has room for the difference. -/
def KeepsReleased (t : Tenant) (reason : AdjustmentReason) (fileId : Uuid) (f : FileObject) : Prop :=
  ∀ j q k total, t.quotas.lookup j = some q → q.applicationId.isSome → inForce q →
    activeTenantQuota t.quotas = some (k, total) →
    givenBack reason fileId f t.db.ledger j q + granted rooms inForce t.quotas ≤
      total.room + givenBack reason fileId f t.db.ledger k total

/-- The room of the row a creation writes. -/
def targetRoom (quotas : Table Uuid Quota) (limit : ℤ) (target : Option Uuid) : ℤ :=
  limit - ((target.bind quotas.lookup).map charges.size).getD 0

/-- New limits, and rows woken, leave every application its room. -/
def KeepsRoom (t : Tenant) : TenantCmd → Prop
  | .stored (.createUploadIntent _ session _) => KeepsShared t session
  | .stored (.createMultipartIntent _ session _) => KeepsShared t session
  | .stored (.commitVerifiedFile _ fileId id) => KeepsSettled t fileId id
  | .stored (.finalizeFileDelete _ fileId) => ∀ f, t.db.files.lookup fileId = some f →
      f.status = .deleting → KeepsReleased t .fileDeleted fileId f
  | .stored (.finalizeRetainedFilePurge _ fileId) => ∀ f, t.db.files.lookup fileId = some f →
      f.softDeleted = true → f.purgeState = some .processing →
      KeepsReleased t .fileRetentionPurged fileId f
  | .stored (.createPlatformQuota fresh applicationId limit capacity) => ∀ target,
      createPlatformQuotaTarget applicationId limit capacity t.db = .ok target →
      (target = none → fresh ∉ t.quotas) →
      match applicationId with
      | none => granted rooms inForce t.quotas ≤ targetRoom t.quotas limit target
      | some applicationId => ∀ k total, activeTenantQuota t.quotas = some (k, total) →
          granted rooms (others applicationId) t.quotas +
            max (targetRoom t.quotas limit target) 0 ≤ total.room
  | .stored (.updatePlatformQuota id limit capacity) => ∀ q,
      updatePlatformQuotaAllowed id limit capacity t.db = .ok true →
      t.quotas.lookup id = some q → Fits rooms t.quotas { q with limitBytes := limit }
  | .stored (.updateQuota id limit) => ∀ q, updateQuotaAllowed id limit t.db = .ok true →
      t.quotas.lookup id = some q → Fits rooms t.quotas { q with limitBytes := limit }
  | c => WakesCovered rooms t c

/-! ## What the invariant says -/

theorem room_le_granted {k : Uuid} {q : Quota} (hk : quotas.lookup k = some q)
    (happ : q.applicationId.isSome) (hforce : inForce q) :
    q.room ≤ granted rooms inForce quotas := by
  have hle : grant rooms inForce q ≤ granted rooms inForce quotas := by
    refine AList.le_total (w := fun _ q ↦ grant rooms inForce q) (fun j r _ ↦ ?_) hk
    unfold grant
    split
    · exact le_max_right _ _
    · exact le_rfl
  have hgrant : grant rooms inForce q = max q.room 0 := by
    simp [grant, rooms, happ, hforce]
  exact (le_max_left _ _).trans (hgrant ▸ hle)

theorem scopedQuota_of_row {space : StorageSpace} {applicationId k : Uuid} {q : Quota}
    (hkept : WellKept l.quotas) (hspace : space.applicationId = some applicationId)
    (hk : l.quotas.lookup k = some q) (happ : q.applicationId = some applicationId)
    (hactive : q.status = .active) : reserveQuota.scopedQuota l space = some (k, q) := by
  cases hscoped : reserveQuota.scopedQuota l space with
  | none =>
      unfold reserveQuota.scopedQuota at hscoped
      rw [hspace] at hscoped
      have hnone := AList.selectFirst_eq_none.mp hscoped k q hk
      simp [happ, hactive] at hnone
  | some row =>
      obtain ⟨j, r⟩ := row
      obtain ⟨hj, -, hsame, -⟩ := scopedQuota_eq_some hscoped
      have hjk : j = k :=
        hkept.one_row j k r q hj hk (by simp [hsame, hspace]) (by rw [hsame, hspace, happ])
      subst hjk
      rw [Option.some.inj (hj.symm.trans hk)]

theorem guaranteed_of_covered (hkept : WellKept t.quotas) (h : Covered rooms inForce t.quotas) :
    Guaranteed t := by
  intro fresh spaceId n space applicationId k q hspace happ hk hqapp hactive htenant hn hfresh hfits
  obtain ⟨⟨tenantId, total⟩, htotal⟩ := Option.ne_none_iff_exists'.mp htenant
  obtain ⟨htlookup, htrow, htactive⟩ := lookup_activeTenantQuota htotal
  have hclaim : q.room ≤ granted rooms inForce t.quotas :=
    room_le_granted hk (hqapp ▸ rfl) (decide_eq_true hactive)
  have hroom : granted rooms inForce t.quotas ≤ total.room :=
    h tenantId total htlookup htrow (decide_eq_true htactive)
  have htfits : total.usedBytes + total.reservedBytes + n ≤ total.limitBytes := by
    simp only [Quota.room] at hclaim hroom
    omega
  have hscoped := scopedQuota_of_row (l := t.db.ledger) hkept happ hk hqapp hactive
  exact ⟨_, reserveQuota_of_scoped hspace hn htotal hscoped hfits htfits hfresh⟩

theorem sharedPoolKept_of_covered (h : Covered rooms inForce t.quotas) : SharedPoolKept t := by
  intro k total htotal
  obtain ⟨hk, hrow, hactive⟩ := lookup_activeTenantQuota (l := t.db.ledger) htotal
  have hroom : granted rooms inForce t.quotas ≤ total.room :=
    h k total hk hrow (decide_eq_true hactive)
  have hsum : granted limits inForce t.quotas ≤
      granted charges inForce t.quotas + granted rooms inForce t.quotas := by
    unfold granted
    rw [← AList.total_add]
    refine AList.total_le_total fun j ↦ ?_
    unfold AList.weightAt
    cases t.quotas.lookup j with
    | none => exact le_rfl
    | some q =>
        have hle := le_max_left q.room 0
        simp only [Quota.room] at hle
        simp only [grant, limits, charges, rooms, Quota.room]
        split
        · omega
        · exact le_rfl
  simp only [Quota.room] at hroom
  simp only [charges] at hsum ⊢
  omega

/-! ## The counters -/

section Counters

variable {g : Uuid → Quota → Quota}

theorem grant_of_terms {q q' : Quota} (hterms : q'.terms = q.terms) (hroom : q'.room = q.room) :
    grant rooms inForce q' = grant rooms inForce q := by
  obtain ⟨-, hstatus, happ, -⟩ := terms_eq hterms
  have hforce : inForce q' = inForce q := by rw [inForce, inForce, hstatus]
  rw [grant, grant, hforce, happ]
  simp only [rooms, hroom]

theorem grant_of_not {q : Quota} (h : (q.applicationId.isSome && inForce q) = false) :
    grant rooms inForce q = 0 := by
  rw [grant, h]
  rfl

/-- Where the applications keep their room the sum stays. -/
theorem granted_kept (hlookup : ∀ k, quotas'.lookup k = (quotas.lookup k).map (g k))
    (hg : ∀ k q, (g k q).terms = q.terms)
    (hkept : ∀ j r, quotas.lookup j = some r → r.applicationId.isSome → inForce r →
      (g j r).room = r.room) :
    granted rooms inForce quotas' = granted rooms inForce quotas := by
  refine AList.total_congr fun j ↦ ?_
  rw [AList.weightAt, AList.weightAt, hlookup]
  cases hr : quotas.lookup j with
  | none => rfl
  | some r =>
      obtain ⟨-, hstatus, happ, -⟩ := terms_eq (hg j r)
      change grant rooms inForce (g j r) = grant rooms inForce r
      cases hin : r.applicationId.isSome && inForce r with
      | true =>
          rw [Bool.and_eq_true] at hin
          exact grant_of_terms (hg j r) (hkept j r hr hin.1 hin.2)
      | false =>
          have hin' : ((g j r).applicationId.isSome && inForce (g j r)) = false := by
            rw [inForce, hstatus, happ]
            exact hin
          rw [grant_of_not hin, grant_of_not hin']

/-- Where one application alone gets another room, its share alone changes. -/
theorem granted_moved {a : Uuid} {q : Quota}
    (hlookup : ∀ k, quotas'.lookup k = (quotas.lookup k).map (g k))
    (hg : ∀ k q, (g k q).terms = q.terms) (hq : quotas.lookup a = some q)
    (happ : q.applicationId.isSome) (hforce : inForce q)
    (hkept : ∀ j r, j ≠ a → quotas.lookup j = some r → r.applicationId.isSome →
      (g j r).room = r.room) :
    granted rooms inForce quotas' =
      granted rooms inForce quotas - max q.room 0 + max (g a q).room 0 := by
  obtain ⟨-, hstatus, hsame, -⟩ := terms_eq (hg a q)
  have hold : quotas.weightAt (fun _ ↦ grant rooms inForce) a = max q.room 0 := by
    rw [AList.weightAt_of_lookup hq]
    simp [grant, rooms, happ, hforce]
  have hnew : quotas'.weightAt (fun _ ↦ grant rooms inForce) a = max (g a q).room 0 := by
    have hforce' : inForce (g a q) = true := by
      rw [inForce, hstatus]
      exact hforce
    rw [AList.weightAt_of_lookup (v := g a q) (by rw [hlookup, hq, Option.map_some])]
    simp [grant, rooms, hsame, happ, hforce']
  rw [← hold, ← hnew]
  refine AList.total_of_agree_off a fun j hj ↦ ?_
  rw [AList.weightAt, AList.weightAt, hlookup]
  cases hr : quotas.lookup j with
  | none => rfl
  | some r =>
      obtain ⟨-, hstatus, hsame, -⟩ := terms_eq (hg j r)
      change grant rooms inForce (g j r) = grant rooms inForce r
      cases hsome : r.applicationId.isSome with
      | true => exact grant_of_terms (hg j r) (hkept j r hj hr hsome)
      | false => simp [grant, hsame, hsome]

/-- It is enough to look at the total the store looks up. -/
theorem covered_of_total (hone : oneActiveTotal quotas)
    (hlookup : ∀ k, quotas'.lookup k = (quotas.lookup k).map (g k))
    (hg : ∀ k q, (g k q).terms = q.terms)
    (hroom : ∀ k total, activeTenantQuota quotas = some (k, total) →
      granted rooms inForce quotas' ≤ (g k total).room) : Covered rooms inForce quotas' := by
  intro k total' hk htotal hforce
  obtain ⟨total, hktotal, rfl⟩ := Option.map_eq_some_iff.mp ((hlookup k).symm.trans hk)
  have hrow : total.isTenantTotal = true := isTenantTotal_congr (hg k total) ▸ htotal
  have hactive : inForce total = true := by
    rw [inForce, (terms_eq (hg k total)).2.1] at hforce
    exact hforce
  exact hroom k total (activeTenantQuota_of_total hone hktotal hrow hactive)

end Counters

theorem room_le_total {k : Uuid} {total : Quota} (h : Covered rooms inForce l.quotas)
    (htotal : activeTenantQuota l.quotas = some (k, total)) :
    granted rooms inForce l.quotas ≤ total.room := by
  obtain ⟨hk, hrow, hactive⟩ := lookup_activeTenantQuota htotal
  exact h k total hk hrow (decide_eq_true hactive)

/-- The counters of the quotas a reservation names move together: each of them loses `extra`
bytes of room, which the total has beside the applications, or the application named has. -/
theorem covered_reservation {r : QuotaReservation} {f : Quota → Quota} (extra : ℤ)
    (hone : oneActiveTotal l.quotas) (hsingle : SingleTotal l.quotas) (hshaped : Shaped l.quotas r)
    (h : Covered rooms inForce l.quotas) (hf : ∀ q, (f q).terms = q.terms)
    (hroom : ∀ q, (f q).room = q.room - extra)
    (hextra : ∀ k total, activeTenantQuota l.quotas = some (k, total) → k ∈ r.quotaIds →
      extra + granted rooms inForce l.quotas ≤ total.room ∨
        ∃ a q, a ∈ r.quotaIds ∧ l.quotas.lookup a = some q ∧ q.applicationId.isSome ∧ inForce q ∧
          extra ≤ q.room) :
    Covered rooms inForce (l.updateQuotas r.quotaIds f).quotas := by
  have hlookup := Ledger.lookup_updateQuotas r.quotaIds f l
  have hterms : ∀ k q, (if k ∈ r.quotaIds then f q else q).terms = q.terms := by
    intro k q
    split
    · exact hf q
    · rfl
  refine covered_of_total hone hlookup hterms fun k total htotal ↦ ?_
  have hcovered := room_le_total h htotal
  by_cases hex : ∃ a q, a ∈ r.quotaIds ∧ l.quotas.lookup a = some q ∧ q.applicationId.isSome ∧
      inForce q
  · obtain ⟨a, q, ha, hq, happ, hforce⟩ := hex
    have hk := hshaped.total_named hsingle ha hq happ htotal
    have hsum := granted_moved hlookup hterms hq happ hforce fun j s hj hs hsapp ↦ by
      rw [if_neg fun hmem ↦ hj ((hshaped a q ha hq happ).1 j s hmem hs hsapp)]
    rw [hsum, if_pos ha, if_pos hk, hroom, hroom]
    rcases hextra k total htotal hk with hfits | ⟨b, s, hb, hs, hsapp, -, hfits⟩
    · omega
    · obtain rfl := (hshaped a q ha hq happ).1 b s hb hs hsapp
      obtain rfl := Option.some.inj (hq.symm.trans hs)
      omega
  · have hsum := granted_kept hlookup hterms fun j s hs hsapp hsforce ↦ by
      rw [if_neg fun hmem ↦ hex ⟨j, s, hmem, hs, hsapp, hsforce⟩]
    rw [hsum]
    split
    · rename_i hk
      rw [hroom]
      rcases hextra k total htotal hk with hfits | ⟨a, q, ha, hq, happ, hforce, -⟩
      · omega
      · exact absurd ⟨a, q, ha, hq, happ, hforce⟩ hex
    · exact hcovered

theorem covered_settle {now : Timestamp} {id : Uuid} {r : QuotaReservation} {actual : ℤ}
    (hl : WellNamed l) (h : Covered rooms inForce l.quotas)
    (hid : l.reservations.lookup id = some r) (hopen : r.status = .reserved)
    (hextra : ∀ k total, activeTenantQuota l.quotas = some (k, total) → k ∈ r.quotaIds →
      actual - r.requestedBytes + granted rooms inForce l.quotas ≤ total.room ∨
        ∃ a q, a ∈ r.quotaIds ∧ l.quotas.lookup a = some q ∧ q.applicationId.isSome ∧ inForce q ∧
          actual - r.requestedBytes ≤ q.room) :
    Covered rooms inForce (l.settle now id r actual).quotas := by
  refine covered_reservation _ hl.one hl.single (hl.shaped id r hid hopen) h (fun _ ↦ rfl)
    (fun q ↦ ?_) hextra
  simp only [Quota.room, Quota.settleBytes]
  omega

theorem covered_closes {now : Timestamp} (hl : WellNamed l) (hbalanced : l.Balanced)
    (h : Covered rooms inForce l.quotas) (hcloses : Closes now l l') :
    Covered rooms inForce l'.quotas := by
  cases hcloses with
  | nothing => exact h
  | closed id r status hid hopen hstatus hcharge =>
      have hnonneg := hbalanced.requested_nonneg id r hid
      refine covered_reservation (-r.requestedBytes) hl.one hl.single
        (hl.shaped id r hid hopen) h (fun _ ↦ rfl) (fun q ↦ ?_) fun k total htotal _ ↦ Or.inl ?_
      · simp only [Quota.room, Quota.subReserved]
        omega
      · have hle := room_le_total h htotal
        omega

theorem covered_reap {now : Timestamp} {picked : List Uuid} (hdb : Linked db)
    (hl : WellNamed db.ledger) (h : Covered rooms inForce db.ledger.quotas) :
    Covered rooms inForce (reapOrphanReservations now picked db).ledger.quotas := by
  refine And.right (reap_preserves
    (I := fun s : Db ↦ WellNamed s.ledger ∧ Covered rooms inForce s.ledger.quotas)
    (fun s l' hs hI hcloses ↦ ?_) picked hdb ⟨hl, h⟩)
  exact ⟨hI.1.closes hs.balanced hcloses, covered_closes hI.1 hs.balanced hI.2 hcloses⟩

/-! ## Uploads -/

theorem granted_eq_sum (m : Measure) :
    granted m inForce quotas =
      (((activeApplicationQuotas quotas).map Prod.snd).map m.share).sum := by
  have hsum := AList.sum_filter_select (fun _ q ↦ q.applicationId.isSome && q.status = .active)
    (fun _ ↦ true) m.share quotas
  rw [List.filter_true] at hsum
  unfold activeApplicationQuotas
  rw [hsum]
  unfold granted
  congr 1
  funext k q
  simp [grant, inForce]

/-- The snapshot does not count less than the room the applications have. -/
theorem sum_room_le {applications : List Quota} (hwithin : ∀ q ∈ applications, q.WithinLimit)
    (hnonneg : ∀ q ∈ applications, q.NonNeg) :
    (applications.map rooms.share).sum ≤
      (applications.map fun q ↦ max q.limitBytes 0).sum -
        (applications.map fun q ↦ max q.usedBytes 0).sum -
        (applications.map fun q ↦ max q.reservedBytes 0).sum := by
  induction applications with
  | nil => simp
  | cons q qs ih =>
      have hq := hwithin q List.mem_cons_self
      have hn := hnonneg q List.mem_cons_self
      have hrest := ih (fun p hp ↦ hwithin p (List.mem_cons_of_mem q hp))
        (fun p hp ↦ hnonneg p (List.mem_cons_of_mem q hp))
      simp only [Quota.WithinLimit] at hq
      simp only [Quota.NonNeg] at hn
      simp only [List.map_cons, List.sum_cons, rooms, Quota.room] at hrest ⊢
      omega

/-- A request within the shared pool leaves the applications their room. -/
theorem room_of_sharedPool {n : ℤ} {total : Quota} (hn : 0 < n)
    (hwithin : ApplicationsWithin quotas)
    (hnonneg : ∀ k q, quotas.lookup k = some q → q.NonNeg)
    (hfits : n ≤ (buildSnapshot total
      ((activeApplicationQuotas quotas).map Prod.snd)).sharedPoolAvailable) :
    n + granted rooms inForce quotas ≤ total.room := by
  have hrows : ∀ q ∈ (activeApplicationQuotas quotas).map Prod.snd, q.WithinLimit ∧ q.NonNeg := by
    intro q hq
    obtain ⟨⟨k, q'⟩, hmem, rfl⟩ := List.mem_map.mp hq
    obtain ⟨hk, hp⟩ := AList.mem_select_iff.mp hmem
    rw [Bool.and_eq_true] at hp
    exact ⟨hwithin k q' hk hp.1 hp.2, hnonneg k q' hk⟩
  have hsum := sum_room_le (fun q hq ↦ (hrows q hq).1) fun q hq ↦ (hrows q hq).2
  have hlimits : 0 ≤ (((activeApplicationQuotas quotas).map Prod.snd).map
      fun q ↦ max q.limitBytes 0).sum := by
    refine List.sum_nonneg fun x hx ↦ ?_
    obtain ⟨q, -, rfl⟩ := List.mem_map.mp hx
    exact le_max_right _ _
  rw [granted_eq_sum]
  simp only [AllocationSnapshot.sharedPoolAvailable, AllocationSnapshot.sharedPoolLimit,
    AllocationSnapshot.sharedPoolUsed, AllocationSnapshot.sharedPoolReserved,
    buildSnapshot] at hfits
  simp only [Quota.room]
  omega

theorem covered_upload {fresh id : Uuid} {session : SessionData} (ht : Orderly t)
    (h : Covered rooms inForce t.quotas) (hc : KeepsShared t session)
    (hreserve : reserveQuota fresh session.storageSpaceId session.contentLength t.db.spaces
      t.db.ledger = .ok (id, l')) : Covered rooms inForce l'.quotas := by
  obtain ⟨-, r₀, hr₀, hadmits, -⟩ := reserveQuota_eq_ok hreserve
  have hn : 0 ≤ session.contentLength := hr₀ ▸ hadmits.nonneg
  have hadmission := reserveQuota_admission hreserve
  have hroom : ∀ q : Quota, (q.addReserved session.contentLength).room =
      q.room - session.contentLength := by
    intro q
    simp only [Quota.room, Quota.addReserved]
    omega
  have hshaped := fun r ↦ shaped_of_admission (r := r) hadmission
  cases hadmission with
  | application space k tenantId q total hspace hscoped htenant hfits =>
      obtain ⟨hk, happ, hsame, hactive⟩ := scopedQuota_eq_some hscoped
      refine covered_reservation _ ht.wellNamed.one ht.single (hshaped _ (AList.lookup_insert _)) h
        (fun _ ↦ rfl) hroom fun _ _ _ _ ↦ Or.inr ⟨k, q, ?_, hk, hsame ▸ happ,
          decide_eq_true hactive, ?_⟩
      · rw [mem_quotaIds_newReservation]
        exact Or.inl rfl
      · simp only [Quota.room]
        omega
  | shared space tenantId total hspace hscoped htenant hfits =>
      refine covered_reservation _ ht.wellNamed.one ht.single (hshaped _ (AList.lookup_insert _)) h
        (fun _ ↦ rfl) hroom fun k total' htotal _ ↦ Or.inl ?_
      obtain ⟨rfl, rfl⟩ := Prod.mk.inj (Option.some.inj (htenant.symm.trans htotal))
      rcases hc space hspace hscoped with hwithin | hkeeps
      · rcases hn.lt_or_eq with hpos | hzero
        · exact room_of_sharedPool hpos hwithin
            (fun j q hj ↦ ⟨ht.used j q hj, ht.linked.balanced.reserved_nonneg hj⟩) hfits
        · rw [← hzero, zero_add]
          exact room_le_total h htotal
      · exact hkeeps tenantId total htotal
  | legacy k q htenant hq happ =>
      refine covered_reservation _ ht.wellNamed.one ht.single (hshaped _ (AList.lookup_insert _)) h
        (fun _ ↦ rfl) hroom fun j total htotal _ ↦ ?_
      rw [htenant] at htotal
      cases htotal

/-! ## Releases -/

theorem givenBack_nonneg {reason : AdjustmentReason} {fileId k : Uuid} {f : FileObject} {q : Quota} :
    0 ≤ givenBack reason fileId f l k q := by
  unfold givenBack
  split
  · omega
  · exact le_rfl

/-- The application quota a file is released from is that of its application. -/
theorem application_of_releases {f : FileObject} {q : Quota} (h : releasesFrom f q)
    (happ : q.applicationId.isSome) (hspace : q.storageSpaceId = none) :
    f.applicationId = q.applicationId := by
  have htotal := not_total_of_application happ
  cases hf : f.applicationId with
  | none => simp [releasesFrom, hf, htotal, hspace] at h
  | some a =>
      simp only [releasesFrom, hf, htotal, Bool.or_false, decide_eq_true_eq] at h
      exact h.symm

theorem covered_release {reason : AdjustmentReason} {fileId : Uuid} {f : FileObject}
    (ht : Orderly t) (h : Covered rooms inForce t.quotas)
    (hc : KeepsReleased t reason fileId f) :
    Covered rooms inForce (releaseUsage reason fileId f t.db.ledger).quotas := by
  have hlookup : ∀ k, (releaseUsage reason fileId f t.db.ledger).quotas.lookup k = _ :=
    lookup_releaseUsage
  let g : Uuid → Quota → Quota := fun k q ↦
    if releasesFrom f q ∧ t.db.ledger.adjusted reason fileId k = false then
      q.subUsed (min (max q.usedBytes 0) f.contentLength) else q
  have hterms : ∀ k q, (g k q).terms = q.terms := by
    intro k q
    dsimp only [g]
    split
    · rfl
    · rfl
  have hroom : ∀ k q, (g k q).room = q.room + givenBack reason fileId f t.db.ledger k q := by
    intro k q
    dsimp only [g]
    unfold givenBack
    split
    · simp only [Quota.room, Quota.subUsed]
      omega
    · exact (add_zero _).symm
  refine covered_of_total (g := g) t.one_total hlookup hterms fun k total htotal ↦ ?_
  have hcovered : granted rooms inForce t.quotas ≤ total.room :=
    room_le_total (l := t.db.ledger) h htotal
  have hback : 0 ≤ givenBack reason fileId f t.db.ledger k total := givenBack_nonneg
  rw [hroom]
  by_cases hex : ∃ a q, t.quotas.lookup a = some q ∧ q.applicationId.isSome ∧ inForce q ∧
      releasesFrom f q
  · obtain ⟨a, q, hq, happ, hforce, hreleases⟩ := hex
    have hsum : granted rooms inForce (releaseUsage reason fileId f t.db.ledger).quotas =
        granted rooms inForce t.quotas - max q.room 0 + max (g a q).room 0 := by
      refine granted_moved (g := g) hlookup hterms hq happ hforce fun j s hj hs hsapp ↦ ?_
      have hnot : releasesFrom f s = false := by
        rw [← Bool.not_eq_true]
        intro hsreleases
        have hsame := (application_of_releases hreleases happ (ht.plain a q hq happ)).symm.trans
          (application_of_releases hsreleases hsapp (ht.plain j s hs hsapp))
        exact hj (ht.kept.one_row a j q s hq hs happ hsame).symm
      rw [hroom]
      simp [givenBack, hnot]
    have hfits := hc a q k total hq happ hforce htotal
    have hagain : 0 ≤ givenBack reason fileId f t.db.ledger a q := givenBack_nonneg
    rw [hsum, hroom]
    omega
  · have hsum : granted rooms inForce (releaseUsage reason fileId f t.db.ledger).quotas =
        granted rooms inForce t.quotas := by
      refine granted_kept (g := g) hlookup hterms fun j s hs hsapp hsforce ↦ ?_
      have hnot : releasesFrom f s = false := by
        rw [← Bool.not_eq_true]
        exact fun hreleases ↦ hex ⟨j, s, hs, hsapp, hsforce, hreleases⟩
      rw [hroom]
      simp [givenBack, hnot]
    rw [hsum]
    omega

/-! ## The administration -/

theorem rooms_nonneg (k : Uuid) (q : Quota) (_ : quotas.lookup k = some q)
    (_ : q.applicationId.isSome) : 0 ≤ rooms.share q :=
  le_max_right _ _

theorem covered_quotaCreated {fresh : Uuid} {applicationId : Option Uuid} {limit : ℤ}
    {capacity : Option ℤ} {mode : QuotaAllocationMode} (h : Covered rooms inForce t.quotas)
    (hc : KeepsRoom t (.stored (.createPlatformQuota fresh applicationId limit capacity)))
    (htarget : createPlatformQuotaTarget applicationId limit capacity t.db = .ok none)
    (hfresh : fresh ∉ t.quotas) :
    Covered rooms inForce (t.quotas.insert fresh (newQuota applicationId limit mode)) := by
  have hkeeps := hc none htarget fun _ ↦ hfresh
  have hroom : (newQuota applicationId limit mode).room = targetRoom t.quotas limit none := by
    simp [Quota.room, newQuota, targetRoom]
  cases applicationId with
  | none =>
      refine covered_insert t.one_total h hfresh (fun _ _ _ hsome ↦ by cases hsome) rfl ?_
      exact fits_of_other rfl fun _ ↦ hkeeps.trans hroom.ge
  | some applicationId =>
      obtain ⟨-, hothers⟩ := target_of_application htarget
      refine covered_insert t.one_total h hfresh (fun j q hq _ ↦ hothers rfl j q hq) rfl ?_
      refine fits_of_application rfl fun k total htotal ↦ ?_
      change _ + max (newQuota (some applicationId) limit mode).room 0 ≤ total.room
      rw [hroom]
      exact hkeeps k total htotal

theorem covered_quotaOverwritten {fresh id : Uuid} {applicationId : Option Uuid} {limit : ℤ}
    {capacity : Option ℤ} (hkept : WellKept t.quotas) (h : Covered rooms inForce t.quotas)
    (hc : KeepsRoom t (.stored (.createPlatformQuota fresh applicationId limit capacity)))
    (htarget : createPlatformQuotaTarget applicationId limit capacity t.db = .ok (some id)) :
    Covered rooms inForce (t.quotas.update id (relimit applicationId limit)) := by
  have hkeeps := hc (some id) htarget (fun h ↦ by cases h)
  obtain ⟨q, hq, hrow⟩ := overwritten_row htarget
  have hq : t.quotas.lookup id = some q := hq
  have hroom : (relimit applicationId limit q).room = targetRoom t.quotas limit (some id) := by
    simp only [Quota.room, relimit, targetRoom, Option.bind_some, hq, Option.map_some, charges,
      Option.getD_some]
    omega
  refine covered_update t.one_total hkept h hq rfl rfl ?_
  rcases hrow with ⟨rfl, htotal, -⟩ | ⟨happ, hsame⟩
  · exact fits_of_other (applicationId_of_total htotal) fun _ ↦ hkeeps.trans hroom.ge
  · obtain ⟨a, rfl⟩ := Option.isSome_iff_exists.mp happ
    refine fits_of_application hsame fun k total htotal ↦ ?_
    change _ + max (relimit (some a) limit q).room 0 ≤ total.room
    rw [hroom]
    exact hkeeps k total htotal

/-- A limit is set so that it fits. -/
theorem fits_of_keeps {c : Cmd} {id : Uuid} {limit : ℤ} {q : Quota}
    (hc : KeepsRoom t (.stored c)) (hlimit : c.limits t.db id limit)
    (hq : t.quotas.lookup id = some q) : Fits rooms t.quotas { q with limitBytes := limit } := by
  cases c with
  | updatePlatformQuota id' limit' capacity =>
      obtain ⟨rfl, rfl, hallowed⟩ := hlimit
      exact hc q hallowed hq
  | updateQuota id' limit' =>
      obtain ⟨rfl, rfl, hallowed⟩ := hlimit
      exact hc q hallowed hq
  | _ => exact hlimit.elim

theorem covered_limitSet {c : Cmd} {id : Uuid} {limit : ℤ} (hkept : WellKept t.quotas)
    (h : Covered rooms inForce t.quotas) (hc : KeepsRoom t (.stored c))
    (hlimit : c.limits t.db id limit) :
    Covered rooms inForce (t.quotas.update id fun q ↦ { q with limitBytes := limit }) := by
  obtain ⟨q, hq, hactive⟩ := active_of_limits hlimit
  exact covered_update t.one_total hkept h hq rfl hactive (fits_of_keeps hc hlimit hq)

/-- Rows which leave force only make room. -/
theorem covered_left {p : Uuid → Quota → Bool} {f : Quota → Quota}
    (h : Covered rooms inForce quotas) (hf : ∀ q, inForce (f q) = false) :
    Covered rooms inForce (quotas.updateWhere p f) := by
  refine covered_of_shrunk rooms_nonneg h (AList.lookup_updateWhere _ _ _) fun k q _ ↦ ?_
  split
  · exact Or.inr (hf q)
  · exact Or.inl rfl

theorem covered_administered {c : Cmd} (hadmin : c.administers = true) (ht : Orderly t)
    (h : Covered rooms inForce t.quotas) (hc : KeepsRoom t (.stored c))
    (hexec : exec c t.db = .ok db) : Covered rooms inForce db.ledger.quotas := by
  obtain ⟨answer, hexec⟩ := exec_eq_ok.mp hexec
  cases c with
  | createPlatformQuota fresh applicationId limit capacity =>
      simp only [Cmd.perform] at hexec
      cases hcreate : createPlatformQuota fresh applicationId limit capacity t.db with
      | error e =>
          rw [hcreate] at hexec
          cases hexec
      | ok db₁ =>
          rw [hcreate] at hexec
          cases hexec
          rcases createPlatformQuota_eq_ok hcreate with
            ⟨htarget, hfresh, mode, rfl⟩ | ⟨id, htarget, rfl⟩
          · exact covered_quotaCreated h hc htarget hfresh
          · exact covered_quotaOverwritten ht.kept h hc htarget
  | revokePlatformQuota id =>
      rcases revokePlatformQuota_eq_ok hexec with rfl | rfl
      · exact h
      · exact covered_left h fun _ ↦ rfl
  | updatePlatformQuota id limit capacity =>
      rcases updatePlatformQuota_eq_ok hexec with rfl | ⟨hallowed, rfl⟩
      · exact h
      · exact covered_limitSet ht.kept h hc ⟨rfl, rfl, hallowed⟩
  | updateQuota id limit =>
      rcases updateQuota_eq_ok hexec with rfl | ⟨hallowed, rfl⟩
      · exact h
      · exact covered_limitSet ht.kept h hc ⟨rfl, rfl, hallowed⟩
  | deleteApp applicationId =>
      have hdb : (deleteApp applicationId t.db).2 = db := congrArg Prod.snd (Except.ok.inj hexec)
      rw [← hdb]
      unfold Applications.deleteApp
      split
      · exact h
      split
      · exact h
      · exact covered_left h fun _ ↦ rfl
  | _ => cases hadmin

/-! ## Steps and runs -/

theorem covered_opens {c : Cmd} (hopens : c.opens = true) (ht : Orderly t)
    (h : Covered rooms inForce t.quotas) (hc : KeepsRoom t (.stored c))
    (hexec : exec c t.db = .ok db) : Covered rooms inForce db.ledger.quotas := by
  obtain ⟨answer, hexec⟩ := exec_eq_ok.mp hexec
  cases c with
  | createUploadIntent ids session data =>
      rcases createUploadIntent_reserves hexec with rfl | ⟨id, hreserve⟩
      · exact h
      · exact covered_upload ht h hc hreserve
  | createMultipartIntent ids session data =>
      rcases createMultipartIntent_reserves hexec with rfl | ⟨id, hreserve⟩
      · exact h
      · exact covered_upload ht h hc hreserve
  | _ => cases hopens

theorem covered_stored {c : Cmd} (ht : Orderly t) (h : Covered rooms inForce t.quotas)
    (hc : KeepsRoom t (.stored c)) (hexec : exec c t.db = .ok db) :
    Covered rooms inForce db.ledger.quotas := by
  cases hopens : c.opens with
  | true => exact covered_opens hopens ht h hc hexec
  | false =>
      cases hadmin : c.administers with
      | true => exact covered_administered hadmin ht h hc hexec
      | false =>
          have hbalanced := ht.linked.balanced
          cases exec_step hexec with
          | idle | verified | requeued | sessions | edited => exact h
          | uploadCreated | multipartCreated => cases hopens
          | commit now fileId id _ hcommit =>
              cases hcommit with
              | replayed | unreserved => exact h
              | charged row hready rid r hopen hfits =>
                  obtain ⟨-, hid, hstatus⟩ := Ledger.openReservation_eq_some.mp hopen
                  exact covered_settle ht.wellNamed h hid hstatus fun k total htotal hk ↦
                    hc row rid r k total hready hopen hfits htotal hk
              | refused =>
                  exact covered_closes ht.wellNamed hbalanced h
                    (releaseQuotaReservation_closes now _ _)
          | failed now | expired now =>
              exact covered_closes ht.wellNamed hbalanced h
                (releaseQuotaReservation_closes now _ _)
          | reaped => exact covered_reap ht.linked ht.wellNamed h
          | deleted now fileId f hf hstatus => exact covered_release ht h (hc f hf hstatus)
          | purged now fileId f hf hsoft hstate => exact covered_release ht h (hc f hf hsoft hstate)
          | quotaCreated | quotaOverwritten | quotaRevoked | platformLimitSet | limitSet
          | appDeleted => cases hadmin

theorem wakesCovered_of_keepsRoom {c : TenantCmd} (hc : KeepsRoom t c) : WakesCovered rooms t c := by
  unfold KeepsRoom at hc
  split at hc
  all_goals first | exact hc | trivial

theorem covered_rooms_step {c : TenantCmd} (ht : Orderly t) (h : Covered rooms inForce t.quotas)
    (hc : KeepsRoom t c) (hexec : tenantExec c t = .ok t') : Covered rooms inForce t'.quotas := by
  have hmove := tenantStep_quotas (tenantExec_step hexec)
  refine covered_move rooms_blind h (wakesCovered_of_keepsRoom hc) hmove ?_
  rintro c₀ rfl
  cases hmove with
  | idle _ _ hledger =>
      have hquotas : t'.quotas = t.quotas := congrArg Ledger.quotas hledger
      exact hquotas ▸ h
  | stored _ _ hexec _ => exact covered_stored ht h hc hexec

/-- In every state a new tenant reaches by commands which leave the applications their room, an
upload within an application's own quota is not refused for the total, and the shared pool stays
within what the limits leave. -/
theorem allocation_guaranteed (hfresh : Fresh t) {cs : List TenantCmd}
    (haccepted : ∀ c ∈ cs, c.accepted) (hmeets : Meets tenantExec KeepsRoom t cs)
    (pre post : List TenantCmd) (hsplit : cs = pre ++ post) :
    Guaranteed (run tenantExec t pre) ∧ SharedPoolKept (run tenantExec t pre) := by
  have hstart : Orderly t ∧ Covered rooms inForce t.quotas := by
    refine ⟨hfresh.orderly, fun k q hk ↦ ?_⟩
    rw [hfresh.quotas] at hk
    cases hk
  obtain ⟨horderly, hcovered⟩ := run_invariant_prefix
    (I := fun t ↦ Orderly t ∧ Covered rooms inForce t.quotas)
    (fun t c t' hI hc hkeeps hok ↦ ⟨hI.1.step hc (tenantExec_step hok),
      covered_rooms_step hI.1 hI.2 hkeeps hok⟩) hstart haccepted hmeets pre post hsplit
  exact ⟨guaranteed_of_covered horderly.kept hcovered, sharedPoolKept_of_covered hcovered⟩

namespace Sample

/-- The tenant before it gets a total. -/
def unallocated : Tenant :=
  ⟨.active, { tenant with ledger := ⟨∅, ∅, []⟩ }, rfl, by decide⟩

theorem unallocated_fresh : Fresh unallocated :=
  ⟨rfl, rfl, rfl⟩

/-- A total of 100 bytes, of which the application stores 80 before it gets 40 of its own. -/
def pooledFirst : List TenantCmd :=
  [.createPlatformQuota 1 none 100 none,
    .createUploadIntent (ids 10) (session 80) (data "a"),
    .createPlatformQuota 2 (some 5) 40 none].map .stored

/-- The application gets its 40 bytes at once. -/
def allocatedFirst : List TenantCmd :=
  [.createPlatformQuota 1 none 100 none,
    .createPlatformQuota 2 (some 5) 40 none,
    .createUploadIntent (ids 10) (session 30) (data "a")].map .stored

theorem allocatedFirst_accepted : ∀ c ∈ allocatedFirst, c.accepted := by
  simp [allocatedFirst, TenantCmd.accepted]

theorem pooledFirst_accepted : ∀ c ∈ pooledFirst, c.accepted := by
  simp [pooledFirst, TenantCmd.accepted]

theorem allocatedFirst_keeps : Meets tenantExec KeepsRoom unallocated allocatedFirst := by
  refine ⟨?_, ?_, ?_, trivial⟩
  · intro target htarget _
    have hnone : createPlatformQuotaTarget none 100 none unallocated.db = .ok none := rfl
    obtain rfl := Except.ok.inj (hnone.symm.trans htarget)
    decide
  · intro target htarget _
    have hnone : createPlatformQuotaTarget (some 5) 40 none
        (run tenantExec unallocated (allocatedFirst.take 1)).db = .ok none := rfl
    obtain rfl := Except.ok.inj (hnone.symm.trans htarget)
    intro k total htotal
    have htenant : activeTenantQuota (run tenantExec unallocated (allocatedFirst.take 1)).quotas =
        some (1, newQuota none 100 .tenantTotal) := rfl
    obtain ⟨rfl, rfl⟩ := Prod.mk.inj (Option.some.inj (htenant.symm.trans htotal))
    decide
  · intro sp hspace hscoped
    have hsample : (run tenantExec unallocated (allocatedFirst.take 2)).db.spaces.lookup 2 =
        some space := rfl
    obtain rfl := Option.some.inj (hsample.symm.trans hspace)
    cases hscoped

end Sample

theorem allocation_guaranteed_sample :
    Guaranteed (run tenantExec Sample.unallocated Sample.allocatedFirst) ∧
      SharedPoolKept (run tenantExec Sample.unallocated Sample.allocatedFirst) :=
  allocation_guaranteed Sample.unallocated_fresh Sample.allocatedFirst_accepted
    Sample.allocatedFirst_keeps Sample.allocatedFirst [] rfl

/-- The application has 40 free bytes of its own, and 30 are refused. -/
theorem allocation_refused : ¬ ∀ (t : Tenant) (cs : List TenantCmd), Fresh t →
    (∀ c ∈ cs, c.accepted) → Guaranteed (run tenantExec t cs) := by
  intro h
  have hguaranteed := h Sample.unallocated Sample.pooledFirst Sample.unallocated_fresh
    Sample.pooledFirst_accepted
  obtain ⟨l', hok⟩ := hguaranteed 99 2 30 Sample.space 5 2
    (newQuota (some 5) 40 .applicationReserved) rfl rfl rfl rfl rfl (by decide) (by decide)
    (by decide) (by decide)
  have hrefused : reserveQuota 99 2 30 (run tenantExec Sample.unallocated Sample.pooledFirst).db.spaces
      (run tenantExec Sample.unallocated Sample.pooledFirst).db.ledger =
        raise "quota_exceeded" "Quota capacity exceeded" 409 := rfl
  rw [hrefused] at hok
  cases hok

end S3mp
