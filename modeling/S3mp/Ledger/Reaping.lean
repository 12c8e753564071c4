import Mathlib.Data.Prod.Lex
import S3mp.Commands
import S3mp.Files.IngestionSpec
import S3mp.Transition.Batches

/-!
# Reservations the reaper never reaches

A pass of the reaper takes the oldest reservations in status `reserved`, a limited
number of them, and looks only then at what their uploads are doing.  Those of
uploads in flight stay where they are, and with enough of them in front the pass
never gets any further.
-/

namespace S3mp

open Relational Files Governance Transition

/-! ## Passes -/

def reservedIds (l : Ledger) : List Uuid :=
  (l.reservations.select fun _ r ↦ r.status = .reserved).map Prod.fst

/-- The order of the reaper's query. -/
def reservationRank (createdAt : Uuid → Timestamp) (id : Uuid) : Timestamp ×ₗ Uuid :=
  toLex (createdAt id, id)

def reapLimit (limit : ℕ) : ℕ := max 1 (min limit 500)

def pickedReservations (createdAt : Uuid → Timestamp) (limit : ℕ) (l : Ledger) : List Uuid :=
  oldest (reservationRank createdAt) (reapLimit limit) (reservedIds l)

def reapPass (createdAt : Uuid → Timestamp) (limit : ℕ) (now : Timestamp) (db : Db) : Db :=
  reapOrphanReservations now (pickedReservations createdAt limit db.ledger) db

/-- The database after `n` passes, at the times `nows`. -/
def afterPasses (createdAt : Uuid → Timestamp) (limit : ℕ) (nows : ℕ → Timestamp) (db : Db) : ℕ → Db
  | 0 => db
  | n + 1 => reapPass createdAt limit (nows n) (afterPasses createdAt limit nows db n)

/-! ## Which reservations a pass leaves -/

def Reserved (l : Ledger) (id : Uuid) : Prop :=
  ∃ r, l.reservations.lookup id = some r ∧ r.status = .reserved

/-- The record for which the reservation was made. -/
def reservingRecord (db : Db) (id : Uuid) : Option (Uuid × IngestionRecord) :=
  db.ingestions.selectFirst fun _ row ↦ row.quotaReservationId = some id

/-- The reaper releases the reservation when it looks at it. -/
def Reapable (db : Db) (id : Uuid) : Prop :=
  Reserved db.ledger id ∧ ∀ j row, reservingRecord db id = some (j, row) →
    row.status ∈ [.failed, .expired, .reconciliationRequired]

/-- The reaper leaves the reservation of this record `reserved`: the upload is in flight, or it
is committed and its size unknown or too large for its quotas. -/
def IngestionRecord.lingers (row : IngestionRecord) (l : Ledger) : Bool :=
  if row.status ∈ [.committed, .available] then
    row.actualSize.isNone || !(settleQuotaReservation 0 row l).1
  else row.status ∉ [.failed, .expired, .reconciliationRequired]

def lingers (db : Db) (id : Uuid) : Bool :=
  (reservingRecord db id).any fun e ↦ IngestionRecord.lingers e.2 db.ledger

/-- The reservations older than `id` which a pass would leave `reserved`. -/
def lingeringBefore (createdAt : Uuid → Timestamp) (db : Db) (id : Uuid) : List Uuid :=
  (olderThan (reservationRank createdAt) id (reservedIds db.ledger)).filter (lingers db ·)

section

variable {createdAt : Uuid → Timestamp} {limit : ℕ} {now : Timestamp} {db : Db} {l l' : Ledger}
  {id i : Uuid} {r : QuotaReservation}

theorem mem_reservedIds : id ∈ reservedIds l ↔ Reserved l id := by
  simp only [reservedIds, List.mem_map, Prod.exists, exists_and_right, exists_eq_right,
    AList.mem_select_iff, decide_eq_true_eq]
  rfl

theorem nodup_reservedIds (l : Ledger) : (reservedIds l).Nodup :=
  AList.nodup_keys_select _ _

theorem reservationRank_injective (createdAt : Uuid → Timestamp) :
    Function.Injective (reservationRank createdAt) := by
  intro a b h
  exact (Prod.mk.inj (toLex_inj.mp h)).2

theorem openReservation_of_reserved (hr : l.reservations.lookup id = some r)
    (hstatus : r.status = .reserved) : l.openReservation (some id) = some (id, r) :=
  Ledger.openReservation_eq_some.mpr ⟨rfl, hr, hstatus⟩

/-! ## One turn of the reaper -/

/-- The turn has closed or settled the reservation and gives no quota room. -/
structure Served (id : Uuid) (l l' : Ledger) : Prop where
  ended : ¬ Reserved l' id
  others : ∀ j, j ≠ id → l'.reservations.lookup j = l.reservations.lookup j
  quotas : ∀ k q', l'.quotas.lookup k = some q' → ∃ q, l.quotas.lookup k = some q ∧
    q'.limitBytes = q.limitBytes ∧ q.usedBytes ≤ q'.usedBytes

theorem served_of_update {f : Quota → Quota} {g : QuotaReservation → QuotaReservation}
    {ids : List Uuid} (hg : ∀ r, (g r).status ≠ .reserved)
    (hlimit : ∀ q, (f q).limitBytes = q.limitBytes) (hused : ∀ q, q.usedBytes ≤ (f q).usedBytes) :
    Served id l { l.updateQuotas ids f with reservations := l.reservations.update id g } := by
  constructor
  · rintro ⟨r', hr', hstatus⟩
    rw [AList.lookup_update_self] at hr'
    obtain ⟨r, -, rfl⟩ := Option.map_eq_some_iff.mp hr'
    exact hg r hstatus
  · intro j hj
    exact AList.lookup_update_of_ne hj _ _
  · intro k q' hq'
    rw [Ledger.lookup_updateQuotas] at hq'
    obtain ⟨q, hq, rfl⟩ := Option.map_eq_some_iff.mp hq'
    refine ⟨q, hq, ?_⟩
    split
    · exact ⟨hlimit q, hused q⟩
    · exact ⟨rfl, le_rfl⟩

theorem close_served {status : ReservationStatus} (hstatus : status ≠ .reserved) :
    Served id l (l.close Quota.subReservedClamped status now id r) :=
  served_of_update (fun _ ↦ hstatus) (fun _ ↦ rfl) fun _ ↦ le_rfl

theorem settle_served {actual : ℕ} : Served id l (l.settle now id r actual) :=
  served_of_update (fun _ ↦ by simp) (fun _ ↦ rfl) fun q ↦ by simp [Quota.settleBytes]

/-- A settlement goes through or not whatever the clock says. -/
theorem settle_fst {row : IngestionRecord} (now now' : Timestamp) :
    (settleQuotaReservation now row l).1 = (settleQuotaReservation now' row l).1 := by
  unfold settleQuotaReservation
  split
  · rfl
  · dsimp only
    split
    · rfl
    · split <;> rfl

/-- The turn leaves the database as it is, or serves the reservation, which happens exactly when
it does not linger. -/
theorem reapReservation_cases (now : Timestamp) (hreserved : Reserved db.ledger id) :
    (lingers db id = true ∧ reapReservation Quota.subReservedClamped now id db = db) ∨
      lingers db id = false ∧ ∃ l', Served id db.ledger l' ∧
        reapReservation Quota.subReservedClamped now id db = { db with ledger := l' } := by
  obtain ⟨r, hr, hstatus⟩ := hreserved
  have hopen := openReservation_of_reserved hr hstatus
  unfold reapReservation
  rw [hopen]
  dsimp only
  cases hrecord : reservingRecord db id with
  | none =>
      have hnone : lingers db id = false := by simp [lingers, hrecord]
      rw [reservingRecord] at hrecord
      rw [hrecord]
      exact Or.inr ⟨hnone, _, close_served (by simp), rfl⟩
  | some e =>
      obtain ⟨j, row⟩ := e
      have hlingers : lingers db id = IngestionRecord.lingers row db.ledger := by
        simp [lingers, hrecord]
      have hnamed : row.quotaReservationId = some id := by
        obtain ⟨-, hp⟩ := AList.lookup_of_selectFirst hrecord
        simpa using hp
      rw [reservingRecord] at hrecord
      rw [hrecord, hlingers]
      dsimp only
      unfold IngestionRecord.lingers
      split
      · split
        · rename_i hsize
          have hfst : (settleQuotaReservation 0 row db.ledger).1 =
              (settleQuotaReservation now row db.ledger).1 := settle_fst 0 now
          rw [hfst]
          have hsettled := settlement now row db.ledger
          generalize settleQuotaReservation now row db.ledger = out at hsettled
          cases hsettled with
          | unreserved hnone =>
              rw [hnamed, hopen] at hnone
              cases hnone
          | refused => exact Or.inl ⟨by simp, rfl⟩
          | charged id' r' hopen' hfits =>
              rw [hnamed, hopen] at hopen'
              obtain ⟨rfl, rfl⟩ := Prod.mk.inj (Option.some.inj hopen')
              exact Or.inr ⟨by simpa using hsize, _, settle_served, rfl⟩
        · rename_i hsize
          have hnone : row.actualSize.isNone := by simpa using hsize
          exact Or.inl ⟨by rw [hnone, Bool.true_or], rfl⟩
      · split
        · rename_i hstatus
          exact Or.inl ⟨by simpa using hstatus, rfl⟩
        · rename_i hstatus
          exact Or.inr ⟨by simpa using hstatus, _, close_served (by simp), rfl⟩

theorem reapReservation_eq (now : Timestamp) (i : Uuid) (db : Db) :
    reapReservation Quota.subReservedClamped now i db = db ∨
      Reserved db.ledger i ∧ lingers db i = false ∧ ∃ l', Served i db.ledger l' ∧
        reapReservation Quota.subReservedClamped now i db = { db with ledger := l' } := by
  by_cases hreserved : Reserved db.ledger i
  · rcases reapReservation_cases now hreserved with ⟨-, hsame⟩ | hserved
    · exact Or.inl hsame
    · exact Or.inr ⟨hreserved, hserved⟩
  · have hclosed : db.ledger.openReservation (some i) = none := by
      cases hopen : db.ledger.openReservation (some i) with
      | none => rfl
      | some e =>
          obtain ⟨j, r⟩ := e
          obtain ⟨heq, hr, hstatus⟩ := Ledger.openReservation_eq_some.mp hopen
          obtain rfl := Option.some.inj heq
          exact absurd ⟨r, hr, hstatus⟩ hreserved
    left
    rw [reapReservation, hclosed]

/-- No turn opens a reservation. -/
theorem reserved_of_reap (h : Reserved (reapReservation Quota.subReservedClamped now i db).ledger id) :
    Reserved db.ledger id := by
  rcases reapReservation_eq now i db with hsame | ⟨-, -, l', hserved, heq⟩
  · rwa [hsame] at h
  · rw [heq] at h
    by_cases hid : id = i
    · subst hid
      exact absurd h hserved.ended
    · obtain ⟨r, hr, hstatus⟩ := h
      exact ⟨r, (hserved.others id hid).symm.trans hr, hstatus⟩

theorem Served.reserved (h : Served i l l') (hid : id ≠ i) (hreserved : Reserved l id) :
    Reserved l' id := by
  obtain ⟨r, hr, hstatus⟩ := hreserved
  exact ⟨r, (h.others id hid).trans hr, hstatus⟩

/-- Turns for other reservations only use up room. -/
theorem Served.refuses (h : Served i l l') (hid : id ≠ i) {row : IngestionRecord}
    (hnamed : row.quotaReservationId = some id)
    (hrefused : (settleQuotaReservation 0 row l).1 = false) :
    (settleQuotaReservation 0 row l').1 = false := by
  have hsettled := settlement 0 row l
  generalize settleQuotaReservation 0 row l = out at hsettled hrefused
  cases hsettled with
  | unreserved | charged => cases hrefused
  | refused j r hopen hover =>
      obtain ⟨hj, hr, hstatus⟩ := Ledger.openReservation_eq_some.mp hopen
      obtain rfl := Option.some.inj (hnamed.symm.trans hj)
      have hopen' : l'.openReservation row.quotaReservationId = some (id, r) :=
        Ledger.openReservation_eq_some.mpr ⟨hnamed, (h.others id hid).trans hr, hstatus⟩
      have hsettled' := settlement 0 row l'
      generalize settleQuotaReservation 0 row l' = out' at hsettled'
      cases hsettled' with
      | refused => rfl
      | unreserved hnone =>
          rw [hopen'] at hnone
          cases hnone
      | charged j' r' hopen'' hfits =>
          obtain ⟨rfl, rfl⟩ := Prod.mk.inj (Option.some.inj (hopen'.symm.trans hopen''))
          obtain ⟨k, hk, hroom⟩ := hover
          refine absurd ⟨k, hk, fun q' hq' ↦ ?_⟩ hfits
          obtain ⟨q, hq, hlimit, hused⟩ := h.quotas k q' hq'
          have hlt := hroom q hq
          omega

theorem lingers_iff :
    lingers db id = true ↔ ∃ j row, reservingRecord db id = some (j, row) ∧
      IngestionRecord.lingers row db.ledger = true := by
  unfold lingers
  cases reservingRecord db id with
  | none => simp
  | some e =>
      obtain ⟨j, row⟩ := e
      simp

theorem lingers_of_served (h : Served i db.ledger l') (hid : id ≠ i)
    (hlingers : lingers db id = true) : lingers { db with ledger := l' } id = true := by
  obtain ⟨j, row, hrecord, hrow⟩ := lingers_iff.mp hlingers
  refine lingers_iff.mpr ⟨j, row, hrecord, ?_⟩
  have hnamed : row.quotaReservationId = some id := by
    obtain ⟨-, hp⟩ := AList.lookup_of_selectFirst hrecord
    simpa using hp
  unfold IngestionRecord.lingers at hrow ⊢
  split at hrow
  · rename_i hstatus
    rw [if_pos hstatus]
    rcases Bool.or_eq_true_iff.mp hrow with hsize | hrefused
    · rw [hsize, Bool.true_or]
    · have hfalse := h.refuses hid hnamed (by simpa using hrefused)
      rw [hfalse, Bool.not_false, Bool.or_true]
  · rename_i hstatus
    rw [if_neg hstatus]
    exact hrow

/-! ## One pass -/

/-- What lingers goes on lingering. -/
theorem reap_lingers (now : Timestamp) (i : Uuid)
    (h : Reserved db.ledger id ∧ lingers db id = true) :
    Reserved (reapReservation Quota.subReservedClamped now i db).ledger id ∧
      lingers (reapReservation Quota.subReservedClamped now i db) id = true := by
  rcases reapReservation_eq now i db with hsame | ⟨-, hnot, l', hserved, heq⟩
  · rwa [hsame]
  · have hid : id ≠ i := by
      rintro rfl
      rw [h.2] at hnot
      cases hnot
    rw [heq]
    exact ⟨hserved.reserved hid h.1, lingers_of_served hserved hid h.2⟩

variable {picked : List Uuid}

theorem pass_lingers (now : Timestamp) (picked : List Uuid)
    (h : Reserved db.ledger id ∧ lingers db id = true) :
    Reserved (reapOrphanReservations now picked db).ledger id ∧
      lingers (reapOrphanReservations now picked db) id = true := by
  induction picked generalizing db with
  | nil => exact h
  | cons i picked ih => exact ih (reap_lingers now i h)

theorem reserved_of_pass (h : Reserved (reapOrphanReservations now picked db).ledger id) :
    Reserved db.ledger id := by
  induction picked generalizing db with
  | nil => exact h
  | cons i picked ih => exact reserved_of_reap (ih h)

/-- A pass which does not look at a reservation leaves it. -/
theorem pass_reserved (hnot : id ∉ picked) (h : Reserved db.ledger id) :
    Reserved (reapOrphanReservations now picked db).ledger id := by
  induction picked generalizing db with
  | nil => exact h
  | cons i picked ih =>
      have hid : id ≠ i := List.ne_of_not_mem_cons hnot
      have hnot : id ∉ picked := List.not_mem_of_not_mem_cons hnot
      refine ih hnot ?_
      change Reserved (reapReservation Quota.subReservedClamped now i db).ledger id
      rcases reapReservation_eq now i db with hsame | ⟨-, -, l', hserved, heq⟩
      · rwa [hsame]
      · rw [heq]
        exact hserved.reserved hid h

/-- A pass which looks at a reservation that does not linger ends at least one of those it looks
at.  The first such is looked at in the database in which the pass begins. -/
theorem exists_ended (now : Timestamp) (hmem : id ∈ picked) (hreserved : Reserved db.ledger id)
    (hnot : lingers db id = false) :
    ∃ j ∈ picked, Reserved db.ledger j ∧
      ¬ Reserved (reapOrphanReservations now picked db).ledger j := by
  induction picked generalizing db with
  | nil => cases hmem
  | cons i picked ih =>
      rcases reapReservation_eq now i db with hsame | ⟨hi, -, l', hserved, heq⟩
      · have htail : id ∈ picked := by
          rcases List.mem_cons.mp hmem with rfl | htail
          · rcases reapReservation_cases now hreserved with ⟨hlingers, -⟩ |
              ⟨-, l', hserved, heq⟩
            · rw [hlingers] at hnot
              cases hnot
            · refine absurd ?_ hserved.ended
              rw [hsame] at heq
              rwa [heq] at hreserved
          · exact htail
        obtain ⟨j, hj, hreserved', hended⟩ := ih htail hreserved hnot
        refine ⟨j, List.mem_cons_of_mem i hj, hreserved', ?_⟩
        change ¬ Reserved (reapOrphanReservations now picked
          (reapReservation Quota.subReservedClamped now i db)).ledger j
        rwa [hsame]
      · refine ⟨i, List.mem_cons_self, hi, fun hafter ↦ hserved.ended ?_⟩
        have hturn : Reserved (reapReservation Quota.subReservedClamped now i db).ledger i :=
          reserved_of_pass hafter
        rwa [heq] at hturn

theorem not_lingers (h : Reapable db id) : lingers db id = false := by
  unfold lingers
  cases hrecord : reservingRecord db id with
  | none => rfl
  | some e =>
      obtain ⟨j, row⟩ := e
      have hstatus := h.2 j row hrecord
      simp only [Option.any_some, IngestionRecord.lingers]
      revert hstatus
      cases row.status <;> simp

theorem Reapable.served (h : Reapable db id) (hserved : Served i db.ledger l') (hid : id ≠ i) :
    Reapable { db with ledger := l' } id :=
  ⟨hserved.reserved hid h.1, h.2⟩

theorem pass_ends (hmem : id ∈ picked) (h : Reapable db id) :
    ¬ Reserved (reapOrphanReservations now picked db).ledger id := by
  induction picked generalizing db with
  | nil => cases hmem
  | cons i picked ih =>
      intro hafter
      have hturn : Reserved (reapReservation Quota.subReservedClamped now i db).ledger id :=
        reserved_of_pass hafter
      by_cases hid : id = i
      · subst hid
        rcases reapReservation_cases now h.1 with ⟨hlingers, -⟩ | ⟨-, l', hserved, heq⟩
        · rw [not_lingers h] at hlingers
          cases hlingers
        · rw [heq] at hturn
          exact hserved.ended hturn
      · have htail : id ∈ picked := (List.mem_cons.mp hmem).resolve_left hid
        rcases reapReservation_eq now i db with hsame | ⟨-, -, l', hserved, heq⟩
        · refine ih htail h ?_
          rw [← hsame]
          exact hafter
        · refine ih htail (h.served hserved hid) ?_
          rw [← heq]
          exact hafter

/-! ## Pass after pass -/

theorem reapPass_frame (createdAt : Uuid → Timestamp) (limit : ℕ) (now : Timestamp) (db : Db) :
    reapPass createdAt limit now db =
      { db with ledger := (reapPass createdAt limit now db).ledger } := by
  unfold reapPass reapOrphanReservations
  exact reapOrphanReservationsWith_frame _ _

variable {nows : ℕ → Timestamp} {n : ℕ} {j : Uuid}

theorem reapable_afterPasses (h : Reapable db id)
    (hreserved : Reserved (afterPasses createdAt limit nows db n).ledger id) :
    Reapable (afterPasses createdAt limit nows db n) id := by
  refine ⟨hreserved, ?_⟩
  have hrecord : ∀ n, (afterPasses createdAt limit nows db n).ingestions = db.ingestions := by
    intro n
    induction n with
    | zero => rfl
    | succ n ih =>
        rw [afterPasses, reapPass_frame]
        exact ih
  unfold reservingRecord
  rw [hrecord n]
  exact h.2

theorem mem_lingeringBefore :
    j ∈ lingeringBefore createdAt db id ↔ Reserved db.ledger j ∧
      reservationRank createdAt j < reservationRank createdAt id ∧ lingers db j = true := by
  rw [lingeringBefore, List.mem_filter, mem_olderThan, mem_reservedIds, and_assoc]

theorem nodup_lingeringBefore (createdAt : Uuid → Timestamp) (db : Db) (id : Uuid) :
    (lingeringBefore createdAt db id).Nodup :=
  ((nodup_reservedIds db.ledger).filter _).filter _

/-- Those which linger in front of a reservation only become more. -/
theorem length_lingeringBefore_le (createdAt : Uuid → Timestamp) (limit : ℕ) (now : Timestamp)
    (db : Db) (id : Uuid) :
    (lingeringBefore createdAt db id).length ≤
      (lingeringBefore createdAt (reapPass createdAt limit now db) id).length := by
  refine ((nodup_lingeringBefore createdAt db id).subperm fun j hj ↦ ?_).length_le
  obtain ⟨hreserved, holder, hlingers⟩ := mem_lingeringBefore.mp hj
  obtain ⟨hreserved', hlingers'⟩ := pass_lingers now
    (pickedReservations createdAt limit db.ledger) ⟨hreserved, hlingers⟩
  exact mem_lingeringBefore.mpr ⟨hreserved', holder, hlingers'⟩

/-- With `limit` lingering reservations in front a reservation is not looked at. -/
theorem not_picked (hreserved : Reserved db.ledger id)
    (hfull : reapLimit limit ≤ (lingeringBefore createdAt db id).length) :
    id ∉ pickedReservations createdAt limit db.ledger := by
  intro hmem
  have hlt := (mem_oldest_iff (reservationRank_injective createdAt)
    (nodup_reservedIds db.ledger) (mem_reservedIds.mpr hreserved)).mp hmem
  have hle : (lingeringBefore createdAt db id).length ≤
      (olderThan (reservationRank createdAt) id (reservedIds db.ledger)).length :=
    List.length_filter_le _ _
  omega

/-- A reservation which is not looked at while fewer than `limit` linger in front sees an older
one end. -/
theorem olderThan_decreases (now : Timestamp) (hreserved : Reserved db.ledger id)
    (hnot : id ∉ pickedReservations createdAt limit db.ledger)
    (hfew : (lingeringBefore createdAt db id).length < reapLimit limit) :
    (olderThan (reservationRank createdAt) id
      (reservedIds (reapPass createdAt limit now db).ledger)).length <
      (olderThan (reservationRank createdAt) id (reservedIds db.ledger)).length := by
  have hinj := reservationRank_injective createdAt
  have hnodup := nodup_reservedIds db.ledger
  have hmem := mem_reservedIds.mpr hreserved
  have holder : ∀ j ∈ pickedReservations createdAt limit db.ledger,
      j ∈ olderThan (reservationRank createdAt) id (reservedIds db.ledger) :=
    fun j hj ↦ oldest_subset_olderThan hinj hnodup hmem hnot hj
  have hlength : (pickedReservations createdAt limit db.ledger).length = reapLimit limit := by
    have hmany := not_lt.mp ((mem_oldest_iff hinj hnodup hmem).not.mp hnot)
    exact length_oldest (hmany.trans (List.length_filter_le _ _))
  -- They cannot all linger, there are too many of them.
  have hserves : ∃ j ∈ pickedReservations createdAt limit db.ledger, lingers db j = false := by
    by_contra hall
    push Not at hall
    have hsubset : pickedReservations createdAt limit db.ledger ⊆
        lingeringBefore createdAt db id := fun j hj ↦
      List.mem_filter.mpr ⟨holder j hj, by simpa using hall j hj⟩
    have hle := ((nodup_oldest hnodup).subperm hsubset).length_le
    change (pickedReservations createdAt limit db.ledger).length ≤ _ at hle
    omega
  obtain ⟨j, hj, hlingers⟩ := hserves
  have hjreserved : Reserved db.ledger j := mem_reservedIds.mp (mem_olderThan.mp (holder j hj)).1
  obtain ⟨k, hk, -, hended⟩ := exists_ended now hj hjreserved hlingers
  have hnodup' : (k :: olderThan (reservationRank createdAt) id
      (reservedIds (reapPass createdAt limit now db).ledger)).Nodup := by
    refine List.nodup_cons.mpr ⟨fun hkmem ↦ ?_, (nodup_reservedIds _).filter _⟩
    exact hended (mem_reservedIds.mp (mem_olderThan.mp hkmem).1)
  refine (hnodup'.subperm fun i hi ↦ ?_).length_le
  rcases List.mem_cons.mp hi with rfl | hi
  · exact holder i hk
  · obtain ⟨hi, hlt⟩ := mem_olderThan.mp hi
    refine mem_olderThan.mpr ⟨mem_reservedIds.mpr ?_, hlt⟩
    exact reserved_of_pass (mem_reservedIds.mp hi)

/-- Once `limit` reservations linger in front, no number of passes is enough. -/
theorem reserved_for_ever (nows : ℕ → Timestamp) (hreserved : Reserved db.ledger id)
    (hfull : reapLimit limit ≤ (lingeringBefore createdAt db id).length) :
    ∀ n, Reserved (afterPasses createdAt limit nows db n).ledger id ∧
      reapLimit limit ≤
        (lingeringBefore createdAt (afterPasses createdAt limit nows db n) id).length := by
  intro n
  induction n with
  | zero => exact ⟨hreserved, hfull⟩
  | succ n ih =>
      exact ⟨pass_reserved (not_picked ih.1 ih.2) ih.1,
        ih.2.trans (length_lingeringBefore_le createdAt limit (nows n) _ id)⟩

theorem afterPasses_add (m : ℕ) :
    afterPasses createdAt limit nows db (n + m) =
      afterPasses createdAt limit (fun k ↦ nows (n + k))
        (afterPasses createdAt limit nows db n) m := by
  induction m with
  | zero => rfl
  | succ m ih =>
      rw [← Nat.add_assoc, afterPasses, ih]
      rfl

theorem reserved_of_later (m : ℕ)
    (h : Reserved (afterPasses createdAt limit nows db m).ledger id) : Reserved db.ledger id := by
  induction m with
  | zero => exact h
  | succ m ih => exact ih (reserved_of_pass h)

theorem eventually_ended (h : Reapable db id)
    (hfew : ∀ n, Reserved (afterPasses createdAt limit nows db n).ledger id →
      (lingeringBefore createdAt (afterPasses createdAt limit nows db n) id).length <
        reapLimit limit) (k : ℕ) :
    ∀ n, (olderThan (reservationRank createdAt) id
      (reservedIds (afterPasses createdAt limit nows db n).ledger)).length < k →
      ∃ m, ¬ Reserved (afterPasses createdAt limit nows db m).ledger id := by
  -- Until the reservation is looked at, every pass ends one of the older ones.
  induction k with
  | zero =>
      intro n hk
      omega
  | succ k ih =>
      intro n hk
      by_cases hreserved : Reserved (afterPasses createdAt limit nows db n).ledger id
      · by_cases hpicked : id ∈ pickedReservations createdAt limit
            (afterPasses createdAt limit nows db n).ledger
        · exact ⟨n + 1, pass_ends hpicked (reapable_afterPasses h hreserved)⟩
        · have hlt := olderThan_decreases (nows n) hreserved hpicked (hfew n hreserved)
          exact ih (n + 1) (hlt.trans_le (Nat.le_of_lt_succ hk))
      · exact ⟨n, hreserved⟩

end

/-- A reservation that is to be released is reached by the reaper exactly if before every pass
which finds it still `reserved` fewer than `limit` older ones linger. -/
theorem reaper_reaches_iff (createdAt : Uuid → Timestamp) (limit : ℕ) (nows : ℕ → Timestamp)
    (db : Db) (id : Uuid) (h : Reapable db id) :
    (∃ n, ¬ Reserved (afterPasses createdAt limit nows db n).ledger id) ↔
      ∀ n, Reserved (afterPasses createdAt limit nows db n).ledger id →
        (lingeringBefore createdAt (afterPasses createdAt limit nows db n) id).length <
          reapLimit limit := by
  constructor
  · rintro ⟨m, hended⟩ n hreserved
    by_contra hfull
    have hforever := reserved_for_ever (fun k ↦ nows (n + k)) hreserved (not_lt.mp hfull)
    rcases Nat.le_total n m with hle | hle
    · obtain ⟨k, rfl⟩ := Nat.exists_eq_add_of_le hle
      rw [afterPasses_add] at hended
      exact hended (hforever k).1
    · obtain ⟨k, rfl⟩ := Nat.exists_eq_add_of_le hle
      rw [afterPasses_add] at hreserved
      exact hended (reserved_of_later k hreserved)
  · intro hfew
    exact eventually_ended h hfew _ 0 (Nat.lt_succ_self _)

namespace Sample

/-- The first upload is never taken any further.  The second one waits for reconciliation. -/
def behindUpload : Db :=
  run exec tenant
    [.createUploadIntent (ids 10) (session 4) (data "a"),
      .createUploadIntent (ids 20) (session 4) (data "b"),
      .failOrQuarantine 0 22 .reconciliationRequired .providerUnavailable]

theorem behindUpload_reapable : Reapable behindUpload 20 := by
  have hreserved : (behindUpload.ledger.reservations.lookup 20).map (·.status) =
      some .reserved := by decide
  have hrecord : (reservingRecord behindUpload 20).map (·.2.status) =
      some .reconciliationRequired := by decide
  refine ⟨Option.map_eq_some_iff.mp hreserved, fun j row hrow ↦ ?_⟩
  rw [hrow, Option.map_some, Option.some.injEq] at hrecord
  rw [hrecord]
  decide

end Sample

theorem reaper_reaches_iff_sample :
    (∃ n, ¬ Reserved (afterPasses (fun id ↦ id) 1 (fun _ ↦ 0) Sample.behindUpload n).ledger 20) ↔
      ∀ n, Reserved (afterPasses (fun id ↦ id) 1 (fun _ ↦ 0) Sample.behindUpload n).ledger 20 →
        (lingeringBefore (fun id ↦ id)
          (afterPasses (fun id ↦ id) 1 (fun _ ↦ 0) Sample.behindUpload n) 20).length <
          reapLimit 1 :=
  reaper_reaches_iff (fun id ↦ id) 1 (fun _ ↦ 0) Sample.behindUpload 20
    Sample.behindUpload_reapable

/-- Each pass takes the reservation of the first upload and leaves it. -/
theorem reaper_never_reaches : ¬ ∀ (createdAt : Uuid → Timestamp) (limit : ℕ)
    (nows : ℕ → Timestamp) (db : Db) (id : Uuid), 0 < limit → Reapable db id →
      ∃ n, ¬ Reserved (afterPasses createdAt limit nows db n).ledger id := by
  intro h
  have hfull : reapLimit 1 ≤ (lingeringBefore (fun id ↦ id) Sample.behindUpload 20).length := by
    decide +kernel
  obtain ⟨n, hended⟩ := h (fun id ↦ id) 1 (fun _ ↦ 0) Sample.behindUpload 20 Nat.one_pos
    Sample.behindUpload_reapable
  exact hended (reserved_for_ever (fun _ ↦ 0) Sample.behindUpload_reapable.1 hfull n).1

end S3mp
