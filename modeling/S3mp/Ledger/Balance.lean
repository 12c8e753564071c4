import S3mp.Steps
import Mathlib.Logic.Relation

/-!
# Reservation balance

Every command changes the ledger by a sequence of effects, and every effect
keeps the reserved bytes of each quota equal to what its open reservations ask
for.  Hence the clamp of the reaper never acts.
-/

namespace S3mp

open Relational Files Governance Transition Relation

variable {db db' : Db} {now : Timestamp}

/-! ## Effects of the helpers -/

theorem settleQuotaReservation_effect (row : IngestionRecord) (l : Ledger) :
    Ledger.Effect l (settleQuotaReservation now row l).2 := by
  have hsettled := settlement now row l
  generalize settleQuotaReservation now row l = out at hsettled
  cases hsettled with
  | unreserved _ => exact .refl l
  | refused _ _ _ _ => exact .refl l
  | charged id r hopen hfits =>
      obtain ⟨-, hid, hstatus⟩ := Ledger.openReservation_eq_some.mp hopen
      exact .settle now id r _ hid hstatus

theorem releaseQuotaReservation_effect (row : IngestionRecord) (l : Ledger) :
    Ledger.Effect l (releaseQuotaReservation now row l) := by
  unfold releaseQuotaReservation
  split
  · exact .refl l
  · rename_i id r hopen
    obtain ⟨-, hid, hstatus⟩ := Ledger.openReservation_eq_some.mp hopen
    exact .close now id r .released hid hstatus (by decide)

theorem held_effect {l l' : Ledger} {fresh id : Uuid} {n : ℤ} (h : Held l fresh n id l') :
    Ledger.Effect l l' := by
  obtain ⟨-, r, -, hr, rfl⟩ := h
  exact .hold fresh r hr

theorem commit_effect {fileId id : Uuid} (h : Commit now fileId id db db') :
    Ledger.Effect db.ledger db'.ledger := by
  cases h with
  | replayed row hrow hstatus => exact .refl _
  | unreserved row hready hnone => exact .refl _
  | charged row hready rid r hopen hfits =>
      obtain ⟨-, hid, hstatus⟩ := Ledger.openReservation_eq_some.mp hopen
      exact .settle now rid r _ hid hstatus
  | refused row hready rid r hopen hover => exact releaseQuotaReservation_effect _ _

/-! ## The reaper -/

theorem reapReservation_unclamped (h : db.ledger.Balanced) (id : Uuid) :
    reapReservation Quota.subReservedClamped now id db =
      reapReservation Quota.subReserved now id db := by
  unfold reapReservation
  split
  · rfl
  · rename_i j r hopen
    obtain ⟨rfl, hid, hstatus⟩ := by simpa using Ledger.openReservation_eq_some.mp hopen
    split
    · rw [h.close_clamped hid hstatus]
    · split
      · rfl
      · split
        · rfl
        · rw [h.close_clamped hid hstatus]

theorem reapReservation_effect (id : Uuid) :
    Ledger.Effect db.ledger (reapReservation Quota.subReserved now id db).ledger := by
  unfold reapReservation
  split
  · exact .refl _
  · rename_i j r hopen
    obtain ⟨rfl, hid, hstatus⟩ := by simpa using Ledger.openReservation_eq_some.mp hopen
    split
    · exact .close now id r .quarantined hid hstatus (by decide)
    · rename_i ingestion _
      split
      · split
        · exact settleQuotaReservation_effect ingestion db.ledger
        · exact .refl _
      · split
        · exact .refl _
        · exact .close now id r .released hid hstatus (by decide)

/-- Along the reaper's loop the balance is kept, so each turn acts as if unclamped. -/
theorem reapOrphanReservations_effects (picked : List Uuid) (h : db.ledger.Balanced) :
    reapOrphanReservations now picked db =
        reapOrphanReservationsWith Quota.subReserved now picked db ∧
      ReflTransGen Ledger.Effect db.ledger (reapOrphanReservations now picked db).ledger := by
  simp only [reapOrphanReservations, reapOrphanReservationsWith]
  induction picked generalizing db with
  | nil => exact ⟨rfl, .refl⟩
  | cons id picked ih =>
      have hstep : Ledger.Effect db.ledger (reapReservation Quota.subReserved now id db).ledger :=
        reapReservation_effect id
      obtain ⟨heq, hrest⟩ := ih (h.effect hstep)
      rw [List.foldl_cons, List.foldl_cons, reapReservation_unclamped h]
      exact ⟨heq, .head hstep hrest⟩

/-! ## Every command -/

theorem deleteApp_effect (applicationId : Uuid) :
    Ledger.Effect db.ledger (Applications.deleteApp applicationId db).2.ledger := by
  unfold Applications.deleteApp
  split
  · exact .refl _
  split
  · exact .refl _
  refine .of_lookup rfl (fun k ↦ AList.lookup_updateWhere _ _ _ _) fun k q ↦ ?_
  split <;> rfl

theorem step_effects {c : Cmd} (hl : db.ledger.Balanced) (h : Step db c db') :
    ReflTransGen Ledger.Effect db.ledger db'.ledger := by
  cases h with
  | idle | verified | requeued | sessions | edited => exact .refl
  | uploadCreated ids session data ledger hsession hrecord hheld =>
      exact .single (held_effect hheld)
  | multipartCreated ids session data ledger hsession hrecord hheld =>
      exact .single (held_effect hheld)
  | commit now fileId id _ hcommit => exact .single (commit_effect hcommit)
  | failed | expired => exact .single (releaseQuotaReservation_effect _ _)
  | reaped now picked => exact (reapOrphanReservations_effects picked hl).2
  | deleted | purged => exact .single releaseUsage_effect
  | quotaCreated fresh applicationId limit capacity mode hfresh hlimit =>
      exact .single (.of_insert hfresh rfl)
  | quotaOverwritten | quotaRevoked | platformLimitSet | limitSet =>
      exact .single (.of_update fun _ ↦ rfl)
  | appDeleted applicationId => exact .single (deleteApp_effect applicationId)

theorem balanced_effects {l l' : Ledger} (h : ReflTransGen Ledger.Effect l l')
    (hl : l.Balanced) : l'.Balanced := by
  induction h with
  | refl => exact hl
  | tail _ hstep ih => exact ih.effect hstep

theorem frozen_effects {l l' : Ledger} (h : ReflTransGen Ledger.Effect l l') {id : Uuid}
    {r : QuotaReservation} (hid : l.reservations.lookup id = some r)
    (hclosed : r.status ≠ .reserved) : l'.reservations.lookup id = some r := by
  induction h with
  | refl => exact hid
  | tail _ hstep ih => exact hstep.frozen ih hclosed

theorem mem_reservations_effects {l l' : Ledger} (h : ReflTransGen Ledger.Effect l l') {id : Uuid}
    (hid : id ∈ l.reservations) : id ∈ l'.reservations := by
  induction h with
  | refl => exact hid
  | tail _ hstep ih => exact hstep.mem_reservations ih

theorem closed_effects {l l' : Ledger} (h : ReflTransGen Ledger.Effect l l') {ref : Option Uuid}
    (hclosed : l.Closed ref) : l'.Closed ref := by
  obtain ⟨id, r, hid, hr, hstatus⟩ := hclosed
  exact ⟨id, r, hid, frozen_effects h hr hstatus, hstatus⟩

/-! ## Runs -/

theorem balanced_run (hl : db.ledger.Balanced) (cs : List Cmd) :
    (run exec db cs).ledger.Balanced :=
  run_preserves (I := fun s ↦ s.ledger.Balanced)
    (fun _ _ _ hs hok ↦ balanced_effects (step_effects hs (exec_step hok)) hs) hl cs

theorem frozen_run (hl : db.ledger.Balanced) (cs : List Cmd) {id : Uuid} {r : QuotaReservation}
    (hid : db.ledger.reservations.lookup id = some r) (hclosed : r.status ≠ .reserved) :
    (run exec db cs).ledger.reservations.lookup id = some r := by
  refine And.right (run_preserves
    (I := fun s : Db ↦ s.ledger.Balanced ∧ s.ledger.reservations.lookup id = some r)
    (fun s c s' hs hok ↦ ?_) ⟨hl, hid⟩ cs)
  have heffects := step_effects hs.1 (exec_step hok)
  exact ⟨balanced_effects heffects hs.1, frozen_effects heffects hs.2 hclosed⟩

/-- A tenant no upload has reserved anything for yet. -/
def Unreserved (db : Db) : Prop :=
  db.ledger.reservations = ∅ ∧
    ∀ k q, db.ledger.quotas.lookup k = some q → q.reservedBytes = 0

theorem Unreserved.balanced (h : Unreserved db) : db.ledger.Balanced := by
  obtain ⟨hempty, hzero⟩ := h
  constructor
  · intro id r hid
    simp [hempty] at hid
  · intro id r hid
    simp [hempty] at hid
  · intro k q hk
    rw [hzero k q hk, hempty]
    rfl

theorem Sample.unreserved : Unreserved Sample.tenant := by
  refine ⟨rfl, fun k q hk ↦ ?_⟩
  rw [Sample.tenant, AList.lookup_insert'] at hk
  split at hk
  · cases hk
    rfl
  · simp at hk

/-- In every state a tenant can reach, in whatever order its commands ran: the
reserved bytes of a quota are the requested bytes of the open reservations naming
it, a reservation once closed stays as it is, and the reaper's clamp does nothing. -/
theorem reserved_bytes_balance (h : Unreserved db) (cs : List Cmd) :
    (∀ k q, (run exec db cs).ledger.quotas.lookup k = some q →
      q.reservedBytes = (run exec db cs).ledger.reservations.total fun _ r ↦ r.heldOn k) ∧
    (∀ pre post id r, cs = pre ++ post →
      (run exec db pre).ledger.reservations.lookup id = some r → r.status ≠ .reserved →
        (run exec db cs).ledger.reservations.lookup id = some r) ∧
    (∀ now picked, reapOrphanReservations now picked (run exec db cs) =
      reapOrphanReservationsWith Quota.subReserved now picked (run exec db cs)) := by
  have hbalanced := balanced_run h.balanced cs
  refine ⟨hbalanced.balance, ?_, ?_⟩
  · rintro pre post id r rfl hid hclosed
    rw [run_append]
    exact frozen_run (balanced_run h.balanced pre) post hid hclosed
  · intro now picked
    exact (reapOrphanReservations_effects picked hbalanced).1

theorem reserved_bytes_balance_sample :
    let cs : List Cmd := [.createUploadIntent (Sample.ids 10) (Sample.session 40) (Sample.data "a"),
      .expire 2000 12]
    (∀ k q, (run exec Sample.tenant cs).ledger.quotas.lookup k = some q →
      q.reservedBytes =
        (run exec Sample.tenant cs).ledger.reservations.total fun _ r ↦ r.heldOn k) ∧
    (∀ pre post id r, cs = pre ++ post →
      (run exec Sample.tenant pre).ledger.reservations.lookup id = some r →
        r.status ≠ .reserved →
        (run exec Sample.tenant cs).ledger.reservations.lookup id = some r) ∧
    (∀ now picked, reapOrphanReservations now picked (run exec Sample.tenant cs) =
      reapOrphanReservationsWith Quota.subReserved now picked (run exec Sample.tenant cs)) :=
  reserved_bytes_balance Sample.unreserved _

end S3mp
