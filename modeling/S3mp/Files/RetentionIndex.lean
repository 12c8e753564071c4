import S3mp.Files.RetentionScheduler

/-!
# What a pass of the retention scheduler loses

A member which is taken out of the index and not put back is left to the
reconciliation.  This reads a limited number of rows which are on schedule, the
earliest ones, and does not see a row which waits for its move to the trash or which
a failure has left in processing.
-/

namespace S3mp

open Relational Files Storage Transition

section

variable {db db' : Db} {s s' : Retention} {id j : Uuid} {f f' : FileObject} {e : Encounter}
  {p : RetentionPass}

/-! ## What a pass does to the rows -/

/-- The members the loop processes. -/
def reached (now : Timestamp) (escapes : Uuid → Bool) : List (Uuid × Timestamp) → List Uuid
  | [] => []
  | (id, score) :: rows =>
    if now < score then [] else id :: if escapes id then [] else reached now escapes rows

/-- The member the loop puts back. -/
def requeued (now : Timestamp) (escapes : Uuid → Bool) : List (Uuid × Timestamp) → Option Uuid
  | [] => none
  | (id, score) :: rows =>
    if now < score then some id else if escapes id then none else requeued now escapes rows

def RetentionPass.escapes (p : RetentionPass) (db : Db) (id : Uuid) : Bool :=
  (p.encounter id).escapes db (db.files.lookup id)

theorem reached_congr (now : Timestamp) {escapes escapes' : Uuid → Bool}
    {rows : List (Uuid × Timestamp)} (h : ∀ id ∈ rows.map Prod.fst, escapes id = escapes' id) :
    reached now escapes rows = reached now escapes' rows ∧
      requeued now escapes rows = requeued now escapes' rows := by
  induction rows with
  | nil => exact ⟨rfl, rfl⟩
  | cons row rows ih =>
      obtain ⟨hreached, hrequeued⟩ := ih fun id hid ↦ h id (List.mem_cons_of_mem _ hid)
      have hid := h row.1 List.mem_cons_self
      rw [reached, reached, requeued, requeued, hreached, hrequeued, hid]
      exact ⟨rfl, rfl⟩

theorem mem_of_mem_reached {now : Timestamp} {escapes : Uuid → Bool}
    {rows : List (Uuid × Timestamp)} (h : j ∈ reached now escapes rows) : j ∈ rows.map Prod.fst := by
  induction rows with
  | nil => exact h
  | cons row rows ih =>
      rw [reached] at h
      split at h
      · cases h
      rcases List.mem_cons.mp h with rfl | h
      · exact List.mem_cons_self
      split at h
      · cases h
      · exact List.mem_cons_of_mem _ (ih h)

theorem purges_congr (h : ∀ spaceId, getSpace spaceId db' = getSpace spaceId db) :
    e.purges db' f = e.purges db f := by
  rw [Encounter.purges, Encounter.purges, h]

theorem Turned.congr (h : ∀ spaceId, getSpace spaceId db' = getSpace spaceId db)
    (hturned : Turned e db' f f') : Turned e db f f' := by
  cases hturned with
  | idle hclaim hrecord => exact .idle hclaim hrecord
  | revived now n hclaim hrecord hsoft hstate => exact .revived now n hclaim hrecord hsoft hstate
  | purged now hpurges => exact .purged now (purges_congr h ▸ hpurges)
  | failed now n hclaim hpurges hrecord =>
      exact .failed now n hclaim (purges_congr h ▸ hpurges) hrecord
  | stuck hclaim hpurges hrecord => exact .stuck hclaim (purges_congr h ▸ hpurges) hrecord

theorem escapes_congr {o : Option FileObject}
    (h : ∀ spaceId, getSpace spaceId db' = getSpace spaceId db) :
    e.escapes db' o = e.escapes db o := by
  unfold Encounter.escapes
  simp only [purges_congr h]

/-- The loop over the members it has taken out of the index. -/
structure Passed (p : RetentionPass) (rows : List (Uuid × Timestamp)) (s s' : Retention) : Prop where
  index : ∀ j, j ∈ s'.index ↔ j ∈ s.index ∨ requeued p.now (p.escapes s.db) rows = some j
  unreached : ∀ j, j ∉ reached p.now (p.escapes s.db) rows →
    s'.db.files.lookup j = s.db.files.lookup j
  absent : ∀ j, s.db.files.lookup j = none → s'.db.files.lookup j = none
  turned : ∀ j ∈ reached p.now (p.escapes s.db) rows, ∀ f, s.db.files.lookup j = some f →
    ∃ f', s'.db.files.lookup j = some f' ∧ Turned (p.encounter j) s.db f f'
  deletes : ∀ d ∈ s'.deletes, d ∈ s.deletes ∨ d.1 ∈ reached p.now (p.escapes s.db) rows ∧
    ∃ f, s.db.files.lookup d.1 = some f ∧ (p.encounter d.1).claims f = true

theorem Processed.absent' {out : Except Unit Bool} (h : Processed e id s out s')
    (hnone : s.db.files.lookup j = none) : s'.db.files.lookup j = none := by
  by_cases hj : j = id
  · subst hj
    exact h.absent hnone
  · rw [h.others j hj, hnone]

theorem Processed.deletes' {out : Except Unit Bool} (h : Processed (p.encounter id) id s out s')
    {d : Uuid × ProviderTarget} (hd : d ∈ s'.deletes) : d ∈ s.deletes ∨ d.1 = id ∧
      ∃ f, s.db.files.lookup d.1 = some f ∧ (p.encounter d.1).claims f = true := by
  rcases h.deletes d hd with hd | ⟨hid, f, hf, hclaims⟩
  · exact Or.inl hd
  · rw [hid]
    exact Or.inr ⟨rfl, f, hf, hclaims⟩

/-- The member is processed and the loop goes on. -/
theorem Passed.cons {rows : List (Uuid × Timestamp)} {score : Timestamp} {s'' : Retention}
    {out : Except Unit Bool} (hdue : ¬ p.now < score) (hnodup : ((id, score) :: rows).map Prod.fst |>.Nodup)
    (hmember : Processed (p.encounter id) id s out s') (hstays : p.escapes s.db id = false)
    (hrest : Passed p rows s' s'') : Passed p ((id, score) :: rows) s s'' := by
  obtain ⟨hnot, -⟩ := List.nodup_cons.mp hnodup
  have hne : ∀ j ∈ rows.map Prod.fst, j ≠ id := fun j hj ↦ ne_of_mem_of_not_mem hj hnot
  have hsame : ∀ j ∈ rows.map Prod.fst, p.escapes s'.db j = p.escapes s.db j := by
    intro j hj
    rw [RetentionPass.escapes, RetentionPass.escapes, hmember.others j (hne j hj),
      escapes_congr hmember.spaces]
  obtain ⟨hreached, hrequeued⟩ := reached_congr p.now hsame
  obtain ⟨hindex, hunreached, habsent, hturned, hdeletes⟩ := hrest
  rw [hreached] at hunreached hturned hdeletes
  have hhead : reached p.now (p.escapes s.db) ((id, score) :: rows) =
      id :: reached p.now (p.escapes s.db) rows := by
    rw [reached, if_neg hdue, hstays]
    rfl
  have hnotreached : id ∉ reached p.now (p.escapes s.db) rows := fun h ↦ hnot (mem_of_mem_reached h)
  refine ⟨fun j ↦ ?_, fun j hj ↦ ?_, fun j hj ↦ habsent j (hmember.absent' hj), fun j hj f hf ↦ ?_,
    fun d hd ↦ ?_⟩
  · rw [hindex, hrequeued, hmember.index, requeued, if_neg hdue, hstays]
    rfl
  · rw [hhead, List.mem_cons, not_or] at hj
    rw [hunreached j hj.2, hmember.others j hj.1]
  · rw [hhead] at hj
    rcases List.mem_cons.mp hj with rfl | hj
    · obtain ⟨f', hf', hturn⟩ := hmember.row f hf
      exact ⟨f', (hunreached j hnotreached).trans hf', hturn⟩
    · have hj' := hne j (mem_of_mem_reached hj)
      obtain ⟨f', hf', hturn⟩ := hturned j hj f ((hmember.others j hj').trans hf)
      exact ⟨f', hf', hturn.congr hmember.spaces⟩
  · rw [hhead, List.mem_cons]
    rcases hdeletes d hd with hd | ⟨hmem, f, hf, hclaims⟩
    · exact (hmember.deletes' hd).imp_right fun ⟨hid, hrow⟩ ↦ ⟨Or.inl hid, hrow⟩
    · have hid := hne d.1 (mem_of_mem_reached hmem)
      exact Or.inr ⟨Or.inr hmem, f, (hmember.others d.1 hid).symm.trans hf, hclaims⟩

/-- The loop stops at the first member which is not due. -/
theorem Passed.future {rows : List (Uuid × Timestamp)} {score : Timestamp} (hfuture : p.now < score) :
    Passed p ((id, score) :: rows) s { s with index := s.index.insert id score } := by
  refine ⟨fun j ↦ ?_, fun j _ ↦ rfl, fun j hj ↦ hj, fun j hj ↦ ?_, fun d hd ↦ Or.inl hd⟩
  · rw [AList.mem_insert', requeued, if_pos hfuture, Option.some_inj, or_comm, eq_comm (a := j)]
  · rw [reached, if_pos hfuture] at hj
    cases hj

/-- The loop stops when a failure cannot be recorded. -/
theorem Passed.escaped {rows : List (Uuid × Timestamp)} {score : Timestamp}
    {out : Except Unit Bool} (hdue : ¬ p.now < score)
    (hmember : Processed (p.encounter id) id s out s') (hescapes : p.escapes s.db id = true) :
    Passed p ((id, score) :: rows) s s' := by
  have hhead : reached p.now (p.escapes s.db) ((id, score) :: rows) = [id] := by
    rw [reached, if_neg hdue, hescapes]
    rfl
  refine ⟨fun j ↦ ?_, fun j hj ↦ ?_, fun j hj ↦ hmember.absent' hj, fun j hj f hf ↦ ?_,
    fun d hd ↦ ?_⟩
  · rw [hmember.index, requeued, if_neg hdue, hescapes]
    simp
  · rw [hhead, List.mem_singleton] at hj
    exact hmember.others j hj
  · rw [hhead, List.mem_singleton] at hj
    subst hj
    exact hmember.row f hf
  · rw [hhead, List.mem_singleton]
    exact hmember.deletes' hd

theorem purgeRows_passed (p : RetentionPass) {rows : List (Uuid × Timestamp)} (n : ℕ)
    (s : Retention) (hnodup : (rows.map Prod.fst).Nodup) : Passed p rows s (purgeRows p rows n s).2 := by
  induction rows generalizing n s with
  | nil =>
      refine ⟨fun j ↦ ?_, fun j _ ↦ rfl, fun j hj ↦ hj, fun j hj ↦ ?_, fun d hd ↦ Or.inl hd⟩
      · simp [requeued, purgeRows]
      · cases hj
  | cons row rows ih =>
      obtain ⟨id, score⟩ := row
      rw [purgeRows]
      by_cases hfuture : p.now < score
      · rw [if_pos hfuture]
        exact .future hfuture
      rw [if_neg hfuture]
      have hmember := processMember_processed p id s
      cases hout : processMember p id s with
      | mk out s' =>
          rw [hout] at hmember
          cases out with
          | error u => exact .escaped hfuture hmember (hmember.escapes.mp ⟨u, rfl⟩)
          | ok done =>
              have hstays : p.escapes s.db id = false := by
                rw [← Bool.not_eq_true]
                exact fun h ↦ by simpa using hmember.escapes.mpr h
              exact .cons hfuture hnodup hmember hstays (ih _ _ (List.nodup_cons.mp hnodup).2)

/-! ## What the reconciliation finds -/

theorem mem_awaitingPurge {files : Table Uuid FileObject} :
    id ∈ awaitingPurge files ↔ ∃ f, files.lookup id = some f ∧ f.awaitsPurge = true := by
  simp only [awaitingPurge, AList.mem_keys_select]

theorem nodup_awaitingPurge (files : Table Uuid FileObject) : (awaitingPurge files).Nodup :=
  AList.nodup_keys_select _ _

theorem purgeRank_injective (files : Table Uuid FileObject) :
    Function.Injective (purgeRank files) := by
  intro a b h
  exact (Prod.mk.inj (toLex_inj.mp h)).2

theorem mem_foldl_reconcileMember {ids : List Uuid} {index : DueIndex}
    (h : ∀ i ∈ ids, i ∈ awaitingPurge db.files) :
    id ∈ ids.foldl (reconcileMember db) index ↔ id ∈ index ∨ id ∈ ids := by
  induction ids generalizing index with
  | nil => simp
  | cons i ids ih =>
      obtain ⟨f, hf, hawaits⟩ := mem_awaitingPurge.mp (h i List.mem_cons_self)
      simp only [FileObject.awaitsPurge, Bool.and_eq_true] at hawaits
      obtain ⟨due, hdue⟩ := Option.isSome_iff_exists.mp hawaits.1.2
      obtain ⟨scheduledAt, hscheduled⟩ : ∃ t, f.purgeScheduledAt = some t := by
        unfold FileObject.purgeScheduledAt
        cases f.purgeNextRetryAt with
        | none => exact ⟨due, hdue⟩
        | some retryAt => exact ⟨retryAt, rfl⟩
      have hmember : reconcileMember db index i = index.insert i scheduledAt := by
        unfold reconcileMember
        rw [hf, Option.bind_some, hscheduled]
      rw [List.foldl_cons, ih fun k hk ↦ h k (List.mem_cons_of_mem _ hk), hmember, AList.mem_insert',
        List.mem_cons, or_assoc, or_left_comm]

theorem mem_reconcileIndex {limit : ℕ} : id ∈ (reconcileIndex limit s).index ↔
    id ∈ s.index ∨ id ∈ retentionReconciliationCandidates limit s.db :=
  mem_foldl_reconcileMember fun _ ↦ mem_of_mem_oldest

theorem mem_candidates {limit : ℕ} : id ∈ retentionReconciliationCandidates limit db ↔
    id ∈ awaitingPurge db.files ∧
      (olderThan (purgeRank db.files) id (awaitingPurge db.files)).length < limit := by
  constructor
  · intro hmem
    have hawaits := mem_of_mem_oldest hmem
    exact ⟨hawaits, (mem_oldest_iff (purgeRank_injective _) (nodup_awaitingPurge _) hawaits).mp hmem⟩
  · rintro ⟨hawaits, hroom⟩
    exact (mem_oldest_iff (purgeRank_injective _) (nodup_awaitingPurge _) hawaits).mpr hroom

/-! ## What is left on schedule -/

/-- The row is on schedule after the pass, in which its member is processed or not. -/
def Files.FileObject.waitsAfter (turn : Option Encounter) (db : Db) (f : FileObject) : Bool :=
  match turn with
  | none => f.awaitsPurge
  | some e =>
    if e.claims f then !e.purges db f && e.failedAt.isSome
    else f.awaitsPurge || (f.softDeleted && f.purgeDueAt.isSome &&
      f.purgeState = some .processing && e.claimedAt.isNone && e.failedAt.isSome)

/-- The members a pass takes out of the index. -/
def RetentionPass.popped (p : RetentionPass) (s : Retention) : List (Uuid × Timestamp) :=
  (zpopmin p.limit s.index).1

def RetentionPass.processes (p : RetentionPass) (s : Retention) (id : Uuid) : Bool :=
  id ∈ reached p.now (p.escapes s.db) (p.popped s)

def RetentionPass.turn (p : RetentionPass) (s : Retention) (id : Uuid) : Option Encounter :=
  if p.processes s id then some (p.encounter id) else none

/-- The files which are on schedule after the pass. -/
def waitingAfter (p : RetentionPass) (s : Retention) : List Uuid :=
  (s.db.files.select fun id f ↦ f.waitsAfter (p.turn s id) s.db).map Prod.fst

theorem Turned.awaitsPurge (h : Turned e db f f') : f'.awaitsPurge = f.waitsAfter (some e) db := by
  unfold FileObject.waitsAfter
  dsimp only
  cases h with
  | idle hclaim hrecord =>
      rw [hclaim]
      cases hdown : e.claimedAt with
      | some now => simp
      | none =>
          cases hfailed : e.failedAt with
          | none => simp
          | some failedAt =>
              have hnot := hrecord hdown (by simp [hfailed])
              rw [not_and] at hnot
              cases hsoft : f.softDeleted with
              | false => simp
              | true => simp [hnot hsoft]
  | revived now n hclaim hrecord hsoft hstate =>
      rw [claims_of_down hclaim]
      simp [FileObject.awaitsPurge, FileObject.postponed, hclaim, hrecord, hsoft, hstate]
  | purged now hpurges =>
      rw [claims_of_purges hpurges, hpurges]
      simp [FileObject.awaitsPurge, purgedFile]
  | failed now n hclaim hpurges hrecord =>
      have hawaits := awaitsPurge_of_claims hclaim
      simp only [FileObject.awaitsPurge, Bool.and_eq_true] at hawaits
      rw [hclaim, hpurges, hrecord]
      simp [FileObject.awaitsPurge, FileObject.postponed, FileObject.claimed, hawaits.1.1, hawaits.1.2]
  | stuck hclaim hpurges hrecord =>
      rw [hclaim, hpurges, hrecord]
      simp [FileObject.awaitsPurge, FileObject.claimed]

theorem Turned.softDeleted (h : Turned e db f f') :
    f'.softDeleted = true ↔ f.softDeleted = true ∧ e.purges db f = false := by
  cases h with
  | idle hclaim =>
      have hpurges : e.purges db f = false := by
        rw [← Bool.not_eq_true]
        exact fun hpurges ↦ by simp [claims_of_purges hpurges] at hclaim
      simp [hpurges]
  | revived now n hclaim =>
      have hpurges : e.purges db f = false := by
        rw [← Bool.not_eq_true]
        intro hpurges
        have hclaims := claims_of_purges hpurges
        rw [claims_of_down hclaim] at hclaims
        cases hclaims
      simp [hpurges, FileObject.postponed]
  | purged now hpurges => simp [hpurges, purgedFile]
  | failed now n _ hpurges => simp [hpurges, FileObject.postponed, FileObject.claimed]
  | stuck _ hpurges => simp [hpurges, FileObject.claimed]

theorem Turned.purgeDueAt (h : Turned e db f f') (hawaits : f'.awaitsPurge = true) :
    f'.purgeDueAt = f.purgeDueAt := by
  cases h with
  | purged now _ => simp [FileObject.awaitsPurge, purgedFile] at hawaits
  | idle | revived | failed | stuck => rfl

/-- The file is purged by the pass. -/
def RetentionPass.purges (p : RetentionPass) (s : Retention) (id : Uuid) (f : FileObject) : Bool :=
  p.processes s id && (p.encounter id).purges s.db f

/-- What a pass makes of a row. -/
structure RowAfter (p : RetentionPass) (s : Retention) (id : Uuid) (f f' : FileObject) : Prop where
  awaits : f'.awaitsPurge = f.waitsAfter (p.turn s id) s.db
  due : f'.awaitsPurge = true → f'.purgeDueAt = f.purgeDueAt
  soft : f'.softDeleted = true ↔ f.softDeleted = true ∧ p.purges s id f = false

theorem popped_ids (p : RetentionPass) (s : Retention) :
    (p.popped s).map Prod.fst = oldest (scoreRank s.index) p.limit s.index.keys := by
  rw [RetentionPass.popped, zpopmin, List.map_map]
  exact List.map_id _

theorem nodup_popped (p : RetentionPass) (s : Retention) : ((p.popped s).map Prod.fst).Nodup := by
  rw [popped_ids]
  exact nodup_oldest s.index.nodupKeys

theorem purgeDue_passed (p : RetentionPass) (s : Retention) :
    Passed p (p.popped s) { s with index := (zpopmin p.limit s.index).2 } (purgeDue p s).2 :=
  purgeRows_passed p 0 _ (nodup_popped p s)

/-- Of the members taken out, the pass puts back the one it stops at. -/
theorem mem_index_purgeDue (hpopped : j ∈ (p.popped s).map Prod.fst) :
    j ∈ (purgeDue p s).2.index ↔ requeued p.now (p.escapes s.db) (p.popped s) = some j := by
  have hout : j ∉ (zpopmin p.limit s.index).2 := by
    rw [popped_ids] at hpopped
    intro hin
    obtain ⟨score, hscore⟩ := AList.exists_lookup_of_mem hin
    rw [zpopmin, AList.lookup_deleteWhere, Option.filter_eq_some_iff] at hscore
    simp [hpopped] at hscore
  rw [(purgeDue_passed p s).index, or_iff_right hout]

theorem row_purgeDue (hf : s.db.files.lookup j = some f) :
    ∃ f', (purgeDue p s).2.db.files.lookup j = some f' ∧ RowAfter p s j f f' := by
  obtain ⟨-, hunreached, -, hturned, -⟩ := purgeDue_passed p s
  by_cases hreached : j ∈ reached p.now (p.escapes s.db) (p.popped s)
  · obtain ⟨f', hf', hturn⟩ := hturned j hreached f hf
    have hprocesses : p.processes s j = true := decide_eq_true hreached
    refine ⟨f', hf', ?_, hturn.purgeDueAt, ?_⟩
    · rw [RetentionPass.turn, if_pos hprocesses]
      exact hturn.awaitsPurge
    · rw [RetentionPass.purges, hprocesses, Bool.true_and]
      exact hturn.softDeleted
  · have hprocesses : p.processes s j = false := decide_eq_false hreached
    refine ⟨f, (hunreached j hreached).trans hf, ?_, fun _ ↦ rfl, ?_⟩
    · rw [RetentionPass.turn, hprocesses]
      rfl
    · simp [RetentionPass.purges, hprocesses]

theorem row_before (hf' : (purgeDue p s).2.db.files.lookup j = some f') :
    ∃ f, s.db.files.lookup j = some f ∧ RowAfter p s j f f' := by
  cases hf : s.db.files.lookup j with
  | none =>
      have hnone := (purgeDue_passed p s).absent j hf
      rw [hnone] at hf'
      cases hf'
  | some f =>
      obtain ⟨g, hg, hafter⟩ := row_purgeDue (p := p) hf
      obtain rfl := Option.some.inj (hf'.symm.trans hg)
      exact ⟨f, rfl, hafter⟩

theorem mem_waitingAfter : j ∈ waitingAfter p s ↔
    ∃ f, s.db.files.lookup j = some f ∧ f.waitsAfter (p.turn s j) s.db = true := by
  simp only [waitingAfter, AList.mem_keys_select]

theorem mem_awaitingPurge_purgeDue :
    j ∈ awaitingPurge (purgeDue p s).2.db.files ↔ j ∈ waitingAfter p s := by
  rw [mem_awaitingPurge, mem_waitingAfter]
  constructor
  · rintro ⟨f', hf', hawaits⟩
    obtain ⟨f, hf, hafter⟩ := row_before hf'
    exact ⟨f, hf, hafter.awaits ▸ hawaits⟩
  · rintro ⟨f, hf, hwaits⟩
    obtain ⟨f', hf', hafter⟩ := row_purgeDue hf
    exact ⟨f', hf', hafter.awaits.trans hwaits⟩

/-- A pass moves no due time. -/
theorem purgeRank_purgeDue (h : j ∈ awaitingPurge (purgeDue p s).2.db.files) :
    purgeRank (purgeDue p s).2.db.files j = purgeRank s.db.files j := by
  obtain ⟨f', hf', hawaits⟩ := mem_awaitingPurge.mp h
  obtain ⟨f, hf, hafter⟩ := row_before hf'
  rw [purgeRank, purgeRank, hf', hf, Option.bind_some, Option.bind_some, hafter.due hawaits]

theorem length_olderThan_purgeDue (h : j ∈ awaitingPurge (purgeDue p s).2.db.files) :
    (olderThan (purgeRank (purgeDue p s).2.db.files) j
        (awaitingPurge (purgeDue p s).2.db.files)).length =
      (olderThan (purgeRank s.db.files) j (waitingAfter p s)).length := by
  refine List.Perm.length_eq ((List.perm_ext_iff_of_nodup ?_ ?_).mpr fun i ↦ ?_)
  · exact (nodup_awaitingPurge _).filter _
  · exact (AList.nodup_keys_select _ _).filter _
  · rw [mem_olderThan, mem_olderThan, ← mem_awaitingPurge_purgeDue]
    refine and_congr_right fun hi ↦ ?_
    rw [purgeRank_purgeDue hi, purgeRank_purgeDue h]

/-- The reconciliation after the pass reads the row. -/
theorem mem_candidates_purgeDue {limit : ℕ} :
    j ∈ retentionReconciliationCandidates limit (purgeDue p s).2.db ↔ j ∈ waitingAfter p s ∧
      (olderThan (purgeRank s.db.files) j (waitingAfter p s)).length < limit := by
  rw [mem_candidates, ← mem_awaitingPurge_purgeDue]
  refine and_congr_right fun hawaits ↦ ?_
  rw [length_olderThan_purgeDue hawaits]

/-! ## The law of the index -/

/-- Every member taken out whose file is still to be purged is in the index after the
pass and the next reconciliation. -/
def ReindexesAll (limit : ℕ) (p : RetentionPass) (s : Retention) : Prop :=
  ∀ j ∈ (p.popped s).map Prod.fst, ∀ f', (purgeDue p s).2.db.files.lookup j = some f' →
    f'.softDeleted = true → j ∈ (reconcileIndex limit (purgeDue p s).2).index

/-- A file which is due later is neither purged nor deleted at the provider. -/
def SparesFuture (p : RetentionPass) (s : Retention) : Prop :=
  ∀ j f due, s.db.files.lookup j = some f → f.purgeDueAt = some due →
    (∀ now, (p.encounter j).claimedAt = some now → now < due) →
    (∃ f', (purgeDue p s).2.db.files.lookup j = some f' ∧ f'.softDeleted = f.softDeleted) ∧
      ∀ d ∈ (purgeDue p s).2.deletes, d.1 = j → d ∈ s.deletes

/-- Every file taken out which the pass does not purge is the member the loop stops at, or
is left on schedule among the earliest rows. -/
def KeepsIndexed (limit : ℕ) (p : RetentionPass) (s : Retention) : Prop :=
  ∀ j ∈ (p.popped s).map Prod.fst, ∀ f, s.db.files.lookup j = some f → f.softDeleted = true →
    p.purges s j f = false →
    requeued p.now (p.escapes s.db) (p.popped s) = some j ∨
      j ∈ waitingAfter p s ∧ (olderThan (purgeRank s.db.files) j (waitingAfter p s)).length < limit

theorem claims_due {due : Timestamp} (hclaims : e.claims f = true) (hdue : f.purgeDueAt = some due) :
    ∃ now, e.claimedAt = some now ∧ due ≤ now := by
  obtain ⟨now, hnow, -, hclaimable⟩ := claims_iff.mp hclaims
  simp only [FileObject.claimable, hdue, Bool.and_eq_true, Option.any_some, decide_eq_true_eq]
    at hclaimable
  exact ⟨now, hnow, hclaimable.1.2⟩

theorem sparesFuture (p : RetentionPass) (s : Retention) : SparesFuture p s := by
  intro j f due hf hdue hfuture
  have hclaim : (p.encounter j).claims f = false := by
    rw [← Bool.not_eq_true]
    intro hclaims
    obtain ⟨now, hnow, hle⟩ := claims_due hclaims hdue
    exact absurd hle (not_le.mpr (hfuture now hnow))
  constructor
  · obtain ⟨f', hf', hafter⟩ := row_purgeDue (p := p) hf
    refine ⟨f', hf', Bool.eq_iff_iff.mpr (hafter.soft.trans (and_iff_left ?_))⟩
    simp [RetentionPass.purges, Encounter.purges, hclaim]
  · rintro d hd rfl
    rcases (purgeDue_passed p s).deletes d hd with hold | ⟨-, g, hg, hclaims⟩
    · exact hold
    · obtain rfl := Option.some.inj (hf.symm.trans hg)
      rw [hclaim] at hclaims
      cases hclaims

theorem mem_reconcileIndex_purgeDue {limit : ℕ} (hpopped : j ∈ (p.popped s).map Prod.fst) :
    j ∈ (reconcileIndex limit (purgeDue p s).2).index ↔
      requeued p.now (p.escapes s.db) (p.popped s) = some j ∨ j ∈ waitingAfter p s ∧
        (olderThan (purgeRank s.db.files) j (waitingAfter p s)).length < limit := by
  rw [mem_reconcileIndex, mem_index_purgeDue hpopped, mem_candidates_purgeDue]

theorem retention_index_kept_iff {limit : ℕ} {p : RetentionPass} {s : Retention} :
    (ReindexesAll limit p s ∧ SparesFuture p s) ↔ KeepsIndexed limit p s := by
  rw [and_iff_left (sparesFuture p s)]
  constructor
  · intro hall j hpopped f hf hsoft hpurges
    obtain ⟨f', hf', hafter⟩ := row_purgeDue (p := p) hf
    have hsoft' : f'.softDeleted = true := hafter.soft.mpr ⟨hsoft, hpurges⟩
    exact (mem_reconcileIndex_purgeDue hpopped).mp (hall j hpopped f' hf' hsoft')
  · intro hkeeps j hpopped f' hf' hsoft'
    obtain ⟨f, hf, hafter⟩ := row_before hf'
    obtain ⟨hsoft, hpurges⟩ := hafter.soft.mp hsoft'
    exact (mem_reconcileIndex_purgeDue hpopped).mpr (hkeeps j hpopped f hf hsoft hpurges)

namespace Sample

/-- A file in the trash of the space. -/
def onSchedule (due : Timestamp) (retryAt : Option Timestamp) : FileObject where
  storageSpaceId := 2
  applicationId := some 5
  storageNamespace := some "ns"
  profileVersion := 1
  objectKey := "trash/key"
  providerTargetVersion := 1
  contentLength := 40
  contentType := "text/plain"
  etag := none
  checksum := none
  publicFileRef := none
  metadata := none
  activeOperationId := none
  operationPhase := none
  processingStartedAt := none
  status := .deleted
  deletionAttemptCount := 0
  deletionNextRetryAt := none
  deletedAt := some 1
  deletionPrincipalId := some 3
  deletionAuthorizationVersion := none
  deletionAuthorizationEvidence := none
  deletionIdempotencyKey := none
  softDeleted := true
  purgeDueAt := some due
  purgeState := some (if retryAt.isSome then .retryWait else .scheduled)
  purgeAttemptCount := if retryAt.isSome then 1 else 0
  purgeNextRetryAt := retryAt
  purgedAt := none

/-- Two files which are due at 100 and 110, and two older ones which wait for a retry at 200. -/
def twoAhead : Retention where
  db := { tenant with
    files := ((((∅ : Table Uuid FileObject).insert 31 (onSchedule 110 none)).insert 30
      (onSchedule 100 none)).insert 33 (onSchedule 20 (some 200))).insert 32
        (onSchedule 10 (some 200)) }
  index := ((((∅ : DueIndex).insert 33 200).insert 32 200).insert 31 110).insert 30 100
  deletes := []

def nothingFails : Encounter where
  claimedAt := some 50
  locked := false
  spaceRead := true
  objectDeleted := true
  purgedAt := some 50
  failedAt := some 50

/-- A pass at 50 over two members. -/
def early : RetentionPass where
  now := 50
  limit := 2
  maxAttempts := 5
  encounter := fun _ ↦ nothingFails

/-- A pass at 100: the provider does not delete the object, and then the database fails. -/
def unrecorded : RetentionPass where
  now := 100
  limit := 2
  maxAttempts := 5
  encounter := fun _ ↦
    { nothingFails with claimedAt := some 100, objectDeleted := false, failedAt := none }

end Sample

theorem popped_twoAhead {p : RetentionPass} (h : p.limit = 2) :
    zpopmin p.limit Sample.twoAhead.index =
      ([(30, 100), (31, 110)], ((∅ : DueIndex).insert 33 200).insert 32 200) := by
  have hsorted : oldest (scoreRank Sample.twoAhead.index) 2 Sample.twoAhead.index.keys = [30, 31] := by
    rw [oldest, List.mergeSort_of_pairwise (by decide +kernel)]
    rfl
  rw [zpopmin, h, hsorted]
  rfl

/-- The pass at 50 puts back the first of its two members, and the pass at 100 neither. -/
theorem popped_members_stay_out :
    ¬ (ReindexesAll 2 Sample.early Sample.twoAhead ∧ SparesFuture Sample.early Sample.twoAhead) ∧
      ¬ (ReindexesAll 100 Sample.unrecorded Sample.twoAhead ∧
        SparesFuture Sample.unrecorded Sample.twoAhead) := by
  constructor
  · rintro ⟨hall, -⟩
    have hpass : (purgeDue Sample.early Sample.twoAhead).2 =
        { Sample.twoAhead with
          index := (((∅ : DueIndex).insert 33 200).insert 32 200).insert 30 100 } := by
      rw [purgeDue, popped_twoAhead rfl]
      rfl
    have hcandidates : retentionReconciliationCandidates 2 Sample.twoAhead.db = [32, 33] := by
      rw [retentionReconciliationCandidates, oldest, List.mergeSort_of_pairwise (by decide +kernel)]
      decide +kernel
    have hpopped : 31 ∈ (Sample.early.popped Sample.twoAhead).map Prod.fst := by
      rw [RetentionPass.popped, popped_twoAhead rfl]
      decide
    have hmem := hall 31 hpopped (Sample.onSchedule 110 none) (by rw [hpass]; decide +kernel) rfl
    rw [mem_reconcileIndex, hpass, hcandidates] at hmem
    revert hmem
    decide +kernel
  · rintro ⟨hall, -⟩
    have hpopped : 30 ∈ (Sample.unrecorded.popped Sample.twoAhead).map Prod.fst := by
      rw [RetentionPass.popped, popped_twoAhead rfl]
      decide
    have hpass : (purgeDue Sample.unrecorded Sample.twoAhead).2.index =
          ((∅ : DueIndex).insert 33 200).insert 32 200 ∧
        (purgeDue Sample.unrecorded Sample.twoAhead).2.db.files.lookup 30 =
          some (Sample.onSchedule 100 none).claimed := by
      rw [purgeDue, popped_twoAhead rfl]
      exact ⟨rfl, by decide +kernel⟩
    have hmem := hall 30 hpopped _ hpass.2 rfl
    rw [mem_reconcileIndex, hpass.1, mem_candidates, mem_awaitingPurge, hpass.2] at hmem
    rcases hmem with hmem | ⟨⟨f, hf, hawaits⟩, -⟩
    · revert hmem
      decide +kernel
    · obtain rfl := Option.some.inj hf
      cases hawaits

end

end S3mp
