import Mathlib.Data.Prod.Lex
import S3mp.Operations.World
import S3mp.Steps
import S3mp.Transition.Batches

/-!
# The retention scheduler

Redis keeps an index of the files to be purged by the time they are due, and the
database decides.  A pass takes members out of the index before it looks at their
rows; the reconciliation puts files back which the database has on schedule.
-/

namespace S3mp

open Relational Files Storage Transition

/-! ## The index -/

/-- A sorted set: file ids with their scores. -/
abbrev DueIndex := Table Uuid Timestamp

/-- The order of members: by their scores, and as texts where these are equal. -/
def scoreRank (index : DueIndex) (id : Uuid) : Timestamp ×ₗ Uuid :=
  toLex ((index.lookup id).getD 0, id)

def zpopmin (count : ℕ) (index : DueIndex) : List (Uuid × Timestamp) × DueIndex :=
  let ids := oldest (scoreRank index) count index.keys
  (ids.map fun id ↦ (id, (index.lookup id).getD 0), index.deleteWhere fun id _ ↦ id ∈ ids)

structure Retention where
  db : Db
  index : DueIndex
  /-- The calls of `delete` at the provider, with the files they were made for. -/
  deletes : List (Uuid × ProviderTarget)

/-! ## The reconciliation -/

/-- The row is on schedule for its purge. -/
def Files.FileObject.awaitsPurge (f : FileObject) : Bool :=
  f.softDeleted && f.purgeDueAt.isSome &&
    (f.purgeState = some .scheduled ∨ f.purgeState = some .retryWait)

/-- The order of the query of the reconciliation. -/
def purgeRank (files : Table Uuid FileObject) (id : Uuid) : Timestamp ×ₗ Uuid :=
  toLex (((files.lookup id).bind (·.purgeDueAt)).getD 0, id)

def awaitingPurge (files : Table Uuid FileObject) : List Uuid :=
  (files.select fun _ f ↦ f.awaitsPurge).map Prod.fst

def retentionReconciliationCandidates (limit : ℕ) (db : Db) : List Uuid :=
  oldest (purgeRank db.files) limit (awaitingPurge db.files)

def Files.FileObject.purgeScheduledAt (f : FileObject) : Option Timestamp :=
  f.purgeNextRetryAt <|> f.purgeDueAt

def reconcileMember (db : Db) (index : DueIndex) (id : Uuid) : DueIndex :=
  match (db.files.lookup id).bind (·.purgeScheduledAt) with
  | none => index
  | some scheduledAt => index.insert id scheduledAt

def reconcileIndex (limit : ℕ) (s : Retention) : Retention :=
  { s with index :=
      (retentionReconciliationCandidates limit s.db).foldl (reconcileMember s.db) s.index }

/-! ## A pass -/

/-- What the database and the provider do while a member is processed.  A time is that of a
transaction, and none means that it fails. -/
structure Encounter where
  claimedAt : Option Timestamp
  /-- Somebody else has locked the row. -/
  locked : Bool
  spaceRead : Bool
  objectDeleted : Bool
  purgedAt : Option Timestamp
  failedAt : Option Timestamp

structure RetentionPass where
  now : Timestamp
  limit : ℕ
  maxAttempts : ℕ
  encounter : Uuid → Encounter

/-- The body of the `try`: whether the file has been purged. -/
def purgeMember (e : Encounter) (id : Uuid) (s : Retention) : Except Unit Bool × Retention :=
  match e.claimedAt with
  | none => (.error (), s)
  | some now =>
    let (record, db) := if e.locked then (none, s.db) else claimRetainedFileForPurge now id s.db
    match record with
    | none => (.ok false, s)
    | some f =>
      let s := { s with db }
      if !e.spaceRead then (.error (), s)
      else
        match getSpace f.storageSpaceId s.db with
        | none => (.error (), s)
        | some space =>
          let s := { s with deletes := (id, ⟨space.bucket, f.objectKey, 1⟩) :: s.deletes }
          if !e.objectDeleted then (.error (), s)
          else
            match e.purgedAt with
            | none => (.error (), s)
            | some purgedAt =>
              (.ok true, { s with db := finalizeRetainedFilePurge purgedAt id s.db })

/-- The `except`: the failure is recorded, unless the database fails there as well. -/
def processMember (p : RetentionPass) (id : Uuid) (s : Retention) : Except Unit Bool × Retention :=
  match purgeMember (p.encounter id) id s with
  | (.ok purged, s) => (.ok purged, s)
  | (.error (), s) =>
    match (p.encounter id).failedAt with
    | none => (.error (), s)
    | some failedAt =>
      (.ok false, { s with db := recordRetainedPurgeFailure failedAt id p.maxAttempts s.db })

def purgeRows (p : RetentionPass) :
    List (Uuid × Timestamp) → ℕ → Retention → Except Unit ℕ × Retention
  | [], purged, s => (.ok purged, s)
  | (id, score) :: rows, purged, s =>
    -- The first member which is not yet due goes back, and the loop ends.
    if p.now < score then (.ok purged, { s with index := s.index.insert id score })
    else
      match processMember p id s with
      | (.ok done, s) => purgeRows p rows (if done then purged + 1 else purged) s
      | (.error (), s) => (.error (), s)

def purgeDue (p : RetentionPass) (s : Retention) : Except Unit ℕ × Retention :=
  let (rows, index) := zpopmin p.limit s.index
  purgeRows p rows 0 { s with index }

/-! ## What happens to a row -/

section

variable {db db' : Db} {s s' : Retention} {id j : Uuid} {f f' : FileObject} {e : Encounter}
  {p : RetentionPass}

/-- The claim accepts the row. -/
def Files.FileObject.claimable (now : Timestamp) (f : FileObject) : Bool :=
  f.awaitsPurge && f.purgeDueAt.any (· ≤ now) && f.purgeNextRetryAt.all (· ≤ now)

def Files.FileObject.claimed (f : FileObject) : FileObject :=
  { f with
    purgeState := some .processing
    purgeAttemptCount := f.purgeAttemptCount + 1
    purgeNextRetryAt := none }

def Files.FileObject.postponed (now : Timestamp) (maxAttempts : ℕ) (f : FileObject) : FileObject :=
  { f with
    purgeState := some .retryWait
    purgeNextRetryAt :=
      some (now + seconds (min 3600 (2 ^ min maxAttempts (max 1 f.purgeAttemptCount)))) }

theorem claimable_iff_not {now : Timestamp} : f.claimable now = true ↔
    ¬ (f.softDeleted = false ∨ f.purgeDueAt.all (now < ·) ∨
      f.purgeState ∉ [some .scheduled, some .retryWait] ∨ f.purgeNextRetryAt.any (now < ·)) := by
  unfold FileObject.claimable FileObject.awaitsPurge
  cases f.purgeDueAt with
  | none => simp
  | some due =>
      cases f.purgeNextRetryAt with
      | none =>
          simp
          tauto
      | some retryAt =>
          simp
          tauto

theorem claimRetainedFileForPurge_eq (now : Timestamp) (hf : db.files.lookup id = some f) :
    claimRetainedFileForPurge now id db = if f.claimable now then
      (some f.claimed, { db with files := db.files.update id fun _ ↦ f.claimed }) else (none, db) := by
  unfold claimRetainedFileForPurge
  rw [hf]
  dsimp only
  by_cases hclaim : f.claimable now = true
  · rw [if_pos hclaim, if_neg (claimable_iff_not.mp hclaim)]
    rfl
  · rw [if_neg hclaim, if_pos (not_not.mp (mt claimable_iff_not.mpr hclaim))]

theorem finalizeRetainedFilePurge_eq (now : Timestamp) (hf : db.files.lookup id = some f)
    (hsoft : f.softDeleted = true) (hstate : f.purgeState = some .processing) :
    finalizeRetainedFilePurge now id db = releasedDb .fileRetentionPurged id f (purgedFile now f) db := by
  unfold finalizeRetainedFilePurge
  rw [hf]
  dsimp only
  rw [if_neg (by simp [hsoft, hstate]), AList.update_eq_const hf]
  rfl

theorem recordRetainedPurgeFailure_eq (now : Timestamp) (n : ℕ) (hf : db.files.lookup id = some f) :
    recordRetainedPurgeFailure now id n db =
      if f.softDeleted = true ∧ f.purgeState = some .processing then
        { db with files := db.files.update id fun _ ↦ f.postponed now n } else db := by
  unfold recordRetainedPurgeFailure
  rw [hf]
  dsimp only
  by_cases hprocessing : f.softDeleted = true ∧ f.purgeState = some .processing
  · rw [if_pos hprocessing, if_neg (by simp [hprocessing]), AList.update_eq_const hf]
    rfl
  · rw [if_neg hprocessing, if_pos]
    rw [not_and_or, Bool.not_eq_true] at hprocessing
    exact hprocessing

/-! ## What a pass decides -/

/-- The claim of the member goes through. -/
def Encounter.claims (e : Encounter) (f : FileObject) : Bool :=
  e.claimedAt.any fun now ↦ !e.locked && f.claimable now

/-- The file is purged. -/
def Encounter.purges (e : Encounter) (db : Db) (f : FileObject) : Bool :=
  e.claims f && e.spaceRead && (getSpace f.storageSpaceId db).isSome && e.objectDeleted &&
    e.purgedAt.isSome

/-- Something fails while the member is processed, and recording that fails as well. -/
def Encounter.escapes (e : Encounter) (db : Db) (f : Option FileObject) : Bool :=
  (e.claimedAt.isNone || f.any fun f ↦ e.claims f && !e.purges db f) && e.failedAt.isNone

/-- What processing a member makes of its row. -/
inductive Turned (e : Encounter) (db : Db) (f : FileObject) : FileObject → Prop
  | idle (hclaim : e.claims f = false)
      (hrecord : e.claimedAt = none → e.failedAt ≠ none →
        ¬ (f.softDeleted = true ∧ f.purgeState = some .processing)) : Turned e db f f
  | revived (now : Timestamp) (n : ℕ) (hclaim : e.claimedAt = none) (hrecord : e.failedAt = some now)
      (hsoft : f.softDeleted = true) (hstate : f.purgeState = some .processing) :
      Turned e db f (f.postponed now n)
  | purged (now : Timestamp) (hpurges : e.purges db f = true) :
      Turned e db f (purgedFile now f.claimed)
  | failed (now : Timestamp) (n : ℕ) (hclaim : e.claims f = true) (hpurges : e.purges db f = false)
      (hrecord : e.failedAt = some now) : Turned e db f (f.claimed.postponed now n)
  | stuck (hclaim : e.claims f = true) (hpurges : e.purges db f = false)
      (hrecord : e.failedAt = none) : Turned e db f f.claimed

/-- The processing of one member, seen from outside. -/
structure Processed (e : Encounter) (id : Uuid) (s : Retention) (out : Except Unit Bool)
    (s' : Retention) : Prop where
  escapes : (∃ u, out = .error u) ↔ e.escapes s.db (s.db.files.lookup id) = true
  index : s'.index = s.index
  spaces : ∀ spaceId, getSpace spaceId s'.db = getSpace spaceId s.db
  others : ∀ j, j ≠ id → s'.db.files.lookup j = s.db.files.lookup j
  absent : s.db.files.lookup id = none → s'.db.files.lookup id = none
  row : ∀ f, s.db.files.lookup id = some f →
    ∃ f', s'.db.files.lookup id = some f' ∧ Turned e s.db f f'
  deletes : ∀ d ∈ s'.deletes, d ∈ s.deletes ∨
    d.1 = id ∧ ∃ f, s.db.files.lookup id = some f ∧ e.claims f = true

def claimedDb (id : Uuid) (f : FileObject) (db : Db) : Db :=
  { db with files := db.files.update id fun _ ↦ f.claimed }

theorem claims_iff : e.claims f = true ↔
    ∃ now, e.claimedAt = some now ∧ e.locked = false ∧ f.claimable now = true := by
  unfold Encounter.claims
  cases e.claimedAt with
  | none => simp
  | some now => simp

theorem awaitsPurge_of_claims (h : e.claims f = true) : f.awaitsPurge = true := by
  obtain ⟨now, -, -, hclaimable⟩ := claims_iff.mp h
  simp only [FileObject.claimable, Bool.and_eq_true] at hclaimable
  exact hclaimable.1.1

theorem soft_of_claims (h : e.claims f = true) : f.softDeleted = true := by
  have hawaits := awaitsPurge_of_claims h
  simp only [FileObject.awaitsPurge, Bool.and_eq_true] at hawaits
  exact hawaits.1.1

/-- How the body of the `try` can end. -/
inductive Attempted (e : Encounter) (id : Uuid) (s : Retention) :
    Except Unit Bool × Retention → Prop
  | down (hclaim : e.claimedAt = none) : Attempted e id s (.error (), s)
  | declined (hclaim : e.claimedAt.isSome)
      (hnone : ∀ f, s.db.files.lookup id = some f → e.claims f = false) :
      Attempted e id s (.ok false, s)
  | broken (f : FileObject) (deletes : List (Uuid × ProviderTarget))
      (hf : s.db.files.lookup id = some f) (hclaims : e.claims f = true)
      (hpurges : e.purges s.db f = false) (hdeletes : ∀ d ∈ deletes, d ∈ s.deletes ∨ d.1 = id) :
      Attempted e id s (.error (), ⟨claimedDb id f s.db, s.index, deletes⟩)
  | done (f : FileObject) (now : Timestamp) (deletes : List (Uuid × ProviderTarget))
      (hf : s.db.files.lookup id = some f) (hpurges : e.purges s.db f = true)
      (hdeletes : ∀ d ∈ deletes, d ∈ s.deletes ∨ d.1 = id) :
      Attempted e id s (.ok true, ⟨releasedDb .fileRetentionPurged id f.claimed
        (purgedFile now f.claimed) (claimedDb id f s.db), s.index, deletes⟩)

theorem purgeMember_attempted (e : Encounter) (id : Uuid) (s : Retention) :
    Attempted e id s (purgeMember e id s) := by
  unfold purgeMember
  cases hclaimed : e.claimedAt with
  | none => exact .down hclaimed
  | some now =>
      dsimp only
      cases hf : s.db.files.lookup id with
      | none =>
          have hnone : claimRetainedFileForPurge now id s.db = (none, s.db) := by
            unfold claimRetainedFileForPurge
            rw [hf]
          rw [hnone, ite_self]
          exact .declined (by rw [hclaimed]; rfl) fun f hf' ↦ by rw [hf] at hf'; cases hf'
      | some f =>
          rw [claimRetainedFileForPurge_eq now hf]
          by_cases hclaims : e.claims f = true
          · have hboth : e.locked = false ∧ f.claimable now = true := by
              simpa [Encounter.claims, hclaimed] using hclaims
            rw [if_neg (by simp [hboth.1]), if_pos hboth.2]
            dsimp only
            have hlater : ∀ target, ∀ d ∈ (id, target) :: s.deletes, d ∈ s.deletes ∨ d.1 = id := by
              intro target d hd
              rcases List.mem_cons.mp hd with rfl | hd
              · exact Or.inr rfl
              · exact Or.inl hd
            split
            · rename_i hread
              refine .broken f s.deletes hf hclaims ?_ fun d hd ↦ Or.inl hd
              rw [Bool.not_eq_true'] at hread
              simp [Encounter.purges, hread]
            split
            · rename_i hspace
              refine .broken f s.deletes hf hclaims ?_ fun d hd ↦ Or.inl hd
              have hnone : getSpace f.storageSpaceId s.db = none := hspace
              simp [Encounter.purges, hnone]
            rename_i hread _ space hspace
            have hsome : getSpace f.storageSpaceId s.db = some space := hspace
            split
            · rename_i hdeleted
              refine .broken f _ hf hclaims ?_ (hlater _)
              rw [Bool.not_eq_true'] at hdeleted
              simp [Encounter.purges, hdeleted]
            split
            · rename_i hpurged
              refine .broken f _ hf hclaims ?_ (hlater _)
              simp [Encounter.purges, hpurged]
            rename_i hdeleted _ purgedAt hpurged
            have hrow : (claimedDb id f s.db).files.lookup id = some f.claimed := by
              rw [claimedDb, AList.lookup_update_self, hf, Option.map_some]
            have hpurges : e.purges s.db f = true := by
              rw [Bool.not_eq_true', Bool.not_eq_false] at hread hdeleted
              simp [Encounter.purges, hclaims, hread, hsome, hdeleted, hpurged]
            have hsoft : f.softDeleted = true := soft_of_claims hclaims
            have hdone := Attempted.done (e := e) f purgedAt _ hf hpurges
              (hlater ⟨space.bucket, f.claimed.objectKey, 1⟩)
            rw [← finalizeRetainedFilePurge_eq purgedAt hrow hsoft rfl] at hdone
            exact hdone
          · rw [Bool.not_eq_true] at hclaims
            have hnone : (if e.locked = true then (none, s.db) else if f.claimable now = true then
                (some f.claimed, claimedDb id f s.db) else (none, s.db)) = (none, s.db) := by
              cases hlocked : e.locked with
              | true => rfl
              | false =>
                  have hnot : f.claimable now = false := by
                    simpa [Encounter.claims, hclaimed, hlocked] using hclaims
                  rw [if_neg (by simp), if_neg (by simp [hnot])]
            unfold claimedDb at hnone
            rw [hnone]
            exact .declined (by rw [hclaimed]; rfl) fun g hg ↦ Option.some.inj (hf.symm.trans hg) ▸ hclaims

theorem claims_of_purges (h : e.purges db f = true) : e.claims f = true := by
  simp only [Encounter.purges, Bool.and_eq_true] at h
  exact h.1.1.1.1

theorem claims_of_down (h : e.claimedAt = none) : e.claims f = false := by
  simp [Encounter.claims, h]

theorem escapes_iff {o : Option FileObject} : e.escapes db o = true ↔ e.failedAt = none ∧
    (e.claimedAt = none ∨ ∃ f, o = some f ∧ e.claims f = true ∧ e.purges db f = false) := by
  cases o with
  | none => simp [Encounter.escapes, and_comm]
  | some f => simp [Encounter.escapes, and_comm]

theorem lookup_claimedDb (hf : db.files.lookup id = some f) :
    (claimedDb id f db).files.lookup id = some f.claimed := by
  rw [claimedDb, AList.lookup_update_self, hf, Option.map_some]

/-- A failure is recorded in the row of the member alone. -/
theorem recordRetainedPurgeFailure_frame (now : Timestamp) (n : ℕ) (id : Uuid) (db : Db) :
    (∀ spaceId, getSpace spaceId (recordRetainedPurgeFailure now id n db) = getSpace spaceId db) ∧
      (∀ j, j ≠ id →
        (recordRetainedPurgeFailure now id n db).files.lookup j = db.files.lookup j) ∧
      (db.files.lookup id = none →
        (recordRetainedPurgeFailure now id n db).files.lookup id = none) := by
  unfold recordRetainedPurgeFailure
  split
  · rename_i hnone
    exact ⟨fun _ ↦ rfl, fun _ _ ↦ rfl, fun _ ↦ hnone⟩
  · rename_i f hf
    refine ⟨fun _ ↦ ?_, fun j hj ↦ ?_, fun hnone ↦ ?_⟩
    · split
      · rfl
      · rfl
    · split
      · rfl
      · exact AList.lookup_update_of_ne hj _ _
    · rw [hf] at hnone
      cases hnone

theorem down_processed (hclaim : e.claimedAt = none) (n : ℕ) (now : Timestamp)
    (hfailed : e.failedAt = some now) : Processed e id s (.ok false)
      { s with db := recordRetainedPurgeFailure now id n s.db } := by
  obtain ⟨hspaces, hothers, habsent⟩ := recordRetainedPurgeFailure_frame now n id s.db
  refine ⟨?_, rfl, hspaces, hothers, habsent, fun f hf ↦ ?_, fun d hd ↦ Or.inl hd⟩
  · simp [escapes_iff, hfailed]
  · dsimp only
    rw [recordRetainedPurgeFailure_eq now n hf]
    by_cases hprocessing : f.softDeleted = true ∧ f.purgeState = some .processing
    · rw [if_pos hprocessing]
      refine ⟨_, ?_, .revived now n hclaim hfailed hprocessing.1 hprocessing.2⟩
      rw [AList.lookup_update_self, hf, Option.map_some]
    · rw [if_neg hprocessing]
      exact ⟨f, hf, .idle (claims_of_down hclaim) fun _ _ ↦ hprocessing⟩

theorem broken_processed {deletes : List (Uuid × ProviderTarget)}
    (hf : s.db.files.lookup id = some f) (hclaims : e.claims f = true)
    (hpurges : e.purges s.db f = false) (hdeletes : ∀ d ∈ deletes, d ∈ s.deletes ∨ d.1 = id)
    (n : ℕ) (now : Timestamp) (hfailed : e.failedAt = some now) :
    Processed e id s (.ok false)
      ⟨recordRetainedPurgeFailure now id n (claimedDb id f s.db), s.index, deletes⟩ := by
  obtain ⟨hspaces, hothers, -⟩ := recordRetainedPurgeFailure_frame now n id (claimedDb id f s.db)
  have hclaimed := lookup_claimedDb hf
  refine ⟨?_, rfl, hspaces, fun j hj ↦ ?_, fun hnone ↦ ?_, fun g hg ↦ ?_, fun d hd ↦ ?_⟩
  · simp [escapes_iff, hfailed]
  · exact (hothers j hj).trans (AList.lookup_update_of_ne hj _ _)
  · rw [hf] at hnone
    cases hnone
  · obtain rfl := Option.some.inj (hf.symm.trans hg)
    have hsoft : f.softDeleted = true := soft_of_claims hclaims
    dsimp only
    rw [recordRetainedPurgeFailure_eq now n hclaimed, if_pos ⟨hsoft, rfl⟩]
    refine ⟨_, ?_, .failed now n hclaims hpurges hfailed⟩
    rw [AList.lookup_update_self, hclaimed, Option.map_some]
  · exact (hdeletes d hd).imp_right fun hid ↦ ⟨hid, f, hf, hclaims⟩

theorem processMember_processed (p : RetentionPass) (id : Uuid) (s : Retention) :
    Processed (p.encounter id) id s (processMember p id s).1 (processMember p id s).2 := by
  unfold processMember
  generalize p.encounter id = e
  have hattempted := purgeMember_attempted e id s
  generalize purgeMember e id s = attempt at hattempted
  cases hattempted with
  | down hclaim =>
      cases hfailed : e.failedAt with
      | none =>
          refine ⟨by simp [escapes_iff, hclaim, hfailed], rfl, fun _ ↦ rfl, fun _ _ ↦ rfl, fun h ↦ h,
            fun f hf ↦ ⟨f, hf, .idle (claims_of_down hclaim) fun _ h ↦ absurd hfailed h⟩,
            fun d hd ↦ Or.inl hd⟩
      | some failedAt => exact down_processed hclaim p.maxAttempts failedAt hfailed
  | declined hclaim hnone =>
      have hnot : e.claimedAt ≠ none := Option.isSome_iff_ne_none.mp hclaim
      refine ⟨?_, rfl, fun _ ↦ rfl, fun _ _ ↦ rfl, fun h ↦ h,
        fun f hf ↦ ⟨f, hf, .idle (hnone f hf) fun h ↦ absurd h hnot⟩, fun d hd ↦ Or.inl hd⟩
      refine iff_of_false (by simp) fun hescapes ↦ ?_
      obtain ⟨-, hdown | ⟨f, hf, hclaims, -⟩⟩ := escapes_iff.mp hescapes
      · exact hnot hdown
      · rw [hnone f hf] at hclaims
        cases hclaims
  | broken f deletes hf hclaims hpurges hdeletes =>
      cases hfailed : e.failedAt with
      | none =>
          refine ⟨?_, rfl, fun _ ↦ rfl, fun j hj ↦ AList.lookup_update_of_ne hj _ _, fun hnone ↦ ?_,
            fun g hg ↦ ?_, fun d hd ↦ (hdeletes d hd).imp_right fun hid ↦ ⟨hid, f, hf, hclaims⟩⟩
          · exact iff_of_true ⟨(), rfl⟩ (escapes_iff.mpr ⟨hfailed, Or.inr ⟨f, hf, hclaims, hpurges⟩⟩)
          · rw [hf] at hnone
            cases hnone
          · obtain rfl := Option.some.inj (hf.symm.trans hg)
            exact ⟨f.claimed, lookup_claimedDb hf, .stuck hclaims hpurges hfailed⟩
      | some failedAt =>
          exact broken_processed hf hclaims hpurges hdeletes p.maxAttempts failedAt hfailed
  | done f now deletes hf hpurges hdeletes =>
      have hclaims := claims_of_purges hpurges
      have hclaimed := lookup_claimedDb hf
      refine ⟨?_, rfl, fun _ ↦ rfl, fun j hj ↦ ?_, fun hnone ↦ ?_, fun g hg ↦ ?_,
        fun d hd ↦ (hdeletes d hd).imp_right fun hid ↦ ⟨hid, f, hf, hclaims⟩⟩
      · refine iff_of_false (by simp) fun hescapes ↦ ?_
        obtain ⟨-, hdown | ⟨g, hg, -, hnot⟩⟩ := escapes_iff.mp hescapes
        · rw [claims_of_down hdown] at hclaims
          cases hclaims
        · obtain rfl := Option.some.inj (hf.symm.trans hg)
          rw [hpurges] at hnot
          cases hnot
      · exact (AList.lookup_update_of_ne hj _ _).trans (AList.lookup_update_of_ne hj _ _)
      · rw [hf] at hnone
        cases hnone
      · obtain rfl := Option.some.inj (hf.symm.trans hg)
        refine ⟨_, ?_, .purged now hpurges⟩
        exact (AList.lookup_update_self _ _ _).trans (by rw [hclaimed, Option.map_some])

end

end S3mp
