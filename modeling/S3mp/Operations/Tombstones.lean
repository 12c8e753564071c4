import S3mp.Operations.Takeover

/-!
# What the removal of tombstones takes away

The tombstones without a quota adjustment and without a deletion record are the source
rows of renames, and the result row of a rename has taken over their bytes.  A file
whose purge or deletion has been finalized has a deletion record, and its row stays.
-/

namespace S3mp

open Relational Files Transition

section

variable {db db' : Db}

/-! ## Passes -/

/-- What a pass removes has been the source of a rename. -/
theorem replaced_of_purged {p : TombstonePass} {j : Uuid} (hdb : Traced db)
    (h : Purged db ((tombstonesToPurge p db).map Prod.fst) db')
    (hj : j ∈ (tombstonesToPurge p db).map Prod.fst) :
    ∃ f, db.files.lookup j = some f ∧ f.Replaced := by
  obtain ⟨⟨i, f⟩, hmem, rfl⟩ := List.mem_map.mp hj
  obtain ⟨hf, hexpired, -⟩ := mem_tombstonesToPurge hmem
  refine ⟨f, hf, replaced_of_expired hexpired fun htrashed ↦ ?_⟩
  have hunrecorded := h.unrecorded i hj
  rw [hdb.recorded i f hf htrashed] at hunrecorded
  cases hunrecorded

theorem Files.Purged.lookup {ids : List Uuid} (h : Purged db ids db') {j : Uuid} {f : FileObject}
    (hf : db'.files.lookup j = some f) : db.files.lookup j = some f := by
  rw [h.files] at hf
  split at hf
  · cases hf
  · exact hf

theorem Files.Purged.framed {ids : List Uuid} (h : Purged db ids db') (hdb : Consistent db) :
    Framed db db' := by
  refine ⟨⟨fun i j f g hf hg ↦ hdb.unique i j f g (h.lookup hf) (h.lookup hg),
    fun j f hf ↦ hdb.operable j f (h.lookup hf), fun j f o hf hheld ↦ ?_⟩,
    fun o _ j f hf hheld ↦ ⟨f, h.lookup hf, hheld, rfl⟩, fun o op hop ↦ ⟨op, ?_, rfl⟩⟩
  · rw [h.operations]
    exact hdb.known j f o (h.lookup hf) hheld
  · rwa [h.operations]

theorem purgeDeletedFiles_traces {p : TombstonePass} {n : ℕ} (hdb : Traced db)
    (h : purgeDeletedFiles p db = .ok (n, db')) : Traces db db' := by
  have hpurged := purgeDeletedFiles_eq_ok h
  refine ⟨hpurged.framed hdb.consistent, ⟨fun j h ↦ ?_, fun j f hf htrashed ↦ ?_⟩,
    fun j f hf ↦ .kept f (hpurged.lookup hf) rfl, fun j f hf halive ↦ Or.inl ⟨f, ?_, halive, rfl⟩,
    fun o op hop ↦ Or.inl ?_⟩
  · rwa [recordedDeletion, hpurged.deletions]
  · exact Or.inr ⟨f, hpurged.lookup hf, htrashed⟩
  · rw [hpurged.files, if_neg, hf]
    intro hj
    obtain ⟨g, hg, hreplaced⟩ := replaced_of_purged hdb hpurged hj
    obtain rfl := Option.some.inj (hf.symm.trans hg)
    exact not_replaced_of_alive halive hreplaced
  · rw [hpurged.operations] at hop
    exact AList.mem_of_lookup hop

/-- Nothing removes the row of a file which has a deletion record. -/
theorem purgeDeletedFiles_keeps {p : TombstonePass} {n : ℕ} {j : Uuid}
    (hrecorded : recordedDeletion j db) (h : purgeDeletedFiles p db = .ok (n, db')) :
    db'.files.lookup j = db.files.lookup j ∧ recordedDeletion j db' := by
  have hpurged := purgeDeletedFiles_eq_ok h
  constructor
  · rw [hpurged.files, if_neg]
    intro hj
    rw [hpurged.unrecorded j hj] at hrecorded
    cases hrecorded
  · rwa [recordedDeletion, hpurged.deletions]

end

/-! ## Runs -/

inductive TombstoneCmd where
  | operation (c : OpCmd)
  | purgeDeletedFiles (p : TombstonePass)

def tombstoneExec : TombstoneCmd → Db → Tx Db
  | .operation c, db => opExec c db
  | .purgeDeletedFiles p, db => (Files.purgeDeletedFiles p db).map Prod.snd

/-- Passes one after the other. -/
def purgeAll (ps : List TombstonePass) (db : Db) : Db :=
  run tombstoneExec db (ps.map .purgeDeletedFiles)

/-- What the pass removes is evidenced by a quota adjustment, or a row which is still there
has taken over its bytes. -/
def RemovesEvidenced (p : TombstonePass) (db : Db) : Prop :=
  ∀ n db', purgeDeletedFiles p db = .ok (n, db') → ∀ j f, db.files.lookup j = some f →
    db'.files.lookup j = none → adjustedFile j db.ledger ∨ TakenOver db' j f.contentLength

def Files.FileObject.deletedBefore (cutoff : Timestamp) (f : FileObject) : Bool :=
  f.deletedAt.any (· ≤ cutoff)

/-- A file the purge or deletion of which has been finalized before the cutoff is gone after some
passes. -/
def RemovesReleased (p : TombstonePass) (db : Db) : Prop :=
  ∀ j f, db.files.lookup j = some f → f.Released → f.deletedBefore p.cutoff →
    ∃ ps, (purgeAll ps db).files.lookup j = none

section

variable {db db' : Db}

theorem Traced.run (hdb : Traced db) (cs : List TombstoneCmd) :
    Traced (run tombstoneExec db cs) := by
  refine run_preserves (fun s c s' hs h ↦ ?_) hdb cs
  cases c with
  | operation c => exact hs.step (opExec_traces hs h)
  | purgeDeletedFiles p =>
      obtain ⟨n, h⟩ := Except.map_snd_eq_ok.mp h
      exact hs.step (purgeDeletedFiles_traces hs h)

theorem traced_of_empty (hempty : db.files = ∅) : Traced db := by
  have hnone : ∀ j, db.files.lookup j = none := by
    intro j
    rw [hempty]
    rfl
  have hconsistent : Consistent (run opExec db []) := consistent_run hempty
  refine ⟨hconsistent, fun j f hf ↦ ?_, fun j f hf ↦ ?_, fun o op _ _ ↦ ?_,
    fun j f hf ↦ ?_⟩
  · rw [hnone] at hf
    cases hf
  · rw [hnone] at hf
    cases hf
  · refine ⟨fun j f _ hf ↦ ?_, fun i j f g _ _ hf ↦ ?_⟩
    · rw [hnone] at hf
      cases hf
    · rw [hnone] at hf
      cases hf
  · rw [hnone] at hf
    cases hf

theorem purgeAll_keeps {ps : List TombstonePass} {j : Uuid} (hrecorded : recordedDeletion j db) :
    (purgeAll ps db).files.lookup j = db.files.lookup j := by
  have hkept : (purgeAll ps db).files.lookup j = db.files.lookup j ∧
      recordedDeletion j (purgeAll ps db) := by
    have hpasses : ∀ c ∈ ps.map TombstoneCmd.purgeDeletedFiles,
        ∃ p, c = TombstoneCmd.purgeDeletedFiles p := by
      intro c hc
      obtain ⟨p, -, rfl⟩ := List.mem_map.mp hc
      exact ⟨p, rfl⟩
    refine run_invariant
      (I := fun db' ↦ db'.files.lookup j = db.files.lookup j ∧ recordedDeletion j db')
      (fun s c s' hs hc h ↦ ?_) ⟨rfl, hrecorded⟩ (meets_of_forall hpasses)
    obtain ⟨p, rfl⟩ := hc
    obtain ⟨n, h⟩ := Except.map_snd_eq_ok.mp h
    obtain ⟨hsame, hrecorded'⟩ := purgeDeletedFiles_keeps hs.2 h
    exact ⟨hsame.trans hs.1, hrecorded'⟩
  exact hkept.1

theorem Traced.removesEvidenced (hdb : Traced db) (p : TombstonePass) : RemovesEvidenced p db := by
  intro n db' h j f hf hgone
  have hpurged := purgeDeletedFiles_eq_ok h
  have hj : j ∈ (tombstonesToPurge p db).map Prod.fst := by
    by_contra hnot
    rw [hpurged.files, if_neg hnot, hf] at hgone
    cases hgone
  obtain ⟨g, hg, hreplaced⟩ := replaced_of_purged hdb hpurged hj
  obtain rfl := Option.some.inj (hf.symm.trans hg)
  exact Or.inr ((purgeDeletedFiles_traces hdb h).takenOver (hdb.takenOver j f hf hreplaced))

theorem released_trashed {f : FileObject} (h : f.Released) : f.Trashed := by
  rcases h with hstate | ⟨-, hstate⟩
  · exact Or.inr (by simp [hstate])
  · exact Or.inr (by simp [hstate])

end

/-- In every state reached from a tenant without files, passes remove only rows whose bytes another
row has taken over, and never the row of a file whose purge or deletion has been finalized. -/
theorem tombstones_removed_iff {db : Db} {cs : List TombstoneCmd} {p : TombstonePass}
    (hempty : db.files = ∅) :
    RemovesEvidenced p (run tombstoneExec db cs) ∧ RemovesReleased p (run tombstoneExec db cs) ↔
      ∀ j f, (run tombstoneExec db cs).files.lookup j = some f → f.Released →
        f.deletedBefore p.cutoff = false := by
  have hdb := (traced_of_empty hempty).run cs
  generalize run tombstoneExec db cs = db at hdb ⊢
  constructor
  · rintro ⟨-, hremoves⟩ j f hf hreleased
    by_contra hexpired
    rw [Bool.not_eq_false] at hexpired
    obtain ⟨ps, hgone⟩ := hremoves j f hf hreleased hexpired
    rw [purgeAll_keeps (hdb.recorded j f hf (released_trashed hreleased)), hf] at hgone
    cases hgone
  · refine fun hnone ↦ ⟨hdb.removesEvidenced p, fun j f hf hreleased hexpired ↦ ?_⟩
    rw [hnone j f hf hreleased] at hexpired
    cases hexpired

namespace Sample

def unconditionalDelete : DeleteData where
  actorPrincipalId := some 3
  authorizationVersion := none
  authorizationEvidence := none
  idempotencyKey := none
  ifMatch := none
  isFileRef := true
  originalRelativeKey := none
  purgeDueAt := 50

/-- A file is uploaded, deleted and purged, and its quota is given back. -/
def purgedUpload : List TombstoneCmd :=
  (committed ++ [Cmd.deleteFile 0 40 2 30 unconditionalDelete, .finalizeFileTrashMigration 30,
    .claimRetainedFileForPurge 100 30, .finalizeRetainedFilePurge 100 30]).map
      (TombstoneCmd.operation ∘ .other)

def tombstonePass : TombstonePass where
  now := seconds (86400 * 90)
  retentionDays := 30
  limit := 100
  locked := fun _ ↦ false

end Sample

theorem tombstones_removed_iff_sample :
    RemovesEvidenced Sample.tombstonePass (run tombstoneExec Sample.tenant Sample.purgedUpload) ∧
      RemovesReleased Sample.tombstonePass (run tombstoneExec Sample.tenant Sample.purgedUpload) ↔
    ∀ j f, (run tombstoneExec Sample.tenant Sample.purgedUpload).files.lookup j = some f →
      f.Released → f.deletedBefore Sample.tombstonePass.cutoff = false :=
  tombstones_removed_iff rfl

/-- The quota adjustment which evidences the release of a file keeps its row for ever. -/
theorem purged_file_stays :
    adjustedFile 30 (run tombstoneExec Sample.tenant Sample.purgedUpload).ledger ∧
      ¬ RemovesReleased Sample.tombstonePass
        (run tombstoneExec Sample.tenant Sample.purgedUpload) := by
  refine ⟨by decide +kernel, fun hremoves ↦ ?_⟩
  have hfile : ((run tombstoneExec Sample.tenant Sample.purgedUpload).files.lookup 30).map
      (fun f ↦ (f.purgeState, f.deletedBefore Sample.tombstonePass.cutoff)) =
        some (some .purged, true) := by
    decide +kernel
  have hrecorded : recordedDeletion 30 (run tombstoneExec Sample.tenant Sample.purgedUpload) := by
    decide +kernel
  obtain ⟨f, hf, hstate⟩ := Option.map_eq_some_iff.mp hfile
  obtain ⟨hpurged, hexpired⟩ := Prod.mk.inj hstate
  obtain ⟨ps, hgone⟩ := hremoves 30 f hf (Or.inl hpurged) hexpired
  rw [purgeAll_keeps hrecorded, hf] at hgone
  cases hgone

end S3mp
