import S3mp.Files.FileStore

/-!
# What the file transactions do to the ledger

A release takes the content length of the file off every quota the filter finds
which has no adjustment for this file yet.
-/

namespace S3mp.Files

open Relational Governance

variable {reason : AdjustmentReason} {fileId : Uuid} {n : ℕ} {l : Ledger}

theorem reservations_releaseUsageFrom (a : Uuid) :
    (releaseUsageFrom reason fileId n l a).reservations = l.reservations := by
  unfold releaseUsageFrom
  split
  · rfl
  · split <;> rfl

theorem lookup_releaseUsageFrom (a k : Uuid) :
    (releaseUsageFrom reason fileId n l a).quotas.lookup k =
      (l.quotas.lookup k).map fun q ↦
        if k = a ∧ l.adjusted reason fileId k = false then
          q.subUsed (min (max q.usedBytes 0) n) else q := by
  unfold releaseUsageFrom
  split
  · rename_i hadj
    by_cases hk : k = a
    · subst hk
      simp [hadj]
    · simp [hk]
  · rename_i hadj
    split
    · rename_i hnone
      by_cases hk : k = a
      · subst hk
        simp [hnone]
      · simp [hk]
    · rename_i q hq
      dsimp only
      rw [AList.lookup_update]
      by_cases hk : k = a
      · subst hk
        simp [hq, hadj]
      · simp [hk]

theorem adjusted_releaseUsageFrom {reason' : AdjustmentReason} {fileId' : Uuid} (a k : Uuid) :
    (releaseUsageFrom reason fileId n l a).adjusted reason' fileId' k = true →
      l.adjusted reason' fileId' k = true ∨ (reason' = reason ∧ fileId' = fileId ∧ k = a) := by
  unfold releaseUsageFrom
  split
  · exact Or.inl
  · split
    · exact Or.inl
    · intro h
      simp only [Ledger.adjusted, List.any_cons, Bool.or_eq_true, Bool.and_eq_true,
        decide_eq_true_eq] at h
      rcases h with ⟨⟨rfl, rfl⟩, rfl⟩ | h
      · exact Or.inr ⟨rfl, rfl, rfl⟩
      · exact Or.inl h

theorem adjusted_releaseUsageFrom_of_ne {a k : Uuid} (hk : k ≠ a) :
    (releaseUsageFrom reason fileId n l a).adjusted reason fileId k =
      l.adjusted reason fileId k := by
  unfold releaseUsageFrom
  split
  · rfl
  · split
    · rfl
    · simp [Ledger.adjusted, Ne.symm hk]

theorem lookup_foldl_releaseUsageFrom {ks : List Uuid} (hks : ks.Nodup) (k : Uuid) :
    (ks.foldl (releaseUsageFrom reason fileId n) l).quotas.lookup k =
      (l.quotas.lookup k).map fun q ↦
        if k ∈ ks ∧ l.adjusted reason fileId k = false then
          q.subUsed (min (max q.usedBytes 0) n) else q := by
  induction ks generalizing l with
  | nil => simp
  | cons a ks ih =>
      obtain ⟨ha, hks⟩ := List.nodup_cons.mp hks
      rw [List.foldl_cons, ih hks, lookup_releaseUsageFrom, Option.map_map]
      congr 1
      funext q
      by_cases hk : k = a
      · subst hk
        simp [ha]
      · simp [hk, adjusted_releaseUsageFrom_of_ne hk]

theorem foldl_releaseUsageFrom_frame (ks : List Uuid) :
    (ks.foldl (releaseUsageFrom reason fileId n) l).reservations = l.reservations ∧
      ∀ reason' fileId' k,
        (ks.foldl (releaseUsageFrom reason fileId n) l).adjusted reason' fileId' k = true →
          l.adjusted reason' fileId' k = true ∨ (reason' = reason ∧ fileId' = fileId) := by
  induction ks generalizing l with
  | nil => exact ⟨rfl, fun _ _ _ h ↦ Or.inl h⟩
  | cons a ks ih =>
      obtain ⟨hres, hadj⟩ := ih (l := releaseUsageFrom reason fileId n l a)
      refine ⟨hres.trans (reservations_releaseUsageFrom a), fun reason' fileId' k h ↦ ?_⟩
      rcases hadj reason' fileId' k h with h | h
      · exact (adjusted_releaseUsageFrom a k h).imp_right fun h ↦ ⟨h.1, h.2.1⟩
      · exact Or.inr h

section Release

variable {f : FileObject}

theorem reservations_releaseUsage :
    (releaseUsage reason fileId f l).reservations = l.reservations :=
  (foldl_releaseUsageFrom_frame _).1

theorem adjusted_releaseUsage {reason' : AdjustmentReason} {fileId' k : Uuid}
    (h : (releaseUsage reason fileId f l).adjusted reason' fileId' k = true) :
    l.adjusted reason' fileId' k = true ∨ (reason' = reason ∧ fileId' = fileId) :=
  (foldl_releaseUsageFrom_frame _).2 reason' fileId' k h

theorem lookup_releaseUsage (k : Uuid) :
    (releaseUsage reason fileId f l).quotas.lookup k =
      (l.quotas.lookup k).map fun q ↦
        if releasesFrom f q ∧ l.adjusted reason fileId k = false then
          q.subUsed (min (max q.usedBytes 0) f.contentLength) else q := by
  rw [releaseUsage, lookup_foldl_releaseUsageFrom (AList.nodup_keys_select _ _)]
  cases hk : l.quotas.lookup k with
  | none => rfl
  | some q => simp [AList.mem_keys_select, hk]

theorem releaseUsage_effect : Ledger.Effect l (releaseUsage reason fileId f l) := by
  refine .of_lookup reservations_releaseUsage lookup_releaseUsage fun k q ↦ ?_
  split <;> rfl

end Release

/-! ## Deletions -/

section Deletions

variable {db db' : Db} {now : Timestamp}

/-- A delete finds nothing to do, or marks the file and records its deletion. -/
theorem deleteFile_cases {deletionId spaceId : Uuid} {data : DeleteData} {out : Option FileObject}
    (h : deleteFile now deletionId spaceId fileId data db = .ok (out, db')) :
    db' = db ∨ ∃ f, db.files.lookup fileId = some f ∧ f.status = .available ∧
      f.softDeleted = false ∧ f.activeOperationId = none ∧ deletionId ∉ db.deletions ∧
      db' = { db with
        deletions := db.deletions.insert deletionId (deletionRecord now fileId deletionId data f)
        files := db.files.update fileId (FileObject.retained now data) } := by
  unfold deleteFile at h
  split at h
  · exact Or.inl (Prod.mk.inj (Except.ok.inj h)).2.symm
  rename_i f hf
  split at h
  · exact Or.inl (Prod.mk.inj (Except.ok.inj h)).2.symm
  split at h
  · exact Or.inl (Prod.mk.inj (Except.ok.inj h)).2.symm
  split at h
  · exact Or.inl (Prod.mk.inj (Except.ok.inj h)).2.symm
  rename_i havailable
  split at h
  · cases h
  rename_i hfree
  obtain ⟨-, -, h⟩ := Except.bind_eq_ok.mp h
  dsimp only at h
  split at h
  · cases h
  obtain ⟨deletions, hinsert, h⟩ := Except.bind_eq_ok.mp h
  obtain ⟨hfresh, rfl⟩ := insertRow_eq_ok.mp hinsert
  obtain ⟨-, rfl⟩ := Prod.mk.inj (Except.pure_eq_ok.mp h)
  push Not at havailable
  exact Or.inr ⟨f, hf, havailable.1, by simpa using havailable.2, by simpa using hfree, hfresh, rfl⟩

/-- A trash migration finds nothing to do, or the file gets the key of its deletion. -/
theorem finalizeFileTrashMigration_cases (h : finalizeFileTrashMigration fileId db = .ok db') :
    db' = db ∨ ∃ f f' deletionId deletion, db.files.lookup fileId = some f ∧
      deletionOf fileId db.deletions = some (deletionId, deletion) ∧
      f.status = .deleting ∧ f.softDeleted = true ∧
      f' = { f with
        objectKey := deletion.trashPhysicalKey
        status := .deleted
        purgeState := some .scheduled } ∧
      f'.conflictsIn fileId db.files = none ∧
      db' = { db with
        files := db.files.update fileId fun _ ↦ f'
        deletions := db.deletions.update deletionId fun d ↦ { d with status := .retained } } := by
  unfold finalizeFileTrashMigration at h
  split at h
  · rename_i f deletionId deletion hf hdeletion
    split at h
    · rename_i hdeleting
      dsimp only at h
      split at h
      · cases h
      · rename_i hunique
        exact Or.inr ⟨f, _, deletionId, deletion, hf, hdeletion, hdeleting.1, hdeleting.2, rfl,
          hunique, (Except.ok.inj h).symm⟩
    · exact Or.inl (Except.ok.inj h).symm
  · exact Or.inl (Except.ok.inj h).symm

end Deletions

end S3mp.Files
