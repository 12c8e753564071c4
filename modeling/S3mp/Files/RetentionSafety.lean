import S3mp.Files.Custody

/-!
# Deleted files are kept until their purge

The deletion job and the purge make no request the custody of a deleted object
forbids, however many of them run and wherever they break off.
-/

namespace S3mp

open Relational Files Platform Storage Transition

variable {γ : Type} {D : Digest γ} {C : Custody γ} {lapsed : Prop} {w : RetentionWorld γ}

namespace RetentionJob

/-- The program only reads. -/
abbrev Quiet {α : Type} (x : RetentionJob α) : Prop :=
  OnlyR (fun r : RetentionRequest ↦ ∃ tenantId read, r = .read tenantId read) x

theorem quiet_read (tenantId : Uuid) (r : SubjectRead) : Quiet (RetentionJob.read tenantId r) :=
  onlyR_call ⟨tenantId, r, rfl⟩

theorem quiet_closed : Closed (m := RetentionJob) Quiet :=
  ⟨onlyR_pure, onlyR_bind⟩

theorem revalidateDelayedAction_quiet (tenantId principalId spaceId : Uuid)
    (relativeKey permission : String) (version : ℕ) (evidence : Option AuthorizationEvidence) :
    Quiet (RetentionJob.revalidateDelayedAction tenantId principalId spaceId relativeKey permission
      version evidence) := by
  unfold RetentionJob.revalidateDelayedAction
  refine onlyR_bind (validateDelayedSubject_closed (Q := Quiet) quiet_closed (quiet_read tenantId)
    _ _ _ _ _) fun subject ↦ ?_
  split
  · exact onlyR_pure _
  split
  · exact onlyR_pure _
  refine onlyR_bind (quiet_read _ _) fun bindings ↦ onlyR_bind (quiet_read _ _) fun now ↦ ?_
  split
  · exact onlyR_throw _
  · exact onlyR_pure _

theorem stillAuthorized_quiet (p : PendingDeletion) : Quiet (RetentionJob.stillAuthorized p) := by
  unfold RetentionJob.stillAuthorized
  split
  · exact onlyR_pure _
  · exact revalidateDelayedAction_quiet _ _ _ _ _ _ _

end RetentionJob

namespace Custody

theorem ignores_reads :
    (C.discipline lapsed D).Ignores fun r ↦ ∃ tenantId read, r = .read tenantId read := by
  refine ⟨?_, ?_⟩
  · rintro t r ⟨tenantId, read, rfl⟩
    exact trivial
  · rintro r c t ⟨tenantId, read, rfl⟩
    rfl

/-! ## The deletion job -/

/-- The job knows the keys of the file, or the record is that of a file which lies elsewhere. -/
structure Located (C : Custody γ) (p : PendingDeletion) (w : RetentionWorld γ) : Prop where
  own : C.Concerns p.tenantId p.id → p.file.objectKey = C.deletion.file.objectKey ∧
    p.file.storageSpaceId = C.deletion.file.storageSpaceId ∧
      ∀ d, p.deletion = some d → d.trashPhysicalKey = C.deletion.trashKey
  other : ¬ C.Concerns p.tenantId p.id → ∀ space,
    (w.database p.tenantId).spaces.lookup p.file.storageSpaceId = some space →
      C.Avoids space.bucket p.file.objectKey ∧
        ∀ d, p.deletion = some d → C.Avoids space.bucket d.trashPhysicalKey

theorem Located.later {p : PendingDeletion} {w' : RetentionWorld γ} (h : C.Located p w)
    (hlater : C.Later w w') : C.Located p w' := by
  refine ⟨h.own, fun hother space' hspace' ↦ ?_⟩
  obtain ⟨space, hspace, hbucket⟩ := hlater.spaces p.tenantId _ space' hspace'
  rw [hbucket]
  exact h.other hother space hspace

/-- What the query lists is located where the rows say. -/
theorem Kept.listed (h : C.Kept lapsed w) {key : Uuid × Uuid} {p : PendingDeletion}
    (hp : w.pendingDeletion key = some p) : C.Located p w := by
  unfold RetentionWorld.pendingDeletion at hp
  obtain ⟨f, hf, rfl⟩ := Option.map_eq_some_iff.mp hp
  obtain ⟨hf, hawaits⟩ := Option.filter_eq_some_iff.mp hf
  have hdeleting : f.status = .deleting := by
    unfold RetentionWorld.awaitsMigration at hawaits
    exact of_decide_eq_true (Bool.and_eq_true_iff.mp hawaits).1
  refine ⟨fun ⟨htenant, hfile⟩ ↦ ?_, fun hother space hspace ↦ ⟨?_, fun d hd ↦ ?_⟩⟩
  · dsimp only at htenant hfile hf ⊢
    rw [htenant, hfile] at hf
    obtain ⟨stage, hdeleted, -⟩ := h.stage
    obtain ⟨g, hg, hspace, hat⟩ := hdeleted.row
    obtain rfl := Option.some.inj (hg.symm.trans hf)
    obtain ⟨-, -, -, hkey, -⟩ := hat.pending_of_deleting hdeleting
    refine ⟨hkey, hspace, fun d hd ↦ ?_⟩
    obtain ⟨⟨id, d'⟩, hdeletion, rfl⟩ := Option.map_eq_some_iff.mp hd
    obtain ⟨hlookup, hsame⟩ := AList.lookup_of_selectFirst hdeletion
    rw [htenant] at hlookup
    exact hdeleted.recorded id d' hlookup ((of_decide_eq_true hsame).trans hfile)
  · exact h.apart _ _ f hother hf space hspace _ (.row f hf (Or.inr hdeleting))
  · obtain ⟨⟨id, d'⟩, hdeletion, rfl⟩ := Option.map_eq_some_iff.mp hd
    obtain ⟨hlookup, hsame⟩ := AList.lookup_of_selectFirst hdeletion
    exact h.apart _ _ f hother hf space hspace _ (.record id d' hlookup (of_decide_eq_true hsame))

/-- Once something is seen in the trash the source is spare. -/
theorem ensureTrashed_safe {sourceState trashState : Option ObjectMetadata}
    (hfound : trashState.isSome → C.Spare w) :
    (C.discipline lapsed D).SafeR
      (RetentionJob.ensureTrashed C.source C.trash sourceState trashState)
      (fun out t ↦ ∀ found, out = .ok (some found) → C.Spare t) w := by
  unfold RetentionJob.ensureTrashed
  split
  · exact safe_return fun t _ hle _ _ ↦ hle.spare (hfound rfl)
  split
  · exact safe_raise fun _ _ _ _ heq ↦ by cases heq
  refine safe_call_bind fun t _ _ ↦ ⟨Or.inl ⟨rfl, rfl⟩, fun c ↦ ?_⟩
  split
  · refine fun u hu _ ↦ ⟨trivial, fun c' v _ hle found heq ↦ hle.spare ?_⟩
    obtain ⟨o, ho, -⟩ := Option.map_eq_some_iff.mp (RetentionWorld.answer_head heq).symm
    exact Or.inr ⟨o, ho, hu.clean o ho⟩
  · exact fun _ _ _ _ heq ↦ by cases heq

/-- The move of the object of the custody ends with its source gone. -/
theorem moveObject_safe :
    (C.discipline lapsed D).SafeR (RetentionJob.moveObject C.source C.trash)
      (fun out t ↦ out = .ok () → t.objects C.source = none) w := by
  unfold RetentionJob.moveObject
  refine safe_call_bind fun t _ _ ↦ ⟨trivial, fun c ↦ ?_⟩
  split
  rotate_left
  · exact fun _ _ _ heq ↦ by cases heq
  rename_i sourceState hsource
  obtain rfl := RetentionWorld.answer_head hsource
  refine safe_call_bind fun t₁ ht₁ hle₁ ↦ ⟨trivial, fun c₁ ↦ ?_⟩
  split
  rotate_left
  · exact fun _ _ _ heq ↦ by cases heq
  rename_i trashState htrash
  obtain rfl := RetentionWorld.answer_head htrash
  have hspare : ((t₁.objects C.trash).map D.metadata).isSome → C.Spare t₁ := by
    intro hsome
    obtain ⟨found, hfound⟩ := Option.isSome_iff_exists.mp hsome
    obtain ⟨o, ho, -⟩ := Option.map_eq_some_iff.mp hfound
    exact Or.inr ⟨o, ho, ht₁.clean o ho⟩
  refine Discipline.SafeR.bind (Discipline.Safe.consequence
    ((ensureTrashed_safe hspare).remember (Later.refl C t₁) ht₁) ?_) ht₁
  intro out u hu hout
  split
  rotate_left
  · exact fun _ _ _ heq ↦ by cases heq
  rename_i trashState
  obtain ⟨hle, hspare⟩ := hout
  split
  · exact safe_raise fun _ _ _ heq ↦ by cases heq
  rename_i hverified
  split
  · cases trashState with
    | none => simp [RetentionJob.trashVerified] at hverified
    | some found =>
        refine fun v hv hle' ↦ ⟨Or.inl ⟨rfl, hle'.spare (hspare found rfl)⟩, fun c₂ v' _ hle'' heq ↦ ?_⟩
        refine hle''.moved ?_
        rw [RetentionWorld.answer_delete_ok heq]
        exact Function.update_self _ _ _
  · rename_i hnone
    refine safe_return fun v _ hle' _ ↦ hle'.moved (hle.moved (hle₁.moved ?_))
    have hnone : (t.objects C.source).map D.metadata = none := by
      simpa [Option.isSome_iff_ne_none] using hnone
    exact Option.map_eq_none_iff.mp hnone

section Elsewhere

variable {source destination : ProviderTarget}

theorem ensureTrashed_elsewhere {sourceState trashState : Option ObjectMetadata}
    (hdestination : destination ≠ C.source ∧ destination ≠ C.trash) :
    (C.discipline lapsed D).SafeR
      (RetentionJob.ensureTrashed source destination sourceState trashState)
      (fun _ _ ↦ True) w := by
  unfold RetentionJob.ensureTrashed
  split
  · exact safe_return fun _ _ _ ↦ trivial
  split
  · exact safe_raise fun _ _ _ ↦ trivial
  refine safe_call_bind fun t _ _ ↦ ⟨Or.inr hdestination, fun c ↦ ?_⟩
  split
  · exact fun _ _ _ ↦ ⟨trivial, fun _ _ _ _ ↦ trivial⟩
  · exact fun _ _ _ ↦ trivial

/-- The move of another object stays away from both places. -/
theorem moveObject_elsewhere (hsource : source ≠ C.source ∧ source ≠ C.trash)
    (hdestination : destination ≠ C.source ∧ destination ≠ C.trash) :
    (C.discipline lapsed D).SafeR (RetentionJob.moveObject source destination)
      (fun _ _ ↦ True) w := by
  unfold RetentionJob.moveObject
  refine safe_call_bind fun t _ _ ↦ ⟨trivial, fun c ↦ ?_⟩
  split
  rotate_left
  · exact fun _ _ _ ↦ trivial
  refine safe_call_bind fun t₁ ht₁ _ ↦ ⟨trivial, fun c₁ ↦ ?_⟩
  split
  rotate_left
  · exact fun _ _ _ ↦ trivial
  refine Discipline.SafeR.bind (Discipline.Safe.consequence
    (ensureTrashed_elsewhere hdestination) fun out u _ _ ↦ ?_) ht₁
  split
  rotate_left
  · exact fun _ _ _ ↦ trivial
  split
  · exact safe_raise fun _ _ _ ↦ trivial
  split
  · exact fun _ _ _ ↦ ⟨Or.inr (Or.inr hsource), fun _ _ _ _ ↦ trivial⟩
  · exact safe_return fun _ _ _ ↦ trivial

end Elsewhere

theorem failDeletion_safe (p : PendingDeletion) (maxAttempts : ℕ) :
    (C.discipline lapsed D).SafeR (RetentionJob.failDeletion p maxAttempts)
      (fun _ _ ↦ True) w := by
  unfold RetentionJob.failDeletion
  refine safe_call_bind fun t _ _ ↦ ⟨trivial, fun c ↦ ?_⟩
  split
  · exact safe_return fun _ _ _ ↦ trivial
  · exact fun _ _ _ ↦ trivial

/-- The migration of a file in the space which has just been read. -/
theorem migrateToTrash_safe {p : PendingDeletion} {space : StorageSpace} (hw : C.Kept lapsed w)
    (hlocated : C.Located p w)
    (hspace : (w.database p.tenantId).spaces.lookup p.file.storageSpaceId = some space) :
    (C.discipline lapsed D).SafeR (RetentionJob.migrateToTrash p space)
      (fun _ _ ↦ True) w := by
  unfold RetentionJob.migrateToTrash
  split
  · exact safe_raise fun _ _ _ ↦ trivial
  split
  · exact safe_raise fun _ _ _ ↦ trivial
  rename_i trashKey htrash
  obtain ⟨deletion, hdeletion, htruthy⟩ := Option.bind_eq_some_iff.mp htrash
  obtain ⟨hkey, -⟩ := Option.filter_eq_some_iff.mp htruthy
  obtain rfl := Option.some.inj hkey
  by_cases hown : C.Concerns p.tenantId p.id
  · obtain ⟨hsource, hspaceId, htrash⟩ := hlocated.own hown
    have hbucket : space.bucket = C.bucket := by
      refine hw.located space ?_
      rw [← hown.1, ← hspaceId]
      exact hspace
    rw [hbucket, hsource, htrash deletion hdeletion]
    refine Discipline.SafeR.bind (Discipline.Safe.consequence moveObject_safe
      fun out t ht hmoved ↦ ?_) hw
    split
    · exact fun u _ hle ↦ ⟨fun _ ↦ hle.moved (hmoved rfl), fun _ _ _ _ ↦ trivial⟩
    · exact fun _ _ _ ↦ trivial
  · obtain ⟨hsource, htrash⟩ := hlocated.other hown space hspace
    refine Discipline.SafeR.bind (Discipline.Safe.consequence
      (moveObject_elsewhere hsource (htrash deletion hdeletion)) fun out t _ _ ↦ ?_) hw
    split
    · exact fun _ _ _ ↦ ⟨fun hconcerns ↦ absurd hconcerns hown, fun _ _ _ _ ↦ trivial⟩
    · exact fun _ _ _ ↦ trivial

theorem deletionTurn_safe {maxAttempts : ℕ} {p : PendingDeletion} (hw : C.Kept lapsed w)
    (hlocated : C.Located p w) :
    (C.discipline lapsed D).SafeR (RetentionJob.deletionTurn maxAttempts p)
      (fun _ _ ↦ True) w := by
  have hbody : (C.discipline lapsed D).SafeR (RetentionJob.reconcileDeletion maxAttempts p)
      (fun _ _ ↦ True) w := by
    unfold RetentionJob.reconcileDeletion
    refine (RetentionJob.stillAuthorized_quiet p).safe_bind ignores_reads hw
      (fun _ _ _ _ ↦ trivial) fun authorized ↦ ?_
    split
    · exact failDeletion_safe p 1
    unfold RetentionJob.resolveSpace
    refine Discipline.SafeR.bind (safe_call_bind fun t ht hle ↦ ⟨trivial, fun c ↦ ?_⟩) hw
    split
    rotate_left
    · exact fun _ _ _ _ _ _ ↦ trivial
    rename_i found hfound
    obtain rfl := RetentionWorld.answer_getSpace hfound
    split
    · exact safe_raise fun _ _ _ _ _ _ ↦ trivial
    rename_i space hspace
    refine safe_return fun t' _ hle' ↦ Discipline.SafeR.mono ?_ hle'
    have hmigrate := migrateToTrash_safe (D := D) ht (hlocated.later hle)
      (Option.filter_eq_some_iff.mp hspace).1
    split
    · exact failDeletion_safe p maxAttempts
    split
    · exact failDeletion_safe p maxAttempts
    refine Discipline.SafeR.bind (Discipline.Safe.consequence hmigrate fun out u _ _ ↦ ?_) ht
    split
    · exact safe_return fun _ _ _ ↦ trivial
    · exact fun _ _ _ ↦ trivial
  refine safe_tryCatch (Discipline.Safe.consequence hbody fun out t _ _ ↦ ?_) hw
  split
  · exact fun _ _ _ ↦ trivial
  · exact failDeletion_safe p maxAttempts

theorem forEach_deletionTurn_safe {maxAttempts : ℕ} {records : List PendingDeletion}
    (hw : C.Kept lapsed w) (hlocated : ∀ p ∈ records, C.Located p w) :
    (C.discipline lapsed D).SafeR (forEach (RetentionJob.deletionTurn maxAttempts) records)
      (fun _ _ ↦ True) w := by
  induction records generalizing w with
  | nil => exact safe_return fun _ _ _ ↦ trivial
  | cons p records ih =>
      have hturn : (C.discipline lapsed D).SafeR (RetentionJob.deletionTurn maxAttempts p)
          (fun _ _ ↦ True) w := deletionTurn_safe hw (hlocated p List.mem_cons_self)
      refine Discipline.SafeR.bind (Discipline.Safe.consequence
        (hturn.remember (Later.refl C w) hw) fun out t ht hout ↦ ?_) hw
      split
      rotate_left
      · exact fun _ _ _ ↦ trivial
      have hrest := ih ht fun q hq ↦ (hlocated q (List.mem_cons_of_mem p hq)).later hout.1
      refine Discipline.SafeR.bind (Discipline.Safe.consequence hrest fun out u _ _ ↦ ?_) ht
      split
      · exact safe_return fun _ _ _ ↦ trivial
      · exact fun _ _ _ ↦ trivial

theorem reconcilePendingDeletions_safe {maxAttempts : ℕ} :
    (C.discipline lapsed D).SafeR (RetentionJob.reconcilePendingDeletions maxAttempts)
      (fun _ _ ↦ True) w := by
  unfold RetentionJob.reconcilePendingDeletions
  refine safe_call_bind fun t ht _ ↦ ⟨trivial, fun c ↦ ?_⟩
  split
  rotate_left
  · exact fun _ _ _ ↦ trivial
  rename_i records hrecords
  obtain rfl := (RetentionWorld.reply_eq_ok.mp hrecords).2
  refine forEach_deletionTurn_safe ht fun p hp ↦ ?_
  obtain ⟨key, -, hkey⟩ := List.mem_filterMap.mp hp
  exact ht.listed hkey

/-! ## The purge -/

/-- What a claim returns is a row which waited for its purge, and has been claimed. -/
theorem claim_returns {c : RetentionChoice} {fileId : Uuid} {record : ClaimedFile}
    (h : (RetentionWorld.answer D (.claimRetainedFileForPurge fileId) c w).1 = .ok (some record)) :
    ∃ f, (w.database record.tenantId).files.lookup fileId = some f ∧
      f.claimable w.clock = true ∧ record.file = f.claimed ∧
      ((RetentionWorld.answer D (.claimRetainedFileForPurge fileId) c w).2.database
        record.tenantId).files.lookup fileId = some f.claimed := by
  by_cases hlocked : c.locked = true
  · have hanswer : RetentionWorld.answer D (.claimRetainedFileForPurge fileId) c w =
        (RetentionWorld.reply c none, w) := if_pos hlocked
    rw [hanswer] at h
    cases (RetentionWorld.reply_eq_ok.mp h).2
  have hanswer : RetentionWorld.answer D (.claimRetainedFileForPurge fileId) c w =
      RetentionWorld.transact c c.tenant (.claimRetainedFileForPurge w.clock fileId)
        (fun claimed ↦ claimed.map (⟨c.tenant, ·⟩)) w := if_neg hlocked
  rw [hanswer] at h ⊢
  obtain ⟨a, db, t, hperform, -, hrecord, hdb, hnext⟩ := RetentionWorld.transact_eq_ok h
  obtain ⟨claimed, rfl, rfl⟩ := Option.map_eq_some_iff.mp hrecord.symm
  have hclaim : claimRetainedFileForPurge w.clock fileId (w.database c.tenant) =
      (some claimed, db) := Except.ok.inj hperform
  dsimp only
  cases hf : (w.database c.tenant).files.lookup fileId with
  | none =>
      rw [claimRetainedFileForPurge, hf] at hclaim
      cases hclaim
  | some f =>
      rw [claimRetainedFileForPurge_eq w.clock hf] at hclaim
      split at hclaim
      · rename_i hclaimable
        obtain ⟨hfile, rfl⟩ := Prod.mk.inj hclaim
        refine ⟨f, rfl, hclaimable, (Option.some.inj hfile).symm, ?_⟩
        rw [hnext, database_setTenant, if_pos rfl, hdb]
        exact (AList.lookup_update_self fileId _ _).trans (by rw [hf]; rfl)
      · cases hclaim

/-- What the claim returns is the file of the custody, which is claimed now, or a file which lies
elsewhere. -/
theorem Kept.claim (h : C.Kept lapsed w) {c : RetentionChoice} {fileId : Uuid}
    {record : ClaimedFile} {w' : RetentionWorld γ}
    (hclaim : RetentionWorld.answer D (.claimRetainedFileForPurge fileId) c w =
      (.ok (some record), w')) :
    (C.Concerns record.tenantId fileId → record.file.objectKey = C.deletion.trashKey ∧
      record.file.storageSpaceId = C.deletion.file.storageSpaceId ∧ C.Claimed w') ∧
    (¬ C.Concerns record.tenantId fileId → ∀ space,
      (w'.database record.tenantId).spaces.lookup record.file.storageSpaceId = some space →
        C.Avoids space.bucket record.file.objectKey) := by
  obtain ⟨hkept, hlater⟩ := h.answer (D := D) (r := .claimRetainedFileForPurge fileId) (c := c) trivial
  obtain ⟨f, hf, hclaimable, hfile, hf'⟩ := claim_returns (congrArg Prod.fst hclaim)
  rw [hclaim] at hkept hlater hf'
  rw [hfile]
  refine ⟨fun ⟨htenant, hid⟩ ↦ ?_, fun hother space' hspace' ↦ ?_⟩
  · rw [htenant, hid] at hf hf'
    obtain ⟨stage, hdeleted, hbytes⟩ := hkept.stage
    obtain ⟨g, hg, hspace, hat⟩ := hdeleted.row
    obtain rfl := Option.some.inj (hg.symm.trans hf')
    obtain ⟨rfl, -, -, hkey, -⟩ := hat.claimed_of_processing rfl
    exact ⟨hkey, hspace, hbytes.2, .claimed, hdeleted, le_rfl⟩
  · obtain ⟨space, hspace, hbucket⟩ := hlater.spaces record.tenantId _ space' hspace'
    rw [hbucket]
    simp only [FileObject.claimable, FileObject.awaitsPurge, Bool.and_eq_true] at hclaimable
    exact h.apart _ _ f hother hf space hspace _ (.row f hf (Or.inl hclaimable.1.1.1.1))

theorem purgeMember_safe (fileId : Uuid) :
    (C.discipline lapsed D).SafeR (RetentionJob.purgeMember fileId) (fun _ _ ↦ True) w := by
  unfold RetentionJob.purgeMember
  refine safe_call_bind fun t ht _ ↦ ⟨trivial, fun c ↦ ?_⟩
  split
  rotate_left
  · exact fun _ _ _ ↦ trivial
  rename_i claimed hclaim
  split
  · exact safe_return fun _ _ _ ↦ trivial
  rename_i record
  obtain ⟨hown, hother⟩ := ht.claim (Prod.ext hclaim rfl)
  refine safe_call_bind fun u hu hle ↦ ⟨trivial, fun c' ↦ ?_⟩
  split
  rotate_left
  · exact fun _ _ _ ↦ trivial
  rename_i found hfound
  obtain rfl := RetentionWorld.answer_getSpace hfound
  split
  · exact safe_raise fun _ _ _ ↦ trivial
  rename_i space hspace
  have hlookup := (Option.filter_eq_some_iff.mp hspace).1
  by_cases hconcerns : C.Concerns record.tenantId fileId
  · obtain ⟨hkey, hspaceId, hclaimed⟩ := hown hconcerns
    have hbucket : space.bucket = C.bucket := by
      refine hu.located space ?_
      rw [← hconcerns.1, ← hspaceId]
      exact hlookup
    rw [hbucket, hkey]
    refine safe_call_bind fun v _ hle' ↦
      ⟨Or.inr (Or.inl ⟨rfl, hle'.claimed (hle.claimed hclaimed)⟩), fun c'' ↦ ?_⟩
    split
    rotate_left
    · exact fun _ _ _ ↦ trivial
    rename_i hdeleted
    have hgone : C.Gone (RetentionWorld.answer D (.delete ⟨C.bucket, C.deletion.trashKey, 1⟩) c'' v).2 := by
      rw [RetentionWorld.answer_delete_ok hdeleted]
      exact gone_remove (hle'.claimed (hle.claimed hclaimed)).1
    refine safe_call_bind fun v' _ hle'' ↦ ⟨fun _ ↦ hle''.gone hgone, fun _ ↦ ?_⟩
    split
    · exact safe_return fun _ _ _ ↦ trivial
    · exact fun _ _ _ ↦ trivial
  · refine safe_call_bind fun v _ _ ↦ ⟨Or.inr (Or.inr ?_), fun c'' ↦ ?_⟩
    · obtain ⟨before, hbefore, hbucket⟩ := hle.spaces record.tenantId _ space hlookup
      rw [hbucket]
      exact hother hconcerns before hbefore
    split
    rotate_left
    · exact fun _ _ _ ↦ trivial
    refine safe_call_bind fun _ _ _ ↦ ⟨fun h ↦ absurd h hconcerns, fun _ ↦ ?_⟩
    split
    · exact safe_return fun _ _ _ ↦ trivial
    · exact fun _ _ _ ↦ trivial

theorem purgeTurn_safe (maxAttempts : ℕ) (fileId : Uuid) (hw : C.Kept lapsed w) :
    (C.discipline lapsed D).SafeR (RetentionJob.purgeTurn maxAttempts fileId)
      (fun _ _ ↦ True) w := by
  unfold RetentionJob.purgeTurn
  refine safe_tryCatch (Discipline.Safe.consequence (purgeMember_safe fileId) fun out t _ _ ↦ ?_) hw
  split
  · exact fun _ _ _ ↦ trivial
  refine safe_call_bind fun _ _ _ ↦ ⟨trivial, fun _ ↦ ?_⟩
  split
  · exact safe_return fun _ _ _ ↦ trivial
  · exact fun _ _ _ ↦ trivial

theorem purgeRows_safe {maxAttempts : ℕ} {now : Timestamp} (rows : List (Uuid × Timestamp))
    (purged : ℕ) (hw : C.Kept lapsed w) :
    (C.discipline lapsed D).SafeR (RetentionJob.purgeRows maxAttempts now rows purged)
      (fun _ _ ↦ True) w := by
  induction rows generalizing purged w with
  | nil => exact safe_return fun _ _ _ ↦ trivial
  | cons row rows ih =>
      obtain ⟨fileId, score⟩ := row
      unfold RetentionJob.purgeRows
      split
      · refine safe_call_bind fun _ _ _ ↦ ⟨trivial, fun _ ↦ ?_⟩
        split
        · exact safe_return fun _ _ _ ↦ trivial
        · exact fun _ _ _ ↦ trivial
      refine Discipline.SafeR.bind (Discipline.Safe.consequence (purgeTurn_safe maxAttempts fileId hw)
        fun out t ht _ ↦ ?_) hw
      split
      · exact ih _ ht
      · exact fun _ _ _ ↦ trivial

theorem purgeDue_safe {limit maxAttempts : ℕ} :
    (C.discipline lapsed D).SafeR (RetentionJob.purgeDue limit maxAttempts)
      (fun _ _ ↦ True) w := by
  unfold RetentionJob.purgeDue
  refine safe_call_bind fun t _ _ ↦ ⟨trivial, fun c ↦ ?_⟩
  split
  rotate_left
  · exact fun _ _ _ ↦ trivial
  refine safe_call_bind fun u hu _ ↦ ⟨trivial, fun c' ↦ ?_⟩
  split
  · exact purgeRows_safe _ _ hu
  · exact fun _ _ _ ↦ trivial

end Custody

end S3mp
