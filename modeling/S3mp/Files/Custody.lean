import S3mp.Files.DeletionStages
import S3mp.Files.RetentionWorld

/-!
# The custody of a deleted object

From the acceptance of a deletion on, the bytes of the file lie at its key or in the
trash.  The jobs may run any number of times at once, break off anywhere and be told
errors about requests which have had their effect.  As long as nobody else writes to
the two places, an object is taken away only where its copy is, and the copy only
after the file has been claimed for its purge.
-/

namespace S3mp

open Relational Files Platform Storage Transition

variable {γ : Type}

/-- A deletion which has been accepted, the bucket of the file, and the object its key held. -/
structure Custody (γ : Type) where
  tenantId : Uuid
  deletion : FileDeletion
  bucket : String
  accepted : StoredObject γ

namespace Custody

variable (C : Custody γ)

def source : ProviderTarget :=
  ⟨C.bucket, C.deletion.file.objectKey, 1⟩

def trash : ProviderTarget :=
  ⟨C.bucket, C.deletion.trashKey, 1⟩

def Holds (w : RetentionWorld γ) : Prop :=
  ∃ o, w.objects C.trash = some o ∧ o.content = C.accepted.content

/-- The source may be taken away. -/
def Spare (w : RetentionWorld γ) : Prop :=
  w.objects C.source = none ∨ C.Holds w

/-- Nothing is left of the file. -/
def Gone (w : RetentionWorld γ) : Prop :=
  w.objects C.source = none ∧ w.objects C.trash = none

/-- The file is the one of the custody. -/
def Concerns (tenantId fileId : Uuid) : Prop :=
  tenantId = C.tenantId ∧ fileId = C.deletion.fileId

/-- Where the bytes are at each stage.  The claim for the purge only comes where the time of the
file has lapsed. -/
def Bytes (lapsed : Prop) (w : RetentionWorld γ) : DeletionStage → Prop
  | .pending => w.objects C.source = none → C.Holds w
  | .retained => w.objects C.source = none ∧ C.Holds w
  | .claimed => lapsed ∧ w.objects C.source = none
  | .purged => lapsed ∧ C.Gone w

/-- The file has been claimed for its purge. -/
def Claimed (w : RetentionWorld γ) : Prop :=
  w.objects C.source = none ∧ ∃ stage, C.deletion.Deleted stage (w.database C.tenantId) ∧
    DeletionStage.claimed.rank ≤ stage.rank

/-- Neither of the two places is at the key. -/
def Avoids (bucket key : String) : Prop :=
  (⟨bucket, key, 1⟩ : ProviderTarget) ≠ C.source ∧ (⟨bucket, key, 1⟩ : ProviderTarget) ≠ C.trash

/-- No other deleted file has anything to do with the two places. -/
def Apart (w : RetentionWorld γ) : Prop :=
  ∀ tenantId fileId f, ¬ C.Concerns tenantId fileId →
    (w.database tenantId).files.lookup fileId = some f → ∀ space,
    (w.database tenantId).spaces.lookup f.storageSpaceId = some space → ∀ key,
    Places (w.database tenantId) fileId key → C.Avoids space.bucket key

structure Kept (lapsed : Prop) (w : RetentionWorld γ) : Prop where
  stage : ∃ stage, C.deletion.Deleted stage (w.database C.tenantId) ∧ C.Bytes lapsed w stage
  located : ∀ space, (w.database C.tenantId).spaces.lookup C.deletion.file.storageSpaceId =
    some space → space.bucket = C.bucket
  clock : lapsed ∨ w.clock < C.deletion.data.purgeDueAt
  source : w.objects C.source = none ∨ w.objects C.source = some C.accepted
  clean : ∀ o, w.objects C.trash = some o → o.content = C.accepted.content
  apart : C.Apart w

/-- What a job may ask. -/
def Guard (w : RetentionWorld γ) : RetentionRequest → Prop
  | .copy s d => (s = C.source ∧ d = C.trash) ∨ (d ≠ C.source ∧ d ≠ C.trash)
  | .delete t => (t = C.source ∧ C.Spare w) ∨ (t = C.trash ∧ C.Claimed w) ∨
      (t ≠ C.source ∧ t ≠ C.trash)
  | .finalizeFileTrashMigration tenantId fileId =>
      C.Concerns tenantId fileId → w.objects C.source = none
  | .finalizeRetainedFilePurge tenantId fileId => C.Concerns tenantId fileId → C.Gone w
  | _ => True

/-- What a job may rely on while the others act. -/
structure Later (w w' : RetentionWorld γ) : Prop where
  spaces : ∀ tenantId, KeepsKey StorageSpace.bucket (w.database tenantId).spaces
    (w'.database tenantId).spaces
  spare : C.Spare w → C.Spare w'
  moved : w.objects C.source = none → w'.objects C.source = none
  claimed : C.Claimed w → C.Claimed w'
  gone : C.Gone w → C.Gone w'

theorem Later.refl (w : RetentionWorld γ) : C.Later w w :=
  ⟨fun _ ↦ .refl _ _, id, id, id, id⟩

variable {C} {lapsed : Prop} {w w' w'' : RetentionWorld γ}

theorem Later.trans (h : C.Later w w') (h' : C.Later w' w'') : C.Later w w'' :=
  ⟨fun tenantId ↦ (h.spaces tenantId).trans (h'.spaces tenantId), h'.spare ∘ h.spare,
    h'.moved ∘ h.moved, h'.claimed ∘ h.claimed, h'.gone ∘ h.gone⟩

theorem source_ne_trash (C : Custody γ) : C.source ≠ C.trash := by
  intro h
  exact C.deletion.trashKey_ne (congrArg ProviderTarget.key h).symm

theorem holds_congr (h : w'.objects C.trash = w.objects C.trash) : C.Holds w' ↔ C.Holds w := by
  rw [Holds, Holds, h]

theorem bytes_congr {stage : DeletionStage} (hsource : w'.objects C.source = w.objects C.source)
    (htrash : w'.objects C.trash = w.objects C.trash) :
    C.Bytes lapsed w' stage ↔ C.Bytes lapsed w stage := by
  cases stage <;> simp only [Bytes, Gone, holds_congr htrash, hsource, htrash]

/-- What has been claimed had come into the trash. -/
theorem Bytes.moved {stage : DeletionStage} (h : C.Bytes lapsed w stage)
    (hclaimed : DeletionStage.claimed.rank ≤ stage.rank) :
    lapsed ∧ w.objects C.source = none := by
  cases stage with
  | pending | retained => simp [DeletionStage.rank] at hclaimed
  | claimed => exact h
  | purged => exact ⟨h.1, h.2.1⟩

/-! ## The provider -/

theorem database_congr (h : w'.tenants = w.tenants) (tenantId : Uuid) :
    w'.database tenantId = w.database tenantId := by
  rw [RetentionWorld.database, RetentionWorld.database, h]

/-- The objects elsewhere do not matter. -/
theorem Kept.congr (h : C.Kept lapsed w) (htenants : w'.tenants = w.tenants)
    (hclock : w'.clock = w.clock) (hsource : w'.objects C.source = w.objects C.source)
    (htrash : w'.objects C.trash = w.objects C.trash) : C.Kept lapsed w' ∧ C.Later w w' := by
  have hdb := database_congr htenants
  constructor
  · constructor
    · obtain ⟨stage, hdeleted, hbytes⟩ := h.stage
      exact ⟨stage, hdb C.tenantId ▸ hdeleted, (bytes_congr hsource htrash).mpr hbytes⟩
    · exact hdb C.tenantId ▸ h.located
    · exact hclock ▸ h.clock
    · rw [hsource]
      exact h.source
    · rw [htrash]
      exact h.clean
    · intro tenantId
      rw [hdb]
      exact h.apart tenantId
  · constructor
    · intro tenantId
      rw [hdb]
      exact .refl _ _
    · rw [Spare, Spare, hsource, holds_congr htrash]
      exact id
    · rw [hsource]
      exact id
    · rw [Claimed, Claimed, hsource, hdb]
      exact id
    · rw [Gone, Gone, hsource, htrash]
      exact id

/-- A copy of the source brings its bytes into the trash. -/
theorem Kept.copied (h : C.Kept lapsed w) {o : StoredObject γ} (ho : w.objects C.source = some o)
    (attributes : Attributes) :
    C.Kept lapsed (w.put C.trash ⟨o.content, attributes⟩) ∧
      C.Later w (w.put C.trash ⟨o.content, attributes⟩) := by
  have hpresent : w.objects C.source ≠ none := by simp [ho]
  have hcontent : o = C.accepted := by
    rcases h.source with hnone | hsome
    · exact absurd hnone hpresent
    · exact Option.some.inj (ho.symm.trans hsome)
  subst hcontent
  have hsource : (w.put C.trash ⟨C.accepted.content, attributes⟩).objects C.source =
      w.objects C.source := Function.update_of_ne C.source_ne_trash _ _
  have htrash : (w.put C.trash ⟨C.accepted.content, attributes⟩).objects C.trash =
      some ⟨C.accepted.content, attributes⟩ := Function.update_self _ _ _
  have hholds : C.Holds (w.put C.trash ⟨C.accepted.content, attributes⟩) := ⟨_, htrash, rfl⟩
  refine ⟨⟨?_, h.located, h.clock, Or.inr (hsource.trans ho), ?_, h.apart⟩,
    ⟨fun _ ↦ .refl _ _, fun _ ↦ Or.inr hholds, fun hnone ↦ absurd hnone hpresent, ?_, ?_⟩⟩
  · obtain ⟨stage, hdeleted, hbytes⟩ := h.stage
    refine ⟨stage, hdeleted, ?_⟩
    cases stage with
    | pending => exact fun _ ↦ hholds
    | retained => exact absurd hbytes.1 hpresent
    | claimed => exact absurd hbytes.2 hpresent
    | purged => exact absurd hbytes.2.1 hpresent
  · intro o ho
    rw [htrash] at ho
    rw [← Option.some.inj ho]
  · exact fun hclaimed ↦ absurd hclaimed.1 hpresent
  · exact fun hgone ↦ absurd hgone.1 hpresent

/-- The source goes where it is spare. -/
theorem Kept.source_removed (h : C.Kept lapsed w) (hspare : C.Spare w) :
    C.Kept lapsed (w.remove C.source) ∧ C.Later w (w.remove C.source) := by
  have hsource : (w.remove C.source).objects C.source = none := Function.update_self _ _ _
  have htrash : (w.remove C.source).objects C.trash = w.objects C.trash :=
    Function.update_of_ne C.source_ne_trash.symm _ _
  refine ⟨⟨?_, h.located, h.clock, Or.inl hsource, ?_, h.apart⟩,
    ⟨fun _ ↦ .refl _ _, fun _ ↦ Or.inl hsource, fun _ ↦ hsource, ?_, ?_⟩⟩
  · obtain ⟨stage, hdeleted, hbytes⟩ := h.stage
    refine ⟨stage, hdeleted, ?_⟩
    cases stage with
    | pending => exact fun _ ↦ (holds_congr htrash).mpr (hspare.elim hbytes id)
    | retained => exact ⟨hsource, (holds_congr htrash).mpr hbytes.2⟩
    | claimed => exact ⟨hbytes.1, hsource⟩
    | purged => exact ⟨hbytes.1, hsource, htrash.trans hbytes.2.2⟩
  · rw [htrash]
    exact h.clean
  · exact fun hclaimed ↦ ⟨hsource, hclaimed.2⟩
  · exact fun hgone ↦ ⟨hsource, htrash.trans hgone.2⟩

theorem gone_remove (h : w.objects C.source = none) : C.Gone (w.remove C.trash) :=
  ⟨(Function.update_of_ne C.source_ne_trash _ _).trans h, Function.update_self _ _ _⟩

/-- The copy goes once the file has been claimed for its purge. -/
theorem Kept.trash_removed (h : C.Kept lapsed w) (hclaimed : C.Claimed w) :
    C.Kept lapsed (w.remove C.trash) ∧ C.Later w (w.remove C.trash) := by
  obtain ⟨hmoved, reached, hreached, hrank⟩ := hclaimed
  have hgone := gone_remove hmoved
  refine ⟨⟨?_, h.located, h.clock, Or.inl hgone.1, ?_, h.apart⟩,
    ⟨fun _ ↦ .refl _ _, fun _ ↦ Or.inl hgone.1, fun _ ↦ hgone.1, ?_, fun _ ↦ hgone⟩⟩
  · obtain ⟨stage, hdeleted, hbytes⟩ := h.stage
    obtain rfl := hreached.unique hdeleted
    refine ⟨reached, hdeleted, ?_⟩
    cases reached with
    | pending | retained => simp [DeletionStage.rank] at hrank
    | claimed => exact ⟨hbytes.1, hgone.1⟩
    | purged => exact ⟨hbytes.1, hgone⟩
  · intro o ho
    rw [hgone.2] at ho
    cases ho
  · exact fun hclaimed ↦ ⟨hgone.1, hclaimed.2⟩

/-! ## The databases -/

/-- Of the transactions on the file some have to wait for what the jobs do at the provider. -/
structure Allows (C : Custody γ) (lapsed : Prop) (w : RetentionWorld γ) (c : TenantCmd) : Prop where
  migration : c = .stored (.finalizeFileTrashMigration C.deletion.fileId) →
    w.objects C.source = none
  claim : ∀ now, c = .stored (.claimRetainedFileForPurge now C.deletion.fileId) →
    lapsed ∨ now < C.deletion.data.purgeDueAt
  purge : ∀ now, c = .stored (.finalizeRetainedFilePurge now C.deletion.fileId) → C.Gone w

theorem Bytes.advances {stage stage' : DeletionStage} {c : TenantCmd} (h : C.Bytes lapsed w stage)
    (hallows : C.Allows lapsed w c) (hadvances : C.deletion.Advances c stage stage') :
    C.Bytes lapsed w stage' := by
  cases hadvances with
  | stays => exact h
  | migrated hc =>
      have hmoved := hallows.migration hc
      exact ⟨hmoved, h hmoved⟩
  | claimed now hc hdue => exact ⟨(hallows.claim now hc).resolve_right (not_lt.mpr hdue), h.1⟩
  | purged now hc => exact ⟨h.1, hallows.purge now hc⟩

theorem database_setTenant (tenantId : Uuid) (t : Tenant) (w : RetentionWorld γ) (j : Uuid) :
    (w.setTenant tenantId t).database j = if j = tenantId then t.db else w.database j := by
  unfold RetentionWorld.database RetentionWorld.setTenant
  dsimp only
  split
  · rename_i hj
    rw [hj, Function.update_self]
  · rename_i hj
    rw [Function.update_of_ne hj]

/-- What a tenant commits keeps the custody where it is allowed. -/
theorem Kept.commits (h : C.Kept lapsed w) {tenantId : Uuid} {t : Tenant} {c : TenantCmd}
    (hexec : tenantExec c (w.tenants tenantId) = .ok t)
    (hallows : tenantId = C.tenantId → C.Allows lapsed w c)
    (hapart : C.Apart (w.setTenant tenantId t)) :
    C.Kept lapsed (w.setTenant tenantId t) ∧ C.Later w (w.setTenant tenantId t) := by
  have hspaces : ∀ j, KeepsKey StorageSpace.bucket (w.database j).spaces
      ((w.setTenant tenantId t).database j).spaces := by
    intro j
    rw [database_setTenant]
    split
    · rename_i hj
      subst hj
      exact tenantExec_buckets hexec
    · exact .refl _ _
  have hlocated : ∀ space, ((w.setTenant tenantId t).database C.tenantId).spaces.lookup
      C.deletion.file.storageSpaceId = some space → space.bucket = C.bucket := by
    intro space' hspace'
    obtain ⟨space, hspace, hbucket⟩ := hspaces C.tenantId _ space' hspace'
    exact hbucket.trans (h.located space hspace)
  obtain ⟨stage, hdeleted, hbytes⟩ := h.stage
  by_cases htenant : C.tenantId = tenantId
  · subst htenant
    have hdb : (w.setTenant C.tenantId t).database C.tenantId = t.db := by
      rw [database_setTenant, if_pos rfl]
    obtain ⟨stage', hdeleted', hadvances⟩ := hdeleted.step hexec
    refine ⟨⟨⟨stage', hdb ▸ hdeleted', ?_⟩, hlocated, h.clock, h.source, h.clean, hapart⟩,
      ⟨hspaces, id, id, ?_, id⟩⟩
    · exact (bytes_congr rfl rfl).mpr (hbytes.advances (hallows rfl) hadvances)
    · rintro ⟨hmoved, reached, hreached, hrank⟩
      obtain rfl := hreached.unique hdeleted
      exact ⟨hmoved, stage', hdb ▸ hdeleted', hrank.trans hadvances.rank_le⟩
  · have hdb : (w.setTenant tenantId t).database C.tenantId = w.database C.tenantId := by
      rw [database_setTenant, if_neg htenant]
    refine ⟨⟨⟨stage, hdb ▸ hdeleted, (bytes_congr rfl rfl).mpr hbytes⟩, hlocated, h.clock,
      h.source, h.clean, hapart⟩, ⟨hspaces, id, id, ?_, id⟩⟩
    rintro ⟨hmoved, reached, hreached, hrank⟩
    exact ⟨hmoved, reached, hdb ▸ hreached, hrank⟩

/-! ## The requests of the jobs -/

theorem Apart.commits (h : C.Apart w) {tenantId : Uuid} {t : Tenant} {cmd : Cmd}
    (hc : cmd.pursues = true) (hexec : tenantExec (.stored cmd) (w.tenants tenantId) = .ok t) :
    C.Apart (w.setTenant tenantId t) := by
  intro j fileId f' hother hf' space hspace key hplaces
  rw [database_setTenant] at hf' hspace hplaces
  split at hf'
  · rename_i hj
    subst hj
    rw [if_pos rfl] at hspace hplaces
    obtain ⟨-, hcmd⟩ := Tenant.transact_eq_ok hexec fun db' hdb' ↦
      step_tenantActive (exec_step hdb')
    obtain ⟨f, hf, hretired⟩ := (exec_pursued hc hcmd).before hf'
    obtain ⟨s, hs, hbucket⟩ := tenantExec_buckets hexec _ _ hspace
    rw [hbucket]
    exact h j fileId f hother hf s (hretired.space ▸ hs) key (.of_pursued hc hcmd hplaces)
  · rename_i hj
    rw [if_neg hj] at hspace hplaces
    exact h j fileId f' hother hf' space hspace key hplaces

theorem pursues_of_commandOf {c : RetentionChoice} {r : RetentionRequest} {tenantId : Uuid}
    {cmd : Cmd} (h : RetentionWorld.commandOf c w r = some (tenantId, cmd)) :
    cmd.pursues = true := by
  cases r with
  | recordDeleteFailure | finalizeFileTrashMigration | claimRetainedFileForPurge
  | finalizeRetainedFilePurge | recordRetainedPurgeFailure =>
      obtain ⟨-, rfl⟩ := Prod.mk.inj (Option.some.inj h)
      rfl
  | _ => cases h

theorem Kept.allows {c : RetentionChoice} {r : RetentionRequest} {tenantId : Uuid} {cmd : Cmd}
    (h : C.Kept lapsed w) (hguard : C.Guard w r)
    (hcommand : RetentionWorld.commandOf c w r = some (tenantId, cmd))
    (htenant : tenantId = C.tenantId) : C.Allows lapsed w (.stored cmd) := by
  cases r with
  | recordDeleteFailure | recordRetainedPurgeFailure =>
      obtain ⟨-, rfl⟩ := Prod.mk.inj (Option.some.inj hcommand)
      exact ⟨nofun, fun _ ↦ nofun, fun _ ↦ nofun⟩
  | finalizeFileTrashMigration =>
      obtain ⟨rfl, rfl⟩ := Prod.mk.inj (Option.some.inj hcommand)
      refine ⟨fun heq ↦ hguard ⟨htenant, ?_⟩, fun _ ↦ nofun, fun _ ↦ nofun⟩
      cases heq
      rfl
  | claimRetainedFileForPurge =>
      obtain ⟨-, rfl⟩ := Prod.mk.inj (Option.some.inj hcommand)
      refine ⟨nofun, fun now heq ↦ ?_, fun _ ↦ nofun⟩
      cases heq
      exact h.clock
  | finalizeRetainedFilePurge =>
      obtain ⟨rfl, rfl⟩ := Prod.mk.inj (Option.some.inj hcommand)
      refine ⟨nofun, fun _ ↦ nofun, fun now heq ↦ hguard ⟨htenant, ?_⟩⟩
      cases heq
      rfl
  | _ => cases hcommand

theorem Kept.transacts (h : C.Kept lapsed w) {tenantId : Uuid} {cmd : Cmd}
    (hc : cmd.pursues = true) (hallows : tenantId = C.tenantId → C.Allows lapsed w (.stored cmd))
    (htransacts : RetentionWorld.Transacts tenantId cmd w w') :
    C.Kept lapsed w' ∧ C.Later w w' := by
  cases htransacts with
  | idle => exact ⟨h, .refl C w⟩
  | commits t hexec => exact h.commits hexec hallows (h.apart.commits hc hexec)

/-- Every allowed request keeps the custody, whatever comes of it. -/
theorem Kept.answer {D : Digest γ} {r : RetentionRequest} {c : RetentionChoice}
    (h : C.Kept lapsed w) (hguard : C.Guard w r) :
    C.Kept lapsed (RetentionWorld.answer D r c w).2 ∧
      C.Later w (RetentionWorld.answer D r c w).2 := by
  have hunchanged : ∀ {w' : RetentionWorld γ}, w' = w → C.Kept lapsed w' ∧ C.Later w w' := by
    rintro w' rfl
    exact ⟨h, .refl C w'⟩
  cases hcommand : RetentionWorld.commandOf c w r with
  | some command =>
      obtain ⟨tenantId, cmd⟩ := command
      exact h.transacts (pursues_of_commandOf hcommand) (h.allows hguard hcommand)
        (RetentionWorld.answer_transacts hcommand)
  | none =>
      cases r with
      | copy s d =>
          rcases RetentionWorld.answer_copy (D := D) (c := c) (w := w) s d with heq | ⟨o, ho, heq⟩
          · exact hunchanged heq
          rw [heq]
          rcases hguard with ⟨rfl, rfl⟩ | ⟨hsource, htrash⟩
          · exact h.copied ho c.attributes
          · exact h.congr rfl rfl (Function.update_of_ne hsource.symm _ _)
              (Function.update_of_ne htrash.symm _ _)
      | delete t =>
          rcases RetentionWorld.answer_delete (D := D) (c := c) (w := w) t with heq | heq
          · exact hunchanged heq
          rw [heq]
          rcases hguard with ⟨rfl, hspare⟩ | ⟨rfl, hclaimed⟩ | ⟨hsource, htrash⟩
          · exact h.source_removed hspare
          · exact h.trash_removed hclaimed
          · exact h.congr rfl rfl (Function.update_of_ne hsource.symm _ _)
              (Function.update_of_ne htrash.symm _ _)
      | _ => exact hunchanged (RetentionWorld.answer_unchanged hcommand (by simp) (by simp))

/-- The jobs rely on what has come into the trash, and on the claims for the purge. -/
def discipline (C : Custody γ) (lapsed : Prop) (D : Digest γ) :
    Discipline (RetentionWorld.answer D) where
  inv := C.Kept lapsed
  le := C.Later
  guard := C.Guard
  le_refl := .refl C
  le_trans := .trans
  keeps h hguard := h.answer hguard

end Custody

end S3mp
