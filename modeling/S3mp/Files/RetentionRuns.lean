import S3mp.Files.RetentionSafety
import S3mp.Operations.OnlyCopy

/-!
# The runs of the jobs on deleted files

Every run starts where the deletion of a file has just been accepted.  Deletion passes
and purges are started at any time and in any number; each of them may stop for ever
after any request.
-/

namespace S3mp

open Relational Files Platform Storage Transition

variable {γ : Type} {D : Digest γ}

namespace RetentionJob

/-- A deletion pass of the worker, which only counts what it returns. -/
def deletionPass (maxAttempts : ℕ) : RetentionJob Unit := do
  let _ ← RetentionJob.reconcilePendingDeletions maxAttempts

def purgePass (limit maxAttempts : ℕ) : RetentionJob Unit := do
  let _ ← RetentionJob.purgeDue limit maxAttempts

end RetentionJob

namespace Custody

/-- The transactions on the file which only the jobs make. -/
structure Foreign (C : Custody γ) (c : TenantCmd) : Prop where
  migration : c ≠ .stored (.finalizeFileTrashMigration C.deletion.fileId)
  claim : ∀ now, c ≠ .stored (.claimRetainedFileForPurge now C.deletion.fileId)
  purge : ∀ now, c ≠ .stored (.finalizeRetainedFilePurge now C.deletion.fileId)

/-- Beside the jobs nobody writes to the two places, and no other deleted file comes to use them. -/
def Permitted (C : Custody γ) (lapsed : Prop) (m : RetentionMachine γ) : RetentionStep γ → Prop
  | .start p => (∃ n, p = (RetentionJob.deletionPass n).run) ∨
      ∃ limit n, p = (RetentionJob.purgePass limit n).run
  | .step _ _ => True
  | .outside (.command tenantId c) => (tenantId = C.tenantId → C.Foreign c) ∧
      C.Apart (RetentionWorld.happen (.command tenantId c) m.world)
  | .outside (.provider objects) => objects C.source = m.world.objects C.source ∧
      objects C.trash = m.world.objects C.trash
  | .outside (.clock now) => lapsed ∨ now < C.deletion.data.purgeDueAt

/-- The tenant has just accepted the deletion, and the object is still at its key. -/
structure AcceptedIn (C : Custody γ) (w : RetentionWorld γ) : Prop where
  accepted : ∃ t before, t.db.files = ∅ ∧ t.db.deletions = ∅ ∧
    C.deletion.Accepted (run tenantExec t before) (w.tenants C.tenantId)
  located : ∀ space, (w.database C.tenantId).spaces.lookup C.deletion.file.storageSpaceId =
    some space → space.bucket = C.bucket
  source : w.objects C.source = some C.accepted
  trash : w.objects C.trash = none
  apart : C.Apart w

variable {C : Custody γ} {lapsed : Prop} {w : RetentionWorld γ}

theorem AcceptedIn.kept (h : C.AcceptedIn w)
    (hclock : lapsed ∨ w.clock < C.deletion.data.purgeDueAt) : C.Kept lapsed w := by
  obtain ⟨t, before, hfiles, hdeletions, haccepted⟩ := h.accepted
  have hdeleted := haccepted.deleted (founded_run (founded_of_empty hfiles hdeletions) before)
  refine ⟨⟨.pending, hdeleted, fun hnone ↦ ?_⟩, h.located, hclock, Or.inr h.source, ?_, h.apart⟩
  · rw [h.source] at hnone
    cases hnone
  · intro o ho
    rw [h.trash] at ho
    cases ho

theorem deletionPass_safe {maxAttempts : ℕ} (hw : C.Kept lapsed w) :
    (C.discipline lapsed D).SafeR (RetentionJob.deletionPass maxAttempts) (fun _ _ ↦ True) w := by
  unfold RetentionJob.deletionPass
  refine Discipline.SafeR.bind (Discipline.Safe.consequence reconcilePendingDeletions_safe
    fun out t _ _ ↦ ?_) hw
  split
  · exact safe_return fun _ _ _ ↦ trivial
  · exact fun _ _ _ ↦ trivial

theorem purgePass_safe {limit maxAttempts : ℕ} (hw : C.Kept lapsed w) :
    (C.discipline lapsed D).SafeR (RetentionJob.purgePass limit maxAttempts)
      (fun _ _ ↦ True) w := by
  unfold RetentionJob.purgePass
  refine Discipline.SafeR.bind (Discipline.Safe.consequence purgeDue_safe fun out t _ _ ↦ ?_) hw
  split
  · exact safe_return fun _ _ _ ↦ trivial
  · exact fun _ _ _ ↦ trivial

theorem Foreign.allows {c : TenantCmd} (h : C.Foreign c) : C.Allows lapsed w c :=
  ⟨fun hc ↦ absurd hc h.migration, fun now hc ↦ absurd hc (h.claim now),
    fun now hc ↦ absurd hc (h.purge now)⟩

/-- What others may do keeps the custody. -/
theorem Kept.happen {e : RetentionEvent γ} {m : RetentionMachine γ} (h : C.Kept lapsed m.world)
    (hpermitted : C.Permitted lapsed m (.outside e)) :
    C.Kept lapsed (RetentionWorld.happen e m.world) ∧
      C.Later m.world (RetentionWorld.happen e m.world) := by
  cases e with
  | command tenantId c =>
      obtain ⟨hforeign, hapart⟩ := hpermitted
      have hhappen : RetentionWorld.happen (.command tenantId c) m.world =
          m.world.setTenant tenantId (advance tenantExec (m.world.tenants tenantId) c) := rfl
      rw [hhappen] at hapart ⊢
      cases hexec : tenantExec c (m.world.tenants tenantId) with
      | ok t =>
          rw [advance_of_ok hexec] at hapart ⊢
          exact h.commits hexec (fun htenant ↦ (hforeign htenant).allows) hapart
      | error e =>
          have hsame : m.world.setTenant tenantId (m.world.tenants tenantId) = m.world := by
            unfold RetentionWorld.setTenant
            rw [Function.update_eq_self]
          rw [advance_of_error hexec, hsame]
          exact ⟨h, .refl C _⟩
  | provider objects => exact h.congr rfl rfl hpermitted.1 hpermitted.2
  | clock now =>
      refine ⟨⟨?_, h.located, hpermitted, h.source, h.clean, h.apart⟩,
        ⟨fun _ ↦ .refl _ _, id, id, id, id⟩⟩
      obtain ⟨stage, hdeleted, hbytes⟩ := h.stage
      exact ⟨stage, hdeleted, (bytes_congr rfl rfl).mpr hbytes⟩

theorem permitted_run {m : RetentionMachine γ}
    (hm : Machine.Disciplined (C.discipline lapsed D) (fun _ _ ↦ True) m)
    {es : List (RetentionStep γ)} (hmeets : Meets (retentionExec D) (C.Permitted lapsed) m es) :
    Machine.Disciplined (C.discipline lapsed D) (fun _ _ ↦ True) (run (retentionExec D) m es) := by
  refine Machine.disciplined_run (fun m e hm he ↦ ?_) hm hmeets
  cases e with
  | start p =>
      rcases he with ⟨n, rfl⟩ | ⟨limit, n, rfl⟩
      · exact deletionPass_safe hm.1
      · exact purgePass_safe hm.1
  | step i c => exact trivial
  | outside e => exact hm.1.happen he

theorem AcceptedIn.run (h : C.AcceptedIn w)
    (hclock : lapsed ∨ w.clock < C.deletion.data.purgeDueAt) {es : List (RetentionStep γ)}
    (hmeets : Meets (retentionExec D) (C.Permitted lapsed) ⟨w, []⟩ es) :
    Machine.Disciplined (C.discipline lapsed D) (fun _ _ ↦ True)
      (run (retentionExec D) ⟨w, []⟩ es) := by
  have hm : Machine.Disciplined (C.discipline lapsed D) (fun _ _ ↦ True)
      (⟨w, []⟩ : RetentionMachine γ) := ⟨h.kept hclock, by simp⟩
  exact permitted_run hm hmeets

theorem spare_of_delete {m : RetentionMachine γ}
    (hm : Machine.Disciplined (C.discipline lapsed D) (fun _ _ ↦ True) m) {i : ℕ}
    (hi : m.requests i (.delete C.source)) : C.Spare m.world := by
  rcases hm.guard hi with ⟨-, hspare⟩ | ⟨heq, -⟩ | ⟨hne, -⟩
  · exact hspare
  · exact absurd heq C.source_ne_trash
  · exact absurd rfl hne

theorem claimed_of_delete {m : RetentionMachine γ}
    (hm : Machine.Disciplined (C.discipline lapsed D) (fun _ _ ↦ True) m) {i : ℕ}
    (hi : m.requests i (.delete C.trash)) : C.Claimed m.world := by
  rcases hm.guard hi with ⟨heq, -⟩ | ⟨-, hclaimed⟩ | ⟨-, hne⟩
  · exact absurd heq.symm C.source_ne_trash
  · exact hclaimed
  · exact absurd rfl hne

end Custody

/-- Until a clock shows the due date of the purge, no interleaving of deletion passes, purges,
crashes and failures loses the bytes of a deleted file: its object is deleted only where the copy
is in the trash, the copy is never deleted, and the row keeps the file in retention. -/
theorem retention_keeps_bytes {γ : Type} (D : Digest γ) (C : Custody γ) {w : RetentionWorld γ}
    (haccepted : C.AcceptedIn w) (hclock : w.clock < C.deletion.data.purgeDueAt)
    {es : List (RetentionStep γ)}
    (hmeets : Meets (retentionExec D) (C.Permitted False) ⟨w, []⟩ es) :
    let m := run (retentionExec D) ⟨w, []⟩ es
    (∀ i, m.requests i (.delete C.source) → C.Spare m.world) ∧
      (∀ i, ¬ m.requests i (.delete C.trash)) ∧
      (m.world.objects C.source = some C.accepted ∨ C.Holds m.world) ∧
      ∃ stage, C.deletion.Deleted stage (m.world.database C.tenantId) ∧
        (stage = .pending ∨ stage = .retained) := by
  intro m
  have hm := haccepted.run (D := D) (Or.inr hclock) hmeets
  obtain ⟨stage, hdeleted, hbytes⟩ := hm.1.stage
  have hstage : stage = .pending ∨ stage = .retained := by
    cases stage with
    | pending => exact Or.inl rfl
    | retained => exact Or.inr rfl
    | claimed | purged => exact absurd hbytes.1 id
  refine ⟨fun i hi ↦ Custody.spare_of_delete hm hi, fun i hi ↦ ?_, ?_, stage, hdeleted, hstage⟩
  · obtain ⟨-, reached, hreached, hrank⟩ := Custody.claimed_of_delete hm hi
    obtain rfl := hreached.unique hdeleted
    exact (hbytes.moved hrank).1
  · rcases hstage with rfl | rfl
    · exact hm.1.source.symm.imp_right hbytes
    · exact Or.inr hbytes.2

namespace Sample

def custody : Custody Bool where
  tenantId := 1
  deletion := erasure
  bucket := "bucket"
  accepted := ⟨true, attributes⟩

/-- The tenant has deleted its file, and the other tenants have none. -/
def retaining : RetentionWorld Bool where
  tenants := Function.update (fun _ ↦ live) 1 bereft
  objects := Function.update (fun _ ↦ none) custody.source (some custody.accepted)
  clock := 0

theorem retaining_apart : custody.Apart retaining := by
  intro tenantId fileId f hother hf
  by_cases htenant : tenantId = 1
  · have hkeys : bereft.db.files.keys = [30] := by decide +kernel
    subst htenant
    have hmem : fileId ∈ bereft.db.files.keys := AList.mem_keys.mp (AList.mem_of_lookup hf)
    rw [hkeys, List.mem_singleton] at hmem
    exact absurd ⟨rfl, hmem⟩ hother
  · have hlive : retaining.tenants tenantId = live := by
      simp only [retaining, Function.update_of_ne htenant]
    rw [RetentionWorld.database, hlive] at hf
    cases hf

theorem custody_acceptedIn : custody.AcceptedIn retaining := by
  refine ⟨⟨live, uploaded 10 30 40 "a", rfl, rfl, erasure_accepted⟩, ?_, ?_, ?_, retaining_apart⟩
  · intro space hspace
    have hbuckets : ∀ s ∈ bereft.db.spaces.lookup erasure.file.storageSpaceId,
        s.bucket = "bucket" := by decide +kernel
    exact hbuckets space hspace
  · simp only [retaining, Function.update_self]
  · simp only [retaining, Function.update_of_ne custody.source_ne_trash.symm]

/-- Nothing raises, and the deleted file is listed. -/
def attended : RetentionChoice where
  raises := none
  takesEffect := true
  attributes := attributes
  subjects := granted
  listed := [(1, 30)]
  members := [(30, 50)]
  tenant := 1
  locked := false

/-- A deletion pass makes its first `n` requests. -/
def attendedPass (n : ℕ) : List (RetentionStep Bool) :=
  .start (RetentionJob.deletionPass 3).run :: List.replicate n (.step 0 attended)

theorem attendedPass_permitted (w : RetentionWorld Bool) (lapsed : Prop) (n : ℕ) :
    Meets (retentionExec digest) (custody.Permitted lapsed) ⟨w, []⟩ (attendedPass n) := by
  refine ⟨Or.inl ⟨3, rfl⟩, ?_⟩
  generalize advance (retentionExec digest) ⟨w, []⟩ _ = m
  induction n generalizing m with
  | zero => exact trivial
  | succ n ih => exact ⟨trivial, ih _⟩

end Sample

theorem retention_keeps_bytes_sample :
    let m := run (retentionExec Sample.digest) ⟨Sample.retaining, []⟩ (Sample.attendedPass 20)
    (∀ i, m.requests i (.delete Sample.custody.source) → Sample.custody.Spare m.world) ∧
      (∀ i, ¬ m.requests i (.delete Sample.custody.trash)) ∧
      (m.world.objects Sample.custody.source = some Sample.custody.accepted ∨
        Sample.custody.Holds m.world) ∧
      ∃ stage, Sample.custody.deletion.Deleted stage (m.world.database Sample.custody.tenantId) ∧
        (stage = .pending ∨ stage = .retained) :=
  retention_keeps_bytes Sample.digest Sample.custody Sample.custody_acceptedIn (by decide)
    (Sample.attendedPass_permitted _ False 20)

/-- The row tells the truth about the objects, whenever clocks and jobs stop: the bytes lie at one
of the two places until the claim, in the trash alone once the file is scheduled for its purge,
and at neither when it counts as purged; only the claimed copy is ever asked to be deleted. -/
theorem rows_tell_places {γ : Type} (D : Digest γ) (C : Custody γ) {w : RetentionWorld γ}
    (haccepted : C.AcceptedIn w) {es : List (RetentionStep γ)}
    (hmeets : Meets (retentionExec D) (C.Permitted True) ⟨w, []⟩ es) :
    let m := run (retentionExec D) ⟨w, []⟩ es
    ∃ stage, C.deletion.Deleted stage (m.world.database C.tenantId) ∧
      (stage = .pending → m.world.objects C.source = some C.accepted ∨ C.Holds m.world) ∧
      (stage = .retained → m.world.objects C.source = none ∧ C.Holds m.world) ∧
      (stage = .purged → C.Gone m.world) ∧
      (∀ i, m.requests i (.delete C.source) → C.Spare m.world) ∧
      ∀ i, m.requests i (.delete C.trash) → stage = .claimed ∨ stage = .purged := by
  intro m
  have hm := haccepted.run (D := D) (Or.inl trivial) hmeets
  obtain ⟨stage, hdeleted, hbytes⟩ := hm.1.stage
  refine ⟨stage, hdeleted, ?_, ?_, ?_, fun i hi ↦ Custody.spare_of_delete hm hi, fun i hi ↦ ?_⟩
  · rintro rfl
    exact hm.1.source.symm.imp_right hbytes
  · rintro rfl
    exact hbytes
  · rintro rfl
    exact hbytes.2
  · obtain ⟨-, reached, hreached, hrank⟩ := Custody.claimed_of_delete hm hi
    obtain rfl := hreached.unique hdeleted
    cases reached with
    | pending | retained => simp [DeletionStage.rank] at hrank
    | claimed => exact Or.inl rfl
    | purged => exact Or.inr rfl

theorem rows_tell_places_sample :
    let m := run (retentionExec Sample.digest) ⟨Sample.retaining, []⟩ (Sample.attendedPass 20)
    ∃ stage, Sample.custody.deletion.Deleted stage (m.world.database Sample.custody.tenantId) ∧
      (stage = .pending → m.world.objects Sample.custody.source = some Sample.custody.accepted ∨
        Sample.custody.Holds m.world) ∧
      (stage = .retained → m.world.objects Sample.custody.source = none ∧
        Sample.custody.Holds m.world) ∧
      (stage = .purged → Sample.custody.Gone m.world) ∧
      (∀ i, m.requests i (.delete Sample.custody.source) → Sample.custody.Spare m.world) ∧
      ∀ i, m.requests i (.delete Sample.custody.trash) → stage = .claimed ∨ stage = .purged :=
  rows_tell_places Sample.digest Sample.custody Sample.custody_acceptedIn
    (Sample.attendedPass_permitted _ True 20)

end S3mp
