import S3mp.Operations.World

/-!
# Reasoning about the worker

The authorization of the worker only reads, so that a discipline which lets
everybody read has to look at the transfer and the deletion alone.
-/

namespace S3mp

open Files Transition

variable {γ α : Type} {D : Digest γ}

/-- The program only reads. -/
abbrev Quiet (x : Worker α) : Prop :=
  OnlyR (fun r : WorkerRequest ↦ ∃ read, r = .read read) x

theorem quiet_read (r : SubjectRead) : Quiet (Worker.read r) :=
  onlyR_call ⟨r, rfl⟩

theorem quiet_closed : Closed (m := Worker) Quiet :=
  ⟨onlyR_pure, onlyR_bind⟩

theorem validateDelayedSubject_quiet (principalId : Uuid) (membershipId : Option Uuid)
    (version : ℕ) (evidence : SubjectEvidence) (requiredPermission : Option String) :
    Quiet (validateDelayedSubject Worker.read principalId membershipId version evidence
      requiredPermission) :=
  validateDelayedSubject_closed (Q := Quiet) quiet_closed quiet_read _ _ _ _ _

theorem authorize_quiet (ctx : Identity.PrincipalContext) (spaceId : Uuid)
    (permission key : String) : Quiet (authorize ctx spaceId permission key) := by
  unfold authorize
  split
  · exact onlyR_pure _
  split
  · exact onlyR_pure _
  refine onlyR_bind (quiet_read _) fun bindings ↦ onlyR_bind (quiet_read _) fun now ↦ ?_
  split
  · exact onlyR_throw _
  · exact onlyR_pure _

theorem authorizeAll_quiet (ctx : Identity.PrincipalContext) (spaceId : Uuid)
    (permissions : List (String × String)) : Quiet (authorizeAll ctx spaceId permissions) := by
  induction permissions with
  | nil => exact onlyR_pure _
  | cons permission rest ih =>
      unfold authorizeAll
      refine onlyR_bind (authorize_quiet _ _ _ _) fun granted ↦ ?_
      split
      · exact ih
      · exact onlyR_pure _

/-! ## The worker -/

/-- Everybody may read, and a read changes nothing. -/
def Reads (𝒟 : Discipline (World.answer D)) : Prop :=
  ∀ w r, 𝒟.guard w (.read r)

variable {𝒟 : Discipline (World.answer D)} {w : World γ}

theorem Reads.ignores (h : Reads 𝒟) : 𝒟.Ignores fun r ↦ ∃ read, r = .read read := by
  refine ⟨?_, ?_⟩
  · rintro t r ⟨read, rfl⟩
    exact h t read
  · rintro r c t ⟨read, rfl⟩
    exact World.answer_read read

/-- The worker is safe when what it performs is, for every subject it may find and every
space the tenant serves. -/
theorem executeOperation_safe (hreads : Reads 𝒟) {tenantId id : Uuid} {op : FileOperation}
    {post : Except Unit Outcome → World γ → Prop} (hw : 𝒟.inv w)
    (hraise : ∀ e t, 𝒟.inv t → post (.error e) t)
    (hcancel : ∀ reason t, 𝒟.inv t → post (.ok (.cancelled, reason)) t)
    (hperform : ∀ ctx spaceId space t, 𝒟.inv t → 𝒟.le w t → op.storageSpaceId = some spaceId →
      getSpace spaceId t.db = some space → spaceMismatch op space = none →
      𝒟.SafeR (performOperation tenantId id op ctx spaceId space) post t) :
    𝒟.SafeR (executeOperation tenantId id op) post w := by
  unfold executeOperation
  split
  · exact safe_return fun t ht _ ↦ hcancel _ t ht
  rename_i spaceId hspaceId
  refine (validateDelayedSubject_quiet _ _ _ _ _).safe_bind hreads.ignores hw
    (fun e t ht _ ↦ hraise e t ht) fun subject ↦ ?_
  split
  · exact safe_return fun t ht _ ↦ hcancel _ t ht
  split
  · exact safe_raise fun t ht _ ↦ hraise _ t ht
  rename_i ctx _
  refine safe_call_bind fun t ht hle ↦ ⟨hreads t _, fun c ↦ ?_⟩
  rw [World.answer_read]
  split
  · rename_i found hfound
    obtain rfl := World.answer_getSpace hfound
    split
    · exact safe_return fun t ht _ ↦ hcancel _ t ht
    rename_i space hspace
    split
    · exact safe_return fun t ht _ ↦ hcancel _ t ht
    · rename_i hmismatch
      exact hperform ctx spaceId space t ht hle hspaceId hspace hmismatch
  · exact fun t' ht' _ ↦ hraise _ t' ht'

end S3mp
