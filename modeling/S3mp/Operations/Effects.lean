import S3mp.Operations.Occupation
import S3mp.Operations.WorkerRules

/-!
# What a successful delivery has done

An accepted operation names the objects it is to remove and those it is to
create.  A delivery touches no other object, and when it reports success, those to
be removed are gone and those to be created are there.
-/

namespace S3mp

open Relational Files Storage Transition

/-- An operation as it was accepted, with the file rows it was accepted for and those it made. -/
structure Acceptance where
  tenantId : Uuid
  id : Uuid
  spaceId : Uuid
  space : StorageSpace
  op : FileOperation
  sources : List (Uuid × FileObject)
  results : List (Uuid × FileObject)
  inSpace : op.storageSpaceId = some spaceId
  distinct : op.operationType ≠ .delete → op.sourceKey ≠ op.destinationKey

namespace Acceptance

variable {γ : Type} (A : Acceptance) (D : Digest γ)

def target (key : String) : Option ProviderTarget :=
  deriveProviderTarget A.tenantId A.spaceId A.space key

def removedKeys : List String :=
  match A.op.operationType with
  | .rename | .move => (truthy A.op.sourceKey).toList
  | .delete => A.op.keys
  | .copy => []

def createdKeys : List String :=
  match A.op.operationType with
  | .delete => []
  | _ => (truthy A.op.destinationKey).toList

def Removed (t : ProviderTarget) : Prop :=
  ∃ key ∈ A.removedKeys, A.target key = some t

def Created (t : ProviderTarget) : Prop :=
  ∃ key ∈ A.createdKeys, A.target key = some t

/-- Between acceptance and settlement: the rows the operation still occupies are those it was
accepted for, as they were. -/
structure Underway (db : Db) : Prop where
  consistent : Consistent db
  space : db.spaces.lookup A.spaceId = some A.space
  operation : ∃ op, db.operations.lookup A.id = some op ∧ op.order = A.op.order
  rows : ∀ j f', db.files.lookup j = some f' → f'.activeOperationId = some A.id →
    ∃ f, (j, f) ∈ A.sources ++ A.results ∧ f'.core = f.core

/-- What is gone stays gone and what is there stays there. -/
structure Later (w w' : World γ) : Prop where
  removed : ∀ t, A.Removed t → w.objects t = none → w'.objects t = none
  created : ∀ t, A.Created t → (w.objects t).isSome → (w'.objects t).isSome

def Touches : WorkerRequest → Prop
  | .copy _ d => A.Created d
  | .delete t => A.Removed t
  | _ => True

/-- The provider's side of a finished operation. -/
structure Finished (w : World γ) : Prop where
  removed : ∀ t, A.Removed t → w.objects t = none
  created : ∀ t, A.Created t → (w.objects t).isSome

variable {A D} {w w' : World γ}

theorem mem_truthy {value : Option String} {key : String} :
    key ∈ (truthy value).toList ↔ value = some key ∧ key ≠ "" := by
  simp [truthy]

/-- No object is to be removed and to be created. -/
theorem not_created {t : ProviderTarget} (h : A.Removed t) : ¬ A.Created t := by
  rintro ⟨destination, hdestination, htarget'⟩
  obtain ⟨source, hsource, htarget⟩ := h
  have hkind : A.op.operationType ≠ .delete := by
    intro hkind
    simp [createdKeys, hkind] at hdestination
  have hsourceKey : source ∈ (truthy A.op.sourceKey).toList := by
    unfold removedKeys at hsource
    split at hsource
    · exact hsource
    · exact hsource
    · rename_i hdelete
      exact absurd hdelete hkind
    · cases hsource
  have hdestinationKey : destination ∈ (truthy A.op.destinationKey).toList := by
    unfold createdKeys at hdestination
    split at hdestination
    · cases hdestination
    · exact hdestination
  rw [mem_truthy] at hsourceKey hdestinationKey
  obtain rfl := deriveProviderTarget_inj hsourceKey.2 hdestinationKey.2 htarget htarget'
  exact A.distinct hkind (hsourceKey.1.trans hdestinationKey.1.symm)

theorem Underway.advance {db : Db} (h : A.Underway db) (c : OpCmd) :
    A.Underway (advance opExec db c) := by
  have hframed := advance_framed h.consistent c
  have hspaces : (Transition.advance opExec db c).spaces = db.spaces :=
    advance_preserves (I := fun s ↦ s.spaces = db.spaces) rfl fun _ hexec ↦ opExec_spaces hexec
  obtain ⟨op, hop, horder⟩ := h.operation
  refine ⟨hframed.consistent, hspaces ▸ h.space, ?_, fun j f' hf' hheld ↦ ?_⟩
  · obtain ⟨op', hop', horder'⟩ := hframed.order A.id op hop
    exact ⟨op', hop', horder'.trans horder⟩
  · obtain ⟨f, hf, hfheld, hcore⟩ := hframed.heldBack A.id (AList.mem_of_lookup hop) j f' hf' hheld
    obtain ⟨f₀, hmem, hcore₀⟩ := h.rows j f hf hfheld
    exact ⟨f₀, hmem, hcore.trans hcore₀⟩

theorem Later.refl (w : World γ) : A.Later w w :=
  ⟨fun _ _ h ↦ h, fun _ _ h ↦ h⟩

theorem Later.trans {w'' : World γ} (h : A.Later w w') (h' : A.Later w' w'') : A.Later w w'' :=
  ⟨fun t ht hnone ↦ h'.removed t ht (h.removed t ht hnone),
    fun t ht hsome ↦ h'.created t ht (h.created t ht hsome)⟩

theorem later_of_objects (h : w'.objects = w.objects) : A.Later w w' :=
  ⟨fun _ _ hnone ↦ h ▸ hnone, fun _ _ hsome ↦ h ▸ hsome⟩

theorem Finished.later (h : A.Finished w) (hle : A.Later w w') : A.Finished w' :=
  ⟨fun t ht ↦ hle.removed t ht (h.removed t ht), fun t ht ↦ hle.created t ht (h.created t ht)⟩

theorem later_put {t : ProviderTarget} {o : StoredObject γ} (ht : A.Created t) :
    A.Later w (w.put t o) := by
  refine ⟨fun t' ht' hnone ↦ ?_, fun t' _ hsome ↦ ?_⟩
  · have hne : t' ≠ t := by
      rintro rfl
      exact not_created ht' ht
    rwa [World.put_of_ne hne]
  · by_cases heq : t' = t
    · subst heq
      simp
    · rwa [World.put_of_ne heq]

theorem later_remove {t : ProviderTarget} (ht : A.Removed t) : A.Later w (w.remove t) := by
  refine ⟨fun t' _ hnone ↦ ?_, fun t' ht' hsome ↦ ?_⟩
  · by_cases heq : t' = t
    · subst heq
      simp
    · rwa [World.remove_of_ne heq]
  · have hne : t' ≠ t := by
      rintro rfl
      exact not_created ht ht'
    rwa [World.remove_of_ne hne]

theorem answer_later {r : WorkerRequest} {c : Choice} (hr : A.Touches r) :
    A.Later w (World.answer D r c w).2 := by
  cases r with
  | read r => exact later_of_objects (World.answer_objects (by simp) (by simp))
  | head t => exact later_of_objects (World.answer_objects (by simp) (by simp))
  | recordRenameProviderResult id etag =>
      exact later_of_objects (World.answer_objects (by simp) (by simp))
  | copy s d =>
      rcases World.answer_copy (D := D) (c := c) (w := w) s d with heq | ⟨o, -, heq⟩
      · rw [heq]
        exact .refl w
      · rw [heq]
        exact later_put hr
  | delete t =>
      rcases World.answer_delete (D := D) (c := c) (w := w) t with heq | heq
      · rw [heq]
        exact .refl w
      · rw [heq]
        exact later_remove hr

theorem Underway.answer {r : WorkerRequest} {c : Choice} (h : A.Underway w.db) :
    A.Underway (World.answer D r c w).2.db := by
  cases r with
  | read r => rwa [World.answer_read]
  | head t => exact h
  | copy s d =>
      rcases World.answer_copy (D := D) (c := c) (w := w) s d with heq | ⟨o, -, heq⟩
      · rwa [heq]
      · rw [heq]
        exact h
  | delete t =>
      rcases World.answer_delete (D := D) (c := c) (w := w) t with heq | heq
      · rwa [heq]
      · rw [heq]
        exact h
  | recordRenameProviderResult id etag =>
      simp only [World.answer]
      rcases World.effect_cases c w { w with db := recordRenameProviderResult id etag w.db } with
        heq | heq
      · rwa [heq]
      · rw [heq]
        exact h.advance (.recordRenameProviderResult id etag)

def discipline (A : Acceptance) (D : Digest γ) : Discipline (World.answer D) where
  inv w := A.Underway w.db
  le := A.Later
  guard _ := A.Touches
  le_refl := .refl
  le_trans := .trans
  keeps h hr := ⟨h.answer, answer_later hr⟩

theorem discipline_reads : Reads (A.discipline D) :=
  fun _ _ ↦ trivial

/-! ## One delivery -/

/-- Success has the given consequence in the world it is reported in and ever after. -/
def OnSuccess (goal : World γ → Prop) : Except Unit Outcome → World γ → Prop :=
  fun out t ↦ out = .ok (.succeeded, none) → goal t

theorem onSuccess_of_ne {goal : World γ → Prop} {out : Except Unit Outcome} {t : World γ}
    (h : out ≠ .ok (.succeeded, none)) : OnSuccess goal out t :=
  fun heq ↦ absurd heq h

variable {ctx : Identity.PrincipalContext} {source destination : ProviderTarget}

theorem delete_gone {c : Choice} (t : ProviderTarget)
    (hok : (World.answer D (.delete t) c w).1 = .ok ()) :
    (World.answer D (.delete t) c w).2.objects t = none := by
  simp only [World.answer, World.reply, World.effect] at hok ⊢
  split at hok
  · cases hok
  · rename_i hraises
    simp [hraises]

theorem removeSource_safe {sourceKey : String} {sourceState : Option ObjectMetadata}
    (hw : A.Underway w.db) (hsource : A.Removed source)
    (hgone : sourceState = none → w.objects source = none) :
    (A.discipline D).SafeR (removeSource ctx A.spaceId sourceKey source sourceState)
      (OnSuccess fun t ↦ t.objects source = none) w := by
  unfold removeSource
  split
  · rename_i hnone
    exact safe_return fun t _ hle _ ↦ hle.removed source hsource (hgone (by simpa using hnone))
  refine (authorize_quiet _ _ _ _).safe_bind discipline_reads.ignores hw
    (fun e t _ _ ↦ onSuccess_of_ne (by simp)) fun granted ↦ ?_
  split
  · exact safe_return fun t _ _ ↦ onSuccess_of_ne (by simp)
  refine safe_tryCatch (safe_call_bind fun t ht _ ↦ ⟨hsource, fun c ↦ ?_⟩) hw
  split
  · rename_i hok
    have hnone := delete_gone source hok
    exact safe_return fun t' _ hle t'' _ hle' _ ↦
      hle'.removed source hsource (hle.removed source hsource hnone)
  · exact fun t' _ _ ↦ safe_return fun t'' _ _ ↦ onSuccess_of_ne (by simp)

theorem ensureCopied_safe {sourceState destinationState : Option ObjectMetadata}
    (hdestination : A.Created destination)
    (hfound : destinationState.isSome → (w.objects destination).isSome) :
    (A.discipline D).SafeR (ensureCopied source destination sourceState destinationState)
      (fun out t ↦ match out with
        | .ok (.ok _) => (t.objects destination).isSome
        | .ok (.error outcome) => outcome ≠ (.succeeded, none)
        | .error _ => True) w := by
  unfold ensureCopied
  split
  · exact safe_return fun t _ hle ↦ hle.created destination hdestination (hfound rfl)
  split
  · exact safe_return fun _ _ _ ↦ by simp
  refine safe_call_bind fun t ht _ ↦ ⟨hdestination, fun c ↦ ?_⟩
  split
  · refine safe_call_bind fun t' ht' _ ↦ ⟨trivial, fun c' ↦ ?_⟩
    split
    · rename_i found hfound
      obtain rfl := World.answer_head hfound
      have hsame : (World.answer D (.head destination) c' t').2 = t' := rfl
      rw [hsame]
      split
      · exact safe_return fun _ _ _ ↦ by simp
      · rename_i copied hcopied
        refine safe_return fun u _ hle ↦ hle.created destination hdestination ?_
        obtain ⟨o, ho, -⟩ := Option.map_eq_some_iff.mp hcopied
        simp [ho]
    · exact fun _ _ _ ↦ trivial
  · exact fun _ _ _ ↦ trivial

theorem recordResult_safe {id : Uuid} {op : FileOperation} {copied : ObjectMetadata} :
    (A.discipline D).SafeR (recordResult id op copied) (fun _ t ↦ A.Later w t) w := by
  unfold recordResult
  split
  · refine fun t _ hle ↦ ⟨trivial, fun c t' _ hle' ↦ hle.trans (Later.trans ?_ hle')⟩
    exact answer_later (r := .recordRenameProviderResult id copied.etag) trivial
  · exact safe_return fun t _ hle ↦ hle

theorem acceptCopy_safe {id : Uuid} {op : FileOperation} {sourceKey : String}
    {sourceState : Option ObjectMetadata} {copied : ObjectMetadata} (hw : A.Underway w.db)
    (hsource : op.operationType ≠ .copy → A.Removed source)
    (hgone : op.operationType ≠ .copy → sourceState = none → w.objects source = none) :
    (A.discipline D).SafeR (acceptCopy id op ctx A.spaceId sourceKey source sourceState copied)
      (OnSuccess fun t ↦ op.operationType ≠ .copy → t.objects source = none) w := by
  unfold acceptCopy
  split
  · exact safe_return fun t _ _ ↦ onSuccess_of_ne (by simp)
  refine Discipline.SafeR.bind (Discipline.Safe.consequence recordResult_safe ?_) hw
  intro out t ht hlater
  split
  · split
    · rename_i hcopy
      exact safe_return fun _ _ _ _ hnot ↦ absurd hcopy hnot
    · rename_i hkind
      refine Discipline.Safe.consequence (removeSource_safe ht (hsource hkind)
        fun hnone ↦ hlater.removed source (hsource hkind) (hgone hkind hnone)) ?_
      exact fun out u _ hsuccess heq _ ↦ hsuccess heq
  · exact fun t' _ _ ↦ onSuccess_of_ne (by simp)

theorem transferObject_safe {id : Uuid} {op : FileOperation} {sourceKey : String}
    (hdestination : A.Created destination)
    (hsource : op.operationType ≠ .copy → A.Removed source) :
    (A.discipline D).SafeR (transferObject id op ctx A.spaceId sourceKey source destination)
      (OnSuccess fun t ↦ (t.objects destination).isSome ∧
        (op.operationType ≠ .copy → t.objects source = none)) w := by
  unfold transferObject
  refine safe_call_bind fun t ht _ ↦ ⟨trivial, fun c ↦ ?_⟩
  split
  rotate_left
  · exact fun _ _ _ ↦ onSuccess_of_ne (by simp)
  rename_i sourceState hseen
  obtain rfl := World.answer_head hseen
  refine safe_call_bind fun t' ht' hle ↦ ⟨trivial, fun c' ↦ ?_⟩
  split
  rotate_left
  · exact fun _ _ _ ↦ onSuccess_of_ne (by simp)
  rename_i destinationState hseen'
  obtain rfl := World.answer_head hseen'
  have hhead : (World.answer D (.head source) c t).2 = t := rfl
  have hhead' : (World.answer D (.head destination) c' t').2 = t' := rfl
  rw [hhead] at hle
  rw [hhead']
  have hgone : op.operationType ≠ .copy → (t.objects source).map D.metadata = none →
      t'.objects source = none :=
    fun hkind hnone ↦ hle.removed source (hsource hkind) (by simpa using hnone)
  refine Discipline.SafeR.bind (Discipline.Safe.consequence (Discipline.Safe.remember
    (ensureCopied_safe hdestination fun hsome ↦ by simpa using hsome) (.refl t') ht') ?_) ht'
  rintro out u hu ⟨hlater, hcopied⟩
  split
  · split
    · exact safe_return fun _ _ _ ↦ onSuccess_of_ne (by simpa using hcopied)
    · refine Discipline.Safe.consequence (Discipline.Safe.remember
        (acceptCopy_safe hu hsource fun hkind hnone ↦
          hlater.removed source (hsource hkind) (hgone hkind hnone)) (.refl u) hu) ?_
      exact fun out v _ ⟨hlater, hsuccess⟩ heq ↦
        ⟨hlater.created destination hdestination hcopied, hsuccess heq⟩
  · exact fun _ _ _ ↦ onSuccess_of_ne (by simp)

theorem deleteKeys_safe {keys : List String} (hw : A.Underway w.db)
    (hkeys : ∀ key ∈ keys, ∀ t, A.target key = some t → A.Removed t) :
    (A.discipline D).SafeR (deleteKeys A.tenantId ctx A.spaceId A.space keys)
      (OnSuccess fun u ↦ ∀ key ∈ keys, ∀ t, A.target key = some t → u.objects t = none) w := by
  induction keys generalizing w with
  | nil => exact safe_return fun _ _ _ _ key hkey ↦ by cases hkey
  | cons key keys ih =>
      unfold deleteKeys
      refine (authorize_quiet _ _ _ _).safe_bind discipline_reads.ignores hw
        (fun e t _ _ ↦ onSuccess_of_ne (by simp)) fun granted ↦ ?_
      split
      · exact safe_return fun t _ _ ↦ onSuccess_of_ne (by simp)
      split
      · exact safe_return fun t _ _ ↦ onSuccess_of_ne (by simp)
      rename_i target htarget
      have hremoved : A.Removed target := hkeys key List.mem_cons_self target htarget
      refine safe_call_bind fun t ht _ ↦ ⟨hremoved, fun c ↦ ?_⟩
      have hdeleted := delete_gone (D := D) (c := c) (w := t) target
      split
      · rename_i hok
        have ht' : A.Underway (World.answer D (.delete target) c t).2.db := ht.answer
        refine Discipline.Safe.consequence (Discipline.Safe.remember (ih ht' fun key' hkey' ↦
          hkeys key' (List.mem_cons_of_mem key hkey')) (.refl _) ht') ?_
        rintro out u _ ⟨hlater, hsuccess⟩ heq key' hkey' t' ht''
        rcases List.mem_cons.mp hkey' with rfl | hkey'
        · obtain rfl : target = t' := Option.some.inj (htarget.symm.trans ht'')
          exact hlater.removed target hremoved (hdeleted hok)
        · exact hsuccess heq key' hkey' t' ht''
      · exact fun _ _ _ ↦ onSuccess_of_ne (by simp)

variable {op : FileOperation}

theorem performTransfer_safe (hop : op.SameOrder A.op) (hkind : op.operationType ≠ .delete)
    {id : Uuid} (hw : A.Underway w.db) :
    (A.discipline D).SafeR (performTransfer A.tenantId id op ctx A.spaceId A.space)
      (OnSuccess A.Finished) w := by
  unfold performTransfer
  split
  rotate_left
  · exact safe_return fun t _ _ ↦ onSuccess_of_ne (by simp)
  rename_i sourceKey destinationKey hsourceKey hdestinationKey
  refine (authorizeAll_quiet _ _ _).safe_bind discipline_reads.ignores hw
    (fun e t _ _ ↦ onSuccess_of_ne (by simp)) fun granted ↦ ?_
  split
  · exact safe_return fun t _ _ ↦ onSuccess_of_ne (by simp)
  split
  rotate_left
  · exact safe_return fun t _ _ ↦ onSuccess_of_ne (by simp)
  rename_i source destination hsource hdestination
  rw [hop.sourceKey] at hsourceKey
  rw [hop.destinationKey] at hdestinationKey
  rw [hop.operationType] at hkind
  have hcreated : A.createdKeys = [destinationKey] := by
    unfold createdKeys
    split
    · rename_i hdelete
      exact absurd hdelete hkind
    · rw [hdestinationKey]
      rfl
  have hremoved : A.removedKeys = if A.op.operationType = .copy then [] else [sourceKey] := by
    unfold removedKeys
    cases hk : A.op.operationType with
    | copy => rfl
    | move => simp [hsourceKey]
    | rename => simp [hsourceKey]
    | delete => exact absurd hk hkind
  have hmem : op.operationType ≠ .copy → sourceKey ∈ A.removedKeys := by
    intro hcopy
    rw [hremoved, if_neg (hop.operationType ▸ hcopy)]
    exact List.mem_singleton_self _
  refine Discipline.Safe.consequence (transferObject_safe
    ⟨destinationKey, by rw [hcreated]; exact List.mem_singleton_self _, hdestination⟩
    fun hcopy ↦ ⟨sourceKey, hmem hcopy, hsource⟩) ?_
  rintro out t _ hsuccess heq
  obtain ⟨hthere, hgone⟩ := hsuccess heq
  refine ⟨?_, ?_⟩
  · rintro t' ⟨key, hkey, htarget⟩
    rw [hremoved] at hkey
    split at hkey
    · cases hkey
    · rename_i hcopy
      obtain rfl := List.mem_singleton.mp hkey
      obtain rfl : source = t' := Option.some.inj (hsource.symm.trans htarget)
      exact hgone (hop.operationType ▸ hcopy)
  · rintro t' ⟨key, hkey, htarget⟩
    rw [hcreated] at hkey
    obtain rfl := List.mem_singleton.mp hkey
    obtain rfl : destination = t' := Option.some.inj (hdestination.symm.trans htarget)
    exact hthere

theorem performOperation_safe (hop : op.SameOrder A.op) {id : Uuid} (hw : A.Underway w.db) :
    (A.discipline D).SafeR (performOperation A.tenantId id op ctx A.spaceId A.space)
      (OnSuccess A.Finished) w := by
  unfold performOperation
  have hbody : (A.discipline D).SafeR (if op.operationType = .delete then
      deleteKeys A.tenantId ctx A.spaceId A.space op.keys
      else performTransfer A.tenantId id op ctx A.spaceId A.space) (OnSuccess A.Finished) w := by
    split
    · rename_i hdelete
      have hkeys : A.removedKeys = op.keys := by
        simp [removedKeys, ← hop.operationType, hdelete, hop.keys]
      refine Discipline.Safe.consequence (deleteKeys_safe hw fun key hkey t ht ↦
        ⟨key, hkeys ▸ hkey, ht⟩) ?_
      rintro out t _ hsuccess heq
      refine ⟨?_, ?_⟩
      · rintro t' ⟨key, hkey, htarget⟩
        exact hsuccess heq key (hkeys ▸ hkey) t' htarget
      · rintro t' ⟨key, hkey, -⟩
        simp [createdKeys, ← hop.operationType, hdelete] at hkey
    · rename_i hkind
      exact performTransfer_safe hop hkind hw
  refine safe_tryCatch (Discipline.Safe.consequence hbody ?_) hw
  intro out t _ hsuccess
  split
  · rename_i outcome
    exact fun t' _ hle heq ↦ (hsuccess (by simpa using heq)).later hle
  · exact safe_return fun t' _ _ ↦ onSuccess_of_ne (by simp)

/-- When a delivery reports success, the provider's side of the operation is finished. -/
theorem executeOperation_safe (hop : op.order = A.op.order) {id : Uuid} (hw : A.Underway w.db) :
    (A.discipline D).SafeR (executeOperation A.tenantId id op) (OnSuccess A.Finished) w := by
  have hsame := FileOperation.sameOrder hop
  refine S3mp.executeOperation_safe discipline_reads hw
    (fun e t _ ↦ onSuccess_of_ne (by simp)) (fun reason t _ ↦ onSuccess_of_ne (by simp))
    fun ctx spaceId space t ht _ hspaceId hspace _ ↦ ?_
  obtain rfl : spaceId = A.spaceId :=
    Option.some.inj (hspaceId.symm.trans (hsame.storageSpaceId.trans A.inSpace))
  obtain rfl : space = A.space :=
    Option.some.inj ((Option.filter_eq_some_iff.mp hspace).1.symm.trans ht.space)
  exact performOperation_safe hsame ht

end Acceptance

end S3mp
