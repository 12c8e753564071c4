import S3mp.Operations.Absorbing
import S3mp.Operations.WorkerRules

/-!
# The worker and the only copy

A worker which finds an object at the destination cannot know whether an earlier
attempt put it there.  It compares lengths, for a rename also the accepted length
and the checksums it has, and takes the source away when nothing differs.  As
long as these tell the accepted source from whatever else is at the destination,
no attempt, however interrupted or repeated, deletes the source before the
destination holds its bytes.
-/

namespace S3mp

open Relational Files Storage Transition Authorization

variable {γ : Type}

/-- A rename or a move as it was accepted, with the object its source was then. -/
structure Transfer (γ : Type) where
  tenantId : Uuid
  id : Uuid
  op : FileOperation
  source : ProviderTarget
  destination : ProviderTarget
  accepted : StoredObject γ
  distinct : source ≠ destination

namespace Transfer

variable (T : Transfer γ) (D : Digest γ)

/-- The destination holds the bytes of the accepted source. -/
def HoldsCopy (w : World γ) : Prop :=
  ∃ o, w.objects T.destination = some o ∧ o.content = T.accepted.content

/-- The worker's comparison tells the accepted source from other bytes at the destination. -/
def Distinguished (w : World γ) : Prop :=
  ∀ o, w.objects T.destination = some o →
    copyMismatch T.op (some (D.metadata T.accepted)) (D.metadata o) = none →
    o.content = T.accepted.content

/-- The keys of the operation lie at the targets, in whatever space serves them. -/
def Located (w : World γ) : Prop :=
  ∀ spaceId space, T.op.storageSpaceId = some spaceId → w.db.spaces.lookup spaceId = some space →
    (∀ key t, truthy T.op.sourceKey = some key →
      deriveProviderTarget T.tenantId spaceId space key = some t → t = T.source) ∧
    (∀ key t, truthy T.op.destinationKey = some key →
      deriveProviderTarget T.tenantId spaceId space key = some t → t = T.destination)

structure Kept (w : World γ) : Prop where
  located : T.Located w
  source : w.objects T.source = some T.accepted ∨
    (w.objects T.source = none ∧ T.HoldsCopy w)
  distinguished : T.Distinguished D w

/-- What a delivery may ask: it copies from the source to the destination, and deletes the
source only where a copy is. -/
def Guard (w : World γ) : WorkerRequest → Prop
  | .copy s d => s = T.source ∧ d = T.destination
  | .delete t => t = T.source ∧ T.HoldsCopy w
  | _ => True

variable {T D} {w w' : World γ}

theorem holdsCopy_congr (h : w'.objects T.destination = w.objects T.destination) :
    T.HoldsCopy w' ↔ T.HoldsCopy w := by
  rw [HoldsCopy, HoldsCopy, h]

theorem Kept.congr (h : T.Kept D w) (hspaces : w'.db.spaces = w.db.spaces)
    (hsource : w'.objects T.source = w.objects T.source)
    (hdestination : w'.objects T.destination = w.objects T.destination) : T.Kept D w' := by
  refine ⟨?_, ?_, ?_⟩
  · intro spaceId space hspaceId hspace
    exact h.located spaceId space hspaceId (hspaces ▸ hspace)
  · rw [hsource, holdsCopy_congr hdestination]
    exact h.source
  · intro o ho
    exact h.distinguished o (hdestination ▸ ho)

theorem Kept.of_objects (h : T.Kept D w) (hspaces : w'.db.spaces = w.db.spaces)
    (hobjects : w'.objects = w.objects) : T.Kept D w' :=
  h.congr hspaces (by rw [hobjects]) (by rw [hobjects])

/-- A copy of the source makes the destination hold it. -/
theorem Kept.copied (h : T.Kept D w) {o : StoredObject γ} (ho : w.objects T.source = some o)
    (attributes : Attributes) :
    T.Kept D (w.put T.destination ⟨o.content, attributes⟩) ∧
      T.HoldsCopy (w.put T.destination ⟨o.content, attributes⟩) := by
  have hcontent : o = T.accepted := by
    rcases h.source with hsource | ⟨hsource, -⟩
    · exact Option.some.inj (ho.symm.trans hsource)
    · rw [hsource] at ho
      cases ho
  subst hcontent
  refine ⟨⟨h.located, Or.inl ?_, fun o' ho' _ ↦ ?_⟩, _, World.put_self, rfl⟩
  · rw [World.put_of_ne T.distinct, ho]
  · rw [World.put_self] at ho'
    exact (Option.some.inj ho').symm ▸ rfl

theorem Kept.removed (h : T.Kept D w) (hcopy : T.HoldsCopy w) : T.Kept D (w.remove T.source) := by
  have hdestination : (w.remove T.source).objects T.destination = w.objects T.destination :=
    World.remove_of_ne T.distinct.symm
  refine ⟨h.located, Or.inr ⟨World.remove_self, (holdsCopy_congr hdestination).mpr hcopy⟩, ?_⟩
  intro o ho
  exact h.distinguished o (hdestination ▸ ho)

/-- Every allowed request keeps the accepted bytes, whatever the provider makes of it. -/
theorem Kept.answer {r : WorkerRequest} {c : Choice} (h : T.Kept D w) (hr : T.Guard w r) :
    T.Kept D (World.answer D r c w).2 ∧ (T.HoldsCopy w → T.HoldsCopy (World.answer D r c w).2) := by
  have hspaces := World.answer_spaces (D := D) (c := c) (w := w) r
  have hobjects : (World.answer D r c w).2.objects = w.objects →
      T.Kept D (World.answer D r c w).2 ∧
        (T.HoldsCopy w → T.HoldsCopy (World.answer D r c w).2) := by
    intro hsame
    exact ⟨h.of_objects hspaces hsame, (holdsCopy_congr (by rw [hsame])).mpr⟩
  cases r with
  | read r => exact hobjects (World.answer_objects (by simp) (by simp))
  | head t => exact hobjects (World.answer_objects (by simp) (by simp))
  | recordRenameProviderResult id etag =>
      exact hobjects (World.answer_objects (by simp) (by simp))
  | copy s d =>
      obtain ⟨rfl, rfl⟩ := hr
      rcases World.answer_copy (D := D) (c := c) (w := w) T.source T.destination with
        heq | ⟨o, ho, heq⟩
      · exact hobjects (by rw [heq])
      · rw [heq]
        exact ⟨(h.copied ho c.attributes).1, fun _ ↦ (h.copied ho c.attributes).2⟩
  | delete t =>
      obtain ⟨rfl, hcopy⟩ := hr
      rcases World.answer_delete (D := D) (c := c) (w := w) T.source with heq | heq
      · exact hobjects (by rw [heq])
      · rw [heq]
        exact ⟨h.removed hcopy, (holdsCopy_congr (World.remove_of_ne T.distinct.symm)).mpr⟩

/-- Deliveries of the transfer rely on a copy staying where it is. -/
def discipline (T : Transfer γ) (D : Digest γ) : Discipline (World.answer D) where
  inv := T.Kept D
  le w w' := T.HoldsCopy w → T.HoldsCopy w'
  guard := T.Guard
  le_refl _ := fun h ↦ h
  le_trans h h' := h' ∘ h
  keeps h hr := h.answer hr

theorem discipline_reads : Reads (T.discipline D) :=
  fun _ _ ↦ trivial

/-! ## One delivery -/

variable {op : FileOperation}

theorem copyMismatch_congr (hop : op.order = T.op.order) (s : Option ObjectMetadata)
    (d : ObjectMetadata) : copyMismatch op s d = copyMismatch T.op s d := by
  have hsame := FileOperation.sameOrder hop
  simp only [copyMismatch, hsame.operationType, hsame.authorizationEvidence]

/-- What a delivery has seen of the source: nothing, or the accepted object. -/
def Saw (T : Transfer γ) (D : Digest γ) (sourceState : Option ObjectMetadata) : Prop :=
  ∀ s, sourceState = some s → s = D.metadata T.accepted

/-- A destination the comparison accepts holds the copy. -/
def Verified (T : Transfer γ) (D : Digest γ) (found : ObjectMetadata) (w : World γ) : Prop :=
  copyMismatch T.op (some (D.metadata T.accepted)) found = none → T.HoldsCopy w

theorem Kept.saw (h : T.Kept D w) : T.Saw D ((w.objects T.source).map D.metadata) := by
  intro s hs
  rcases h.source with hsource | ⟨hsource, -⟩
  · rw [hsource, Option.map_some] at hs
    exact (Option.some.inj hs).symm
  · rw [hsource] at hs
    cases hs

theorem Kept.verified (h : T.Kept D w) {found : ObjectMetadata}
    (hfound : (w.objects T.destination).map D.metadata = some found) : T.Verified D found w := by
  obtain ⟨o, ho, rfl⟩ := Option.map_eq_some_iff.mp hfound
  exact fun hmatch ↦ ⟨o, ho, h.distinguished o ho hmatch⟩

theorem removeSource_safe {ctx : Identity.PrincipalContext} {spaceId : Uuid} {sourceKey : String}
    {sourceState : Option ObjectMetadata} (hw : T.Kept D w)
    (hcopy : sourceState.isSome → T.HoldsCopy w) :
    (T.discipline D).SafeR (removeSource ctx spaceId sourceKey T.source sourceState)
      (fun _ _ ↦ True) w := by
  unfold removeSource
  split
  · exact safe_return fun _ _ _ ↦ trivial
  rename_i hsome
  refine (authorize_quiet _ _ _ _).safe_bind discipline_reads.ignores hw
    (fun _ _ _ _ ↦ trivial) fun granted ↦ ?_
  split
  · exact safe_return fun _ _ _ ↦ trivial
  refine safe_tryCatch (safe_call_bind fun t ht hle ↦ ⟨⟨rfl, hle (hcopy ?_)⟩, fun c ↦ ?_⟩) hw
  · simpa [Option.isSome_iff_ne_none] using hsome
  · split
    · exact safe_return fun _ _ _ _ _ _ ↦ trivial
    · exact fun _ _ _ ↦ safe_return fun _ _ _ ↦ trivial

theorem ensureCopied_safe {sourceState destinationState : Option ObjectMetadata}
    (hdestination : ∀ found, destinationState = some found → T.Verified D found w) :
    (T.discipline D).SafeR (ensureCopied T.source T.destination sourceState destinationState)
      (fun out t ↦ ∀ found, out = .ok (.ok found) → T.Verified D found t) w := by
  unfold ensureCopied
  split
  · rename_i found
    refine safe_return fun t _ hle found' heq ↦ ?_
    cases heq
    exact fun hmatch ↦ hle (hdestination found rfl hmatch)
  split
  · exact safe_return fun _ _ _ _ heq ↦ by cases heq
  refine safe_call_bind fun t ht _ ↦ ⟨⟨rfl, rfl⟩, fun c ↦ ?_⟩
  split
  · refine safe_call_bind fun t' ht' _ ↦ ⟨trivial, fun c' ↦ ?_⟩
    split
    · rename_i found hfound
      obtain rfl := World.answer_head hfound
      have hsame : (World.answer D (.head T.destination) c' t').2 = t' := rfl
      rw [hsame]
      split
      · exact safe_return fun _ _ _ _ heq ↦ by cases heq
      · rename_i copied hcopied
        refine safe_return fun u _ hle found heq ↦ ?_
        cases heq
        exact fun hmatch ↦ hle (ht'.verified hcopied hmatch)
    · exact fun _ _ _ _ heq ↦ by cases heq
  · exact fun _ _ _ _ heq ↦ by cases heq

theorem recordResult_safe (op : FileOperation) {id : Uuid} {found : ObjectMetadata} :
    (T.discipline D).SafeR (recordResult id op found)
      (fun _ t ↦ T.HoldsCopy w → T.HoldsCopy t) w := by
  unfold recordResult
  split
  · refine fun t _ hle ↦ ⟨trivial, fun c t' _ hle' hcopy ↦ hle' ?_⟩
    exact (holdsCopy_congr (by rw [World.answer_objects (by simp) (by simp)])).mpr (hle hcopy)
  · exact safe_return fun t _ hle ↦ hle

theorem acceptCopy_safe (hop : op.order = T.op.order) {id : Uuid}
    {ctx : Identity.PrincipalContext} {spaceId : Uuid} {sourceKey : String}
    {sourceState : Option ObjectMetadata} {copied : ObjectMetadata} (hw : T.Kept D w)
    (hsaw : T.Saw D sourceState) (hverified : T.Verified D copied w) :
    (T.discipline D).SafeR
      (acceptCopy id op ctx spaceId sourceKey T.source sourceState copied) (fun _ _ ↦ True) w := by
  unfold acceptCopy
  split
  · exact safe_return fun _ _ _ ↦ trivial
  rename_i hmatch
  have hcopy : sourceState.isSome → T.HoldsCopy w := by
    intro hsome
    obtain ⟨s, hs⟩ := Option.isSome_iff_exists.mp hsome
    rw [copyMismatch_congr hop, hs, hsaw s hs] at hmatch
    exact hverified hmatch
  refine Discipline.SafeR.bind (Discipline.Safe.consequence (recordResult_safe op) ?_) hw
  intro out t ht hkept
  split
  · split
    · exact safe_return fun _ _ _ ↦ trivial
    · exact removeSource_safe ht fun hsome ↦ hkept (hcopy hsome)
  · exact fun _ _ _ ↦ trivial

theorem transferObject_safe (hop : op.order = T.op.order) {id : Uuid}
    {ctx : Identity.PrincipalContext} {spaceId : Uuid} {sourceKey : String} :
    (T.discipline D).SafeR
      (transferObject id op ctx spaceId sourceKey T.source T.destination) (fun _ _ ↦ True) w := by
  unfold transferObject
  refine safe_call_bind fun t ht _ ↦ ⟨trivial, fun c ↦ ?_⟩
  split
  rotate_left
  · exact fun _ _ _ ↦ trivial
  rename_i sourceState hsource
  obtain rfl := World.answer_head hsource
  have hsaw := ht.saw
  refine safe_call_bind fun t' ht' _ ↦ ⟨trivial, fun c' ↦ ?_⟩
  split
  rotate_left
  · exact fun _ _ _ ↦ trivial
  rename_i destinationState hdestination
  obtain rfl := World.answer_head hdestination
  refine Discipline.SafeR.bind (Discipline.Safe.consequence
    (ensureCopied_safe fun found hfound ↦ ht'.verified hfound) ?_) ht'
  intro out u hu hverified
  split
  · rename_i result
    split
    · exact safe_return fun _ _ _ ↦ trivial
    · exact acceptCopy_safe hop hu hsaw (hverified _ rfl)
  · exact fun _ _ _ ↦ trivial

theorem performOperation_safe (hop : op.order = T.op.order) (hkind : T.op.operationType ≠ .delete)
    {id : Uuid} {ctx : Identity.PrincipalContext} {spaceId : Uuid} {space : StorageSpace}
    (hw : T.Kept D w) (hspaceId : op.storageSpaceId = some spaceId)
    (hspace : w.db.spaces.lookup spaceId = some space) :
    (T.discipline D).SafeR (performOperation T.tenantId id op ctx spaceId space)
      (fun _ _ ↦ True) w := by
  have hsame := FileOperation.sameOrder hop
  obtain ⟨hsource, hdestination⟩ :=
    hw.located spaceId space (hsame.storageSpaceId ▸ hspaceId) hspace
  unfold performOperation
  rw [if_neg (by rw [hsame.operationType]; exact hkind)]
  have htransfer : (T.discipline D).SafeR
      (performTransfer T.tenantId id op ctx spaceId space) (fun _ _ ↦ True) w := by
    unfold performTransfer
    split
    · rename_i sourceKey destinationKey hs' hd'
      refine (authorizeAll_quiet _ _ _).safe_bind discipline_reads.ignores hw
        (fun _ _ _ _ ↦ trivial) fun granted ↦ ?_
      split
      · exact safe_return fun _ _ _ ↦ trivial
      split
      · rename_i source destination hs hd
        obtain rfl := hsource sourceKey source (hsame.sourceKey ▸ hs') hs
        obtain rfl := hdestination destinationKey destination (hsame.destinationKey ▸ hd') hd
        exact transferObject_safe hop
      · exact safe_return fun _ _ _ ↦ trivial
    · exact safe_return fun _ _ _ ↦ trivial
  refine safe_tryCatch (Discipline.Safe.consequence htransfer fun out t ht _ ↦ ?_) hw
  split
  · exact fun _ _ _ ↦ trivial
  · exact safe_return fun _ _ _ ↦ trivial

/-- A delivery never makes a request the discipline forbids. -/
theorem executeOperation_safe (hop : op.order = T.op.order)
    (hkind : T.op.operationType ≠ .delete) {id : Uuid} (hw : T.Kept D w) :
    (T.discipline D).SafeR (executeOperation T.tenantId id op) (fun _ _ ↦ True) w := by
  refine S3mp.executeOperation_safe discipline_reads hw (fun _ _ _ ↦ trivial)
    (fun _ _ _ ↦ trivial) fun ctx spaceId space t ht _ hspaceId hspace _ ↦ ?_
  exact performOperation_safe hop hkind ht hspaceId (Option.filter_eq_some_iff.mp hspace).1

/-! ## Every run of deliveries -/

/-- What happens beside the deliveries leaves the source alone and a copy a copy, and brings
to the destination only what can be told from the source. -/
structure Undisturbed (T : Transfer γ) (D : Digest γ) (w w' : World γ) : Prop where
  source : w'.objects T.source = w.objects T.source
  copy : T.HoldsCopy w → T.HoldsCopy w'
  distinguished : T.Distinguished D w'

/-- Deliveries of this operation start, and whatever else happens leaves it undisturbed. -/
def Permitted (T : Transfer γ) (D : Digest γ) (m : Workers γ) : WorkerEvent γ → Prop
  | .start p => ∃ id op, op.order = T.op.order ∧ p = (executeOperation T.tenantId id op).run
  | .step _ _ => True
  | .outside e => T.Undisturbed D m.world (happen e m.world)

/-- The world in which the operation was accepted: nothing has been delivered, the source is
there, and the keys lie at the targets. -/
structure AcceptedIn (T : Transfer γ) (w : World γ) : Prop where
  kind : T.op.operationType = .rename ∨ T.op.operationType = .move
  located : T.Located w
  source : w.objects T.source = some T.accepted

theorem permitted_run (hkind : T.op.operationType ≠ .delete) {m : Workers γ}
    (hm : Machine.Disciplined (T.discipline D) (fun _ _ ↦ True) m) {es : List (WorkerEvent γ)}
    (hmeets : Meets (workersExec D) (T.Permitted D) m es) :
    Machine.Disciplined (T.discipline D) (fun _ _ ↦ True) (run (workersExec D) m es) := by
  refine Machine.disciplined_run (fun m e hm he ↦ ?_) hm hmeets
  cases e with
  | start p =>
      obtain ⟨id, op, hop, rfl⟩ := he
      exact executeOperation_safe hop hkind hm.1
  | step i c => exact trivial
  | outside e =>
      refine ⟨⟨?_, ?_, he.distinguished⟩, he.copy⟩
      · intro spaceId space hspaceId hspace
        exact hm.1.located spaceId space hspaceId (happen_spaces e m.world ▸ hspace)
      · rw [he.source]
        exact hm.1.source.imp_right fun h ↦ ⟨h.1, he.copy h.2⟩

end Transfer

/-- When nothing at the destination passes for the accepted source without holding its bytes,
no interleaving of deliveries, crashes and failures deletes the source before the destination
holds them, and one of the two always does. -/
theorem never_destroys_only_copy {γ : Type} (D : Digest γ) (T : Transfer γ) {w : World γ}
    (haccepted : T.AcceptedIn w) (hdistinguished : T.Distinguished D w)
    {es : List (WorkerEvent γ)} (hmeets : Meets (workersExec D) (T.Permitted D) ⟨w, []⟩ es) :
    let m := run (workersExec D) ⟨w, []⟩ es
    (∀ i, m.requests i (.delete T.source) → T.HoldsCopy m.world) ∧
      (m.world.objects T.source = some T.accepted ∨ T.HoldsCopy m.world) := by
  intro m
  have hkind : T.op.operationType ≠ .delete := by
    rcases haccepted.kind with h | h <;> simp [h]
  have hm : Machine.Disciplined (T.discipline D) (fun _ _ ↦ True) m :=
    Transfer.permitted_run hkind
      ⟨⟨haccepted.located, Or.inl haccepted.source, hdistinguished⟩, by simp⟩ hmeets
  refine ⟨fun i hi ↦ (hm.guard hi).2, ?_⟩
  exact hm.1.source.imp_right And.right

namespace Sample

/-- Two contents of 40 bytes. -/
def digest : Digest Bool where
  size _ := 40
  header x := String.ofList (List.replicate 64 (if x then 'a' else 'b'))
  hex x := String.ofList (List.replicate 64 (if x then 'a' else 'b'))
  header_hex := by decide
  hex_injective := by decide

def attributes : Attributes := ⟨false, some "etag", none, none⟩

def moveData : OperationData where
  principalId := 3
  membershipId := some 4
  operationType := .move
  sourceKey := some "a"
  destinationKey := some "b"
  keys := []
  sourcePhysicalKey := some "ns/a"
  destinationPhysicalKey := some "ns/b"
  physicalKeys := []
  idempotencyKey := some "move-a-b"
  applicationId := some 5
  actorApplicationId := none
  storageNamespace := some "ns"
  profileVersion := 1
  authorizationVersion := 1
  providerTargetVersion := 1
  authorizationEvidence := ⟨.human, none, none, none, [], none, none⟩

def move : Transfer Bool where
  tenantId := 1
  id := 50
  op := newOperation 2 moveData "move-a-b"
  source := ⟨"bucket", "ns/a", 1⟩
  destination := ⟨"bucket", "ns/b", 1⟩
  accepted := ⟨true, attributes⟩
  distinct := by decide

/-- The stored file and, at the destination of the move, what is given. -/
def moving (found : Option (StoredObject Bool)) : World Bool where
  db := stored
  objects t := if t = move.source then some move.accepted
    else if t = move.destination then found else none

def allow (id : Uuid) (permission : String) : Binding :=
  ⟨id, permission, .allow, none, 0, 1000, "binding", none⟩

/-- The member is active and may do everything the move needs. -/
def granted : (r : SubjectRead) → r.Value
  | .now => 0
  | .getPrincipal _ => some ⟨true⟩
  | .getMembershipState _ => some ⟨3, true, 1, none, true, true, true⟩
  | .getKeyState _ => none
  | .getMembershipBinding _ => none
  | .getSpace _ => none
  | .bindingsFor .. => [allow 60 "files.read", allow 61 "files.write", allow 62 "files.delete"]

def served : Choice := ⟨false, false, attributes, granted⟩

/-- One delivery of the move makes its first `n` requests. -/
def delivered (n : ℕ) : List (WorkerEvent Bool) :=
  .start (executeOperation move.tenantId move.id move.op).run :: List.replicate n (.step 0 served)

theorem move_acceptedIn (found : Option (StoredObject Bool)) :
    move.AcceptedIn (moving found) := by
  refine ⟨Or.inr rfl, ?_, rfl⟩
  intro spaceId space hspaceId hspace
  obtain rfl := Option.some.inj hspaceId
  obtain rfl := Option.some.inj hspace
  refine ⟨fun key t hkey ht ↦ ?_, fun key t hkey ht ↦ ?_⟩
  · obtain rfl := Option.some.inj hkey
    exact Option.some.inj (ht.symm.trans (by decide))
  · obtain rfl := Option.some.inj hkey
    exact Option.some.inj (ht.symm.trans (by decide))

theorem delivered_permitted (w : World Bool) (n : ℕ) :
    Meets (workersExec digest) (move.Permitted digest) ⟨w, []⟩ (delivered n) := by
  refine ⟨⟨50, move.op, rfl, rfl⟩, ?_⟩
  generalize advance (workersExec digest) ⟨w, []⟩ _ = m
  induction n generalizing m with
  | zero => exact trivial
  | succ n ih => exact ⟨trivial, ih _⟩

end Sample

theorem never_destroys_only_copy_sample :
    let m := run (workersExec Sample.digest) ⟨Sample.moving none, []⟩ (Sample.delivered 14)
    (∀ i, m.requests i (.delete Sample.move.source) → Sample.move.HoldsCopy m.world) ∧
      (m.world.objects Sample.move.source = some Sample.move.accepted ∨
        Sample.move.HoldsCopy m.world) :=
  never_destroys_only_copy Sample.digest Sample.move (Sample.move_acceptedIn none)
    (fun _ ho ↦ by cases ho) (Sample.delivered_permitted _ 14)

/-- An object of the same length was at the destination all along. -/
theorem move_onto_other_content : ¬ ∀ (γ : Type) (D : Digest γ) (T : Transfer γ) (w : World γ)
    (es : List (WorkerEvent γ)), T.AcceptedIn w →
      Meets (workersExec D) (T.Permitted D) ⟨w, []⟩ es →
      ∀ i, (run (workersExec D) ⟨w, []⟩ es).requests i (.delete T.source) →
        T.HoldsCopy (run (workersExec D) ⟨w, []⟩ es).world := by
  intro h
  have hcopy := h Bool Sample.digest Sample.move
    (Sample.moving (some ⟨false, Sample.attributes⟩)) (Sample.delivered 12)
    (Sample.move_acceptedIn _) (Sample.delivered_permitted _ 12) 0 ⟨_, rfl⟩
  obtain ⟨o, ho, hcontent⟩ := hcopy
  have hother : some o = some (⟨false, Sample.attributes⟩ : StoredObject Bool) := ho.symm.trans rfl
  rw [Option.some.inj hother] at hcontent
  cases hcontent

end S3mp
