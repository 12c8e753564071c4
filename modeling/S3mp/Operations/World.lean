import S3mp.Files.OperationWorker
import S3mp.Operations.Deliveries

/-!
# The world of the operation worker

The database of the tenant and the objects of the provider.  The provider may
refuse any call, also after having carried it out, decides which attributes a
copy gets, and reports a checksum only of an object stored with one; a checksum
it reports is that of the content.  What the worker learns of its subject is left
open.
-/

namespace S3mp

open Relational Files Storage Transition

/-- Contents with a size and a digest that tells them apart. -/
structure Digest (γ : Type) where
  size : γ → ℕ
  /-- The text of the `ChecksumSHA256` header. -/
  header : γ → String
  hex : γ → String
  header_hex : ∀ x, providerChecksumToHex (some (header x)) = some (hex x)
  hex_injective : ∀ {x y}, hex x = hex y → x = y

structure Attributes where
  checksummed : Bool
  etag : Option String
  contentType : Option String
  versionId : Option String
  deriving DecidableEq, Repr

structure StoredObject (γ : Type) where
  content : γ
  attributes : Attributes
  deriving DecidableEq, Repr

/-- What `head` returns of an object. -/
def Digest.metadata {γ : Type} (D : Digest γ) (o : StoredObject γ) : ObjectMetadata where
  contentLength := D.size o.content
  etag := o.attributes.etag
  contentType := o.attributes.contentType
  versionId := o.attributes.versionId
  checksumSha256 :=
    providerChecksumToHex (if o.attributes.checksummed then some (D.header o.content) else none)

structure World (γ : Type) where
  db : Db
  objects : ProviderTarget → Option (StoredObject γ)

/-- What is decided outside about one request: whether it raises, whether it has its effect
although it raises, the attributes a copy gets, and the answers of the subject stores. -/
structure Choice where
  raises : Bool
  takesEffect : Bool
  attributes : Attributes
  subjects : (r : SubjectRead) → r.Value

/-- The rows `get_space` joins: the space is served while it, its application and the tenant
are active. -/
def getSpace (spaceId : Uuid) (db : Db) : Option StorageSpace :=
  (db.spaces.lookup spaceId).filter fun space ↦ space.active && db.tenantActive &&
    space.storageNamespace.isSome &&
    (space.applicationId.bind db.applications.lookup).any (·.status = .active)

variable {γ : Type} (D : Digest γ)

namespace World

def put (t : ProviderTarget) (o : StoredObject γ) (w : World γ) : World γ :=
  { w with objects := Function.update w.objects t (some o) }

def remove (t : ProviderTarget) (w : World γ) : World γ :=
  { w with objects := Function.update w.objects t none }

/-- A value, unless the request raises. -/
def reply {α : Type} (c : Choice) (a : α) : Except Unit α :=
  if c.raises then .error () else .ok a

/-- The world after an effect, which a raise may have prevented. -/
def effect (c : Choice) (w w' : World γ) : World γ :=
  if c.raises && !c.takesEffect then w else w'

def answer : (r : WorkerRequest) → Choice → World γ → Except Unit r.Value × World γ
  | .read (.getSpace spaceId), c, w => (reply c (S3mp.getSpace spaceId w.db), w)
  | .read r, c, w => (reply c (c.subjects r), w)
  | .head t, c, w => (reply c ((w.objects t).map D.metadata), w)
  | .copy s d, c, w =>
    match w.objects s with
    | none => (.error (), w)
    | some o => (reply c (), effect c w (w.put d ⟨o.content, c.attributes⟩))
  | .delete t, c, w => (reply c (), effect c w (w.remove t))
  | .recordRenameProviderResult id etag, c, w =>
    (reply c (), effect c w { w with db := recordRenameProviderResult id etag w.db })

variable {D} {w : World γ} {c : Choice}

theorem answer_read (r : SubjectRead) : (answer D (.read r) c w).2 = w := by
  cases r <;> rfl

theorem answer_getSpace {spaceId : Uuid} {x : Option StorageSpace}
    (h : (answer D (.read (.getSpace spaceId)) c w).1 = .ok x) : x = S3mp.getSpace spaceId w.db := by
  simp only [answer, reply] at h
  split at h
  · cases h
  · exact (Except.ok.inj h).symm

theorem answer_head {t : ProviderTarget} {x : Option ObjectMetadata}
    (h : (answer D (.head t) c w).1 = .ok x) : x = (w.objects t).map D.metadata := by
  simp only [answer, reply] at h
  split at h
  · cases h
  · exact (Except.ok.inj h).symm

theorem effect_cases (c : Choice) (w w' : World γ) : effect c w w' = w ∨ effect c w w' = w' := by
  unfold effect
  split
  · exact Or.inl rfl
  · exact Or.inr rfl

/-- A request other than a copy or a deletion leaves the objects alone. -/
theorem answer_objects {r : WorkerRequest} (hcopy : ∀ s d, r ≠ .copy s d)
    (hdelete : ∀ t, r ≠ .delete t) : (answer D r c w).2.objects = w.objects := by
  cases r with
  | read r => rw [answer_read]
  | head t => rfl
  | copy s d => exact absurd rfl (hcopy s d)
  | delete t => exact absurd rfl (hdelete t)
  | recordRenameProviderResult id etag =>
      simp only [answer]
      rcases effect_cases c w { w with db := recordRenameProviderResult id etag w.db } with h | h
      · rw [h]
      · rw [h]

/-- A copy puts the content of its source where it goes, or nothing happens. -/
theorem answer_copy (s d : ProviderTarget) :
    (answer D (.copy s d) c w).2 = w ∨
      ∃ o, w.objects s = some o ∧
        (answer D (.copy s d) c w).2 = w.put d ⟨o.content, c.attributes⟩ := by
  simp only [answer]
  split
  · exact Or.inl rfl
  · rename_i o ho
    rcases effect_cases c w (w.put d ⟨o.content, c.attributes⟩) with h | h
    · exact Or.inl h
    · exact Or.inr ⟨o, ho, h⟩

theorem answer_delete (t : ProviderTarget) :
    (answer D (.delete t) c w).2 = w ∨ (answer D (.delete t) c w).2 = w.remove t :=
  effect_cases c w _

@[simp] theorem put_self {t : ProviderTarget} {o : StoredObject γ} :
    (w.put t o).objects t = some o := by
  simp [put]

theorem put_of_ne {t t' : ProviderTarget} (h : t' ≠ t) {o : StoredObject γ} :
    (w.put t o).objects t' = w.objects t' := by
  simp [put, h]

@[simp] theorem remove_self {t : ProviderTarget} : (w.remove t).objects t = none := by
  simp [remove]

theorem remove_of_ne {t t' : ProviderTarget} (h : t' ≠ t) :
    (w.remove t).objects t' = w.objects t' := by
  simp [remove, h]

/-- The worker moves no storage space. -/
theorem answer_spaces (r : WorkerRequest) : (answer D r c w).2.db.spaces = w.db.spaces := by
  cases r with
  | read r => rw [answer_read]
  | head t => rfl
  | copy s d =>
      rcases answer_copy (D := D) (c := c) (w := w) s d with h | ⟨o, -, h⟩
      · rw [h]
      · rw [h]
        rfl
  | delete t =>
      rcases answer_delete (D := D) (c := c) (w := w) t with h | h
      · rw [h]
      · rw [h]
        rfl
  | recordRenameProviderResult id etag =>
      simp only [answer]
      rcases effect_cases c w { w with db := recordRenameProviderResult id etag w.db } with h | h
      · rw [h]
      · rw [h]
        exact (recordRenameProviderResult_actsFor etag).spaces

end World

/-! ## What happens beside the worker -/

/-- A command of the database commits or is rejected, or the provider's objects change. -/
inductive Outside (γ : Type) where
  | command (c : OpCmd)
  | provider (objects : ProviderTarget → Option (StoredObject γ))

def happen : Outside γ → World γ → World γ
  | .command c, w => { w with db := advance opExec w.db c }
  | .provider objects, w => { w with objects }

theorem happen_spaces (e : Outside γ) (w : World γ) : (happen e w).db.spaces = w.db.spaces := by
  cases e with
  | command c =>
      exact advance_preserves (I := fun db ↦ db.spaces = w.db.spaces) rfl fun _ h ↦ opExec_spaces h
  | provider objects => rfl

/-- Deliveries of the worker over one world, each making its requests at any time. -/
abbrev Workers (γ : Type) :=
  Machine (fun r : WorkerRequest ↦ Except Unit r.Value) (Except Unit Outcome) (World γ)

abbrev WorkerEvent (γ : Type) :=
  Machine.Event (fun r : WorkerRequest ↦ Except Unit r.Value) (Except Unit Outcome) Choice
    (Outside γ)

abbrev workersExec (D : Digest γ) : WorkerEvent γ → Workers γ → Except Unit (Workers γ) :=
  Machine.exec (World.answer D) happen

end S3mp
