import S3mp.Files.DeletedRows
import S3mp.Files.RetentionJobs
import S3mp.Uploads.Isolation

/-!
# The world of the jobs on deleted files

All tenants and the objects of the provider.  Between two requests of a job the other
clients may commit anything, the provider's objects may change and the clock may be
set, so that jobs on different machines need not agree about the time.  A request
may raise, also after it has had its effect.
-/

namespace S3mp

open Relational Files Platform Storage Transition

structure RetentionWorld (γ : Type) where
  tenants : Uuid → Tenant
  objects : ProviderTarget → Option (StoredObject γ)
  clock : Timestamp

/-- What is decided outside about one request. -/
structure RetentionChoice where
  raises : Option Raised
  takesEffect : Bool
  attributes : Attributes
  subjects : (r : SubjectRead) → r.Value
  /-- The rows in the order in which the database lists them, by tenant and file. -/
  listed : List (Uuid × Uuid)
  /-- What Redis takes out of the index. -/
  members : List (Uuid × Timestamp)
  /-- The tenant the claimed file belongs to. -/
  tenant : Uuid
  /-- Somebody else has locked the row. -/
  locked : Bool

namespace RetentionWorld

variable {γ : Type} (D : Digest γ)

def database (tenantId : Uuid) (w : RetentionWorld γ) : Db :=
  (w.tenants tenantId).db

def setTenant (tenantId : Uuid) (t : Tenant) (w : RetentionWorld γ) : RetentionWorld γ :=
  { w with tenants := Function.update w.tenants tenantId t }

def put (target : ProviderTarget) (o : StoredObject γ) (w : RetentionWorld γ) : RetentionWorld γ :=
  { w with objects := Function.update w.objects target (some o) }

def remove (target : ProviderTarget) (w : RetentionWorld γ) : RetentionWorld γ :=
  { w with objects := Function.update w.objects target none }

/-- A value, unless the request raises. -/
def reply {α : Type} (c : RetentionChoice) (a : α) : Except Raised α :=
  match c.raises with
  | none => .ok a
  | some raised => .error raised

/-- The world after an effect, which a raise may have prevented. -/
def effect (c : RetentionChoice) (w w' : RetentionWorld γ) : RetentionWorld γ :=
  if c.raises.isSome && !c.takesEffect then w else w'

/-- A transaction of a store is committed, or is rolled back and raises. -/
def transact {α : Type} (c : RetentionChoice) (tenantId : Uuid) (cmd : Cmd) (f : cmd.Answer → α)
    (w : RetentionWorld γ) : Except Raised α × RetentionWorld γ :=
  let t := w.tenants tenantId
  match cmd.perform t.db with
  | .error e => (.error (ReconcileWorld.raised e), w)
  | .ok (a, db) =>
    match Tenant.commit t.status db with
    | .error e => (.error (ReconcileWorld.raised e), w)
    | .ok t => (reply c (f a), effect c w (w.setTenant tenantId t))

/-- The file is being deleted, and its next attempt is due. -/
def awaitsMigration (now : Timestamp) (f : FileObject) : Bool :=
  f.status = .deleting && f.deletionNextRetryAt.all (· ≤ now)

def pendingDeletion (w : RetentionWorld γ) (key : Uuid × Uuid) : Option PendingDeletion :=
  let db := w.database key.1
  ((db.files.lookup key.2).filter (awaitsMigration w.clock)).map fun f ↦
    ⟨key.1, key.2, f, (deletionOf key.2 db.deletions).map Prod.snd⟩

def answer : (r : RetentionRequest) → RetentionChoice → RetentionWorld γ →
    Except Raised r.Value × RetentionWorld γ
  | .now, c, w => (reply c w.clock, w)
  | .read _ r, c, w => (reply c (c.subjects r), w)
  | .getSpace tenantId spaceId, c, w => (reply c (S3mp.getSpace spaceId (w.database tenantId)), w)
  | .head target, c, w => (reply c ((w.objects target).map D.metadata), w)
  | .copy source destination, c, w =>
    match w.objects source with
    | none => (.error (.other "S3 object copy failed: object not found"), w)
    | some o => (reply c (), effect c w (w.put destination ⟨o.content, c.attributes⟩))
  | .delete target, c, w => (reply c (), effect c w (w.remove target))
  | .listPendingDeletions, c, w => (reply c (c.listed.filterMap w.pendingDeletion), w)
  | .recordDeleteFailure tenantId fileId n, c, w =>
    transact c tenantId (.recordDeleteFailure w.clock fileId n) id w
  | .finalizeFileTrashMigration tenantId fileId, c, w =>
    transact c tenantId (.finalizeFileTrashMigration fileId) id w
  | .zpopmin _, c, w => (reply c c.members, w)
  | .zadd .., c, w => (reply c (), w)
  | .claimRetainedFileForPurge fileId, c, w =>
    if c.locked then (reply c none, w)
    else
      transact c c.tenant (.claimRetainedFileForPurge w.clock fileId)
        (fun claimed ↦ claimed.map (⟨c.tenant, ·⟩)) w
  | .finalizeRetainedFilePurge tenantId fileId, c, w =>
    transact c tenantId (.finalizeRetainedFilePurge w.clock fileId) id w
  | .recordRetainedPurgeFailure fileId n, c, w =>
    transact c c.tenant (.recordRetainedPurgeFailure w.clock fileId n) id w

/-! ## What a request may do -/

variable {D} {w w' : RetentionWorld γ} {c : RetentionChoice}

theorem effect_cases (c : RetentionChoice) (w w' : RetentionWorld γ) :
    effect c w w' = w ∨ effect c w w' = w' := by
  unfold effect
  split
  · exact Or.inl rfl
  · exact Or.inr rfl

theorem reply_eq_ok {α : Type} {a b : α} : reply c a = .ok b ↔ c.raises = none ∧ b = a := by
  unfold reply
  split
  · rename_i h
    simp [h, eq_comm]
  · rename_i h
    simp [h]

theorem effect_of_reply {α : Type} {a b : α} (h : reply c a = .ok b) : effect c w w' = w' := by
  rw [effect, (reply_eq_ok.mp h).1]
  rfl

/-- A transaction of a job leaves everything as it is, or one tenant has carried it out. -/
inductive Transacts (tenantId : Uuid) (cmd : Cmd) (w : RetentionWorld γ) : RetentionWorld γ → Prop
  | idle : Transacts tenantId cmd w w
  | commits (t : Tenant) (h : tenantExec (.stored cmd) (w.tenants tenantId) = .ok t) :
      Transacts tenantId cmd w (w.setTenant tenantId t)

theorem tenantExec_of_perform {t t' : Tenant} {cmd : Cmd} {a : cmd.Answer} {db : Db}
    (hperform : cmd.perform t.db = .ok (a, db)) (hcommit : Tenant.commit t.status db = .ok t') :
    tenantExec (.stored cmd) t = .ok t' :=
  Except.bind_eq_ok.mpr ⟨db, exec_eq_ok.mpr ⟨a, hperform⟩, hcommit⟩

theorem transact_transacts {α : Type} {tenantId : Uuid} {cmd : Cmd} {f : cmd.Answer → α} :
    Transacts tenantId cmd w (transact c tenantId cmd f w).2 := by
  unfold transact
  dsimp only
  split
  · exact .idle
  rename_i a db hperform
  split
  · exact .idle
  rename_i t hcommit
  rcases effect_cases c w (w.setTenant tenantId t) with h | h
  · rw [h]
    exact .idle
  · rw [h]
    exact .commits t (tenantExec_of_perform hperform hcommit)

/-- What a transaction returns comes of its having been carried out. -/
theorem transact_eq_ok {α : Type} {tenantId : Uuid} {cmd : Cmd} {f : cmd.Answer → α} {x : α}
    (h : (transact c tenantId cmd f w).1 = .ok x) :
    ∃ a db t, cmd.perform (w.database tenantId) = .ok (a, db) ∧
      tenantExec (.stored cmd) (w.tenants tenantId) = .ok t ∧ x = f a ∧
      t.db = { db with tenantActive := decide (t.status = .active) } ∧
      (transact c tenantId cmd f w).2 = w.setTenant tenantId t := by
  unfold transact at h ⊢
  dsimp only at h ⊢
  split at h
  · cases h
  rename_i a db hperform
  split at h
  · cases h
  rename_i t hcommit
  obtain ⟨hstatus, hdb⟩ := Tenant.commit_eq_ok hcommit
  refine ⟨a, db, t, hperform, tenantExec_of_perform hperform hcommit, (reply_eq_ok.mp h).2,
    hstatus ▸ hdb, effect_of_reply h⟩

/-- The requests which are transactions on deleted files, with the tenant they concern. -/
def commandOf (c : RetentionChoice) (w : RetentionWorld γ) : RetentionRequest → Option (Uuid × Cmd)
  | .recordDeleteFailure tenantId fileId n => some (tenantId, .recordDeleteFailure w.clock fileId n)
  | .finalizeFileTrashMigration tenantId fileId => some (tenantId, .finalizeFileTrashMigration fileId)
  | .claimRetainedFileForPurge fileId => some (c.tenant, .claimRetainedFileForPurge w.clock fileId)
  | .finalizeRetainedFilePurge tenantId fileId =>
    some (tenantId, .finalizeRetainedFilePurge w.clock fileId)
  | .recordRetainedPurgeFailure fileId n =>
    some (c.tenant, .recordRetainedPurgeFailure w.clock fileId n)
  | _ => none

theorem answer_transacts {r : RetentionRequest} {tenantId : Uuid} {cmd : Cmd}
    (h : commandOf c w r = some (tenantId, cmd)) : Transacts tenantId cmd w (answer D r c w).2 := by
  cases r with
  | claimRetainedFileForPurge fileId =>
      obtain ⟨rfl, rfl⟩ := Prod.mk.inj (Option.some.inj h)
      simp only [answer]
      split
      · exact .idle
      · exact transact_transacts
  | recordDeleteFailure | finalizeFileTrashMigration | finalizeRetainedFilePurge
  | recordRetainedPurgeFailure =>
      obtain ⟨rfl, rfl⟩ := Prod.mk.inj (Option.some.inj h)
      exact transact_transacts
  | _ => cases h

/-- Any other request but a copy or a deletion leaves everything alone. -/
theorem answer_unchanged {r : RetentionRequest} (h : commandOf c w r = none)
    (hcopy : ∀ s d, r ≠ .copy s d) (hdelete : ∀ t, r ≠ .delete t) : (answer D r c w).2 = w := by
  cases r with
  | copy s d => exact absurd rfl (hcopy s d)
  | delete t => exact absurd rfl (hdelete t)
  | recordDeleteFailure | finalizeFileTrashMigration | claimRetainedFileForPurge
  | finalizeRetainedFilePurge | recordRetainedPurgeFailure => cases h
  | _ => rfl

/-- A copy puts the content of its source where it goes, or nothing happens. -/
theorem answer_copy (s d : ProviderTarget) :
    (answer D (.copy s d) c w).2 = w ∨
      ∃ o, w.objects s = some o ∧
        (answer D (.copy s d) c w).2 = w.put d ⟨o.content, c.attributes⟩ := by
  simp only [answer]
  split
  · exact Or.inl rfl
  · rename_i o ho
    exact (effect_cases c w _).imp_right fun h ↦ ⟨o, ho, h⟩

theorem answer_delete (t : ProviderTarget) :
    (answer D (.delete t) c w).2 = w ∨ (answer D (.delete t) c w).2 = w.remove t :=
  effect_cases c w _

theorem answer_delete_ok {t : ProviderTarget} {x : Unit} (h : (answer D (.delete t) c w).1 = .ok x) :
    (answer D (.delete t) c w).2 = w.remove t :=
  effect_of_reply h

theorem answer_head {t : ProviderTarget} {x : Option ObjectMetadata}
    (h : (answer D (.head t) c w).1 = .ok x) : x = (w.objects t).map D.metadata :=
  (reply_eq_ok.mp h).2

theorem answer_getSpace {tenantId spaceId : Uuid} {x : Option StorageSpace}
    (h : (answer D (.getSpace tenantId spaceId) c w).1 = .ok x) :
    x = S3mp.getSpace spaceId (w.database tenantId) :=
  (reply_eq_ok.mp h).2

end RetentionWorld

/-! ## What happens beside the jobs -/

inductive RetentionEvent (γ : Type) where
  | command (tenantId : Uuid) (c : TenantCmd)
  | provider (objects : ProviderTarget → Option (StoredObject γ))
  | clock (now : Timestamp)

def RetentionWorld.happen {γ : Type} : RetentionEvent γ → RetentionWorld γ → RetentionWorld γ
  | .command tenantId c, w => w.setTenant tenantId (advance tenantExec (w.tenants tenantId) c)
  | .provider objects, w => { w with objects }
  | .clock now, w => { w with clock := now }

/-- Any number of jobs over one world, each making its requests at any time. -/
abbrev RetentionMachine (γ : Type) :=
  Machine (fun r : RetentionRequest ↦ Except Raised r.Value) (Except Raised Unit) (RetentionWorld γ)

abbrev RetentionStep (γ : Type) :=
  Machine.Event (fun r : RetentionRequest ↦ Except Raised r.Value) (Except Raised Unit)
    RetentionChoice (RetentionEvent γ)

abbrev retentionExec {γ : Type} (D : Digest γ) :
    RetentionStep γ → RetentionMachine γ → Except Unit (RetentionMachine γ) :=
  Machine.exec (RetentionWorld.answer D) RetentionWorld.happen

end S3mp
