import S3mp.Migration.Manifests
import S3mp.Transition.Run

/-!
# The executor of the provider migration

`ProviderMigrationExecutor`: any number of executors copy or clean up, each going from one
awaited call to the next.  A call which raises ends its executor, and may have had its effect.
-/

namespace S3mp.Migration

open Relational Storage

/-! ## Objects -/

/-- What `head` tells of an object, and its content, which the executor does not look at. -/
structure ProviderObject (γ : Type) where
  content : γ
  etag : Option String
  deriving DecidableEq, Repr

variable {γ : Type}

/-- `_same_metadata`. -/
def sameMetadata (size : γ → ℕ) (source target : ProviderObject γ) : Bool :=
  size source.content = size target.content && source.etag = target.etag

/-- The source and the target as the executor has seen them. -/
structure Verified (size : γ → ℕ) where
  source : ProviderObject γ
  target : ProviderObject γ
  same : sameMetadata size source target

/-! ## Executors -/

/-- Where `copy_verified` stands with the first of its manifests. -/
inductive CopyStage (size : γ → ℕ) where
  | begun
  | sourceSeen (source : ProviderObject γ)
  | copying (source : ProviderObject γ)
  | copied (source : ProviderObject γ)
  | promoting (v : Verified size)
  | quarantining (reason : String)

/-- Where `cleanup_verified_sources` stands with the first of its manifests. -/
inductive CleanupStage where
  | begun
  | deleting
  | settling (state : ManifestState) (reason : Option String)
  deriving DecidableEq, Repr

/-- The manifests are as the executor has read them. -/
inductive Executor (size : γ → ℕ) where
  | copy (stage : CopyStage size) (todo : List (Uuid × Manifest))
  | cleanup (stage : CleanupStage) (todo : List (Uuid × Manifest))

/-- A promotion which has been committed: what was verified and where. -/
structure Promotion (size : γ → ℕ) where
  recordId : Uuid
  source : ProviderTarget
  target : ProviderTarget
  verified : Verified size

/-- `promotions` is the history of the promotions; no code reads it. -/
structure MigrationWorld (size : γ → ℕ) where
  manifests : Table Uuid Manifest
  records : Table Uuid MigratedRecord
  objects : Table ProviderTarget (ProviderObject γ)
  executors : Table Uuid (Executor size)
  promotions : Table Uuid (Promotion size)

/-- What is decided outside about one call: whether it raises, whether it has its effect
although it raises, and the ETag a copy gets. -/
structure CallChoice where
  raises : Bool
  takesEffect : Bool
  etag : Option String

inductive MigrationCmd where
  | record (fresh : Uuid) (r : LegacyRecord) (storageSpace : Option (Uuid × Files.StorageSpace))
      (overlappingSpaceIds : List Uuid)
  | copyVerified (executor : Uuid) (picked : List Uuid)
  | cleanupVerifiedSources (executor : Uuid) (picked : List Uuid)
  | step (executor : Uuid) (c : CallChoice)
  | crash (executor : Uuid)

namespace MigrationWorld

variable {size : γ → ℕ}

/-- The manifests a query in a state has returned. -/
def read (state : ManifestState) (picked : List Uuid) (w : MigrationWorld size) :
    List (Uuid × Manifest) :=
  picked.dedup.filterMap fun id ↦
    ((w.manifests.lookup id).filter (·.state = state)).map (id, ·)

/-! ## Calls -/

/-- The executor comes from the call back to its manifests, unless the call raises. -/
def resume (executor : Uuid) (c : CallChoice) (x : Executor size) (w : MigrationWorld size) :
    MigrationWorld size :=
  { w with
    executors := if c.raises then w.executors.erase executor else w.executors.insert executor x }

/-- The world after an effect, which a raise may have prevented. -/
def effect (c : CallChoice) (w w' : MigrationWorld size) : MigrationWorld size :=
  if c.raises && !c.takesEffect then w else w'

/-- `_set_state`. -/
def setState (id : Uuid) (state : ManifestState) (reason : Option String)
    (w : MigrationWorld size) : MigrationWorld size :=
  { w with manifests := w.manifests.update id fun m ↦ { m with state, reason } }

/-- The record `_promote_ingestion` locks. -/
def legacyRecord (m : Manifest) (w : MigrationWorld size) : Option MigratedRecord :=
  (w.records.lookup m.recordId).filter fun r ↦
    r.tenantId = m.tenantId && r.providerTargetVersion = 0

/-- `_promote_ingestion`. -/
def promoteIngestion (id : Uuid) (source target : ProviderTarget) (v : Verified size)
    (w : MigrationWorld size) : Bool × MigrationWorld size :=
  match w.manifests.lookup id with
  | none => (false, w)
  | some m =>
    if m.state ≠ .readyForVerifiedCopy ∨ w.legacyRecord m = none then (false, w)
    else
      (true, { w with
        records := w.records.update m.recordId fun r ↦
          { r with
            bucket := target.bucket
            physicalKey := target.key
            providerTargetVersion := 1 }
        manifests := w.manifests.update id fun m ↦
          { m with state := .copiedVerified, reason := none }
        promotions := w.promotions.insert id ⟨m.recordId, source, target, v⟩ })

/-- The head of the target decides whether the manifest can be promoted. -/
def compare (executor : Uuid) (c : CallChoice) (source target : ProviderObject γ)
    (todo : List (Uuid × Manifest)) (w : MigrationWorld size) : MigrationWorld size :=
  if h : sameMetadata size source target then
    w.resume executor c (.copy (.promoting ⟨source, target, h⟩) todo)
  else w.resume executor c (.copy (.quarantining "copy_verification_failed") todo)

def copyStep (executor : Uuid) (c : CallChoice) (stage : CopyStage size) (id : Uuid)
    (m : Manifest) (rest : List (Uuid × Manifest)) (w : MigrationWorld size) :
    MigrationWorld size :=
  let todo := (id, m) :: rest
  match m.source, m.target with
  | some source, some target =>
    match stage with
    | .begun =>
      if m.recordType ≠ .ingestion then
        w.resume executor c (.copy (.quarantining "manifest_not_executable") todo)
      else
        match w.objects.lookup source with
        | none => w.resume executor c (.copy (.quarantining "source_object_missing") todo)
        | some o => w.resume executor c (.copy (.sourceSeen o) todo)
    | .sourceSeen o =>
      match w.objects.lookup target with
      | none => w.resume executor c (.copy (.copying o) todo)
      | some o' => w.compare executor c o o' todo
    | .copying o =>
      match w.objects.lookup source with
      | none => { w with executors := w.executors.erase executor }
      | some found =>
        (effect c w { w with objects := w.objects.insert target ⟨found.content, c.etag⟩ }).resume
          executor c (.copy (.copied o) todo)
    | .copied o =>
      match w.objects.lookup target with
      | none => { w with executors := w.executors.erase executor }
      | some o' => w.compare executor c o o' todo
    | .promoting v =>
      match w.promoteIngestion id source target v with
      | (false, _) =>
        w.resume executor c (.copy (.quarantining "record_changed_since_plan") todo)
      | (true, w') => (effect c w w').resume executor c (.copy .begun rest)
    | .quarantining reason =>
      (effect c w (w.setState id .quarantined (some reason))).resume executor c (.copy .begun rest)
  | _, _ =>
    match stage with
    | .quarantining reason =>
      (effect c w (w.setState id .quarantined (some reason))).resume executor c (.copy .begun rest)
    | _ => w.resume executor c (.copy (.quarantining "manifest_not_executable") todo)

def cleanupStep (executor : Uuid) (c : CallChoice) (stage : CleanupStage) (id : Uuid)
    (m : Manifest) (rest : List (Uuid × Manifest)) (w : MigrationWorld size) :
    MigrationWorld size :=
  let todo := (id, m) :: rest
  match stage, m.source, m.target with
  | .settling state reason, _, _ =>
    (effect c w (w.setState id state reason)).resume executor c (.cleanup .begun rest)
  | .begun, some _, some target =>
    match w.objects.lookup target with
    | none => w.resume executor c
        (.cleanup (.settling .quarantined (some "target_missing_before_cleanup")) todo)
    | some _ => w.resume executor c (.cleanup .deleting todo)
  | .deleting, some source, some _ =>
    (effect c w { w with objects := w.objects.erase source }).resume executor c
      (.cleanup (.settling .cleanupCompleted none) todo)
  | _, _, _ => w.resume executor c
      (.cleanup (.settling .quarantined (some "manifest_not_executable")) todo)

def exec : MigrationCmd → MigrationWorld size → Except Unit (MigrationWorld size)
  | .record fresh r storageSpace overlappingSpaceIds, w =>
    if fresh ∈ w.manifests then .error ()
    else
      let plan := classifyLegacyTarget r storageSpace overlappingSpaceIds
      .ok { w with manifests := recordManifest fresh plan w.manifests }
  | .copyVerified executor picked, w =>
    if executor ∈ w.executors then .error ()
    else
      let todo := w.read .readyForVerifiedCopy picked
      .ok { w with executors := w.executors.insert executor (.copy .begun todo) }
  | .cleanupVerifiedSources executor picked, w =>
    if executor ∈ w.executors then .error ()
    else
      let todo := w.read .copiedVerified picked
      .ok { w with executors := w.executors.insert executor (.cleanup .begun todo) }
  | .step executor c, w =>
    match w.executors.lookup executor with
    | some (.copy stage ((id, m) :: rest)) => .ok (w.copyStep executor c stage id m rest)
    | some (.cleanup stage ((id, m) :: rest)) => .ok (w.cleanupStep executor c stage id m rest)
    | some _ => .ok { w with executors := w.executors.erase executor }
    | none => .error ()
  | .crash executor, w => .ok { w with executors := w.executors.erase executor }

end MigrationWorld

end S3mp.Migration
