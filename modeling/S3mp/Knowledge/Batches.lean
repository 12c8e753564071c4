import S3mp.Common.Uuids
import S3mp.Knowledge.TaskEffects

/-!
# Batches of cards

`S3KnowledgeBatchWriter.write` puts the cards of a batch into the object storage, one after
the other, and `complete_s3_batch` records them afterwards in one transaction.  Both can be
interrupted, and workers which have claimed the same task one after the other write under
the same keys.
-/

namespace S3mp.Knowledge

open Relational Transition

/-! ## The writer -/

/-- Texts as they are stored, and the hexadecimal SHA-256 of what is stored. -/
structure Encoding (γ : Type) where
  utf8 : String → γ
  sha256 : γ → String

structure ValidatedDraft where
  cardId : String
  cardType : String
  markdown : String
  sourceLocations : List String
  confidence : String

/-- The JSON documents of a batch. -/
structure BatchDocuments where
  sourceManifest : String
  contractManifest : String
  extractionOutput : String
  completionManifest : String

/-- A batch which is being written: the objects still to be put, and what will be reported. -/
structure BatchWrite (γ : Type) where
  taskId : Uuid
  pending : List (String × γ)
  result : BatchResult

def batchIdOf (taskId : Uuid) : String := "batch-" ++ uuidText taskId

def batchPrefix (tenantId taskId : Uuid) : String :=
  "tenants/" ++ uuidText tenantId ++ "/knowledge-card-output/" ++ batchIdOf taskId

def completionManifestKey (tenantId taskId : Uuid) : String :=
  batchPrefix tenantId taskId ++ "/_batch/completion-manifest.json"

def cardKey (tenantId taskId : Uuid) (draft : ValidatedDraft) : String :=
  batchPrefix tenantId taskId ++ "/cards/" ++ draft.cardType ++ "/" ++ draft.cardId ++ ".md"

section

variable {γ : Type} (E : Encoding γ) (tenantId : Uuid)

def cardRecord (taskId : Uuid) (draft : ValidatedDraft) : CardRecord :=
  ⟨draft.cardId, draft.cardType, cardKey tenantId taskId draft, E.sha256 (E.utf8 draft.markdown),
    draft.sourceLocations⟩

/-- The objects of the batch in the order in which they are put. -/
def batchObjects (taskId : Uuid) (drafts : List ValidatedDraft) (documents : BatchDocuments) :
    List (String × γ) :=
  let keyPrefix := batchPrefix tenantId taskId
  [(keyPrefix ++ "/_batch/source-manifest.json", E.utf8 documents.sourceManifest),
    (keyPrefix ++ "/_batch/contract-manifest.json", E.utf8 documents.contractManifest)] ++
  drafts.map (fun draft ↦ (cardKey tenantId taskId draft, E.utf8 draft.markdown)) ++
  [(keyPrefix ++ "/reports/extraction-output.json", E.utf8 documents.extractionOutput),
    (completionManifestKey tenantId taskId, E.utf8 documents.completionManifest)]

/-- What the writer reports at its end. -/
def batchResult (taskId : Uuid) (drafts : List ValidatedDraft) : BatchResult where
  batchId := batchIdOf taskId
  keyPrefix := batchPrefix tenantId taskId
  completionManifestKey := completionManifestKey tenantId taskId
  cards := drafts.map (cardRecord E tenantId taskId)

/-- The checks before the first object is put. -/
def startWrite (taskId : Uuid) (sourceFileId : Option Uuid) (sourceSha256 : Option String)
    (sourceBody : γ) (drafts : List ValidatedDraft) (documents : BatchDocuments) :
    Tx (BatchWrite γ) :=
  if (truthy sourceSha256).any (· ≠ E.sha256 sourceBody) then
    .error (.value "resolved source SHA-256 does not match fetched object")
  else
    match sourceFileId with
    | none => .error (.value "task source file id is required")
    | some _ => .ok ⟨taskId, batchObjects E tenantId taskId drafts documents,
        batchResult E tenantId taskId drafts⟩

end

/-! ## Steps -/

/-- How a put ends: the object is there and has been seen, it is there and the call raises, or
it is not there. -/
inductive PutOutcome where
  | verified | unverified | refused
  deriving DecidableEq, Repr

/-- `completed` are the batches which have been completed so far. -/
structure CardWorld (γ : Type) where
  db : KnowledgeDb
  objects : Table String γ
  writes : Table Uuid (BatchWrite γ)
  completed : List (Uuid × BatchResult)

inductive CardCmd (γ : Type) where
  | begin (process taskId : Uuid) (sourceFileId : Option Uuid) (sourceSha256 : Option String)
      (sourceBody : γ) (drafts : List ValidatedDraft) (documents : BatchDocuments)
  | put (process : Uuid) (outcome : PutOutcome)
  | complete (process : Uuid) (ids : CompletionIds) (now : Timestamp)
  | crash (process : Uuid)
  | claimTask (token : Uuid) (now : Timestamp) (taskId : Uuid)
  | work (taskId : Uuid) (c : WorkerCall)
  | other (c : TaskCmd)

namespace CardWorld

variable {γ : Type}

def notNext : Tx (CardWorld γ) :=
  .error (.value "not the next step")

/-- A completion which raises ends the write as well. -/
def complete (process : Uuid) (ids : CompletionIds) (now : Timestamp) (taskId : Uuid)
    (result : BatchResult) (w : CardWorld γ) : CardWorld γ :=
  let w := { w with writes := w.writes.erase process }
  match completeS3Batch ids now taskId result w.db with
  | .error _ => w
  | .ok db =>
    if taskId ∈ w.db.tasks then { w with db, completed := w.completed ++ [(taskId, result)] }
    else { w with db }

def exec (E : Encoding γ) (tenantId : Uuid) : CardCmd γ → CardWorld γ → Tx (CardWorld γ)
  | .begin process taskId sourceFileId sourceSha256 sourceBody drafts documents, w => do
    if process ∈ w.writes then notNext
    else
      let write ← startWrite E tenantId taskId sourceFileId sourceSha256 sourceBody drafts documents
      return { w with writes := w.writes.insert process write }
  | .put process outcome, w =>
    match w.writes.lookup process with
    | some ⟨taskId, (key, body) :: pending, result⟩ => .ok { w with
        objects := if outcome = .refused then w.objects else w.objects.insert key body
        writes :=
          if outcome = .verified then w.writes.insert process ⟨taskId, pending, result⟩
          else w.writes.erase process }
    | _ => notNext
  | .complete process ids now, w =>
    match w.writes.lookup process with
    | some ⟨taskId, [], result⟩ => .ok (w.complete process ids now taskId result)
    | _ => notNext
  | .crash process, w => .ok { w with writes := w.writes.erase process }
  | .claimTask token now taskId, w => .ok { w with db := (claimTask token now taskId w.db).2 }
  | .work _ (.completeS3Batch ..), _ => notNext
  | .work taskId c, w => (c.exec taskId w.db).map fun db ↦ { w with db }
  | .other c, w => (c.exec w.db).map fun db ↦ { w with db }

end CardWorld

/-! ## What is asked of rows and objects -/

section

variable {γ : Type} (E : Encoding γ)

namespace CardWorld

variable (w : CardWorld γ)

/-- The object at the key has the checksum. -/
def Holds (key checksum : String) : Prop :=
  ∃ body, w.objects.lookup key = some body ∧ checksum = E.sha256 body

/-- Every row has the checksum of the object at its key. -/
def Described : Prop :=
  ∀ id card, w.db.cards.lookup id = some card → w.Holds E card.s3Key card.checksum

/-- The card of a completed batch has a row. -/
def RowFor (result : BatchResult) (record : CardRecord) : Prop :=
  ∃ batchRow batch id card, w.db.batches.lookup batchRow = some batch ∧
    batch.batchId = result.batchId ∧ w.db.cards.lookup id = some card ∧
    card.batchId = batchRow ∧ card.cardId = record.id ∧ card.s3Key = record.s3Key ∧
    card.checksum = record.checksum

def AllRecorded : Prop :=
  ∀ done ∈ w.completed, ∀ record ∈ done.2.cards, w.RowFor done.2 record

/-- What a completion records for the first time has a new index event. -/
def Announced (w' : CardWorld γ) : Prop :=
  ∀ taskId result, w'.completed = w.completed ++ [(taskId, result)] → ∀ record ∈ result.cards,
    (∀ id card, w.db.cards.lookup id = some card → card.s3Key = record.s3Key →
      card.checksum ≠ record.checksum) →
    ∃ eventId event id card, eventId ∉ w.db.outbox ∧ w'.db.outbox.lookup eventId = some event ∧
      event.payload = .indexRequested taskId id result.batchId record.s3Key
        result.completionManifestKey ∧
      w'.db.cards.lookup id = some card ∧ card.s3Key = record.s3Key ∧
      card.checksum = record.checksum

/-- The batch can be completed as it has been written: its objects are still what it has put,
and no card has been recorded, or is about to be recorded, under another key. -/
structure Intact (write : BatchWrite γ) : Prop where
  stored : ∀ record ∈ write.result.cards, w.Holds E record.s3Key record.checksum
  oneKey : ∀ record ∈ write.result.cards, ∀ record' ∈ write.result.cards,
    record.id = record'.id → record.s3Key = record'.s3Key
  sameKey : ∀ record ∈ write.result.cards, ∀ batchRow batch id card,
    w.db.batches.lookup batchRow = some batch → batch.batchId = write.result.batchId →
    w.db.cards.lookup id = some card → card.batchId = batchRow → card.cardId = record.id →
    card.s3Key = record.s3Key

/-- No object of a recorded card is replaced by another content, and batches are completed only
while they are intact. -/
def Careful : CardCmd γ → Prop
  | .put process outcome => outcome ≠ .refused → ∀ write key body pending,
      w.writes.lookup process = some write → write.pending = (key, body) :: pending →
      ∀ id card, w.db.cards.lookup id = some card → card.s3Key = key →
        card.checksum = E.sha256 body
  | .complete process _ _ => ∀ write, w.writes.lookup process = some write →
      write.pending = [] → w.Intact E write
  | _ => True

end CardWorld

end

end S3mp.Knowledge
