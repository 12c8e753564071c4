import S3mp.Ledger.Charge
import S3mp.Operations.Effects
import S3mp.Operations.OnlyCopy

/-!
# Settled operations

After a successful delivery the provider's side is done, and the settlement has
to bring the file rows in line with it.  It does so for a rename whose two rows the
operation still occupies.  For a copy, a move and a deletion, and for a rename
whose rows an earlier settlement set free, it writes nothing into the rows but
that they are free.
-/

namespace S3mp

open Relational Files Storage Transition Governance

/-- The two rows stand for the same bytes and are charged to the same quotas. -/
structure Files.FileObject.SameContent (f g : FileObject) : Prop where
  contentLength : g.contentLength = f.contentLength
  checksum : g.checksum = f.checksum
  applicationId : g.applicationId = f.applicationId
  storageSpaceId : g.storageSpaceId = f.storageSpaceId

/-- The charge of the file has been given back, or its retention is on record. -/
def Released (db : Db) (fileId : Uuid) : Prop :=
  (∃ id deletion, db.deletions.lookup id = some deletion ∧ deletion.fileId = fileId) ∨
    ∃ adjustment ∈ db.ledger.adjustments, adjustment.fileObjectId = fileId

/-- The row is the active one of the key in the space. -/
def ActiveAt (spaceId : Uuid) (key : String) (f : FileObject) : Prop :=
  f.active ∧ f.storageSpaceId = spaceId ∧ f.objectKey = key

namespace Acceptance

variable {γ : Type} (A : Acceptance)

/-- The database's side of a finished operation, file by file. -/
structure RowsAgree (db : Db) : Prop where
  removed : ∀ t, A.Removed t → ∀ j f, db.files.lookup j = some f → ¬ ActiveAt A.spaceId t.key f
  created : ∀ t, A.Created t → ∃ j f, db.files.lookup j = some f ∧ ActiveAt A.spaceId t.key f ∧
    (∀ p ∈ A.sources, p.2.SameContent f) ∧
    (A.op.operationType = .copy → ChargedAt db j f.contentLength)
  released : A.op.operationType = .delete → ∀ p ∈ A.sources, Released db p.1

/-- Database and provider agree about the operation. -/
structure Agrees (w : World γ) : Prop where
  objects : A.Finished w
  rows : A.RowsAgree w.db

/-- The operation occupies every row it was accepted for. -/
def Holds (db : Db) : Prop :=
  ∀ p ∈ A.sources ++ A.results, heldBy A.id db.files p.1

/-- The settlement of the operation moves its rows. -/
def Moves (db : Db) : Prop :=
  A.op.operationType = .rename ∧ ∀ p ∈ A.sources ++ A.results, heldBy A.id db.files p.1

/-- The two rows of a rename as its acceptance leaves them. -/
structure RenameRows (source result : Uuid × FileObject) : Prop where
  sources : A.sources = [source]
  results : A.results = [result]
  sourceId : A.op.sourceFileId = some source.1
  resultId : A.op.resultFileId = some result.1
  ne : source.1 ≠ result.1
  content : source.2.SameContent result.2
  notSoftDeleted : result.2.softDeleted = false
  keyed : ∀ t, A.Created t → result.2.storageSpaceId = A.spaceId ∧ result.2.objectKey = t.key

/-- The operation has just been accepted. -/
structure Accepted (db : Db) : Prop where
  underway : A.Underway db
  functional : ∀ p ∈ A.sources ++ A.results, ∀ q ∈ A.sources ++ A.results, q.1 = p.1 → q = p
  listed : ∀ t, A.Removed t → ∃ p ∈ A.sources, ActiveAt A.spaceId t.key p.2
  rename : A.op.operationType = .rename → ∃ source result, A.RenameRows source result

variable {A} {db db' : Db}

theorem activeAt_congr {f g : FileObject} (h : f.core = g.core) {spaceId : Uuid} {key : String} :
    ActiveAt spaceId key f ↔ ActiveAt spaceId key g := by
  obtain ⟨hstatus, hsoft, hspace, hkey, -⟩ := core_fields h
  rw [ActiveAt, ActiveAt, FileObject.active, FileObject.active, hstatus, hsoft, hspace, hkey]

theorem sameContent_congr {f g h : FileObject} (hcore : g.core = h.core) :
    f.SameContent g ↔ f.SameContent h := by
  obtain ⟨-, -, hspace, -, hlength, hchecksum, happlication⟩ := core_fields hcore
  constructor
  · rintro ⟨h₁, h₂, h₃, h₄⟩
    exact ⟨hlength ▸ h₁, hchecksum ▸ h₂, happlication ▸ h₃, hspace ▸ h₄⟩
  · rintro ⟨h₁, h₂, h₃, h₄⟩
    exact ⟨hlength ▸ h₁, hchecksum ▸ h₂, happlication ▸ h₃, hspace ▸ h₄⟩

/-- Agreement of the rows does not depend on who occupies them. -/
theorem RowsAgree.congr (h : A.RowsAgree db) (hingestions : db'.ingestions = db.ingestions)
    (hledger : db'.ledger = db.ledger) (hdeletions : db'.deletions = db.deletions)
    (hfiles : ∀ j, (db'.files.lookup j).map (·.core) = (db.files.lookup j).map (·.core)) :
    A.RowsAgree db' := by
  have hrow : ∀ j f', db'.files.lookup j = some f' →
      ∃ f, db.files.lookup j = some f ∧ f.core = f'.core := by
    intro j f' hf'
    have heq := hfiles j
    rw [hf', Option.map_some] at heq
    exact Option.map_eq_some_iff.mp heq.symm
  have hrow' : ∀ j f, db.files.lookup j = some f →
      ∃ f', db'.files.lookup j = some f' ∧ f'.core = f.core := by
    intro j f hf
    have heq := hfiles j
    rw [hf, Option.map_some] at heq
    exact Option.map_eq_some_iff.mp heq
  refine ⟨fun t ht j f' hf' hactive ↦ ?_, fun t ht ↦ ?_, fun hdelete p hp ↦ ?_⟩
  · obtain ⟨f, hf, hcore⟩ := hrow j f' hf'
    exact h.removed t ht j f hf ((activeAt_congr hcore).mpr hactive)
  · obtain ⟨j, f, hf, hactive, hcontent, hcharged⟩ := h.created t ht
    obtain ⟨f', hf', hcore⟩ := hrow' j f hf
    refine ⟨j, f', hf', (activeAt_congr hcore).mpr hactive,
      fun p hp ↦ (sameContent_congr hcore).mpr (hcontent p hp), fun hcopy ↦ ?_⟩
    rw [(core_fields hcore).2.2.2.2.1]
    simpa only [ChargedAt, Names, hingestions, hledger] using hcharged hcopy
  · simpa only [Released, hdeletions, hledger] using h.released hdelete p hp

/-! ## The settlement -/

/-- The database after the success of the operation has been recorded. -/
def settled (A : Acceptance) (now : Timestamp) (db : Db) : Db :=
  advance opExec db (.settleBrokerOperation now A.id .succeeded none)

theorem settled_eq {now : Timestamp} {op : FileOperation}
    (hop : db.operations.lookup A.id = some op) :
    A.settled now db = { db with
      operations := db.operations.update A.id fun _ ↦ op.settled now .succeeded none
      files := settledFiles now A.id op .succeeded db.files
      resourceReservations := freeKeys A.id .succeeded db.resourceReservations } := by
  refine advance_of_ok ?_
  have hactive : ∀ source, (op.settled now .succeeded none).activeRenameOf source = false := by
    simp [FileOperation.activeRenameOf, FileOperation.settled]
  have hnone : op.sourceFileId.any (fun source ↦
      (op.settled now .succeeded none).activeRenameOf source &&
        db.operations.anyRow fun j other ↦ j ≠ A.id && other.activeRenameOf source) = false := by
    cases op.sourceFileId <;> simp [hactive]
  simp only [opExec, settleBrokerOperation, hop, hnone, Bool.false_eq_true, if_false]

theorem unoccupied_core (f : FileObject) : f.unoccupied.core = f.core := rfl

/-- Where it does not move the rows, the settlement only sets them free. -/
theorem settledFiles_core {now : Timestamp} {op : FileOperation} {files : Table Uuid FileObject}
    (hnot : ¬ (op.operationType = .rename ∧ ∃ s r, op.sourceFileId = some s ∧
      op.resultFileId = some r ∧ heldBy A.id files s ∧ heldBy A.id files r)) (j : Uuid) :
    ((settledFiles now A.id op .succeeded files).lookup j).map (·.core) =
      (files.lookup j).map (·.core) := by
  have hstay : (if op.operationType = .rename then settleRename now A.id op .succeeded files
      else files) = files := by
    split
    · rename_i hrename
      unfold settleRename
      split
      · rename_i s r hs hr
        obtain ⟨hs, hsheld⟩ := Option.filter_eq_some_iff.mp hs
        obtain ⟨hr, hrheld⟩ := Option.filter_eq_some_iff.mp hr
        exact absurd ⟨hrename, s, r, hs, hr, hsheld, hrheld⟩ hnot
      · rfl
      · rfl
    · rfl
  simp only [settledFiles, hstay, OperationStatus.terminal, List.mem_cons, true_or, decide_true,
    if_true, updateHeld, AList.lookup_updateWhere, Option.map_map]
  cases files.lookup j with
  | none => rfl
  | some f =>
      simp only [Option.map_some, Function.comp_apply, Option.some.injEq]
      split
      · exact unoccupied_core f
      · rfl

theorem settled_congr {now : Timestamp} (h : A.Underway db) (hrename : A.op.operationType = .rename →
      ∃ source result, A.RenameRows source result) (hnot : ¬ A.Moves db) (j : Uuid) :
    ((A.settled now db).files.lookup j).map (·.core) = (db.files.lookup j).map (·.core) := by
  obtain ⟨op, hop, horder⟩ := h.operation
  have hsame := FileOperation.sameOrder horder
  rw [settled_eq hop]
  refine settledFiles_core (fun ⟨hkind, s, r, hs, hr, hsheld, hrheld⟩ ↦ hnot ?_) j
  rw [hsame.operationType] at hkind
  obtain ⟨source, result, hrows⟩ := hrename hkind
  rw [hsame.sourceFileId, hrows.sourceId, Option.some.injEq] at hs
  rw [hsame.resultFileId, hrows.resultId, Option.some.injEq] at hr
  subst hs hr
  refine ⟨hkind, fun p hp ↦ ?_⟩
  rw [hrows.sources, hrows.results] at hp
  rcases List.mem_cons.mp hp with rfl | hp
  · exact hsheld
  · rw [List.mem_singleton.mp hp]
    exact hrheld

/-- The row as the settlement of a rename leaves it. -/
def movedRow (now : Timestamp) (source result j : Uuid) (f : FileObject) : FileObject :=
  if j = result then { f with status := .available }
  else if j = source then { f with status := .deleted, deletedAt := some now }
  else f

/-- Where it moves the rows, the source is deleted and the result becomes available. -/
theorem settled_moves {now : Timestamp} (h : A.Underway db) {source result : Uuid × FileObject}
    (hrows : A.RenameRows source result) (hmoves : A.Moves db) (j : Uuid) :
    ((A.settled now db).files.lookup j).map (·.core) =
      (db.files.lookup j).map fun f ↦ (movedRow now source.1 result.1 j f).core := by
  obtain ⟨op, hop, horder⟩ := h.operation
  have hsame := FileOperation.sameOrder horder
  have hsheld : heldBy A.id db.files source.1 := hmoves.2 source (by simp [hrows.sources])
  have hrheld : heldBy A.id db.files result.1 := hmoves.2 result (by simp [hrows.results])
  have hmoved : settleRename now A.id op .succeeded db.files =
      (db.files.update source.1 fun f ↦ { f with status := .deleted, deletedAt := some now }).update
        result.1 fun f ↦ { f with status := .available } := by
    simp only [settleRename, hsame.sourceFileId, hsame.resultFileId, hrows.sourceId,
      hrows.resultId, Option.filter_some, hsheld, hrheld, if_true]
  have hfree : ∀ g : FileObject, (if g.activeOperationId = some A.id then g.unoccupied
      else g).core = g.core := by
    intro g
    split
    · exact unoccupied_core g
    · rfl
  rw [settled_eq hop]
  simp only [settledFiles, hsame.operationType, hmoves.1, if_true, hmoved, OperationStatus.terminal,
    List.mem_cons, true_or, decide_true, updateHeld, AList.update, AList.lookup_updateWhere,
    Option.map_map]
  cases db.files.lookup j with
  | none => rfl
  | some f =>
      simp only [Option.map_some, Function.comp_apply, decide_eq_true_eq, hfree, movedRow]
      by_cases hr : j = result.1
      · simp only [hr, if_true, hrows.ne.symm, if_false]
      · simp only [hr, if_false]

/-! ## Agreement -/

/-- A row which is still occupied is as its acceptance found or made it. -/
theorem Underway.held (h : A.Underway db) {p : Uuid × FileObject} (hp : heldBy A.id db.files p.1)
    (hunique : ∀ q ∈ A.sources ++ A.results, q.1 = p.1 → q = p) :
    ∃ f, db.files.lookup p.1 = some f ∧ f.activeOperationId = some A.id ∧ f.core = p.2.core := by
  obtain ⟨f, hf, hheld⟩ := heldBy_eq_true.mp hp
  obtain ⟨f₀, hmem, hcore⟩ := h.rows p.1 f hf hheld
  have hq := hunique (p.1, f₀) hmem rfl
  exact ⟨f, hf, hheld, by rw [hcore, ← hq]⟩

theorem RenameRows.held {source result : Uuid × FileObject} (hrows : A.RenameRows source result)
    (h : A.Underway db) (hmoves : A.Moves db) :
    (∃ f, db.files.lookup source.1 = some f ∧ f.activeOperationId = some A.id ∧
      f.core = source.2.core) ∧
    ∃ f, db.files.lookup result.1 = some f ∧ f.activeOperationId = some A.id ∧
      f.core = result.2.core := by
  have hlist : A.sources ++ A.results = [source, result] := by
    rw [hrows.sources, hrows.results]
    rfl
  have hmem : ∀ q ∈ A.sources ++ A.results, q = source ∨ q = result := by
    intro q hq
    simpa [hlist] using hq
  refine ⟨h.held (hmoves.2 source (by simp [hlist])) fun q hq heq ↦ ?_,
    h.held (hmoves.2 result (by simp [hlist])) fun q hq heq ↦ ?_⟩
  · rcases hmem q hq with rfl | rfl
    · rfl
    · exact absurd heq.symm hrows.ne
  · rcases hmem q hq with rfl | rfl
    · exact absurd heq hrows.ne
    · rfl

/-- A settlement which moves the rows brings them in line with the provider. -/
theorem rowsAgree_of_moves {now : Timestamp} (h : A.Underway db)
    (hlisted : ∀ t, A.Removed t → ∃ p ∈ A.sources, ActiveAt A.spaceId t.key p.2)
    {source result : Uuid × FileObject} (hrows : A.RenameRows source result)
    (hmoves : A.Moves db) : A.RowsAgree (A.settled now db) := by
  obtain ⟨⟨f₁, hf₁, -, hcore₁⟩, f₂, hf₂, hheld₂, hcore₂⟩ := hrows.held h hmoves
  have hresultHolds : f₂.holdsKey :=
    (h.consistent.operable result.1 f₂ hf₂ (by simp [hheld₂])).holdsKey
  refine ⟨fun t ht j f' hf' hactive ↦ ?_, fun t ht ↦ ?_, fun hdelete ↦ ?_⟩
  · obtain ⟨p, hp, hpactive⟩ := hlisted t ht
    rw [hrows.sources, List.mem_singleton] at hp
    subst hp
    rw [← activeAt_congr hcore₁] at hpactive
    have hmoved : ((A.settled now db).files.lookup j).map (·.core) = _ :=
      settled_moves h hrows hmoves j
    rw [hf', Option.map_some] at hmoved
    obtain ⟨f, hf, hcore⟩ := Option.map_eq_some_iff.mp hmoved.symm
    rw [← activeAt_congr hcore] at hactive
    unfold movedRow at hactive
    have hsourceHolds : f₁.holdsKey := by
      have hs := hpactive.1
      simp only [FileObject.active, Bool.and_eq_true, decide_eq_true_eq] at hs
      simp [FileObject.holdsKey, hs.1]
    split at hactive
    · rename_i hj
      subst hj
      obtain rfl := Option.some.inj (hf₂.symm.trans hf)
      exact hrows.ne (h.consistent.unique result.1 p.1 f₂ f₁ hf₂ hf₁ hresultHolds hsourceHolds
        (hpactive.2.1.trans hactive.2.1.symm) (hpactive.2.2.trans hactive.2.2.symm))
    · split at hactive
      · simp [ActiveAt, FileObject.active] at hactive
      · rename_i hj
        have hfHolds : f.holdsKey := by
          have hs := hactive.1
          simp only [FileObject.active, Bool.and_eq_true, decide_eq_true_eq] at hs
          simp [FileObject.holdsKey, hs.1]
        exact hj (h.consistent.unique p.1 j f₁ f hf₁ hf hsourceHolds hfHolds
          (hactive.2.1.trans hpactive.2.1.symm) (hactive.2.2.trans hpactive.2.2.symm))
  · obtain ⟨hspace, hkey⟩ := hrows.keyed t ht
    have hmoved : ((A.settled now db).files.lookup result.1).map (·.core) = _ :=
      settled_moves h hrows hmoves result.1
    rw [hf₂, Option.map_some, movedRow, if_pos rfl] at hmoved
    obtain ⟨f', hf', hcore⟩ := Option.map_eq_some_iff.mp hmoved
    obtain ⟨-, hsoft, hspace₂, hkey₂, -⟩ := core_fields hcore₂
    refine ⟨result.1, f', hf', (activeAt_congr hcore).mpr ⟨?_, ?_, ?_⟩, fun p hp ↦ ?_, ?_⟩
    · simp [FileObject.active, hsoft, hrows.notSoftDeleted]
    · rw [← hspace, ← hspace₂]
    · rw [← hkey, ← hkey₂]
    · rw [hrows.sources, List.mem_singleton] at hp
      subst hp
      refine (sameContent_congr hcore).mpr ?_
      obtain ⟨h₁, h₂, h₃, h₄⟩ := (sameContent_congr hcore₂).mpr hrows.content
      exact ⟨h₁, h₂, h₃, h₄⟩
    · rw [hmoves.1]
      simp
  · rw [hmoves.1] at hdelete
    cases hdelete

/-! ## Acceptance -/

/-- The physical key of a relative key, as the file service derives it. -/
def physicalKey (tenantId spaceId : Uuid) (space : StorageSpace) (key : String) : Option String :=
  (deriveProviderTarget tenantId spaceId space key).map (·.key)

/-- What `create_file_operation` passes: the keys of the request and where they lie. -/
structure FromService (tenantId spaceId : Uuid) (space : StorageSpace) (data : OperationData) :
    Prop where
  kind : data.operationType ≠ .rename
  source : data.operationType ≠ .delete → ∃ key, truthy data.sourceKey = some key ∧
    (physicalKey tenantId spaceId space key).isSome ∧
    data.sourcePhysicalKey = physicalKey tenantId spaceId space key
  destination : data.operationType ≠ .delete → ∃ key, truthy data.destinationKey = some key ∧
    (physicalKey tenantId spaceId space key).isSome ∧
    data.destinationPhysicalKey = physicalKey tenantId spaceId space key
  keys : ∀ key ∈ data.keys, ∃ physical ∈ data.physicalKeys,
    physicalKey tenantId spaceId space key = some physical

theorem physicalKey_ne_empty {tenantId spaceId : Uuid} {space : StorageSpace} {key physical : String}
    (hkey : key ≠ "") (h : physicalKey tenantId spaceId space key = some physical) :
    physical ≠ "" := by
  obtain ⟨t, ht, rfl⟩ := Option.map_eq_some_iff.mp h
  rw [deriveProviderTarget_eq_some ht]
  simp [joinKey, hkey]

/-- The rows a new operation occupies, as they were. -/
def occupiedRows (occupied : List Uuid) (files : Table Uuid FileObject) :
    List (Uuid × FileObject) :=
  occupied.filterMap fun j ↦ (files.lookup j).map (j, ·)

theorem mem_occupiedRows {occupied : List Uuid} {files : Table Uuid FileObject} {j : Uuid}
    {f : FileObject} :
    (j, f) ∈ occupiedRows occupied files ↔ j ∈ occupied ∧ files.lookup j = some f := by
  simp only [occupiedRows, List.mem_filterMap, Option.map_eq_some_iff, Prod.mk.injEq]
  constructor
  · rintro ⟨i, hi, g, hg, rfl, rfl⟩
    exact ⟨hi, hg⟩
  · rintro ⟨hj, hf⟩
    exact ⟨j, hj, f, hf, rfl, rfl⟩

/-- A key which has been checked has an active row among those occupied. -/
theorem exists_occupied {spaceId : Uuid} {keys : List String} {files : Table Uuid FileObject}
    {occupied : List Uuid} (h : keys.mapM (checkOccupied spaceId files) = .ok occupied)
    {key : String} (hkey : key ∈ keys) :
    ∃ p ∈ occupiedRows occupied files, ActiveAt spaceId key p.2 := by
  obtain ⟨j, hj, hcheck⟩ := exists_of_mapM h hkey
  obtain ⟨f, hrow, -, hstatus, hsoft⟩ := mem_keys_of_checkOccupied hcheck
  obtain ⟨hf, hspace, hobject⟩ := rowByKey_eq_some hrow
  exact ⟨(j, f), mem_occupiedRows.mpr ⟨hj, hf⟩, by simp [FileObject.active, hstatus, hsoft], hspace,
    hobject⟩

theorem FromService.distinct {tenantId spaceId : Uuid} {space : StorageSpace}
    {data : OperationData} {files : Table Uuid FileObject} {occupied : List Uuid}
    (h : FromService tenantId spaceId space data) (hkind : data.operationType ≠ .delete)
    (hoccupied : (operationResourceKeys data).1.mapM (checkOccupied spaceId files) = .ok occupied)
    (hdestination : (operationResourceKeys data).2.forM (checkDestination spaceId files) =
      .ok ⟨⟩) : data.sourceKey ≠ data.destinationKey := by
  intro hsame
  obtain ⟨key, hkey, hsome, hsource⟩ := h.source hkind
  obtain ⟨key', hkey', -, htarget⟩ := h.destination hkind
  obtain rfl : key = key' := Option.some.inj (hkey.symm.trans (hsame ▸ hkey'))
  obtain ⟨physical, hphysical⟩ := Option.isSome_iff_exists.mp hsome
  have hne : physical ≠ "" := by
    refine physicalKey_ne_empty ?_ hphysical
    have hmem : key ∈ (truthy data.sourceKey).toList := by simp [hkey]
    exact (mem_truthy.mp hmem).2
  have hkeys : operationResourceKeys data = ([physical], [physical]) := by
    unfold operationResourceKeys
    split
    · rename_i hdelete
      exact absurd hdelete hkind
    · simp [hsource, htarget, hphysical, truthy, hne]
  rw [hkeys] at hoccupied hdestination
  obtain ⟨j, -, hcheck⟩ := exists_of_mapM hoccupied (List.mem_singleton_self _)
  obtain ⟨f, hrow, -⟩ := mem_keys_of_checkOccupied hcheck
  have hfree := forM_eq_ok.mp hdestination physical (List.mem_singleton_self _)
  simp [checkDestination, hrow] at hfree

theorem createOperation_accepted {tenantId spaceId : Uuid} {space : StorageSpace}
    {ids : OperationIds} {data : OperationData} {op : FileOperation} (hdb : Consistent db)
    (hspace : db.spaces.lookup spaceId = some space)
    (hdata : FromService tenantId spaceId space data)
    (h : createOperation ids spaceId data db = .ok (op, db')) :
    ∃ A : Acceptance, A.tenantId = tenantId ∧ A.id = ids.operation ∧ A.op = op ∧
      A.spaceId = spaceId ∧ A.space = space ∧ A.Accepted db' ∧ A.Holds db' := by
  obtain ⟨idempotencyKey, occupied, rfl, hoccupies, hoccupied, hdestination⟩ :=
    createOperation_occupies hdb h
  have hspaces : db'.spaces = db.spaces :=
    opExec_spaces (c := .createOperation ids spaceId data) (Except.map_snd_eq_ok.mpr ⟨_, h⟩)
  refine ⟨⟨tenantId, ids.operation, spaceId, space, newOperation spaceId data idempotencyKey,
    occupiedRows occupied db.files, [], rfl,
    fun hkind ↦ hdata.distinct hkind hoccupied hdestination⟩, rfl, rfl, rfl, rfl, rfl,
    ⟨⟨hoccupies.consistent, hspaces ▸ hspace, ?_, fun j f' hf' hheld ↦ ?_⟩, ?_, ?_,
      fun hrename ↦ absurd hrename hdata.kind⟩, fun p hp ↦ ?_⟩
  · exact ⟨_, by rw [hoccupies.operations, AList.lookup_insert], rfl⟩
  · obtain ⟨hj, f, hf, hcore⟩ := hoccupies.held hf' hheld
    exact ⟨f, List.mem_append_left _ (mem_occupiedRows.mpr ⟨hj, hf⟩), hcore⟩
  · rintro ⟨j, f⟩ hp ⟨j', g⟩ hq rfl
    rw [List.append_nil] at hp hq
    rw [Option.some.inj ((mem_occupiedRows.mp hp).2.symm.trans (mem_occupiedRows.mp hq).2)]
  · rintro t ⟨key, hkey, htarget⟩
    refine exists_occupied hoccupied ?_
    have hphysical : physicalKey tenantId spaceId space key = some t.key := by
      have htarget' : deriveProviderTarget tenantId spaceId space key = some t := htarget
      rw [physicalKey, htarget', Option.map_some]
    cases hkind : data.operationType with
    | rename => exact absurd hkind hdata.kind
    | copy =>
        simp [removedKeys, newOperation, hkind] at hkey
    | move =>
        obtain ⟨key', hkey', -, hsource⟩ := hdata.source (by simp [hkind])
        simp only [removedKeys, newOperation, hkind, hkey', Option.toList_some,
          List.mem_singleton] at hkey
        subst hkey
        have hmem : key ∈ (truthy data.sourceKey).toList := by simp [hkey']
        have hne : key ≠ "" := (mem_truthy.mp hmem).2
        simp [operationResourceKeys, hkind, hsource, hphysical, truthy,
          physicalKey_ne_empty hne hphysical]
    | delete =>
        simp only [removedKeys, newOperation, hkind] at hkey
        obtain ⟨physical, hmem, heq⟩ := hdata.keys key hkey
        obtain rfl := Option.some.inj (heq.symm.trans hphysical)
        simp [operationResourceKeys, hkind, hmem]
  · rw [List.append_nil] at hp
    obtain ⟨hj, hf⟩ := mem_occupiedRows.mp hp
    exact hoccupies.heldBy hj (AList.mem_of_lookup hf)

/-- What `rename_file` passes: the keys of the two rows, which differ. -/
structure RenameFromService (tenantId spaceId : Uuid) (space : StorageSpace) (data : RenameData)
    (db : Db) : Prop where
  source : ∀ f, db.files.lookup data.sourceFileId = some f →
    physicalKey tenantId spaceId space data.sourceKey = some f.objectKey
  destination : physicalKey tenantId spaceId space data.destinationKey =
    some data.destinationPhysicalKey
  distinct : data.sourceKey ≠ data.destinationKey

theorem createRenameOperation_accepted {tenantId spaceId : Uuid} {space : StorageSpace}
    {ids : OperationIds} {data : RenameData} {op : FileOperation} (hdb : Consistent db)
    (hspace : db.spaces.lookup spaceId = some space)
    (hdata : RenameFromService tenantId spaceId space data db)
    (h : createRenameOperation ids spaceId data db = .ok (op, db')) :
    db' = db ∨ ∃ A : Acceptance, A.tenantId = tenantId ∧ A.id = ids.operation ∧ A.op = op ∧
      A.spaceId = spaceId ∧ A.space = space ∧ A.Accepted db' ∧ A.Holds db' := by
  rcases createRenameOperation_occupies hdb h with
    rfl | ⟨source, hsource, hsourceSpace, hactive, hfresh, rfl, hoccupies⟩
  · exact Or.inl rfl
  have hspaces : db'.spaces = db.spaces :=
    opExec_spaces (c := .createRenameOperation ids spaceId data) (Except.map_snd_eq_ok.mpr ⟨_, h⟩)
  have hne : data.sourceFileId ≠ ids.resultFile := by
    rintro heq
    exact hfresh (heq ▸ AList.mem_of_lookup hsource)
  have htarget : ∀ {key : String} {t : ProviderTarget},
      deriveProviderTarget tenantId spaceId space key = some t →
      physicalKey tenantId spaceId space key = some t.key := by
    intro key t ht
    rw [physicalKey, ht, Option.map_some]
  refine Or.inr ⟨⟨tenantId, ids.operation, spaceId, space,
    newRenameOperation spaceId ids.resultFile data, [(data.sourceFileId, source)],
    [(ids.resultFile, renamedFile data source)], rfl, fun _ heq ↦ ?_⟩, rfl, rfl, rfl, rfl, rfl,
    ⟨⟨hoccupies.consistent, hspaces ▸ hspace, ?_, fun j f' hf' hheld ↦ ?_⟩, ?_, ?_, fun _ ↦ ?_⟩,
    fun p hp ↦ ?_⟩
  · exact hdata.distinct (Option.some.inj heq)
  · exact ⟨_, by rw [hoccupies.operations, AList.lookup_insert], rfl⟩
  · obtain ⟨hj, f, hf, hcore⟩ := hoccupies.held hf' hheld
    refine ⟨f, ?_, hcore⟩
    rw [AList.lookup_insert'] at hf
    split at hf
    · rename_i hj
      obtain rfl := Option.some.inj hf
      simp [hj]
    · rename_i hj'
      have hj : j = data.sourceFileId := by simpa [hj'] using hj
      obtain rfl := Option.some.inj (hsource.symm.trans (hj ▸ hf))
      simp [hj]
  · intro p hp q hq heq
    simp only [List.cons_append, List.nil_append, List.mem_cons, List.not_mem_nil,
      or_false] at hp hq
    rcases hp with rfl | rfl
    · rcases hq with rfl | rfl
      · rfl
      · exact absurd heq.symm hne
    · rcases hq with rfl | rfl
      · exact absurd heq hne
      · rfl
  · rintro t ⟨key, hkey, ht⟩
    refine ⟨_, List.mem_singleton_self _, hactive, hsourceSpace, ?_⟩
    have hkey : key = data.sourceKey := by
      simp only [removedKeys, newRenameOperation] at hkey
      exact Option.some.inj (mem_truthy.mp hkey).1.symm
    subst hkey
    exact Option.some.inj ((hdata.source source hsource).symm.trans (htarget ht))
  · refine ⟨_, _, rfl, rfl, rfl, rfl, hne, ⟨rfl, rfl, rfl, rfl⟩, rfl, ?_⟩
    rintro t ⟨key, hkey, ht⟩
    have hkey : key = data.destinationKey := by
      simp only [createdKeys, newRenameOperation] at hkey
      exact Option.some.inj (mem_truthy.mp hkey).1.symm
    subst hkey
    exact ⟨hsourceSpace, Option.some.inj (hdata.destination.symm.trans (htarget ht))⟩
  · simp only [List.cons_append, List.nil_append, List.mem_cons, List.not_mem_nil, or_false] at hp
    rcases hp with rfl | rfl
    · exact hoccupies.heldBy (by simp)
        (AList.mem_insert'.mpr (Or.inr (AList.mem_of_lookup hsource)))
    · exact hoccupies.heldBy (by simp) (AList.mem_insert'.mpr (Or.inl rfl))

/-! ## Runs -/

/-- Deliveries of this operation start, and whatever else happens leaves gone what it removed
and there what it created. -/
def Permitted (A : Acceptance) (m : Workers γ) : WorkerEvent γ → Prop
  | .start p => ∃ op, op.order = A.op.order ∧ p = (executeOperation A.tenantId A.id op).run
  | .step _ _ => True
  | .outside e => A.Later m.world (happen e m.world)

theorem permitted_run {D : Digest γ} {m : Workers γ}
    (hm : Machine.Disciplined (A.discipline D) (OnSuccess A.Finished) m)
    {es : List (WorkerEvent γ)} (hmeets : Meets (workersExec D) A.Permitted m es) :
    Machine.Disciplined (A.discipline D) (OnSuccess A.Finished) (run (workersExec D) m es) := by
  refine Machine.disciplined_run (fun m e hm he ↦ ?_) hm hmeets
  cases e with
  | start p =>
      obtain ⟨op, hop, rfl⟩ := he
      exact executeOperation_safe hop hm.1
  | step i c => exact trivial
  | outside e =>
      refine ⟨?_, he⟩
      cases e with
      | command c => exact hm.1.advance c
      | provider objects => exact hm.1

/-- A source which is still occupied is still active. -/
theorem not_rowsAgree_of_held (h : A.Accepted db') (hdb : A.Underway db)
    (hheld : ∀ p ∈ A.sources, heldBy A.id db.files p.1) {t : ProviderTarget} (ht : A.Removed t) :
    ¬ A.RowsAgree db := by
  intro hagree
  obtain ⟨p, hp, hactive⟩ := h.listed t ht
  obtain ⟨f, hf, -, hcore⟩ := hdb.held (hheld p hp)
    (h.functional p (List.mem_append_left _ hp))
  exact hagree.removed t ht p.1 f hf ((activeAt_congr hcore).mpr hactive)

end Acceptance

/-- Once a delivery has reported success and the settlement has recorded it, database and
provider agree exactly when the operation is a rename which still occupies its rows, or the
rows stood so before.  The rows a move or a deletion still occupies never do. -/
theorem settlement_agrees {γ : Type} (D : Digest γ) (A : Acceptance) {w : World γ}
    (haccepted : A.Accepted w.db) {es : List (WorkerEvent γ)}
    (hmeets : Meets (workersExec D) A.Permitted ⟨w, []⟩ es) {i : ℕ}
    (hreturns : (run (workersExec D) ⟨w, []⟩ es).returns i (.ok (.succeeded, none)))
    (now : Timestamp) :
    let m := run (workersExec D) ⟨w, []⟩ es
    (A.Agrees { m.world with db := A.settled now m.world.db } ↔
      A.Moves m.world.db ∨ A.RowsAgree m.world.db) ∧
    ((∃ t, A.Removed t) → (∀ p ∈ A.sources, heldBy A.id m.world.db.files p.1) →
      ¬ A.RowsAgree m.world.db) := by
  intro m
  have hstart : Machine.Disciplined (A.discipline D) (Acceptance.OnSuccess A.Finished) ⟨w, []⟩ :=
    ⟨haccepted.underway, by simp⟩
  have hm : Machine.Disciplined (A.discipline D) (Acceptance.OnSuccess A.Finished) m :=
    Acceptance.permitted_run hstart hmeets
  have hobjects : A.Finished m.world := hm.result hreturns rfl
  have hunderway : A.Underway m.world.db := hm.1
  refine ⟨⟨fun hagrees ↦ ?_, ?_⟩, fun ⟨t, ht⟩ hheld ↦
    Acceptance.not_rowsAgree_of_held haccepted hunderway hheld ht⟩
  · by_cases hmoves : A.Moves m.world.db
    · exact Or.inl hmoves
    · refine Or.inr (hagrees.rows.congr ?_ ?_ ?_ fun j ↦
        (Acceptance.settled_congr hunderway haccepted.rename hmoves j).symm)
      all_goals
        obtain ⟨op, hop, -⟩ := hunderway.operation
        rw [Acceptance.settled_eq hop]
  · intro h
    refine ⟨⟨hobjects.removed, hobjects.created⟩, ?_⟩
    by_cases hmoves : A.Moves m.world.db
    · obtain ⟨source, result, hrows⟩ := haccepted.rename hmoves.1
      exact Acceptance.rowsAgree_of_moves hunderway haccepted.listed hrows hmoves
    · refine (h.resolve_left hmoves).congr ?_ ?_ ?_
        (Acceptance.settled_congr hunderway haccepted.rename hmoves)
      all_goals
        obtain ⟨op, hop, -⟩ := hunderway.operation
        rw [Acceptance.settled_eq hop]

namespace Sample

/-- The stored file right after the move has been accepted. -/
def accepted : Db := advance opExec stored (.createOperation operationIds 2 moveData)

def movingAccepted : World Bool := { moving none with db := accepted }

theorem moveData_fromService : Acceptance.FromService 1 2 space moveData where
  kind := by decide
  source _ := ⟨"a", by decide, by decide, by decide⟩
  destination _ := ⟨"b", by decide, by decide, by decide⟩
  keys := by simp [moveData]

theorem accepted_move : ∃ A : Acceptance, A.tenantId = 1 ∧ A.id = 50 ∧ A.op = move.op ∧
    A.spaceId = 2 ∧ A.space = space ∧ A.Accepted accepted := by
  have haccept : createOperation operationIds 2 moveData stored = .ok (move.op, accepted) := rfl
  obtain ⟨A, htenant, hid, hop, hspaceId, hspace, haccepted, -⟩ :=
    Acceptance.createOperation_accepted consistent_stored rfl moveData_fromService haccept
  exact ⟨A, htenant, hid, hop, hspaceId, hspace, haccepted⟩

/-- Nobody else works on what a delivery of the move works on. -/
theorem delivered_permitted_acceptance {A : Acceptance} (htenant : A.tenantId = 1)
    (hid : A.id = 50) (hop : A.op = move.op) (w : World Bool) (n : ℕ) :
    Meets (workersExec digest) A.Permitted ⟨w, []⟩ (delivered n) := by
  refine ⟨⟨move.op, by rw [hop], by rw [htenant, hid]; rfl⟩, ?_⟩
  generalize advance (workersExec digest) ⟨w, []⟩ _ = m
  induction n generalizing m with
  | zero => exact trivial
  | succ n ih => exact ⟨trivial, ih _⟩

theorem delivered_returns : (run (workersExec digest) ⟨movingAccepted, []⟩ (delivered 15)).returns 0
    (.ok (.succeeded, none)) := rfl

end Sample

theorem settlement_agrees_sample : ∃ A : Acceptance, A.op = Sample.move.op ∧
    let m := run (workersExec Sample.digest) ⟨Sample.movingAccepted, []⟩ (Sample.delivered 15)
    (A.Agrees { m.world with db := A.settled 0 m.world.db } ↔
      A.Moves m.world.db ∨ A.RowsAgree m.world.db) ∧
    ((∃ t, A.Removed t) → (∀ p ∈ A.sources, heldBy A.id m.world.db.files p.1) →
      ¬ A.RowsAgree m.world.db) := by
  obtain ⟨A, htenant, hid, hop, -, -, haccepted⟩ := Sample.accepted_move
  exact ⟨A, hop, settlement_agrees Sample.digest A haccepted
    (Sample.delivered_permitted_acceptance htenant hid hop _ _) Sample.delivered_returns 0⟩

/-- The row of a moved file stays active, though its object is gone. -/
theorem moved_file_keeps_row : ¬ ∀ (γ : Type) (D : Digest γ) (A : Acceptance) (w : World γ)
    (es : List (WorkerEvent γ)) (i : ℕ) (now : Timestamp), A.Accepted w.db →
      Meets (workersExec D) A.Permitted ⟨w, []⟩ es →
      (run (workersExec D) ⟨w, []⟩ es).returns i (.ok (.succeeded, none)) →
      A.Agrees { (run (workersExec D) ⟨w, []⟩ es).world with
        db := A.settled now (run (workersExec D) ⟨w, []⟩ es).world.db } := by
  intro h
  obtain ⟨A, htenant, hid, hop, hspaceId, hspace, haccepted⟩ := Sample.accepted_move
  have hagrees := h Bool Sample.digest A Sample.movingAccepted (Sample.delivered 15) 0 0 haccepted
    (Sample.delivered_permitted_acceptance htenant hid hop _ _) Sample.delivered_returns
  have hremoved : A.Removed ⟨"bucket", "ns/a", 1⟩ := by
    refine ⟨"a", ?_, ?_⟩
    · rw [Acceptance.removedKeys, hop]
      decide
    · rw [Acceptance.target, htenant, hspaceId, hspace]
      decide
  refine hagrees.rows.removed _ hremoved 30 { Sample.file with operationPhase := none } ?_ ?_
  · rw [Acceptance.settled, hid]
    rfl
  · rw [hspaceId]
    exact ⟨rfl, rfl, rfl⟩
end S3mp
