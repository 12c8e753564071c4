import S3mp.Common.Sequencing
import S3mp.Operations.Deliveries

/-!
# Occupied rows

No command touches a file row which an operation occupies, save the deliveries of
that operation, and these leave it as it is until they set it free.  The unique
index on active keys holds in every run.
-/

namespace S3mp

open Relational Files Governance Transition

variable {db db' : Db} {o j : Uuid}

/-- The row stands for an object at its key. -/
def Files.FileObject.active (f : FileObject) : Bool :=
  f.status = .available && !f.softDeleted

/-- The row is as an acceptance found or made it. -/
def Files.FileObject.operable (f : FileObject) : Prop :=
  (f.status = .available ∨ f.status = .renaming) ∧ f.softDeleted = false

/-- What every run keeps true of the file rows. -/
structure Consistent (db : Db) : Prop where
  unique : ∀ i j f g, db.files.lookup i = some f → db.files.lookup j = some g → f.holdsKey →
    g.holdsKey → g.storageSpaceId = f.storageSpaceId → g.objectKey = f.objectKey → j = i
  operable : ∀ j f, db.files.lookup j = some f → f.activeOperationId.isSome → f.operable
  known : ∀ j f o, db.files.lookup j = some f → f.activeOperationId = some o → o ∈ db.operations

theorem Files.FileObject.operable.holdsKey {f : FileObject} (h : f.operable) :
    f.holdsKey = true := by
  rcases h.1 with hs | hs <;> simp [FileObject.holdsKey, hs]

theorem unique_of_conflictsIn {id : Uuid} {f g : FileObject} {files : Table Uuid FileObject}
    (h : f.conflictsIn id files = none) (hf : f.holdsKey) (hj : files.lookup j = some g)
    (hg : g.holdsKey) (hspace : g.storageSpaceId = f.storageSpaceId)
    (hkey : g.objectKey = f.objectKey) : j = id := by
  by_contra hne
  unfold FileObject.conflictsIn at h
  split at h
  · cases h
  · rename_i hnone
    refine hnone (Bool.and_eq_true_iff.mpr ⟨hf, AList.anyRow_eq_true.mpr ⟨j, g, hj, ?_⟩⟩)
    simp [hne, hg, hspace, hkey]

/-! ## The other commands -/

/-- What a command beside the operations does to the one row it may change. -/
inductive RowChange (db : Db) (k : Uuid) : FileObject → Prop
  | same (f : FileObject) (hf : db.files.lookup k = some f) : RowChange db k f
  | edited (f f' : FileObject) (hf : db.files.lookup k = some f)
      (hactive : f'.activeOperationId = f.activeOperationId)
      (hspace : f'.storageSpaceId = f.storageSpaceId)
      (hkey : (f'.objectKey = f.objectKey ∧ (f'.holdsKey → f.holdsKey)) ∨
        f'.conflictsIn k db.files = none)
      (hfree : f.operable → f.activeOperationId = none) : RowChange db k f'
  | created (f' : FileObject) (hk : k ∉ db.files)
      (hunique : f'.holdsKey → f'.conflictsIn k db.files = none)
      (hfree : f'.activeOperationId = none) : RowChange db k f'

/-- The row with the given key is the only one to change, and no row is lost. -/
structure ChangesRow (k : Uuid) (db db' : Db) : Prop where
  others : ∀ j, j ≠ k → db'.files.lookup j = db.files.lookup j
  stays : k ∈ db.files → k ∈ db'.files
  change : ∀ f', db'.files.lookup k = some f' → RowChange db k f'

theorem changesRow_of_files (k : Uuid) (h : db'.files = db.files) : ChangesRow k db db' :=
  ⟨fun j _ ↦ by rw [h], fun hk ↦ by rwa [h], fun f' hf' ↦ .same f' (h ▸ hf')⟩

theorem changesRow_of_update {k : Uuid} {f f' : FileObject} (hf : db.files.lookup k = some f)
    (hchange : RowChange db k f') (h : db'.files = db.files.update k fun _ ↦ f') :
    ChangesRow k db db' := by
  refine ⟨fun j hj ↦ by rw [h, AList.lookup_update_of_ne hj], fun hk ↦ ?_, fun g hg ↦ ?_⟩
  · rwa [h, AList.mem_update]
  · rw [h, AList.lookup_update_self, hf, Option.map_some] at hg
    exact Option.some.inj hg ▸ hchange

theorem FileEdit.rowChange {k : Uuid} {f f' : FileObject} (h : FileEdit f f')
    (hf : db.files.lookup k = some f)
    (hkey : f'.objectKey = f.objectKey ∨ f'.conflictsIn k db.files = none) :
    RowChange db k f' := by
  cases h with
  | retained now data _ hstatus _ hfree =>
      exact .edited f _ hf rfl rfl (Or.inl ⟨rfl, fun _ ↦ by simp [FileObject.holdsKey, hstatus]⟩)
        fun _ ↦ hfree
  | migrated _ key hstatus hsoft =>
      refine .edited f _ hf rfl rfl (hkey.imp_left fun hkey ↦ ⟨hkey, fun _ ↦ ?_⟩) ?_
      · simp [FileObject.holdsKey, hsoft]
      · simp [FileObject.operable, hsoft]
  | retried _ attempts retryAt status hstatus hnext =>
      refine .edited f _ hf rfl rfl (hkey.imp_left fun hkey ↦ ⟨hkey, fun _ ↦ ?_⟩) ?_
      · simp [FileObject.holdsKey, hstatus]
      · simp [FileObject.operable, hstatus]
  | claimed _ hsoft hstate =>
      refine .edited f _ hf rfl rfl (Or.inl ⟨rfl, id⟩) ?_
      simp [FileObject.operable, hsoft]
  | postponed _ retryAt hsoft hstate =>
      refine .edited f _ hf rfl rfl (Or.inl ⟨rfl, id⟩) ?_
      simp [FileObject.operable, hsoft]

/-- Beside the operations a command changes one file row at most. -/
theorem step_rows {c : Cmd} (h : Step db c db') : ∃ k, ChangesRow k db db' := by
  cases h with
  | idle | sessions | quotaCreated | quotaOverwritten | quotaRevoked | platformLimitSet | limitSet
  | uploadCreated | multipartCreated | verified | failed | requeued | expired =>
      exact ⟨0, changesRow_of_files 0 rfl⟩
  | reaped now picked =>
      rw [reapOrphanReservations, reapOrphanReservationsWith_frame]
      exact ⟨0, changesRow_of_files 0 rfl⟩
  | edited _ k f f' deletions hf hedit hkey =>
      exact ⟨k, changesRow_of_update hf (hedit.rowChange hf hkey) rfl⟩
  | deleted now k f hf hstatus =>
      have hchange : RowChange db k (deletedFile now f) := by
        refine .edited f _ hf rfl rfl (Or.inl ⟨rfl, fun _ ↦ ?_⟩) ?_
        · simp [FileObject.holdsKey, hstatus]
        · simp [FileObject.operable, hstatus]
      exact ⟨k, changesRow_of_update hf hchange rfl⟩
  | purged now k f hf hsoft hstate =>
      have hchange : RowChange db k (purgedFile now f) := by
        refine .edited f _ hf rfl rfl (Or.inl ⟨rfl, fun _ ↦ ?_⟩) ?_
        · simp [FileObject.holdsKey, hsoft]
        · simp [FileObject.operable, hsoft]
      exact ⟨k, changesRow_of_update hf hchange rfl⟩
  | commit now fileId id _ hcommit =>
      cases hcommit with
      | replayed => exact ⟨0, changesRow_of_files 0 rfl⟩
      | unreserved row hready | charged row hready =>
          refine ⟨fileId, fun j hj ↦ AList.lookup_insert_ne hj,
            fun _ ↦ AList.mem_insert'.mpr (Or.inl rfl), fun f' hf' ↦ ?_⟩
          obtain rfl := Option.some.inj ((AList.lookup_insert _).symm.trans hf')
          exact .created _ hready.fresh (fun _ ↦ hready.unique) rfl
      | refused row hready =>
          refine ⟨fileId, fun j hj ↦ ?_, fun _ ↦ ?_, fun f' hf' ↦ ?_⟩
          · exact (AList.lookup_update_of_ne hj _ _).trans (AList.lookup_insert_ne hj)
          · exact AList.mem_update.mpr (AList.mem_insert'.mpr (Or.inl rfl))
          · obtain ⟨f, hf, rfl⟩ := AList.of_lookup_update hf'
            obtain rfl := Option.some.inj ((AList.lookup_insert _).symm.trans hf)
            rw [if_pos rfl]
            exact .created _ hready.fresh (by simp [FileObject.holdsKey, newFile]) rfl
  | appDeleted applicationId =>
      refine ⟨0, changesRow_of_files 0 ?_⟩
      unfold Applications.deleteApp
      split
      · rfl
      split
      · rfl
      · rfl

theorem step_mem_operations {c : Cmd} (h : Step db c db') :
    o ∈ db'.operations ↔ o ∈ db.operations := by
  cases h with
  | idle | sessions | edited | deleted | purged | quotaCreated | quotaOverwritten | quotaRevoked
  | platformLimitSet | limitSet | uploadCreated | multipartCreated | verified | failed | requeued
  | expired => exact Iff.rfl
  | reaped now picked =>
      rw [reapOrphanReservations, reapOrphanReservationsWith_frame]
  | commit now fileId id _ hcommit =>
      cases hcommit with
      | replayed | unreserved | charged | refused => exact Iff.rfl
  | appDeleted applicationId =>
      unfold Applications.deleteApp
      split
      · exact Iff.rfl
      split
      · exact Iff.rfl
      · exact AList.mem_updateWhere

theorem Consistent.changesRow {k : Uuid} (hdb : Consistent db) (h : ChangesRow k db db')
    (hoperations : ∀ o, o ∈ db'.operations ↔ o ∈ db.operations) : Consistent db' := by
  obtain ⟨hothers, -, hchange⟩ := h
  -- Against the changed row, only the rows of the other keys count.
  have hpair : ∀ j f g, db'.files.lookup k = some f → db.files.lookup j = some g → f.holdsKey →
      g.holdsKey → g.storageSpaceId = f.storageSpaceId → g.objectKey = f.objectKey → j = k := by
    intro j f g hf hg hfkey hgkey hspace hkey
    cases hchange f hf with
    | same _ hold => exact hdb.unique k j f g hold hg hfkey hgkey hspace hkey
    | edited f₀ _ hold _ hsame hkeys _ =>
        rcases hkeys with ⟨hkeep, hholds⟩ | hnone
        · exact hdb.unique k j f₀ g hold hg (hholds hfkey) hgkey (hspace.trans hsame)
            (hkey.trans hkeep)
        · exact unique_of_conflictsIn hnone hfkey hg hgkey hspace hkey
    | created _ _ hunique _ => exact unique_of_conflictsIn (hunique hfkey) hfkey hg hgkey hspace hkey
  refine ⟨fun i j f g hf hg hfkey hgkey hspace hkey ↦ ?_, fun j f hf hheld ↦ ?_,
    fun j f o hf hheld ↦ ?_⟩
  · by_cases hi : i = k
    · subst hi
      by_cases hj : j = i
      · exact hj
      · exact hpair j f g hf (hothers j hj ▸ hg) hfkey hgkey hspace hkey
    · have hf₀ := hothers i hi ▸ hf
      by_cases hj : j = k
      · subst hj
        exact (hpair i g f hg hf₀ hgkey hfkey hspace.symm hkey.symm).symm
      · exact hdb.unique i j f g hf₀ (hothers j hj ▸ hg) hfkey hgkey hspace hkey
  · by_cases hj : j = k
    · subst hj
      cases hchange f hf with
      | same _ hold => exact hdb.operable j f hold hheld
      | edited f₀ _ hold hactive _ _ hfree =>
          rw [hactive] at hheld
          rw [hfree (hdb.operable j f₀ hold hheld)] at hheld
          cases hheld
      | created _ _ _ hfree =>
          rw [hfree] at hheld
          cases hheld
    · exact hdb.operable j f (hothers j hj ▸ hf) hheld
  · rw [hoperations]
    by_cases hj : j = k
    · subst hj
      cases hchange f hf with
      | same _ hold => exact hdb.known j f o hold hheld
      | edited f₀ _ hold hactive _ _ _ => exact hdb.known j f₀ o hold (hactive ▸ hheld)
      | created _ _ _ hfree =>
          rw [hfree] at hheld
          cases hheld
    · exact hdb.known j f o (hothers j hj ▸ hf) hheld

theorem Consistent.step {c : Cmd} (hdb : Consistent db) (h : Step db c db') : Consistent db' := by
  obtain ⟨k, hchanges⟩ := step_rows h
  exact hdb.changesRow hchanges fun o ↦ step_mem_operations h

/-! ## Deliveries and acceptance -/

/-- A row the operation occupies now was occupied before and is the same. -/
def HeldBack (o : Uuid) (db db' : Db) : Prop :=
  ∀ j f', db'.files.lookup j = some f' → f'.activeOperationId = some o →
    ∃ f, db.files.lookup j = some f ∧ f.activeOperationId = some o ∧ f'.core = f.core

theorem HeldBack.refl (o : Uuid) (db : Db) : HeldBack o db db :=
  fun _ f hf hheld ↦ ⟨f, hf, hheld, rfl⟩

theorem HeldBack.trans {db'' : Db} (h : HeldBack o db db') (h' : HeldBack o db' db'') :
    HeldBack o db db'' := by
  intro j f'' hf'' hheld
  obtain ⟨f', hf', hheld', hcore'⟩ := h' j f'' hf'' hheld
  obtain ⟨f, hf, hheld'', hcore⟩ := h j f' hf' hheld'
  exact ⟨f, hf, hheld'', hcore'.trans hcore⟩

theorem ActsFor.heldBack {o' : Uuid} (h : ActsFor o' db db') : HeldBack o db db' := by
  intro j f' hf' hheld
  obtain ⟨f, hf, ⟨hcore, hactive⟩ | ⟨-, hnone, -, -⟩⟩ := h.frame j f' hf'
  · exact ⟨f, hf, hactive ▸ hheld, hcore⟩
  · rw [hnone] at hheld
    cases hheld

theorem Consistent.heldBack {k : Uuid} (hdb : Consistent db) (h : ChangesRow k db db') :
    HeldBack o db db' := by
  obtain ⟨hothers, -, hchange⟩ := h
  intro j f' hf' hheld
  by_cases hj : j = k
  · subst hj
    cases hchange f' hf' with
    | same _ hold => exact ⟨f', hold, hheld, rfl⟩
    | edited f _ hold hactive _ _ hfree =>
        have hfheld : f.activeOperationId = some o := hactive ▸ hheld
        rw [hfree (hdb.operable j f hold (by simp [hfheld]))] at hfheld
        cases hfheld
    | created _ _ _ hfree =>
        rw [hfree] at hheld
        cases hheld
  · exact ⟨f', hothers j hj ▸ hf', hheld, rfl⟩

theorem core_fields {f g : FileObject} (h : f.core = g.core) :
    f.status = g.status ∧ f.softDeleted = g.softDeleted ∧ f.storageSpaceId = g.storageSpaceId ∧
      f.objectKey = g.objectKey ∧ f.contentLength = g.contentLength ∧ f.checksum = g.checksum ∧
      f.applicationId = g.applicationId := by
  simp only [FileObject.core, FileObject.mk.injEq] at h
  simp only [h, and_self]

theorem holdsKey_congr {f g : FileObject} (h : f.core = g.core) : f.holdsKey = g.holdsKey := by
  obtain ⟨hstatus, hsoft, -⟩ := core_fields h
  rw [FileObject.holdsKey, FileObject.holdsKey, hstatus, hsoft]

theorem ActsFor.mem_operations {o' : Uuid} (h : ActsFor o' db db') :
    o ∈ db'.operations ↔ o ∈ db.operations := by
  rw [← AList.lookup_isSome, ← AList.lookup_isSome]
  by_cases ho : o = o'
  · subst ho
    rw [← Option.isSome_map (f := (·.order)), h.order, Option.isSome_map]
  · rw [h.others o ho]

/-- Every key was held by the same row before. -/
def KeepsKeys (db db' : Db) : Prop :=
  ∀ j f', db'.files.lookup j = some f' → f'.holdsKey →
    ∃ f, db.files.lookup j = some f ∧ f.holdsKey ∧ f.storageSpaceId = f'.storageSpaceId ∧
      f.objectKey = f'.objectKey

theorem ActsFor.keepsKeys (h : ActsFor o db db') (hdb : Consistent db) : KeepsKeys db db' := by
  intro j f' hf' hholds
  obtain ⟨f, hf, ⟨hcore, -⟩ | ⟨hheld, -, hspace, hkey⟩⟩ := h.frame j f' hf'
  · obtain ⟨-, -, hspace, hkey, -⟩ := core_fields hcore
    exact ⟨f, hf, holdsKey_congr hcore ▸ hholds, hspace.symm, hkey.symm⟩
  · exact ⟨f, hf, (hdb.operable j f hf (by simp [hheld])).holdsKey, hspace.symm, hkey.symm⟩

theorem ActsFor.consistent (h : ActsFor o db db') (hdb : Consistent db) : Consistent db' := by
  have hkey := h.keepsKeys hdb
  refine ⟨fun i j f' g' hf' hg' hfkey hgkey hspace hobject ↦ ?_, fun j f' hf' hheld ↦ ?_,
    fun j f' o' hf' hheld ↦ ?_⟩
  · obtain ⟨f, hf, hfholds, hfspace, hfobject⟩ := hkey i f' hf' hfkey
    obtain ⟨g, hg, hgholds, hgspace, hgobject⟩ := hkey j g' hg' hgkey
    exact hdb.unique i j f g hf hg hfholds hgholds (by rw [hgspace, hfspace, hspace])
      (by rw [hgobject, hfobject, hobject])
  · obtain ⟨o', ho'⟩ := Option.isSome_iff_exists.mp hheld
    obtain ⟨f, hf, hfheld, hcore⟩ := h.heldBack j f' hf' ho'
    obtain ⟨hstatus, hsoft, -⟩ := core_fields hcore
    have hoperable := hdb.operable j f hf (by simp [hfheld])
    rwa [FileObject.operable, hstatus, hsoft]
  · obtain ⟨f, hf, hfheld, -⟩ := h.heldBack j f' hf' hheld
    exact h.mem_operations.mpr (hdb.known j f o' hf hfheld)

/-! ## Acceptance -/

theorem lookup_occupy {ids : List Uuid} {files : Table Uuid FileObject} {f' : FileObject}
    (hf' : (occupy o ids files).lookup j = some f') :
    ∃ f, files.lookup j = some f ∧ f'.core = f.core ∧
      ((j ∈ ids ∧ f'.activeOperationId = some o) ∨
        (j ∉ ids ∧ f'.activeOperationId = f.activeOperationId)) := by
  rw [occupy, AList.lookup_updateWhere] at hf'
  obtain ⟨f, hf, rfl⟩ := Option.map_eq_some_iff.mp hf'
  refine ⟨f, hf, ?_⟩
  by_cases hj : j ∈ ids
  · simp [hj, FileObject.core]
  · simp [hj]

theorem foldl_last_mem {α : Type} {step : Option α → α → Option α} {xs : List α} {x : α}
    (hstep : ∀ last y, step last y = last ∨ step last y = some y) {init : Option α}
    (h : xs.foldl step init = some x) : x ∈ xs ∨ init = some x := by
  induction xs generalizing init with
  | nil => exact Or.inr h
  | cons y xs ih =>
      rcases ih h with hmem | hlast
      · exact Or.inl (List.mem_cons_of_mem y hmem)
      · rcases hstep init y with hkeep | hnew
        · exact Or.inr (hkeep ▸ hlast)
        · obtain rfl := Option.some.inj (hnew.symm.trans hlast)
          exact Or.inl List.mem_cons_self

theorem rowByKey_eq_some {spaceId : Uuid} {key : String} {files : Table Uuid FileObject}
    {f : FileObject} (h : rowByKey spaceId key files = some (j, f)) :
    files.lookup j = some f ∧ f.storageSpaceId = spaceId ∧ f.objectKey = key := by
  unfold rowByKey at h
  rcases foldl_last_mem (fun last row ↦ by split <;> simp) h with hmem | hnone
  · obtain ⟨hf, hp⟩ := AList.mem_select_iff.mp hmem
    simp only [Bool.and_eq_true, decide_eq_true_eq] at hp
    exact ⟨hf, hp.1, hp.2⟩
  · cases hnone

/-- A new operation occupies operable rows which were free. -/
structure Occupies (o : Uuid) (op : FileOperation) (ids : List Uuid)
    (files : Table Uuid FileObject) (db db' : Db) : Prop where
  fresh : o ∉ db.operations
  operations : db'.operations = db.operations.insert o op
  occupied : db'.files = occupy o ids files
  before : Consistent { db with files }
  free : ∀ j ∈ ids, ∀ f, files.lookup j = some f → f.operable ∧ f.activeOperationId = none

theorem Occupies.consistent {op : FileOperation} {ids : List Uuid}
    {files : Table Uuid FileObject} (h : Occupies o op ids files db db') : Consistent db' := by
  refine ⟨fun i j f' g' hf' hg' hfkey hgkey hspace hobject ↦ ?_, fun j f' hf' hheld ↦ ?_,
    fun j f' o' hf' hheld ↦ ?_⟩
  · obtain ⟨f, hf, hfcore, -⟩ := lookup_occupy (h.occupied ▸ hf')
    obtain ⟨g, hg, hgcore, -⟩ := lookup_occupy (h.occupied ▸ hg')
    obtain ⟨-, -, hfspace, hfobject, -⟩ := core_fields hfcore
    obtain ⟨-, -, hgspace, hgobject, -⟩ := core_fields hgcore
    exact h.before.unique i j f g hf hg (holdsKey_congr hfcore ▸ hfkey)
      (holdsKey_congr hgcore ▸ hgkey) (by rw [← hgspace, ← hfspace, hspace])
      (by rw [← hgobject, ← hfobject, hobject])
  · obtain ⟨f, hf, hcore, hoccupied⟩ := lookup_occupy (h.occupied ▸ hf')
    obtain ⟨hstatus, hsoft, -⟩ := core_fields hcore
    rw [FileObject.operable, hstatus, hsoft]
    rcases hoccupied with ⟨hj, -⟩ | ⟨-, hactive⟩
    · exact (h.free j hj f hf).1
    · exact h.before.operable j f hf (hactive ▸ hheld)
  · rw [h.operations, AList.mem_insert']
    obtain ⟨f, hf, -, hoccupied⟩ := lookup_occupy (h.occupied ▸ hf')
    rcases hoccupied with ⟨-, hactive⟩ | ⟨-, hactive⟩
    · exact Or.inl (Option.some.inj (hheld.symm.trans hactive))
    · exact Or.inr (h.before.known j f o' hf (hactive ▸ hheld))

/-- The rows it occupies are those it was given. -/
theorem Occupies.held {op : FileOperation} {ids : List Uuid} {files : Table Uuid FileObject}
    (h : Occupies o op ids files db db') {f' : FileObject} (hf' : db'.files.lookup j = some f')
    (hheld : f'.activeOperationId = some o) :
    j ∈ ids ∧ ∃ f, files.lookup j = some f ∧ f'.core = f.core := by
  obtain ⟨f, hf, hcore, ⟨hj, -⟩ | ⟨-, hactive⟩⟩ := lookup_occupy (h.occupied ▸ hf')
  · exact ⟨hj, f, hf, hcore⟩
  · exact absurd (h.before.known j f o hf (hactive ▸ hheld)) h.fresh

theorem Occupies.heldBy {op : FileOperation} {ids : List Uuid} {files : Table Uuid FileObject}
    (h : Occupies o op ids files db db') (hj : j ∈ ids) (hmem : j ∈ files) :
    heldBy o db'.files j := by
  obtain ⟨f, hf⟩ := AList.exists_lookup_of_mem hmem
  rw [h.occupied, heldBy_eq_true, occupy, AList.lookup_updateWhere, hf, Option.map_some]
  exact ⟨_, rfl, by simp [hj]⟩

theorem Occupies.heldBack {o' : Uuid} {op : FileOperation} {ids : List Uuid}
    {files : Table Uuid FileObject} (h : Occupies o' op ids files db db')
    (hfiles : HeldBack o db { db with files }) (ho : o ∈ db.operations) : HeldBack o db db' := by
  intro j f' hf' hheld
  obtain ⟨f, hf, hcore, ⟨-, hactive⟩ | ⟨-, hactive⟩⟩ := lookup_occupy (h.occupied ▸ hf')
  · obtain rfl := Option.some.inj (hactive.symm.trans hheld)
    exact absurd ho h.fresh
  · obtain ⟨f₀, hf₀, hheld₀, hcore₀⟩ := hfiles j f hf (hactive ▸ hheld)
    exact ⟨f₀, hf₀, hheld₀, hcore.trans hcore₀⟩

theorem createOperation_occupies {ids : OperationIds} {spaceId : Uuid} {data : OperationData}
    {op : FileOperation} (hdb : Consistent db)
    (h : createOperation ids spaceId data db = .ok (op, db')) :
    ∃ idempotencyKey occupied, op = newOperation spaceId data idempotencyKey ∧
      Occupies ids.operation op occupied db.files db db' ∧
      (operationResourceKeys data).1.mapM (checkOccupied spaceId db.files) = .ok occupied ∧
      (operationResourceKeys data).2.forM (checkDestination spaceId db.files) = .ok ⟨⟩ := by
  obtain ⟨idempotencyKey, occupied, _, _, hop, hfresh, hoccupied, hdestination, rfl⟩ :=
    createOperation_eq_ok h
  refine ⟨idempotencyKey, occupied, hop, ⟨hfresh, rfl, rfl, hdb, fun j hj f hf ↦ ?_⟩, hoccupied,
    hdestination⟩
  obtain ⟨key, -, hkey⟩ := (mem_iff_of_mapM hoccupied).mp hj
  obtain ⟨f₀, hrow, hfree, hstatus, hsoft⟩ := mem_keys_of_checkOccupied hkey
  obtain rfl := Option.some.inj ((rowByKey_eq_some hrow).1.symm.trans hf)
  exact ⟨⟨Or.inl hstatus, hsoft⟩, hfree⟩

/-- The table with a free row which violates no index. -/
theorem Consistent.insert {k : Uuid} {f : FileObject} (hdb : Consistent db)
    (hunique : f.conflictsIn k db.files = none) (hfree : f.activeOperationId = none) :
    Consistent { db with files := db.files.insert k f } := by
  have hpair : ∀ j g, db.files.lookup j = some g → f.holdsKey → g.holdsKey →
      g.storageSpaceId = f.storageSpaceId → g.objectKey = f.objectKey → j = k :=
    fun j g hg hf hgkey hspace hkey ↦ unique_of_conflictsIn hunique hf hg hgkey hspace hkey
  have hlookup : ∀ j g, (db.files.insert k f).lookup j = some g →
      (j = k ∧ g = f) ∨ (j ≠ k ∧ db.files.lookup j = some g) := by
    intro j g hg
    rw [AList.lookup_insert'] at hg
    split at hg
    · rename_i hj
      exact Or.inl ⟨hj, (Option.some.inj hg).symm⟩
    · rename_i hj
      exact Or.inr ⟨hj, hg⟩
  refine ⟨fun i j f' g' hf' hg' hfkey hgkey hspace hobject ↦ ?_, fun j f' hf' hheld ↦ ?_,
    fun j f' o' hf' hheld ↦ ?_⟩
  · rcases hlookup i f' hf' with ⟨rfl, rfl⟩ | ⟨hi, hf₀⟩
    · rcases hlookup j g' hg' with ⟨rfl, rfl⟩ | ⟨-, hg₀⟩
      · rfl
      · exact hpair j g' hg₀ hfkey hgkey hspace hobject
    · rcases hlookup j g' hg' with ⟨rfl, rfl⟩ | ⟨-, hg₀⟩
      · exact (hpair i f' hf₀ hgkey hfkey hspace.symm hobject.symm).symm
      · exact hdb.unique i j f' g' hf₀ hg₀ hfkey hgkey hspace hobject
  · rcases hlookup j f' hf' with ⟨rfl, rfl⟩ | ⟨-, hf₀⟩
    · rw [hfree] at hheld
      cases hheld
    · exact hdb.operable j f' hf₀ hheld
  · rcases hlookup j f' hf' with ⟨rfl, rfl⟩ | ⟨-, hf₀⟩
    · rw [hfree] at hheld
      cases hheld
    · exact hdb.known j f' o' hf₀ hheld

theorem createRenameOperation_occupies {ids : OperationIds} {spaceId : Uuid} {data : RenameData}
    {op : FileOperation} (hdb : Consistent db)
    (h : createRenameOperation ids spaceId data db = .ok (op, db')) :
    db' = db ∨ ∃ source, db.files.lookup data.sourceFileId = some source ∧
      source.storageSpaceId = spaceId ∧ source.active ∧ ids.resultFile ∉ db.files ∧
      op = newRenameOperation spaceId ids.resultFile data ∧
      Occupies ids.operation op [data.sourceFileId, ids.resultFile]
        (db.files.insert ids.resultFile (renamedFile data source)) db db' := by
  rcases createRenameOperation_eq_ok h with rfl | ⟨source, files, -, hsource, hspace, hstatus,
    hsoft, hfree, hop, hfresh, hinsert, rfl⟩
  · exact Or.inl rfl
  obtain ⟨hunique, hresult, rfl⟩ := insertFile_eq_ok.mp hinsert
  refine Or.inr ⟨source, hsource, hspace, by simp [FileObject.active, hstatus, hsoft], hresult, hop,
    hfresh, rfl, rfl, hdb.insert hunique rfl, fun j hj f hf ↦ ?_⟩
  rw [AList.lookup_insert'] at hf
  split at hf
  · obtain rfl := Option.some.inj hf
    exact ⟨⟨Or.inr rfl, rfl⟩, rfl⟩
  · rename_i hne
    have hj : j = data.sourceFileId := by simpa [hne] using hj
    subst hj
    obtain rfl := Option.some.inj (hsource.symm.trans hf)
    exact ⟨⟨Or.inl hstatus, hsoft⟩, hfree⟩

/-! ## Every command -/

/-- What any command preserves: consistency, rows which stay occupied, accepted operations. -/
structure Framed (db db' : Db) : Prop where
  consistent : Consistent db'
  heldBack : ∀ o, o ∈ db.operations → HeldBack o db db'
  order : ∀ o op, db.operations.lookup o = some op →
    ∃ op', db'.operations.lookup o = some op' ∧ op'.order = op.order

theorem Framed.refl (hdb : Consistent db) : Framed db db :=
  ⟨hdb, fun o _ ↦ .refl o db, fun _ op hop ↦ ⟨op, hop, rfl⟩⟩

theorem Framed.trans {db'' : Db} (h : Framed db db') (h' : Framed db' db'') :
    Framed db db'' := by
  refine ⟨h'.consistent, fun o ho ↦ ?_, fun o op hop ↦ ?_⟩
  · obtain ⟨op, hop⟩ := AList.exists_lookup_of_mem ho
    obtain ⟨op', hop', -⟩ := h.order o op hop
    exact (h.heldBack o ho).trans (h'.heldBack o (AList.mem_of_lookup hop'))
  · obtain ⟨op', hop', horder⟩ := h.order o op hop
    obtain ⟨op'', hop'', horder'⟩ := h'.order o op' hop'
    exact ⟨op'', hop'', horder'.trans horder⟩

theorem ActsFor.framed (h : ActsFor o db db') (hdb : Consistent db) : Framed db db' := by
  refine ⟨h.consistent hdb, fun o' _ ↦ h.heldBack, fun o' op hop ↦ ?_⟩
  by_cases ho : o' = o
  · subst ho
    have horder := h.order
    rw [hop, Option.map_some] at horder
    exact Option.map_eq_some_iff.mp horder
  · exact ⟨op, (h.others o' ho).trans hop, rfl⟩

theorem Occupies.framed {op : FileOperation} {ids : List Uuid} {files : Table Uuid FileObject}
    (h : Occupies o op ids files db db')
    (hfiles : ∀ o', HeldBack o' db { db with files }) : Framed db db' := by
  refine ⟨h.consistent, fun o' ho' ↦ h.heldBack (hfiles o') ho', fun o' op' hop' ↦ ?_⟩
  have ho : o' ≠ o := by
    rintro rfl
    exact h.fresh (AList.mem_of_lookup hop')
  exact ⟨op', by rw [h.operations, AList.lookup_insert_ne ho, hop'], rfl⟩

theorem step_order {c : Cmd} (h : Step db c db') {op : FileOperation}
    (hop : db.operations.lookup o = some op) :
    ∃ op', db'.operations.lookup o = some op' ∧ op'.order = op.order := by
  by_cases hstatus : op.status = .pending
  · cases h with
    | idle | sessions | edited | deleted | purged | quotaCreated | quotaOverwritten
    | quotaRevoked | platformLimitSet | limitSet | uploadCreated | multipartCreated | verified
    | failed | requeued | expired => exact ⟨op, hop, rfl⟩
    | reaped now picked =>
        rw [reapOrphanReservations, reapOrphanReservationsWith_frame]
        exact ⟨op, hop, rfl⟩
    | commit now fileId id _ hcommit =>
        cases hcommit with
        | replayed | unreserved | charged | refused => exact ⟨op, hop, rfl⟩
    | appDeleted applicationId =>
        unfold Applications.deleteApp
        split
        · exact ⟨op, hop, rfl⟩
        split
        · exact ⟨op, hop, rfl⟩
        · rw [AList.lookup_updateWhere, hop, Option.map_some]
          refine ⟨_, rfl, ?_⟩
          split
          · rfl
          · rfl
  · exact ⟨op, step_operations h hop hstatus, rfl⟩

theorem foldlM_framed {turn : Db → Uuid → Tx Db}
    (hturn : ∀ {s s' o}, turn s o = .ok s' → ActsFor o s s') {picked : List Uuid}
    (hdb : Consistent db) (h : picked.foldlM turn db = .ok db') : Framed db db' := by
  induction picked generalizing db with
  | nil =>
      cases h
      exact .refl hdb
  | cons o picked ih =>
      rw [List.foldlM_cons] at h
      obtain ⟨db₁, hfirst, hrest⟩ := Except.bind_eq_ok.mp h
      have hframed := (hturn hfirst).framed hdb
      exact hframed.trans (ih hframed.consistent hrest)

theorem opExec_framed {c : OpCmd} (hdb : Consistent db) (h : opExec c db = .ok db') :
    Framed db db' := by
  cases c with
  | createOperation ids spaceId data =>
      obtain ⟨op, h⟩ := Except.map_snd_eq_ok.mp h
      obtain ⟨_, occupied, -, hoccupies, -⟩ := createOperation_occupies hdb h
      exact hoccupies.framed fun o' ↦ .refl o' db
  | createRenameOperation ids spaceId data =>
      obtain ⟨op, h⟩ := Except.map_snd_eq_ok.mp h
      rcases createRenameOperation_occupies hdb h with
        rfl | ⟨source, -, -, -, hfresh, -, hoccupies⟩
      · exact .refl hdb
      refine hoccupies.framed fun o' j f hf hheld ↦ ?_
      dsimp only at hf
      rw [AList.lookup_insert'] at hf
      split at hf
      · obtain rfl := Option.some.inj hf
        cases hheld
      · exact ⟨f, hf, hheld, rfl⟩
  | startBrokerOperation now id =>
      obtain rfl := Except.ok.inj h
      exact (startBrokerOperation_actsFor now).framed hdb
  | settleBrokerOperation now id status reason => exact (settleBrokerOperation_actsFor h).framed hdb
  | recordRenameProviderResult id etag =>
      obtain rfl := Except.ok.inj h
      exact (recordRenameProviderResult_actsFor etag).framed hdb
  | scheduleBrokerRetry now id reason =>
      obtain rfl := Except.ok.inj h
      exact (scheduleBrokerRetry_actsFor now reason).framed hdb
  | recoverTimedOutOperations now timeout maxRecoveries outboxId picked =>
      exact foldlM_framed recoverOperation_actsFor hdb h
  | enqueueLegacyOperations now outboxId picked =>
      exact foldlM_framed enqueueLegacyOperation_actsFor hdb h
  | replayDeadLetterOperation outboxId id replayOf =>
      obtain ⟨out, h⟩ := Except.map_snd_eq_ok.mp h
      exact (replayDeadLetterOperation_actsFor h).framed hdb
  | other c =>
      have hstep := exec_step h
      obtain ⟨k, hchanges⟩ := step_rows hstep
      exact ⟨hdb.step hstep, fun o _ ↦ hdb.heldBack hchanges, fun o op hop ↦ step_order hstep hop⟩

theorem advance_framed (hdb : Consistent db) (c : OpCmd) : Framed db (advance opExec db c) :=
  advance_preserves (I := Framed db) (.refl hdb) fun _ h ↦ opExec_framed hdb h

/-- The file rows of every run from a tenant without files are consistent. -/
theorem consistent_run {cs : List OpCmd} (hempty : db.files = ∅) :
    Consistent (run opExec db cs) := by
  refine run_preserves (I := Consistent) (fun s c s' hs h ↦ (opExec_framed hs h).consistent) ?_ cs
  have hnone : ∀ j, db.files.lookup j = none := by
    intro j
    rw [hempty]
    rfl
  exact ⟨fun i j f g hf ↦ by simp [hnone] at hf, fun j f hf ↦ by simp [hnone] at hf,
    fun j f o hf ↦ by simp [hnone] at hf⟩

end S3mp
