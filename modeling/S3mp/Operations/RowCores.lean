import S3mp.Operations.Occupation

/-!
# What deliveries keep of the file rows

Apart from the settlement of an operation and the row a rename adds, the transactions of
the operation store write the ETag and the occupation of a file row and nothing else.
-/

namespace S3mp

open Relational Files Transition

/-- The two tables have the same rows, save for ETags and occupation. -/
def SameCores (files files' : Table Uuid FileObject) : Prop :=
  ∀ j, (files'.lookup j).map (·.core) = (files.lookup j).map (·.core)

section

variable {files files' : Table Uuid FileObject}

theorem SameCores.refl (files : Table Uuid FileObject) : SameCores files files :=
  fun _ ↦ rfl

theorem SameCores.trans {files'' : Table Uuid FileObject} (h : SameCores files files')
    (h' : SameCores files' files'') : SameCores files files'' :=
  fun j ↦ (h' j).trans (h j)

theorem SameCores.back (h : SameCores files files') {j : Uuid} {f' : FileObject}
    (hf' : files'.lookup j = some f') : ∃ f, files.lookup j = some f ∧ f.core = f'.core := by
  have hcores := h j
  rw [hf', Option.map_some] at hcores
  exact Option.map_eq_some_iff.mp hcores.symm

theorem SameCores.forward (h : SameCores files files') {j : Uuid} {f : FileObject}
    (hf : files.lookup j = some f) : ∃ f', files'.lookup j = some f' ∧ f'.core = f.core := by
  have hcores := h j
  rw [hf, Option.map_some] at hcores
  exact Option.map_eq_some_iff.mp hcores

theorem sameCores_updateWhere {p : Uuid → FileObject → Bool} {g : FileObject → FileObject}
    (hg : ∀ f, (g f).core = f.core) : SameCores files (files.updateWhere p g) := by
  intro j
  rw [AList.lookup_updateWhere, Option.map_map]
  congr 1
  funext f
  simp only [Function.comp_apply]
  split
  · exact hg f
  · rfl

end

variable {db db' : Db}

/-- An operation which has come about has no result row. -/
def NoNewResult (db db' : Db) : Prop :=
  ∀ o op, db'.operations.lookup o = some op → o ∈ db.operations ∨ op.resultFileId = none

theorem noNewResult_of_mem (h : ∀ o, o ∈ db'.operations → o ∈ db.operations) :
    NoNewResult db db' :=
  fun o _ hop ↦ Or.inl (h o (AList.mem_of_lookup hop))

theorem ActsFor.noNewResult {o : Uuid} (h : ActsFor o db db') : NoNewResult db db' :=
  noNewResult_of_mem fun _ ↦ h.mem_operations.mp

theorem foldlM_noNewResult {turn : Db → Uuid → Tx Db}
    (hturn : ∀ {s s' o}, turn s o = .ok s' → ActsFor o s s') {picked : List Uuid}
    (h : picked.foldlM turn db = .ok db') : NoNewResult db db' :=
  noNewResult_of_mem (Tx.foldlM_relates
    (R := fun db db' : Db ↦ ∀ o, o ∈ db'.operations → o ∈ db.operations) (fun _ _ ho ↦ ho)
    (fun h h' o ho ↦ h o (h' o ho)) (fun hacts _ ↦ (hturn hacts).mem_operations.mp) h)

/-- What a command on operations does to the file rows. -/
inductive RowsOf (db db' : Db) : OpCmd → Prop
  | kept (c : OpCmd) (h : SameCores db.files db'.files) (hnew : NoNewResult db db') :
      RowsOf db db' c
  | renamed (ids : OperationIds) (spaceId : Uuid) (data : RenameData) (source : FileObject)
      (hsource : db.files.lookup data.sourceFileId = some source)
      (hfresh : ids.resultFile ∉ db.files)
      (h : SameCores (db.files.insert ids.resultFile (renamedFile data source)) db'.files) :
      RowsOf db db' (.createRenameOperation ids spaceId data)
  | settled (now : Timestamp) (o : Uuid) (status : OperationStatus) (reason : Option String)
      (op : FileOperation) (hop : db.operations.lookup o = some op)
      (h : db'.files = settledFiles now o op status db.files) (hnew : NoNewResult db db') :
      RowsOf db db' (.settleBrokerOperation now o status reason)

theorem opExec_rowsOf {c : OpCmd} (hother : ∀ c₀, c ≠ .other c₀) (h : opExec c db = .ok db') :
    RowsOf db db' c := by
  cases c with
  | createOperation ids spaceId data =>
      obtain ⟨op, h⟩ := Except.map_snd_eq_ok.mp h
      obtain ⟨key, _, _, _, rfl, -, -, -, rfl⟩ := createOperation_eq_ok h
      refine .kept _ (sameCores_updateWhere fun _ ↦ rfl) fun o op hop ↦ ?_
      rw [AList.lookup_insert'] at hop
      split at hop
      · obtain rfl := Option.some.inj hop
        exact Or.inr rfl
      · exact Or.inl (AList.mem_of_lookup hop)
  | createRenameOperation ids spaceId data =>
      obtain ⟨op, h⟩ := Except.map_snd_eq_ok.mp h
      rcases createRenameOperation_eq_ok h with
        rfl | ⟨source, _, _, hsource, -, -, -, -, -, -, hinsert, rfl⟩
      · exact .kept _ (.refl _) (noNewResult_of_mem fun _ ho ↦ ho)
      · obtain ⟨-, hfresh, rfl⟩ := insertFile_eq_ok.mp hinsert
        exact .renamed ids spaceId data source hsource hfresh (sameCores_updateWhere fun _ ↦ rfl)
  | startBrokerOperation now id =>
      obtain rfl := Except.ok.inj h
      refine .kept _ ?_ (startBrokerOperation_actsFor now).noNewResult
      unfold startBrokerOperation
      split
      · exact .refl _
      · split
        · exact .refl _
        · exact sameCores_updateWhere fun _ ↦ rfl
  | settleBrokerOperation now id status reason =>
      have hacts := settleBrokerOperation_actsFor h
      rcases settleBrokerOperation_eq_ok h with ⟨-, rfl⟩ | ⟨op, hop, rfl⟩
      · exact .kept _ (.refl _) hacts.noNewResult
      · exact .settled now id status reason op hop rfl hacts.noNewResult
  | recordRenameProviderResult id etag =>
      obtain rfl := Except.ok.inj h
      refine .kept _ ?_ (recordRenameProviderResult_actsFor etag).noNewResult
      unfold recordRenameProviderResult
      split
      · exact .refl _
      split
      · exact .refl _
      split
      · exact .refl _
      · exact sameCores_updateWhere fun _ ↦ rfl
  | scheduleBrokerRetry now id reason =>
      obtain rfl := Except.ok.inj h
      refine .kept _ ?_ (scheduleBrokerRetry_actsFor now reason).noNewResult
      unfold scheduleBrokerRetry
      split
      · exact .refl _
      · split
        · exact .refl _
        · exact sameCores_updateWhere fun _ ↦ rfl
  | recoverTimedOutOperations now timeout maxRecoveries outboxId picked =>
      refine .kept _ (Tx.foldlM_relates (R := fun db db' : Db ↦ SameCores db.files db'.files)
        (fun _ ↦ .refl _) .trans (fun {db db' o} hturn ↦ ?_) h)
        (foldlM_noNewResult recoverOperation_actsFor h)
      unfold recoverOperation at hturn
      split at hturn
      · cases hturn
        exact .refl _
      split at hturn
      · cases hturn
        exact .refl _
      split at hturn
      · cases hturn
        exact .refl _
      · obtain ⟨-, rfl⟩ := addOutboxEvent_eq_ok hturn
        exact sameCores_updateWhere fun _ ↦ rfl
  | replayDeadLetterOperation outboxId id replayOf =>
      obtain ⟨out, h⟩ := Except.map_snd_eq_ok.mp h
      refine .kept _ ?_ (replayDeadLetterOperation_actsFor h).noNewResult
      rw [replayDeadLetterOperation_files h]
      exact .refl _
  | enqueueLegacyOperations now outboxId picked =>
      refine .kept _ (Tx.foldlM_relates (R := fun db db' : Db ↦ SameCores db.files db'.files)
        (fun _ ↦ .refl _) .trans (fun {db db' o} hturn ↦ ?_) h)
        (foldlM_noNewResult enqueueLegacyOperation_actsFor h)
      rw [enqueueLegacyOperation_files hturn]
      exact .refl _
  | other c => exact absurd rfl (hother c)

/-! ## The rows a settlement moves -/

/-- What a settlement makes of a row: its standing is kept, unless a rename which succeeds has
it as source, or it is the row a rename has made.  The operation occupies the rows it moves. -/
inductive SettledRow (now : Timestamp) (o : Uuid) (op : FileOperation)
    (files files' : Table Uuid FileObject) (j : Uuid) (f : FileObject) : FileObject → Prop
  | kept (f' : FileObject) (h : f'.core = f.core) : SettledRow now o op files files' j f f'
  | source (f' d d' : FileObject) (destination : Uuid) (hrename : op.operationType = .rename)
      (hsource : op.sourceFileId = some j) (hresult : op.resultFileId = some destination) (hheld : f.activeOperationId = some o)
      (hd : files.lookup destination = some d) (hdheld : d.activeOperationId = some o)
      (hd' : files'.lookup destination = some d')
      (hcore' : d'.core = FileObject.core { d with status := .available })
      (h : f'.core = FileObject.core { f with status := .deleted, deletedAt := some now }) :
      SettledRow now o op files files' j f f'
  | destination (f' : FileObject) (status : FileStatus) (hrename : op.operationType = .rename)
      (hstatus : status = .available ∨ status = .renameFailed)
      (hresult : op.resultFileId = some j) (hheld : f.activeOperationId = some o)
      (h : f'.core = FileObject.core { f with status }) : SettledRow now o op files files' j f f'

section

variable {now : Timestamp} {o j : Uuid} {op : FileOperation} {status : OperationStatus}
  {files files' : Table Uuid FileObject} {f g : FileObject}

theorem SettledRow.congr {files'' : Table Uuid FileObject} {g' : FileObject}
    (h : SettledRow now o op files files' j f g) (hfiles : SameCores files' files'')
    (hcore : g'.core = g.core) : SettledRow now o op files files'' j f g' := by
  cases h with
  | kept h => exact .kept g' (hcore.trans h)
  | source d d' destination hrename hsource hresult hheld hd hdheld hd' hcore' h =>
      obtain ⟨d'', hd'', hsame⟩ := hfiles.forward hd'
      exact .source g' d d'' destination hrename hsource hresult hheld hd hdheld hd''
        (hsame.trans hcore') (hcore.trans h)
  | destination status hrename hstatus hresult hheld h =>
      exact .destination g' status hrename hstatus hresult hheld (hcore.trans h)

theorem failedRename_row {destination : Uuid} (hrename : op.operationType = .rename)
    (hresult : op.resultFileId = some destination) (hheld : heldBy o files destination = true)
    (hg : (files.update destination fun f ↦ { f with status := .renameFailed }).lookup j = some g) :
    ∃ f, files.lookup j = some f ∧ SettledRow now o op files files' j f g := by
  obtain ⟨f, hf, rfl⟩ := AList.of_lookup_update hg
  refine ⟨f, hf, ?_⟩
  split
  · rename_i hj
    subst hj
    obtain ⟨f₀, hf₀, hactive⟩ := heldBy_eq_true.mp hheld
    obtain rfl := Option.some.inj (hf₀.symm.trans hf)
    exact .destination _ .renameFailed hrename (Or.inr rfl) hresult hactive rfl
  · exact .kept f rfl

theorem settleRename_row (hrename : op.operationType = .rename)
    (hne : ∀ i, op.sourceFileId = some i → op.resultFileId = some i → heldBy o files i = false)
    (hg : (settleRename now o op status files).lookup j = some g) :
    ∃ f, files.lookup j = some f ∧
      SettledRow now o op files (settleRename now o op status files) j f g := by
  have hstay : ∀ files', files.lookup j = some g →
      ∃ f, files.lookup j = some f ∧ SettledRow now o op files files' j f g :=
    fun _ h ↦ ⟨g, h, .kept g rfl⟩
  unfold settleRename at hg ⊢
  split at hg
  · rename_i source destination hsource hdestination
    obtain ⟨hsource, hsheld⟩ := Option.filter_eq_some_iff.mp hsource
    obtain ⟨hdestination, hdheld⟩ := Option.filter_eq_some_iff.mp hdestination
    obtain ⟨s, hs, hsactive⟩ := heldBy_eq_true.mp hsheld
    obtain ⟨d, hd, hdactive⟩ := heldBy_eq_true.mp hdheld
    have hapart : destination ≠ source := by
      rintro rfl
      rw [hne destination hsource hdestination] at hdheld
      cases hdheld
    split at hg
    · rename_i hsucceeded
      rw [if_pos hsucceeded]
      obtain ⟨f', hf', rfl⟩ := AList.of_lookup_update hg
      obtain ⟨f, hf, rfl⟩ := AList.of_lookup_update hf'
      refine ⟨f, hf, ?_⟩
      by_cases hj : j = destination
      · subst hj
        obtain rfl := Option.some.inj (hd.symm.trans hf)
        rw [if_pos rfl, if_neg hapart]
        exact .destination _ .available hrename (Or.inl rfl) hdestination hdactive rfl
      · rw [if_neg hj]
        by_cases hj' : j = source
        · subst hj'
          obtain rfl := Option.some.inj (hs.symm.trans hf)
          rw [if_pos rfl]
          refine .source _ d { d with status := .available } destination hrename hsource
            hdestination hsactive hd hdactive ?_ rfl rfl
          rw [AList.lookup_update_self, AList.lookup_update_of_ne hapart, hd, Option.map_some]
        · rw [if_neg hj']
          exact .kept f rfl
    · split at hg
      · exact failedRename_row hrename hdestination hdheld hg
      · exact hstay _ hg
  · rename_i destination _ hdestination
    obtain ⟨hdestination, hdheld⟩ := Option.filter_eq_some_iff.mp hdestination
    split at hg
    · exact failedRename_row hrename hdestination hdheld hg
    · exact hstay _ hg
  · exact hstay _ hg

theorem settledFiles_row (hne : op.operationType = .rename → ∀ i, op.sourceFileId = some i →
      op.resultFileId = some i → heldBy o files i = false)
    (hg : (settledFiles now o op status files).lookup j = some g) :
    ∃ f, files.lookup j = some f ∧
      SettledRow now o op files (settledFiles now o op status files) j f g := by
  have hfreed : ∀ files₀ : Table Uuid FileObject, SameCores files₀
      (if status.terminal then updateHeld o FileObject.unoccupied files₀ else files₀) := by
    intro files₀
    split
    · exact sameCores_updateWhere fun _ ↦ rfl
    · exact .refl _
  unfold settledFiles at hg ⊢
  dsimp only at hg ⊢
  by_cases hrename : op.operationType = .rename
  · rw [if_pos hrename] at hg ⊢
    obtain ⟨g₀, hg₀, hcore⟩ := (hfreed _).back hg
    obtain ⟨f, hf, hrow⟩ := settleRename_row hrename (hne hrename) hg₀
    exact ⟨f, hf, hrow.congr (hfreed _) hcore.symm⟩
  · rw [if_neg hrename] at hg ⊢
    obtain ⟨f, hf, hcore⟩ := (hfreed _).back hg
    exact ⟨f, hf, .kept g hcore.symm⟩

end

end S3mp
