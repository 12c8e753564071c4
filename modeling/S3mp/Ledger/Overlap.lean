import S3mp.Ledger.Reconciled

/-!
# A reconciliation run under way

The run reads the file rows, lists the bucket page by page and then writes, and other
transactions commit in between.  The tenant's lock keeps out other reconciliation runs
only.  What is charged or released between the load and the write is overwritten, so
usage stays right as long as the rows the run goes by tally when it writes.
-/

namespace S3mp

open Relational Files Governance Transition

/-! ## Stages -/

inductive RunStage where
  | started
  | spacesLoaded (spaces : List (Uuid × StorageSpace))
  | listing (rows : LoadedRows) (objects : List ReconciliationObject)
  | listed (rows : LoadedRows) (objects : List ReconciliationObject)

structure RunUnderway where
  runId : Uuid
  tenantId : Uuid
  mode : ReconciliationMode
  request : ReconciliationRequest
  stage : RunStage

/-- The run which holds the tenant's lock is on record. -/
structure OverlapWorld where
  state : ReconciliationState
  underway : Option RunUnderway

inductive OverlapCmd where
  | store (c : Cmd)
  | start (fresh : Uuid) (caller : ReconciliationCaller) (storageConfigured : Bool)
      (request : ReconciliationRequest)
  | loadSpaces
  | loadFiles
  | listPage (page : InventoryPage)
  | listingFails (now : Timestamp)
  | finish (now : Timestamp)

namespace OverlapWorld

/-- The step is not the next one of the run under way. -/
def notNext : Tx OverlapWorld :=
  .error (.value "not the next step")

/-- The run under way goes on to a stage. -/
def enter (run : RunUnderway) (stage : RunStage) (w : OverlapWorld) : OverlapWorld :=
  { w with underway := some { run with stage } }

def startWorld (fresh : Uuid) (caller : ReconciliationCaller) (storageConfigured : Bool)
    (request : ReconciliationRequest) (w : OverlapWorld) : Tx OverlapWorld := do
  let (tenantId, mode) ← admitReconciliation caller storageConfigured request
  match existingRun request w.state.runs with
  | some _ => return w
  | none =>
    let state ← startRun fresh mode request w.state
    return ⟨state, some ⟨fresh, tenantId, mode, request, .started⟩⟩

/-- One step of the run under way. -/
def stepRun (run : RunUnderway) (w : OverlapWorld) : OverlapCmd → Tx OverlapWorld
  | .loadSpaces =>
    match run.stage with
    | .started => .ok (w.enter run (.spacesLoaded (reconciledSpaces run.request w.state.db)))
    | _ => notNext
  | .loadFiles =>
    match run.stage with
    | .spacesLoaded spaces => .ok (w.enter run (.listing (loadRowsIn spaces w.state.db) []))
    | _ => notNext
  | .listPage page =>
    match run.stage with
    | .listing rows objects =>
      let state := { w.state with runs := w.state.runs.update run.runId fun row ↦ recordPage row page }
      let objects := objects ++ page.objects
      .ok ((⟨state, w.underway⟩ : OverlapWorld).enter run
        (if page.nextToken.isNone then .listed rows objects else .listing rows objects))
    | _ => notNext
  | .listingFails now =>
    match run.stage with
    | .listing .. => .ok ⟨failRun now run.runId w.state, none⟩
    | _ => notNext
  | .finish now =>
    match run.stage with
    | .listed rows objects =>
      .ok ⟨finishRun now run.tenantId run.runId run.mode run.request rows objects w.state, none⟩
    | _ => notNext
  | _ => notNext

def exec (c : OverlapCmd) (w : OverlapWorld) : Tx OverlapWorld :=
  match c, w.underway with
  | .store c, _ => (S3mp.exec c w.state.db).map fun db ↦ { w with state := { w.state with db } }
  | .start fresh caller storageConfigured request, none =>
      w.startWorld fresh caller storageConfigured request
  | _, none => notNext
  | c, some run => w.stepRun run c

/-- The store commands keep the charges, as in `Charge`. -/
def StoreKeeps (w : OverlapWorld) : OverlapCmd → Prop
  | .store c => KeepsCharge w.state.db c
  | _ => True

/-- When a run is about to write, the rows it has loaded and the objects it has listed
tally with what is charged at this moment. -/
def KeepsTally (w : OverlapWorld) : OverlapCmd → Prop
  | .store c => KeepsCharge w.state.db c
  | .finish _ => ∀ run rows objects, w.underway = some run → run.stage = .listed rows objects →
      run.mode = .apply → Tallies w.state.db run.request rows objects
  | _ => True

/-! ## Steps and runs -/

variable {w w' : OverlapWorld}

/-- Only store commands and writes touch the tenant's rows. -/
theorem exec_db {c : OverlapCmd} (h : exec c w = .ok w') :
    w'.state.db = w.state.db ∨ (∃ c', c = .store c' ∧ S3mp.exec c' w.state.db = .ok w'.state.db) ∨
      ∃ now run rows objects, c = .finish now ∧ w.underway = some run ∧
        run.stage = .listed rows objects ∧ run.mode = .apply ∧
        w'.state.db = applyProjection run.request rows
          (matchedFiles (inventoryResults run.tenantId rows objects)) w.state.db := by
  cases c with
  | store c =>
      obtain ⟨db, hdb, rfl⟩ := Except.map_eq_ok.mp h
      exact Or.inr (Or.inl ⟨c, rfl, hdb⟩)
  | start fresh caller storageConfigured request =>
      left
      cases hrun : w.underway with
      | some run =>
          simp only [exec, hrun, stepRun, notNext, reduceCtorEq] at h
      | none =>
          simp only [exec, hrun, startWorld] at h
          obtain ⟨⟨tenantId, mode⟩, -, h⟩ := Except.bind_eq_ok.mp h
          dsimp only at h
          split at h
          · rw [← Except.ok.inj h]
          · obtain ⟨state, hstart, h⟩ := Except.bind_eq_ok.mp h
            obtain ⟨runs, -, hstate⟩ := Except.bind_eq_ok.mp hstart
            rw [← Except.ok.inj h, ← Except.ok.inj hstate]
  | loadSpaces | loadFiles | listPage page | listingFails now =>
      left
      cases hrun : w.underway with
      | none => simp only [exec, hrun, notNext, reduceCtorEq] at h
      | some run =>
          simp only [exec, hrun, stepRun] at h
          split at h
          · rw [← Except.ok.inj h]
            rfl
          · cases h
  | finish now =>
      cases hrun : w.underway with
      | none => simp only [exec, hrun, notNext, reduceCtorEq] at h
      | some run =>
          simp only [exec, hrun, stepRun] at h
          split at h
          · rename_i rows objects hstage
            obtain rfl := Except.ok.inj h
            by_cases hmode : run.mode = .apply
            · refine Or.inr (Or.inr ⟨now, run, rows, objects, rfl, rfl, hstage, hmode, ?_⟩)
              simp only [finishRun, hmode, if_true]
            · exact Or.inl (by simp only [finishRun, hmode, if_false])
          · cases h

theorem charged_exec {c : OverlapCmd} (hw : Charged w.state.db) (hc : KeepsTally w c)
    (h : exec c w = .ok w') : Charged w'.state.db := by
  rcases exec_db h with hsame | ⟨c', rfl, hstore⟩ |
    ⟨now, run, rows, objects, rfl, hrun, hstage, hmode, hwritten⟩
  · rwa [hsame]
  · exact hw.step hc (exec_step hstore)
  · rw [hwritten, (hc run rows objects hrun hstage hmode).applyProjection_eq hw]
    exact hw

/-- In every state of an interleaving in which the store commands keep the charges and
every run tallies at the moment it writes, usage is what the charged files contain. -/
theorem overlap_keeps_usage (h : Untouched w.state.db) {cs : List OverlapCmd}
    (hmeets : Meets exec KeepsTally w cs) {pre post : List OverlapCmd} (heq : cs = pre ++ post) :
    ChargedOnce (run exec w pre).state.db := by
  subst heq
  obtain ⟨hpre, -⟩ := (meets_append exec).mp hmeets
  exact (run_invariant (I := fun w : OverlapWorld ↦ Charged w.state.db)
    (fun _ _ _ hw hc hok ↦ charged_exec hw hc hok) h.charged hpre).once

/-! ## A run without interruption -/

/-- The steps of one run, for a provider which has these pages to give. -/
def uninterrupted (fresh : Uuid) (now : Timestamp) (caller : ReconciliationCaller)
    (storageConfigured : Bool) (request : ReconciliationRequest) (pages : List InventoryPage) :
    List OverlapCmd :=
  [.start fresh caller storageConfigured request, .loadSpaces, .loadFiles] ++
    pages.map .listPage ++ [.finish now, .listingFails now]

theorem run_idle (s : ReconciliationState) (pages : List InventoryPage) (now : Timestamp) :
    run exec ⟨s, none⟩ ([.loadSpaces, .loadFiles] ++ pages.map .listPage ++
      [.finish now, .listingFails now]) = ⟨s, none⟩ := by
  have hpages : run exec (⟨s, none⟩ : OverlapWorld) (pages.map .listPage) = ⟨s, none⟩ := by
    induction pages with
    | nil => rfl
    | cons page pages ih => exact ih
  rw [run_append, run_append]
  change run exec (run exec ⟨s, none⟩ (pages.map .listPage)) _ = _
  rw [hpages]
  rfl

section Listing

variable {runId tenantId : Uuid} {mode : ReconciliationMode} {request : ReconciliationRequest}
  {rows : LoadedRows}

theorem run_listed (s : ReconciliationState) (objects : List ReconciliationObject)
    (pages : List InventoryPage) :
    run exec ⟨s, some ⟨runId, tenantId, mode, request, .listed rows objects⟩⟩
      (pages.map .listPage) = ⟨s, some ⟨runId, tenantId, mode, request, .listed rows objects⟩⟩ := by
  induction pages with
  | nil => rfl
  | cons page pages ih => exact ih

/-- The loop over the pages. -/
theorem run_listing (s : ReconciliationState) (objects : List ReconciliationObject)
    (pages : List InventoryPage) :
    run exec ⟨s, some ⟨runId, tenantId, mode, request, .listing rows objects⟩⟩
        (pages.map .listPage) =
      ⟨{ s with runs := s.runs.update runId fun row ↦ (served pages).1.foldl recordPage row },
        some ⟨runId, tenantId, mode, request,
          if (served pages).2 then .listed rows (objects ++ listedObjects pages)
          else .listing rows (objects ++ listedObjects pages)⟩⟩ := by
  induction pages generalizing s objects with
  | nil =>
      have hruns : s.runs.update runId (fun row ↦ row) = s.runs :=
        AList.updateWhere_eq_self fun _ _ _ _ ↦ rfl
      simp [served, listedObjects, hruns]
  | cons page pages ih =>
      rw [List.map_cons, run_cons]
      cases htoken : page.nextToken with
      | none =>
          have hstep : advance exec ⟨s, some ⟨runId, tenantId, mode, request,
              .listing rows objects⟩⟩ (.listPage page) =
              ⟨{ s with runs := s.runs.update runId fun row ↦ recordPage row page },
                some ⟨runId, tenantId, mode, request, .listed rows (objects ++ page.objects)⟩⟩ := by
            simp [advance, exec, stepRun, enter, htoken]
          rw [hstep, run_listed]
          simp [served, htoken, listedObjects]
      | some token =>
          have hstep : advance exec ⟨s, some ⟨runId, tenantId, mode, request,
              .listing rows objects⟩⟩ (.listPage page) =
              ⟨{ s with runs := s.runs.update runId fun row ↦ recordPage row page },
                some ⟨runId, tenantId, mode, request, .listing rows (objects ++ page.objects)⟩⟩ := by
            simp [advance, exec, stepRun, enter, htoken]
          rw [hstep, ih, AList.update_update]
          simp [served, htoken, listedObjects]

end Listing

/-- Without an interruption the steps are the service's run. -/
theorem run_eq_reconcile (fresh : Uuid) (now : Timestamp) (caller : ReconciliationCaller)
    (storageConfigured : Bool) (request : ReconciliationRequest) (pages : List InventoryPage)
    (s : ReconciliationState) :
    run exec ⟨s, none⟩ (uninterrupted fresh now caller storageConfigured request pages) =
      ⟨(Governance.reconcile fresh now caller storageConfigured request pages s).2, none⟩ := by
  have hrefused : advance exec ⟨s, none⟩ (.start fresh caller storageConfigured request) = ⟨s, none⟩ →
      (Governance.reconcile fresh now caller storageConfigured request pages s).2 = s →
      run exec ⟨s, none⟩ (uninterrupted fresh now caller storageConfigured request pages) =
        ⟨(Governance.reconcile fresh now caller storageConfigured request pages s).2, none⟩ := by
    intro hstart hsame
    change run exec (advance exec ⟨s, none⟩ (.start fresh caller storageConfigured request)) _ = _
    rw [hstart, hsame]
    exact run_idle s pages now
  cases hadmit : admitReconciliation caller storageConfigured request with
  | error e =>
      refine hrefused (advance_of_error (e := e) ?_) (by simp only [Governance.reconcile, hadmit])
      simp only [exec, startWorld, hadmit]
      rfl
  | ok admitted =>
      obtain ⟨tenantId, mode⟩ := admitted
      cases hnew : existingRun request s.runs with
      | some row =>
          refine hrefused (advance_of_ok ?_) (by simp only [Governance.reconcile, hadmit, hnew])
          simp only [exec, startWorld, hadmit, hnew]
          rfl
      | none =>
          cases hstart : startRun fresh mode request s with
          | error e =>
              refine hrefused (advance_of_error (e := e) ?_)
                (by simp only [Governance.reconcile, hadmit, hnew, hstart])
              simp only [exec, startWorld, hadmit, hnew]
              change (startRun fresh mode request s >>= _) = _
              rw [hstart]
              rfl
          | ok started =>
              have hbegun : run exec ⟨s, none⟩
                  [.start fresh caller storageConfigured request, .loadSpaces, .loadFiles] =
                  ⟨started, some ⟨fresh, tenantId, mode, request,
                    .listing (loadRows request started.db) []⟩⟩ := by
                have hfirst : exec (.start fresh caller storageConfigured request) ⟨s, none⟩ =
                    .ok ⟨started, some ⟨fresh, tenantId, mode, request, .started⟩⟩ := by
                  simp only [exec, startWorld, hadmit, hnew]
                  change (startRun fresh mode request s >>= _) = _
                  rw [hstart]
                  rfl
                rw [run_cons, advance_of_ok hfirst]
                rfl
              rw [uninterrupted, run_append, run_append, hbegun, run_listing, List.nil_append]
              simp only [Governance.reconcile, hadmit, hnew, hstart]
              by_cases hserved : (served pages).2
              · simp only [hserved, if_true]
                rfl
              · simp only [hserved]
                rfl

theorem exec_store (w : OverlapWorld) (c : Cmd) (db : Db) :
    exec (.store c) { w with state := { w.state with db } } =
      (S3mp.exec c db).map fun db ↦ { w with state := { w.state with db } } :=
  rfl

end OverlapWorld

namespace Sample

open OverlapWorld

def idleWorld : OverlapWorld := ⟨reconciled, none⟩

/-- The upload is committed before the run starts. -/
def uploadThenRun : List OverlapCmd :=
  committed.map .store ++
    uninterrupted 50 2 (.internal (some 1)) true applyAll uploadedBucket

/-- A run over the empty bucket, up to its write. -/
def emptyListed : List OverlapCmd :=
  [.start 50 (.internal (some 1)) true applyAll, .loadSpaces, .loadFiles, .listPage ⟨[], none⟩]

/-- The upload is committed between the load and the write. -/
def uploadDuringRun : List OverlapCmd :=
  emptyListed ++ committed.map .store ++ [.finish 2]

theorem keepsTally_uploadThenRun : Meets OverlapWorld.exec KeepsTally idleWorld uploadThenRun := by
  have hrun : run OverlapWorld.exec idleWorld (committed.map .store) =
      { idleWorld with state := { reconciled with db := afterUpload } } :=
    run_lift _ _ (exec_store idleWorld) tenant committed
  refine (meets_append _).mpr ⟨?_, ?_⟩
  · exact (meets_lift _ _ (exec_store idleWorld) fun _ _ ↦ Iff.rfl).mpr keepsCharge_committed
  · rw [hrun]
    refine ⟨trivial, trivial, trivial, trivial, fun run rows objects hrun hstage _ ↦ ?_,
      trivial, trivial⟩
    obtain rfl := Option.some.inj hrun
    obtain ⟨rfl, rfl⟩ := RunStage.listed.inj hstage
    exact tallies_afterUpload

theorem storeKeeps_uploadDuringRun :
    Meets OverlapWorld.exec StoreKeeps idleWorld uploadDuringRun := by
  refine (meets_append _).mpr ⟨(meets_append _).mpr ⟨⟨trivial, trivial, trivial, trivial, trivial⟩,
    ?_⟩, trivial, trivial⟩
  exact (meets_lift _ _ (exec_store (run OverlapWorld.exec idleWorld emptyListed))
    fun _ _ ↦ Iff.rfl).mpr keepsCharge_committed

end Sample

theorem overlap_keeps_usage_sample :
    ChargedOnce (run OverlapWorld.exec Sample.idleWorld Sample.uploadThenRun).state.db :=
  OverlapWorld.overlap_keeps_usage Sample.untouched Sample.keepsTally_uploadThenRun
    (List.append_nil Sample.uploadThenRun).symm

/-- The commit between the load and the write is overwritten. -/
theorem commit_overwritten : ¬ ∀ w, Untouched w.state.db → ∀ cs,
    Meets OverlapWorld.exec OverlapWorld.StoreKeeps w cs →
      ChargedOnce (run OverlapWorld.exec w cs).state.db := by
  intro h
  exact Sample.undercounted (by decide) (by decide) (by decide) (by decide)
    (h Sample.idleWorld Sample.untouched _ Sample.storeKeeps_uploadDuringRun)

end S3mp
