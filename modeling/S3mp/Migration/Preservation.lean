import S3mp.Migration.Executor

/-!
# The migration loses no object

A promoted record points to the object that was verified for it, and its manifest stays
promoted, as long as no executor writes or deletes where a promoted record points to and no
other executor copies for a manifest which is being promoted.
-/

namespace S3mp.Migration

open Relational Storage Transition

variable {γ : Type} {size : γ → ℕ}

namespace MigrationWorld

/-- No promoted record points to the location. -/
def Unused (w : MigrationWorld size) (location : ProviderTarget) : Prop :=
  ∀ id p, w.promotions.lookup id = some p → p.target ≠ location

/-- Copies and deletions spare the locations promoted records point to.  A manifest is promoted
while its target is still the object that was verified, and while no other executor copies
for it. -/
def Undisturbed (w : MigrationWorld size) : MigrationCmd → Prop
  | .step executor _ =>
    match w.executors.lookup executor with
    | some (.copy (.copying _) ((_, m) :: _)) => ∀ target, m.target = some target → w.Unused target
    | some (.copy (.promoting v) ((id, m) :: _)) =>
      (∀ target, m.target = some target → w.objects.lookup target = some v.target) ∧
        ∀ other stage todo, other ≠ executor →
          w.executors.lookup other = some (.copy stage todo) → id ∉ todo.map Prod.fst
    | some (.cleanup .deleting ((_, m) :: _)) => ∀ source, m.source = some source → w.Unused source
    | _ => True
  | _ => True

structure NothingLost (w : MigrationWorld size) : Prop where
  kept : ∀ id p, w.promotions.lookup id = some p →
    (∃ r, w.records.lookup p.recordId = some r ∧ r.location = p.target) ∧
      w.objects.lookup p.target = some p.verified.target
  promoted : ∀ id p, w.promotions.lookup id = some p →
    ∃ m, w.manifests.lookup id = some m ∧ m.state.promoted

/-- An object vanishes only where it is the source of a manifest whose record has been promoted
to another object. -/
def TakesOnlySources (w : MigrationWorld size) (cmd : MigrationCmd) : Prop :=
  ∀ location, location ∈ w.objects → location ∉ (advance exec w cmd).objects →
    ∃ id p, w.promotions.lookup id = some p ∧ p.source = location ∧ p.target ≠ location

/-! ## The invariant -/

structure Promotes (w : MigrationWorld size) : Prop where
  record : ∀ id p, w.promotions.lookup id = some p → ∃ r, w.records.lookup p.recordId = some r ∧
    r.location = p.target ∧ r.providerTargetVersion = 1
  object : ∀ id p, w.promotions.lookup id = some p →
    w.objects.lookup p.target = some p.verified.target
  manifest : ∀ id p, w.promotions.lookup id = some p → ∃ m, w.manifests.lookup id = some m ∧
    m.state.promoted ∧ m.source = some p.source ∧ m.target = some p.target
  backed : ∀ id m, w.manifests.lookup id = some m → m.state.promoted → id ∈ w.promotions

/-- The manifest is in the table with the locations it has been read with. -/
def Located (w : MigrationWorld size) (id : Uuid) (m : Manifest) : Prop :=
  ∃ m', w.manifests.lookup id = some m' ∧ m'.source = m.source ∧ m'.target = m.target

/-- Copies are made for manifests which have not been promoted, and deletions for manifests
which have. -/
def Sound (w : MigrationWorld size) : Executor size → Prop
  | .copy _ todo => (todo.map Prod.fst).Nodup ∧
      ∀ q ∈ todo, q.1 ∉ w.promotions ∧ w.Located q.1 q.2
  | .cleanup stage todo => (∀ q ∈ todo, q.1 ∈ w.promotions ∧ w.Located q.1 q.2) ∧
      ∀ state reason, stage = .settling state reason → state = .cleanupCompleted

structure Inv (w : MigrationWorld size) : Prop extends Promotes w where
  executors : ∀ e x, w.executors.lookup e = some x → w.Sound x

variable {w w' : MigrationWorld size} {e id : Uuid} {m : Manifest} {x : Executor size}
  {c : CallChoice}

theorem Inv.nothingLost (hw : w.Inv) : w.NothingLost := by
  refine ⟨fun id p hp ↦ ⟨?_, hw.object id p hp⟩, fun id p hp ↦ ?_⟩
  · obtain ⟨r, hr, hlocation, -⟩ := hw.record id p hp
    exact ⟨r, hr, hlocation⟩
  · obtain ⟨m, hm, hpromoted, -⟩ := hw.manifest id p hp
    exact ⟨m, hm, hpromoted⟩

/-- Manifests keep their locations. -/
def KeepsLocations (w w' : MigrationWorld size) : Prop :=
  ∀ id m, w.manifests.lookup id = some m → w'.Located id m

theorem Located.mono (h : w.Located id m) (hw : KeepsLocations w w') : w'.Located id m := by
  obtain ⟨m₁, hm₁, hsource, htarget⟩ := h
  obtain ⟨m₂, hm₂, hsource', htarget'⟩ := hw id m₁ hm₁
  exact ⟨m₂, hm₂, hsource'.trans hsource, htarget'.trans htarget⟩

theorem Sound.mono (h : w.Sound x) (hw : KeepsLocations w w')
    (hgrow : ∀ id ∈ w.promotions, id ∈ w'.promotions)
    (hnew : ∀ stage todo, x = .copy stage todo → ∀ q ∈ todo, q.1 ∈ w'.promotions →
      q.1 ∈ w.promotions) : w'.Sound x := by
  cases x with
  | copy stage todo =>
      refine ⟨h.1, fun q hq ↦ ⟨fun hpromoted ↦ ?_, (h.2 q hq).2.mono hw⟩⟩
      exact (h.2 q hq).1 (hnew stage todo rfl q hq hpromoted)
  | cleanup stage todo =>
      exact ⟨fun q hq ↦ ⟨hgrow _ (h.1 q hq).1, (h.1 q hq).2.mono hw⟩, h.2⟩

/-! ## Calls -/

theorem effect_cases (c : CallChoice) (w w' : MigrationWorld size) :
    effect c w w' = w ∨ effect c w w' = w' := by
  unfold effect
  split
  · exact Or.inl rfl
  · exact Or.inr rfl

/-- The executor comes back with what suits it; the others are as they were. -/
theorem Promotes.resume (hw : w.Promotes) (hothers : ∀ e' x', e' ≠ e →
    w.executors.lookup e' = some x' → w.Sound x') (hx : w.Sound x) : (w.resume e c x).Inv := by
  refine { hw with executors := fun e' x' hx' ↦ ?_ }
  simp only [MigrationWorld.resume] at hx'
  by_cases he : e' = e
  · subst he
    split at hx'
    · exact absurd (AList.mem_of_lookup hx') (by simp)
    · obtain rfl := Option.some.inj ((AList.lookup_insert _).symm.trans hx')
      exact hx
  · refine hothers e' x' he ?_
    split at hx'
    · exact (AList.lookup_erase_ne he).symm.trans hx'
    · exact (AList.lookup_insert_ne he).symm.trans hx'

theorem Inv.resume (hw : w.Inv) (hx : w.Sound x) : (w.resume e c x).Inv :=
  hw.toPromotes.resume (fun e' x' _ ↦ hw.executors e' x') hx

theorem Inv.erase (hw : w.Inv) (e : Uuid) : Inv { w with executors := w.executors.erase e } := by
  refine { hw.toPromotes with executors := fun e' x hx ↦ ?_ }
  exact hw.executors e' x (AList.lookup_of_lookup_erase hx).2

/-- A copy spares the promoted objects. -/
theorem Inv.put {target : ProviderTarget} {o : ProviderObject γ} (hw : w.Inv)
    (hunused : w.Unused target) : Inv { w with objects := w.objects.insert target o } :=
  { hw with
    object := fun id p hp ↦
      (AList.lookup_insert_ne (hunused id p hp)).trans (hw.object id p hp) }

theorem Inv.remove {source : ProviderTarget} (hw : w.Inv) (hunused : w.Unused source) :
    Inv { w with objects := w.objects.erase source } :=
  { hw with
    object := fun id p hp ↦
      (AList.lookup_erase_ne (hunused id p hp)).trans (hw.object id p hp) }

theorem keepsLocations_setState {state : ManifestState} {reason : Option String} :
    KeepsLocations w (w.setState id state reason) := by
  intro i m hm
  unfold Located setState
  rw [AList.lookup_update]
  split
  · rename_i hi
    subst hi
    exact ⟨_, congrArg _ hm, rfl, rfl⟩
  · exact ⟨m, hm, rfl, rfl⟩

/-- The state that is set fits the history of the manifest. -/
theorem Inv.setState {state : ManifestState} {reason : Option String} (hw : w.Inv)
    (hstate : id ∈ w.promotions ↔ state.promoted) : (w.setState id state reason).Inv := by
  refine ⟨⟨hw.record, hw.object, fun i p hp ↦ ?_, fun i m hm hpromoted ↦ ?_⟩, fun e x hx ↦ ?_⟩
  · obtain ⟨m, hm, hpromoted, hsource, htarget⟩ := hw.manifest i p hp
    change ∃ m, (w.manifests.update id _).lookup i = some m ∧ _
    rw [AList.lookup_update]
    split
    · rename_i hi
      subst hi
      exact ⟨_, congrArg _ hm, hstate.mp (AList.mem_of_lookup hp), hsource, htarget⟩
    · exact ⟨m, hm, hpromoted, hsource, htarget⟩
  · change (w.manifests.update id _).lookup i = some m at hm
    rw [AList.lookup_update] at hm
    split at hm
    · rename_i hi
      subst hi
      obtain ⟨m₀, -, rfl⟩ := Option.map_eq_some_iff.mp hm
      exact hstate.mpr hpromoted
    · exact hw.backed i m hm hpromoted
  · exact (hw.executors e x hx).mono keepsLocations_setState (fun _ h ↦ h) fun _ _ _ _ _ h ↦ h

theorem version_target {m : Manifest} {target : ProviderTarget} (h : m.target = some target) :
    target.version = 1 := by
  obtain ⟨bucket, -, h⟩ := Option.bind_eq_some_iff.mp h
  obtain ⟨key, -, h⟩ := Option.bind_eq_some_iff.mp h
  rw [← Option.some.inj h]

theorem promoteIngestion_cases {source target : ProviderTarget} {v : Verified size} {out : Bool}
    (h : w.promoteIngestion id source target v = (out, w')) :
    (out = false ∧ w' = w) ∨ (out = true ∧ ∃ m r, w.manifests.lookup id = some m ∧
      w.records.lookup m.recordId = some r ∧ r.providerTargetVersion = 0 ∧
      w' = { w with
        records := w.records.update m.recordId fun r ↦
          { r with
            bucket := target.bucket
            physicalKey := target.key
            providerTargetVersion := 1 }
        manifests := w.manifests.update id fun m ↦
          { m with state := .copiedVerified, reason := none }
        promotions := w.promotions.insert id ⟨m.recordId, source, target, v⟩ }) := by
  unfold promoteIngestion at h
  split at h
  · obtain ⟨rfl, rfl⟩ := Prod.mk.inj h
    exact Or.inl ⟨rfl, rfl⟩
  rename_i m hm
  split at h
  · obtain ⟨rfl, rfl⟩ := Prod.mk.inj h
    exact Or.inl ⟨rfl, rfl⟩
  rename_i hready
  obtain ⟨rfl, rfl⟩ := Prod.mk.inj h
  obtain ⟨r, hr⟩ := Option.ne_none_iff_exists'.mp (not_or.mp hready).2
  obtain ⟨hr, hlegacy⟩ := Option.filter_eq_some_iff.mp hr
  have hversion : r.providerTargetVersion = 0 := of_decide_eq_true (Bool.and_eq_true_iff.mp hlegacy).2
  exact Or.inr ⟨rfl, m, r, hm, hr, hversion, rfl⟩

theorem keepsLocations_promote {records : Table Uuid MigratedRecord}
    {promotions : Table Uuid (Promotion size)} :
    KeepsLocations w { w with
      records
      manifests := w.manifests.update id fun m ↦
        { m with state := .copiedVerified, reason := none }
      promotions } := by
  have hset : KeepsLocations w (w.setState id .copiedVerified none) := keepsLocations_setState
  exact hset

/-- A promotion points its record to the object that has been verified. -/
theorem Promotes.promote {source target : ProviderTarget} {v : Verified size}
    (hw : w.Promotes) (hm : w.Located id m) (hsource : m.source = some source)
    (htarget : m.target = some target) (hobject : w.objects.lookup target = some v.target)
    (h : w.promoteIngestion id source target v = (true, w')) : w'.Promotes := by
  rcases promoteIngestion_cases h with ⟨hout, -⟩ | ⟨-, m₀, r, hm₀, hr, hversion, rfl⟩
  · cases hout
  obtain ⟨m', hm', hsource', htarget'⟩ := hm
  obtain rfl := Option.some.inj (hm₀.symm.trans hm')
  have hlocation : (⟨target.bucket, target.key, 1⟩ : ProviderTarget) = target := by
    rw [← version_target htarget]
  have hlookup : ∀ i p, (w.promotions.insert id ⟨m₀.recordId, source, target, v⟩).lookup i =
      some p → (i = id ∧ p = ⟨m₀.recordId, source, target, v⟩) ∨
        (i ≠ id ∧ w.promotions.lookup i = some p) := by
    intro i p hp
    rw [AList.lookup_insert'] at hp
    split at hp
    · exact Or.inl ⟨‹_›, (Option.some.inj hp).symm⟩
    · exact Or.inr ⟨‹_›, hp⟩
  refine ⟨fun i p hp ↦ ?_, fun i p hp ↦ ?_, fun i p hp ↦ ?_, fun i m hm hpromoted ↦ ?_⟩
  · rcases hlookup i p hp with ⟨rfl, rfl⟩ | ⟨-, hp⟩
    · exact ⟨_, (AList.lookup_update_self _ _ _).trans (congrArg _ hr), hlocation, rfl⟩
    · obtain ⟨r', hr', hbefore, hpromoted⟩ := hw.record i p hp
      -- A record which has been promoted before is not promoted again.
      have hne : p.recordId ≠ m₀.recordId := by
        intro heq
        rw [heq] at hr'
        obtain rfl := Option.some.inj (hr.symm.trans hr')
        rw [hversion] at hpromoted
        cases hpromoted
      exact ⟨r', (AList.lookup_update_of_ne hne _ _).trans hr', hbefore, hpromoted⟩
  · rcases hlookup i p hp with ⟨rfl, rfl⟩ | ⟨-, hp⟩
    · exact hobject
    · exact hw.object i p hp
  · rcases hlookup i p hp with ⟨rfl, rfl⟩ | ⟨hne, hp⟩
    · exact ⟨_, (AList.lookup_update_self _ _ _).trans (congrArg _ hm₀), rfl,
        hsource'.trans hsource, htarget'.trans htarget⟩
    · obtain ⟨m, hm, hrest⟩ := hw.manifest i p hp
      exact ⟨m, (AList.lookup_update_of_ne hne _ _).trans hm, hrest⟩
  · by_cases hi : i = id
    · exact AList.mem_insert'.mpr (Or.inl hi)
    · refine AList.mem_insert'.mpr (Or.inr (hw.backed i m ?_ hpromoted))
      exact (AList.lookup_update_of_ne hi _ _).symm.trans hm

/-! ## Steps -/

variable {rest : List (Uuid × Manifest)}

theorem Sound.tail {stage stage' : CopyStage size} (h : w.Sound (.copy stage ((id, m) :: rest))) :
    w.Sound (.copy stage' rest) :=
  ⟨(List.nodup_cons.mp h.1).2, fun q hq ↦ h.2 q (List.mem_cons_of_mem _ hq)⟩

theorem Inv.compare {source target : ProviderObject γ} {todo : List (Uuid × Manifest)}
    (hw : w.Inv) {stage : CopyStage size} (hx : w.Sound (.copy stage todo)) :
    (w.compare e c source target todo).Inv := by
  unfold MigrationWorld.compare
  split
  · exact hw.resume hx
  · exact hw.resume hx

/-- Quarantine is for manifests which have not been promoted. -/
theorem Inv.quarantine {stage : CopyStage size} {reason : String} (hw : w.Inv)
    (hx : w.Sound (.copy stage ((id, m) :: rest))) :
    ((effect c w (w.setState id .quarantined (some reason))).resume e c (.copy .begun rest)).Inv := by
  have hfresh : id ∉ w.promotions := (hx.2 _ List.mem_cons_self).1
  rcases effect_cases c w (w.setState id .quarantined (some reason)) with heq | heq
  · rw [heq]
    exact hw.resume hx.tail
  · rw [heq]
    refine (hw.setState (iff_of_false hfresh (by decide))).resume ?_
    exact hx.tail.mono keepsLocations_setState (fun _ h ↦ h) fun _ _ _ _ _ h ↦ h

theorem Inv.copyStep {stage : CopyStage size} (hw : w.Inv)
    (hx : w.executors.lookup e = some (.copy stage ((id, m) :: rest)))
    (hcmd : w.Undisturbed (.step e c)) : (w.copyStep e c stage id m rest).Inv := by
  have hsound := hw.executors e _ hx
  have hstay : ∀ stage' : CopyStage size, w.Sound (.copy stage' ((id, m) :: rest)) :=
    fun _ ↦ hsound
  simp only [Undisturbed, hx] at hcmd
  unfold MigrationWorld.copyStep
  split
  · rename_i source target hsource htarget
    cases stage with
    | begun =>
        simp only
        split
        · exact hw.resume (hstay _)
        split
        · exact hw.resume (hstay _)
        · exact hw.resume (hstay _)
    | sourceSeen o =>
        simp only
        split
        · exact hw.resume (hstay _)
        · exact hw.compare hsound
    | copying o =>
        simp only
        split
        · exact hw.erase e
        rename_i found hfound
        rcases effect_cases c w
          { w with objects := w.objects.insert target ⟨found.content, c.etag⟩ } with heq | heq
        · rw [heq]
          exact hw.resume (hstay _)
        · rw [heq]
          exact (hw.put (hcmd target htarget)).resume (hstay (.copied o))
    | copied o =>
        simp only
        split
        · exact hw.erase e
        · exact hw.compare hsound
    | promoting v =>
        obtain ⟨hobject, hothers⟩ := hcmd
        simp only
        split
        · exact hw.resume (hstay _)
        rename_i w' hpromote
        rcases effect_cases c w w' with heq | heq
        · rw [heq]
          exact hw.resume hsound.tail
        rw [heq]
        refine (hw.toPromotes.promote (hsound.2 _ List.mem_cons_self).2 hsource htarget
          (hobject target htarget) hpromote).resume (fun e' x' he hx' ↦ ?_) ?_
        all_goals
          rcases promoteIngestion_cases hpromote with ⟨hout, -⟩ | ⟨-, m₀, r, -, -, -, rfl⟩
        · cases hout
        · refine (hw.executors e' x' hx').mono keepsLocations_promote
            (fun i hi ↦ AList.mem_insert'.mpr (Or.inr hi)) fun stage' todo hcopy q hq hnew ↦ ?_
          subst hcopy
          refine (AList.mem_insert'.mp hnew).resolve_left fun hsame ↦ ?_
          exact hothers e' stage' todo he hx' (List.mem_map.mpr ⟨q, hq, hsame⟩)
        · cases hout
        · refine hsound.tail.mono keepsLocations_promote
            (fun i hi ↦ AList.mem_insert'.mpr (Or.inr hi)) fun stage' todo hcopy q hq hnew ↦ ?_
          obtain ⟨-, rfl⟩ := Executor.copy.inj hcopy
          refine (AList.mem_insert'.mp hnew).resolve_left fun hsame ↦ ?_
          exact (List.nodup_cons.mp hsound.1).1 (List.mem_map.mpr ⟨q, hq, hsame⟩)
    | quarantining reason => exact hw.quarantine hsound
  · split
    · exact hw.quarantine hsound
    · exact hw.resume (hstay _)

/-- A cleanup meets only promoted manifests: it finds their targets. -/
theorem Inv.cleanupStep {stage : CleanupStage} (hw : w.Inv)
    (hx : w.executors.lookup e = some (.cleanup stage ((id, m) :: rest)))
    (hcmd : w.Undisturbed (.step e c)) : (w.cleanupStep e c stage id m rest).Inv := by
  obtain ⟨htodo, hsettling⟩ := hw.executors e _ hx
  obtain ⟨hpromoted, m', hm', hsource', htarget'⟩ := htodo _ List.mem_cons_self
  obtain ⟨p, hp⟩ := AList.exists_lookup_of_mem hpromoted
  obtain ⟨m₀, hm₀, -, hsource, htarget⟩ := hw.manifest id p hp
  obtain rfl := Option.some.inj (hm'.symm.trans hm₀)
  rw [hsource'] at hsource
  rw [htarget'] at htarget
  have hstay : ∀ stage' : CleanupStage, (∀ state reason, stage' = .settling state reason →
      state = .cleanupCompleted) → w.Sound (.cleanup stage' ((id, m) :: rest)) :=
    fun _ h ↦ ⟨htodo, h⟩
  have hrest : w.Sound (.cleanup .begun rest) :=
    ⟨fun q hq ↦ htodo q (List.mem_cons_of_mem _ hq), fun _ _ h ↦ nomatch h⟩
  simp only [Undisturbed, hx] at hcmd
  cases stage with
  | begun =>
      have hfound := hw.object id p hp
      simp only [MigrationWorld.cleanupStep, hsource, htarget, hfound]
      exact hw.resume (hstay _ nofun)
  | deleting =>
      simp only [MigrationWorld.cleanupStep, hsource, htarget]
      have hdone : ∀ state reason,
          CleanupStage.settling .cleanupCompleted none = .settling state reason →
            state = .cleanupCompleted := fun _ _ h ↦ (CleanupStage.settling.inj h).1.symm
      rcases effect_cases c w { w with objects := w.objects.erase p.source } with heq | heq
      · rw [heq]
        exact hw.resume (hstay _ hdone)
      · rw [heq]
        exact (hw.remove (hcmd p.source hsource)).resume (hstay _ hdone)
  | settling state reason =>
      obtain rfl := hsettling state reason rfl
      simp only [MigrationWorld.cleanupStep]
      rcases effect_cases c w (w.setState id .cleanupCompleted reason) with heq | heq
      · rw [heq]
        exact hw.resume hrest
      · rw [heq]
        refine (hw.setState (iff_of_true hpromoted rfl)).resume ?_
        exact hrest.mono keepsLocations_setState (fun _ h ↦ h) fun _ _ h ↦ nomatch h

/-! ## Runs -/

theorem mem_read {state : ManifestState} {picked : List Uuid} {q : Uuid × Manifest}
    (hq : q ∈ w.read state picked) : w.manifests.lookup q.1 = some q.2 ∧ q.2.state = state := by
  obtain ⟨i, -, hi⟩ := List.mem_filterMap.mp hq
  obtain ⟨m, hm, rfl⟩ := Option.map_eq_some_iff.mp hi
  obtain ⟨hm, hstate⟩ := Option.filter_eq_some_iff.mp hm
  exact ⟨hm, of_decide_eq_true hstate⟩

theorem nodup_read (state : ManifestState) (picked : List Uuid) :
    ((w.read state picked).map Prod.fst).Nodup := by
  have hsub : ((w.read state picked).map Prod.fst).Sublist picked.dedup := by
    unfold MigrationWorld.read
    induction picked.dedup with
    | nil => exact List.Sublist.refl []
    | cons i ids ih =>
        rw [List.filterMap_cons]
        split
        · exact ih.cons i
        · rename_i q hq
          obtain ⟨m, -, rfl⟩ := Option.map_eq_some_iff.mp hq
          exact ih.cons_cons i
  exact picked.nodup_dedup.sublist hsub

theorem exec_inv {cmd : MigrationCmd} (hw : w.Inv) (hcmd : w.Undisturbed cmd)
    (hok : exec cmd w = .ok w') : w'.Inv := by
  cases cmd with
  | record fresh r storageSpace overlappingSpaceIds =>
      simp only [exec] at hok
      split at hok
      · cases hok
      rename_i hfresh
      obtain rfl := Except.ok.inj hok
      unfold recordManifest
      split
      · exact hw
      have hlookup : ∀ i m, w.manifests.lookup i = some m → i ≠ fresh := by
        rintro i m hm rfl
        exact hfresh (AList.mem_of_lookup hm)
      have hkeeps : KeepsLocations w { w with
          manifests := w.manifests.insert fresh
            (classifyLegacyTarget r storageSpace overlappingSpaceIds) } := fun i m hm ↦
        ⟨m, (AList.lookup_insert_ne (hlookup i m hm)).trans hm, rfl, rfl⟩
      refine ⟨⟨hw.record, hw.object, fun i p hp ↦ ?_, fun i m hm hpromoted ↦ ?_⟩, fun e x hx ↦ ?_⟩
      · obtain ⟨m, hm, hrest⟩ := hw.manifest i p hp
        exact ⟨m, (AList.lookup_insert_ne (hlookup i m hm)).trans hm, hrest⟩
      · rw [AList.lookup_insert'] at hm
        split at hm
        · obtain rfl := Option.some.inj hm
          rw [classifyLegacyTarget_promoted] at hpromoted
          cases hpromoted
        · exact hw.backed i m hm hpromoted
      · exact (hw.executors e x hx).mono hkeeps (fun _ h ↦ h) fun _ _ _ _ _ h ↦ h
  | copyVerified executor picked =>
      simp only [exec] at hok
      split at hok
      · cases hok
      obtain rfl := Except.ok.inj hok
      refine { hw.toPromotes with executors := fun e x hx ↦ ?_ }
      rw [AList.lookup_insert'] at hx
      split at hx
      · obtain rfl := Option.some.inj hx
        refine ⟨nodup_read _ _, fun q hq ↦ ?_⟩
        obtain ⟨hm, hstate⟩ := mem_read hq
        refine ⟨fun hpromoted ↦ ?_, q.2, hm, rfl, rfl⟩
        obtain ⟨p, hp⟩ := AList.exists_lookup_of_mem hpromoted
        obtain ⟨m, hm', hstate', -⟩ := hw.manifest q.1 p hp
        rw [← Option.some.inj (hm.symm.trans hm'), hstate] at hstate'
        cases hstate'
      · exact hw.executors e x hx
  | cleanupVerifiedSources executor picked =>
      simp only [exec] at hok
      split at hok
      · cases hok
      obtain rfl := Except.ok.inj hok
      refine { hw.toPromotes with executors := fun e x hx ↦ ?_ }
      rw [AList.lookup_insert'] at hx
      split at hx
      · obtain rfl := Option.some.inj hx
        refine ⟨fun q hq ↦ ?_, fun _ _ h ↦ nomatch h⟩
        obtain ⟨hm, hstate⟩ := mem_read hq
        exact ⟨hw.backed q.1 q.2 hm (by rw [hstate]; rfl), q.2, hm, rfl, rfl⟩
      · exact hw.executors e x hx
  | step executor c =>
      simp only [exec] at hok
      split at hok
      · rename_i stage id m rest hx
        rw [← Except.ok.inj hok]
        exact hw.copyStep hx hcmd
      · rename_i stage id m rest hx
        rw [← Except.ok.inj hok]
        exact hw.cleanupStep hx hcmd
      · rw [← Except.ok.inj hok]
        exact hw.erase executor
      · cases hok
  | crash executor =>
      rw [← Except.ok.inj hok]
      exact hw.erase executor

@[simp] theorem resume_objects : (w.resume e c x).objects = w.objects := rfl

theorem compare_objects {source target : ProviderObject γ} {todo : List (Uuid × Manifest)} :
    (w.compare e c source target todo).objects = w.objects := by
  unfold MigrationWorld.compare
  split <;> rfl

/-- Copying takes no object away. -/
theorem mem_copyStep {stage : CopyStage size} {location : ProviderTarget}
    (h : location ∈ w.objects) : location ∈ (w.copyStep e c stage id m rest).objects := by
  have hquarantine : ∀ reason, location ∈ (effect c w (w.setState id .quarantined
      (some reason))).objects := by
    intro reason
    rcases effect_cases c w (w.setState id .quarantined (some reason)) with heq | heq
    · rw [heq]
      exact h
    · rw [heq]
      exact h
  unfold MigrationWorld.copyStep
  split
  · rename_i source target hsource htarget
    cases stage with
    | begun =>
        simp only
        split
        · exact h
        split
        · exact h
        · exact h
    | sourceSeen o =>
        simp only
        split
        · exact h
        · rw [compare_objects]
          exact h
    | copying o =>
        simp only
        split
        · exact h
        rename_i found hfound
        rcases effect_cases c w
          { w with objects := w.objects.insert target ⟨found.content, c.etag⟩ } with heq | heq
        · rw [heq]
          exact h
        · rw [heq]
          exact AList.mem_insert'.mpr (Or.inr h)
    | copied o =>
        simp only
        split
        · exact h
        · rw [compare_objects]
          exact h
    | promoting v =>
        simp only
        split
        · exact h
        rename_i w' hpromote
        rcases effect_cases c w w' with heq | heq
        · rw [heq]
          exact h
        rw [heq]
        rcases promoteIngestion_cases hpromote with ⟨hout, -⟩ | ⟨-, m₀, r, -, -, -, rfl⟩
        · cases hout
        · exact h
    | quarantining reason => exact hquarantine reason
  · split
    · exact hquarantine _
    · exact h

/-- A cleanup takes the source of its manifest, if anything. -/
theorem mem_cleanupStep {stage : CleanupStage} {location : ProviderTarget}
    (h : location ∈ w.objects) :
    location ∈ (w.cleanupStep e c stage id m rest).objects ∨
      (stage = .deleting ∧ m.source = some location) := by
  unfold MigrationWorld.cleanupStep
  split
  · rename_i state reason
    left
    rcases effect_cases c w (w.setState id state reason) with heq | heq
    · rw [heq]
      exact h
    · rw [heq]
      exact h
  · left
    split
    · exact h
    · exact h
  · rename_i source _ hsource _
    rcases effect_cases c w { w with objects := w.objects.erase source } with heq | heq
    · rw [heq]
      exact Or.inl h
    · rw [heq]
      by_cases hlocation : location = source
      · exact Or.inr ⟨rfl, hlocation ▸ hsource⟩
      · exact Or.inl (AList.mem_erase.mpr ⟨hlocation, h⟩)
  · exact Or.inl h

theorem Inv.takesOnlySources {cmd : MigrationCmd} (hw : w.Inv) (hcmd : w.Undisturbed cmd) :
    w.TakesOnlySources cmd := by
  intro location hbefore hafter
  cases hok : exec cmd w with
  | error err =>
      rw [advance_of_error hok] at hafter
      exact absurd hbefore hafter
  | ok w' =>
      rw [advance_of_ok hok] at hafter
      cases cmd with
      | step executor c =>
          simp only [exec] at hok
          split at hok
          · rw [← Except.ok.inj hok] at hafter
            exact absurd (mem_copyStep hbefore) hafter
          · rename_i stage id m rest hx
            rw [← Except.ok.inj hok] at hafter
            obtain ⟨rfl, hsource⟩ := (mem_cleanupStep hbefore).resolve_left hafter
            simp only [Undisturbed, hx] at hcmd
            obtain ⟨hpromoted, m', hm', hsource', -⟩ :=
              (hw.executors executor _ hx).1 _ List.mem_cons_self
            obtain ⟨p, hp⟩ := AList.exists_lookup_of_mem hpromoted
            obtain ⟨m₀, hm₀, -, hpsource, -⟩ := hw.manifest id p hp
            obtain rfl := Option.some.inj (hm'.symm.trans hm₀)
            have hsame : p.source = location :=
              Option.some.inj (hpsource.symm.trans (hsource'.trans hsource))
            exact ⟨id, p, hp, hsame, hcmd location hsource id p hp⟩
          · rw [← Except.ok.inj hok] at hafter
            exact absurd hbefore hafter
          · cases hok
      | record fresh r storageSpace overlappingSpaceIds =>
          simp only [exec] at hok
          split at hok
          · cases hok
          · rw [← Except.ok.inj hok] at hafter
            exact absurd hbefore hafter
      | copyVerified executor picked =>
          simp only [exec] at hok
          split at hok
          · cases hok
          · rw [← Except.ok.inj hok] at hafter
            exact absurd hbefore hafter
      | cleanupVerifiedSources executor picked =>
          simp only [exec] at hok
          split at hok
          · cases hok
          · rw [← Except.ok.inj hok] at hafter
            exact absurd hbefore hafter
      | crash executor =>
          rw [← Except.ok.inj hok] at hafter
          exact absurd hbefore hafter

/-- No executor has begun, and nothing has been promoted. -/
structure Fresh (w : MigrationWorld size) : Prop where
  executors : w.executors = ∅
  promotions : w.promotions = ∅
  manifests : ∀ id m, w.manifests.lookup id = some m → m.state.promoted = false

theorem Fresh.inv (hw : w.Fresh) : w.Inv := by
  have hnone : ∀ id p, w.promotions.lookup id ≠ some p := by
    intro id p hp
    rw [hw.promotions] at hp
    cases hp
  refine ⟨⟨fun id p hp ↦ absurd hp (hnone id p), fun id p hp ↦ absurd hp (hnone id p),
    fun id p hp ↦ absurd hp (hnone id p), fun id m hm hpromoted ↦ ?_⟩, fun e x hx ↦ ?_⟩
  · rw [hw.manifests id m hm] at hpromoted
    cases hpromoted
  · rw [hw.executors] at hx
    cases hx

/-- In every undisturbed run, whatever fails and however the executors alternate, the promoted
records point to their verified objects, promoted manifests stay promoted, and only the sources
of promoted manifests are taken away. -/
theorem migration_loses_nothing {cmds : List MigrationCmd} (hw : w.Fresh)
    (hmeets : Meets exec Undisturbed w cmds) {pre post : List MigrationCmd}
    (heq : cmds = pre ++ post) :
    (run exec w pre).NothingLost ∧
      ∀ cmd rest, post = cmd :: rest → (run exec w pre).TakesOnlySources cmd := by
  subst heq
  obtain ⟨hpre, hpost⟩ := (meets_append _).mp hmeets
  have hinv : (run exec w pre).Inv :=
    run_invariant (I := Inv) (fun _ _ _ hs hcmd hok ↦ exec_inv hs hcmd hok) hw.inv hpre
  refine ⟨hinv.nothingLost, ?_⟩
  rintro cmd rest rfl
  exact hinv.takesOnlySources hpost.1

end MigrationWorld

namespace Sample

open MigrationWorld

def space : Files.StorageSpace := ⟨some 3, true, "data", "", some "acme", 1, 0⟩

/-- The record 5, whose object lies at the key. -/
def legacy (key : String) : MigrationWorld String.length where
  manifests := ∅
  records := (∅ : Table Uuid MigratedRecord).insert 5 ⟨1, "data", key, 0⟩
  objects := (∅ : Table ProviderTarget _).insert ⟨"data", key, 1⟩ ⟨"text", some "e1"⟩
  executors := ∅
  promotions := ∅

theorem fresh_legacy (key : String) : (legacy key).Fresh := ⟨rfl, rfl, fun _ _ hm ↦ nomatch hm⟩

def plan (key : String) : MigrationCmd :=
  .record 9 ⟨.ingestion, 5, 1, some "data", some key, some "a.txt"⟩ (some (2, space)) []

/-- The call succeeds; a copy keeps the ETag. -/
def succeeds : CallChoice := ⟨false, true, some "e1"⟩

def migrated : List MigrationCmd :=
  [plan "old/a.txt", .copyVerified 20 [9], .step 20 succeeds, .step 20 succeeds,
    .step 20 succeeds, .step 20 succeeds, .step 20 succeeds, .cleanupVerifiedSources 21 [9],
    .step 21 succeeds, .step 21 succeeds, .step 21 succeeds]

def targetKey : String := "acme/a.txt"

/-- The object lies already where it is to lie. -/
def coinciding : List MigrationCmd :=
  [plan targetKey, .copyVerified 20 [9], .step 20 succeeds, .step 20 succeeds, .step 20 succeeds,
    .cleanupVerifiedSources 21 [9], .step 21 succeeds, .step 21 succeeds]

/-- A second executor has read the manifest before the first promotes it. -/
def raced : List MigrationCmd :=
  [plan "old/a.txt", .copyVerified 20 [9], .copyVerified 21 [9], .step 20 succeeds,
    .step 20 succeeds, .step 20 succeeds, .step 20 succeeds, .step 20 succeeds, .step 21 succeeds,
    .step 21 succeeds, .step 21 succeeds, .step 21 succeeds]

/-- The world after the first commands. -/
def migratedBy (n : ℕ) : MigrationWorld String.length :=
  run MigrationWorld.exec (legacy "old/a.txt") (migrated.take n)

theorem undisturbed_migrated :
    Meets MigrationWorld.exec Undisturbed (legacy "old/a.txt") migrated := by
  have hexecutors : (migratedBy 6).executors.keys = [20] := by
    decide
  have hpromotions : (migratedBy 9).promotions.keys = [9] := by
    decide
  have htarget : ((migratedBy 9).promotions.lookup 9).map
      (·.target) = some ⟨"data", targetKey, 1⟩ := by decide
  refine ⟨trivial, trivial, trivial, trivial, fun target _ id p hp ↦ ?_, trivial,
    ⟨fun target hgoal ↦ ?_, fun other stage todo hother hlookup ↦ ?_⟩, trivial, trivial,
    fun source hsource id p hp ↦ ?_, trivial, trivial⟩
  · cases hp
  · obtain rfl := Option.some.inj hgoal
    rfl
  · have hmem : other ∈ (migratedBy 6).executors.keys :=
      AList.mem_keys.mp (AList.mem_of_lookup hlookup)
    rw [hexecutors] at hmem
    exact absurd (List.mem_singleton.mp hmem) hother
  · have hmem : id ∈ (migratedBy 9).promotions.keys :=
      AList.mem_keys.mp (AList.mem_of_lookup hp)
    rw [hpromotions] at hmem
    obtain rfl := List.mem_singleton.mp hmem
    change (migratedBy 9).promotions.lookup 9 = some p at hp
    rw [hp] at htarget
    have hpromoted : p.target = ⟨"data", targetKey, 1⟩ := Option.some.inj htarget
    have hread : (⟨"data", "old/a.txt", 1⟩ : ProviderTarget) = source := Option.some.inj hsource
    rw [hpromoted, ← hread]
    decide

end Sample

theorem migration_loses_nothing_sample :
    (run MigrationWorld.exec (Sample.legacy "old/a.txt") Sample.migrated).NothingLost ∧
      ∀ cmd rest, [] = cmd :: rest → (run MigrationWorld.exec (Sample.legacy "old/a.txt")
        Sample.migrated).TakesOnlySources cmd :=
  MigrationWorld.migration_loses_nothing (Sample.fresh_legacy _) Sample.undisturbed_migrated
    (List.append_nil _).symm

/-- The cleanup deletes the promoted object where it lies where it is to lie, and a second
executor quarantines a promoted manifest. -/
theorem migration_loses_object :
    ¬ (run MigrationWorld.exec (Sample.legacy Sample.targetKey) Sample.coinciding).NothingLost ∧
      ¬ (run MigrationWorld.exec (Sample.legacy "old/a.txt") Sample.raced).NothingLost := by
  refine ⟨fun hlost ↦ ?_, fun hlost ↦ ?_⟩
  · have hpromoted : 9 ∈ (run MigrationWorld.exec (Sample.legacy Sample.targetKey)
        Sample.coinciding).promotions := by decide
    obtain ⟨p, hp⟩ := AList.exists_lookup_of_mem hpromoted
    have hgone : (run MigrationWorld.exec (Sample.legacy Sample.targetKey)
        Sample.coinciding).objects.entries = [] := by decide
    have hkept := AList.mem_entries_iff_lookup.mpr (hlost.kept 9 p hp).2
    rw [hgone] at hkept
    cases hkept
  · have hpromoted : 9 ∈ (run MigrationWorld.exec (Sample.legacy "old/a.txt")
        Sample.raced).promotions := by decide
    obtain ⟨p, hp⟩ := AList.exists_lookup_of_mem hpromoted
    obtain ⟨m, hm, hstate⟩ := hlost.promoted 9 p hp
    have hquarantined : ((run MigrationWorld.exec (Sample.legacy "old/a.txt")
        Sample.raced).manifests.lookup 9).map (·.state) = some .quarantined := by decide
    rw [hm] at hquarantined
    have hlast : m.state = .quarantined := Option.some.inj hquarantined
    rw [hlast] at hstate
    cases hstate

end S3mp.Migration
