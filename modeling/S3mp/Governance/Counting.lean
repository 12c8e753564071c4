import Mathlib.Data.List.Perm.Subperm
import S3mp.Governance.ApiObservability

/-!
# What is counted

Every step of the worker moves entries from the stream to a pass and from there to the metrics,
or drops those which the pass still holds.  What has been delivered once is not read again.
-/

namespace S3mp.Governance

open Relational Transition

/-! ## Places in a list -/

/-- What the other places of a list contribute is the same whatever stands in one place. -/
theorem flatMap_set_perm {α β : Type} (f : α → List β) {l : List α} {i : ℕ} {a : α}
    (h : l[i]? = some a) : ∃ rest, (l.flatMap f).Perm (f a ++ rest) ∧
      ∀ b, ((l.set i b).flatMap f).Perm (f b ++ rest) := by
  induction l generalizing i with
  | nil => cases h
  | cons x l ih =>
      cases i with
      | zero =>
          obtain rfl := Option.some.inj h
          exact ⟨l.flatMap f, .refl _, fun b ↦ .refl _⟩
      | succ i =>
          obtain ⟨rest, hl, hset⟩ := ih h
          have hswap : ∀ c, (f x ++ (f c ++ rest)).Perm (f c ++ (f x ++ rest)) :=
            fun c ↦ List.perm_append_comm_assoc _ _ _
          refine ⟨f x ++ rest, ?_, fun b ↦ ?_⟩
          · rw [List.flatMap_cons]
            exact (hl.append_left (f x)).trans (hswap a)
          · rw [List.set_cons_succ, List.flatMap_cons]
            exact ((hset b).append_left (f x)).trans (hswap b)

/-! ## Steps -/

namespace ObservabilityWorld

variable {w w' : ObservabilityWorld} {c : ObservationStep}

/-- The entries which have been counted, are with a pass or can be delivered. -/
def accounted (w : ObservabilityWorld) : List StreamEntry :=
  w.counted ++ w.inHand ++ w.stream.fresh

/-- The step keeps account of all entries but those of `lost`. -/
def Loses (w w' : ObservabilityWorld) (lost : List StreamEntry) : Prop :=
  ∃ added, w'.appended = w.appended ++ added ∧
    (w.accounted ++ added).Perm (w'.accounted ++ lost)

/-- A pass goes on: what it holds is counted, kept or lost. -/
theorem loses_goOn {i : ℕ} {pass pass' : ObservationPass} {d lost : List StreamEntry}
    (hpass : w.passes[i]? = some pass) (hpasses : w'.passes = w.passes.set i pass')
    (happended : w'.appended = w.appended) (hcounted : w'.counted = w.counted ++ d)
    (hfresh : w'.stream.fresh = w.stream.fresh)
    (hsplit : pass.uncounted = d ++ (pass'.uncounted ++ lost)) : w.Loses w' lost := by
  obtain ⟨rest, hbefore, hafter⟩ := flatMap_set_perm (·.uncounted) hpass
  refine ⟨[], by rw [happended, List.append_nil], ?_⟩
  have hhand : w.inHand.Perm (d ++ (pass'.uncounted ++ lost) ++ rest) := hsplit ▸ hbefore
  have hhand' : w'.inHand.Perm (pass'.uncounted ++ rest) := by
    unfold inHand
    rw [hpasses]
    exact hafter pass'
  unfold accounted
  rw [hcounted, hfresh, List.append_nil]
  rw [List.perm_iff_count] at hhand hhand' ⊢
  intro e
  have h := hhand e
  have h' := hhand' e
  simp only [List.count_append] at h h' ⊢
  omega

theorem loses_append (trimmed : ℕ) (e : StreamEntry) :
    w.Loses { w with stream := w.stream.xadd trimmed e, appended := w.appended ++ [e] }
      ((w.stream.fresh ++ [e]).take (w.stream.excess trimmed - w.stream.delivered.length)) := by
  refine ⟨[e], rfl, ?_⟩
  have hsplit := List.take_append_drop (w.stream.excess trimmed - w.stream.delivered.length)
    (w.stream.fresh ++ [e])
  rw [List.perm_iff_count]
  intro e'
  have hcount := congrArg (List.count e') hsplit
  simp only [accounted, inHand, UsageStream.xadd, List.count_append] at hcount ⊢
  omega

theorem loses_xreadgroup (count : ℕ) :
    w.Loses { w with
      stream := w.stream.xreadgroup count
      passes := w.passes ++ [.consuming (w.stream.fresh.take count)] } [] := by
  refine ⟨[], (List.append_nil _).symm, ?_⟩
  have hsplit := List.take_append_drop count w.stream.fresh
  rw [List.perm_iff_count]
  intro e
  have hcount := congrArg (List.count e) hsplit
  simp only [accounted, inHand, UsageStream.xreadgroup, List.count_append, List.flatMap_append,
    List.flatMap_cons, List.flatMap_nil, List.append_nil, ObservationPass.uncounted] at hcount ⊢
  omega

/-- Everything a step does to the entries. -/
theorem exec_loses (hok : exec c w = .ok w') :
    ∃ lost, w.Loses w' lost ∧ (w.Undisturbed c ↔ lost = []) := by
  cases c with
  | append fields trimmed =>
      rw [← Except.ok.inj hok]
      refine ⟨_, loses_append trimmed _, ?_⟩
      rw [Undisturbed, List.take_eq_nil_iff, Nat.sub_eq_zero_iff_le]
      exact ⟨Or.inl, fun h ↦ h.resolve_right (List.append_ne_nil_of_right_ne_nil _ nofun)⟩
  | xreadgroup count =>
      simp only [exec] at hok
      split at hok
      · cases hok
      · rw [← Except.ok.inj hok]
        exact ⟨[], loses_xreadgroup count, iff_of_true trivial rfl⟩
  | consume i outcome =>
      simp only [exec] at hok
      split at hok
      · rename_i e events hpass
        have honly : ∀ e' events', w.passes[i]? = some (.consuming (e' :: events')) →
            events' = events := by
          intro e' events' h
          rw [hpass] at h
          cases h
          rfl
        cases outcome with
        | done =>
            rw [← Except.ok.inj hok]
            refine ⟨[], loses_goOn (d := [e]) hpass rfl rfl rfl rfl (by simp), ?_⟩
            exact iff_of_true (fun _ _ _ ↦ ⟨nofun, nofun⟩) rfl
        | refused =>
            rw [← Except.ok.inj hok]
            refine ⟨e :: events, loses_goOn (d := []) hpass rfl rfl (List.append_nil _).symm rfl
              (by simp), ?_⟩
            exact iff_of_false (fun h ↦ (h e events hpass).1 rfl) (List.cons_ne_nil _ _)
        | unknown =>
            rw [← Except.ok.inj hok]
            refine ⟨events, loses_goOn (d := [e]) hpass rfl rfl rfl rfl (by simp), ?_⟩
            refine ⟨fun h ↦ (h e events hpass).2 rfl, fun h e' events' hpass' ↦ ⟨nofun, fun _ ↦ ?_⟩⟩
            rw [honly e' events' hpass', h]
      · cases hok
  | xack i outcome =>
      simp only [exec] at hok
      split at hok
      · rename_i e events hpass
        have honly : ∀ e' events', w.passes[i]? = some (.acknowledging e' events') →
            events' = events := by
          intro e' events' h
          rw [hpass] at h
          cases h
          rfl
        cases outcome with
        | done =>
            rw [← Except.ok.inj hok]
            refine ⟨[], loses_goOn (d := []) hpass rfl rfl (List.append_nil _).symm rfl
              (by simp), ?_⟩
            exact iff_of_true (fun _ _ _ h ↦ absurd rfl h) rfl
        | refused =>
            rw [← Except.ok.inj hok]
            refine ⟨events, loses_goOn (d := []) hpass rfl rfl (List.append_nil _).symm rfl
              (by simp), fun h ↦ h e events hpass nofun, fun h e' events' hpass' _ ↦ ?_⟩
            rw [honly e' events' hpass', h]
        | unknown =>
            rw [← Except.ok.inj hok]
            refine ⟨events, loses_goOn (d := []) hpass rfl rfl (List.append_nil _).symm rfl
              (by simp), fun h ↦ h e events hpass nofun, fun h e' events' hpass' _ ↦ ?_⟩
            rw [honly e' events' hpass', h]
      · cases hok
  | crash i =>
      simp only [exec] at hok
      split at hok
      · cases hok
      · rename_i pass hpass
        rw [← Except.ok.inj hok]
        refine ⟨pass.uncounted, loses_goOn (d := []) hpass rfl rfl (List.append_nil _).symm rfl
          (by simp), fun h ↦ h pass hpass, fun h pass' hpass' ↦ ?_⟩
        rw [hpass] at hpass'
        rw [← Option.some.inj hpass', h]

/-- A step which is not the next one of its pass disturbs nothing. -/
theorem undisturbed_of_error {e : TxError} (h : exec c w = .error e) : w.Undisturbed c := by
  cases c with
  | append fields trimmed => cases h
  | xreadgroup count => trivial
  | consume i outcome =>
      intro e events hpass
      simp only [exec, hpass] at h
      cases outcome <;> cases h
  | xack i outcome =>
      intro e events hpass
      simp only [exec, hpass] at h
      cases outcome <;> cases h
  | crash i =>
      intro pass hpass
      simp only [exec, hpass] at h
      cases h

/-- What was not lost before is lost exactly when the step disturbs a pass or the stream. -/
theorem undisturbed_iff (hw : w.NothingLost) :
    w.Undisturbed c ↔ (advance exec w c).NothingLost := by
  cases hok : exec c w with
  | error e =>
      rw [advance_of_error hok]
      exact iff_of_true (undisturbed_of_error hok) hw
  | ok w' =>
      rw [advance_of_ok hok]
      obtain ⟨lost, ⟨added, happended, hperm⟩, hundisturbed⟩ := exec_loses hok
      have hall : w'.appended.Perm (w'.accounted ++ lost) := by
        rw [happended]
        exact (hw.append_right added).trans hperm
      rw [hundisturbed]
      constructor
      · rintro rfl
        rw [List.append_nil] at hall
        exact hall
      · intro hkept
        have hlength := hall.length_eq.symm.trans hkept.length_eq
        rw [List.length_append] at hlength
        exact List.eq_nil_of_length_eq_zero (Nat.add_eq_left.mp hlength)

/-! ## Counting -/

/-- The entries counted, held and new are different entries of the stream. -/
structure Sound (w : ObservabilityWorld) : Prop where
  numbered : ∀ e ∈ w.appended, e.id < w.appended.length
  distinct : w.appended.Nodup
  within : w.accounted.Subperm w.appended
  metrics : ∀ k, (w.metrics.lookup k).getD ⟨0, 0, 0, 0⟩ = tally k w.counted
  totals : ∀ k m, w.metrics.lookup k = some m →
    m.totalCount = m.successCount + m.clientErrorCount + m.serverErrorCount

theorem sound_start : start.Sound :=
  ⟨nofun, .nil, .refl _, fun _ ↦ rfl, nofun⟩

theorem Sound.countsRight (hw : w.Sound) : w.CountsRight := by
  refine ⟨?_, hw.metrics, hw.totals⟩
  have hall : w.accounted.Nodup := by
    obtain ⟨l, hperm, hsub⟩ := hw.within
    exact hperm.nodup_iff.mp (hw.distinct.sublist hsub)
  unfold accounted at hall
  rw [List.append_assoc] at hall
  exact hall.of_append_left

end ObservabilityWorld

/-- A status counts as exactly one of the three outcomes. -/
theorem Observation.values_total (o : Observation) :
    o.values.totalCount =
      o.values.successCount + o.values.clientErrorCount + o.values.serverErrorCount := by
  unfold Observation.values Observation.succeeded Observation.clientFailed Observation.serverFailed
  rcases lt_or_ge o.statusCode 400 with h | h
  · have h₄ : ¬ 400 ≤ o.statusCode := by omega
    have h₅ : ¬ 500 ≤ o.statusCode := by omega
    simp [h, h₄, h₅]
  · have h₄ : ¬ o.statusCode < 400 := by omega
    rcases lt_or_ge o.statusCode 500 with h' | h'
    · have h₅ : ¬ 500 ≤ o.statusCode := by omega
      simp [h, h₄, h', h₅]
    · have h₅ : ¬ o.statusCode < 500 := by omega
      simp [h₄, h₅, h']

namespace ObservabilityWorld

variable {w w' : ObservabilityWorld} {c : ObservationStep}

theorem tally_append (k : MetricKey) (entries : List StreamEntry) (e : StreamEntry) :
    tally k (entries ++ [e]) =
      if e.fields.key = k then e.fields.addTo (tally k entries) else tally k entries := by
  split
  · rename_i hkey
    simp [tally, Observation.addTo, Observation.values, hkey, List.countP_singleton, Bool.toNat]
  · rename_i hkey
    simp [tally, hkey]

theorem consumeOne_metrics (hw : w.Sound) (e : StreamEntry) :
    (∀ k, ((w.consumeOne e).metrics.lookup k).getD ⟨0, 0, 0, 0⟩ = tally k (w.counted ++ [e])) ∧
    ∀ k m, (w.consumeOne e).metrics.lookup k = some m →
      m.totalCount = m.successCount + m.clientErrorCount + m.serverErrorCount := by
  have hvalues : e.fields.values = e.fields.addTo ⟨0, 0, 0, 0⟩ := by
    simp [Observation.addTo, Observation.values]
  have hrow : (w.metrics.lookup e.fields.key).elim e.fields.values e.fields.addTo =
      e.fields.addTo (tally e.fields.key w.counted) := by
    rw [← hw.metrics]
    cases w.metrics.lookup e.fields.key with
    | none => exact hvalues
    | some m => rfl
  refine ⟨fun k ↦ ?_, fun k m hm ↦ ?_⟩
  · rw [tally_append]
    change ((w.metrics.insert _ _).lookup k).getD _ = _
    rw [AList.lookup_insert', hrow]
    by_cases hk : k = e.fields.key
    · subst hk
      rw [if_pos rfl, if_pos rfl, Option.getD_some]
    · rw [if_neg hk, if_neg (Ne.symm hk), hw.metrics]
  · change (w.metrics.insert _ _).lookup k = some m at hm
    rw [AList.lookup_insert'] at hm
    split at hm
    · obtain rfl := Option.some.inj hm
      have htotal := e.fields.values_total
      cases hold : w.metrics.lookup e.fields.key with
      | none => exact htotal
      | some m =>
          have hm := hw.totals _ m hold
          simp only [Option.elim_some, Observation.addTo]
          simp only [Observation.values] at htotal ⊢
          omega
    · exact hw.totals k m hm

/-- What a step writes besides the stream and the passes. -/
theorem exec_writes (hok : exec c w = .ok w') :
    (w'.appended = w.appended ∨
      ∃ fields, w'.appended = w.appended ++ [⟨w.appended.length, fields⟩]) ∧
    ((w'.metrics = w.metrics ∧ w'.counted = w.counted) ∨
      ∃ e, w'.metrics = (w.consumeOne e).metrics ∧ w'.counted = w.counted ++ [e]) := by
  cases c with
  | append fields trimmed =>
      rw [← Except.ok.inj hok]
      exact ⟨Or.inr ⟨fields, rfl⟩, Or.inl ⟨rfl, rfl⟩⟩
  | xreadgroup count =>
      simp only [exec] at hok
      split at hok
      · cases hok
      · rw [← Except.ok.inj hok]
        exact ⟨Or.inl rfl, Or.inl ⟨rfl, rfl⟩⟩
  | consume i outcome =>
      simp only [exec] at hok
      split at hok
      · rename_i e events hpass
        cases outcome <;> rw [← Except.ok.inj hok]
        · exact ⟨Or.inl rfl, Or.inr ⟨e, rfl, rfl⟩⟩
        · exact ⟨Or.inl rfl, Or.inl ⟨rfl, rfl⟩⟩
        · exact ⟨Or.inl rfl, Or.inr ⟨e, rfl, rfl⟩⟩
      · cases hok
  | xack i outcome =>
      simp only [exec] at hok
      split at hok
      · cases outcome <;> rw [← Except.ok.inj hok] <;> exact ⟨Or.inl rfl, Or.inl ⟨rfl, rfl⟩⟩
      · cases hok
  | crash i =>
      simp only [exec] at hok
      split at hok
      · cases hok
      · rw [← Except.ok.inj hok]
        exact ⟨Or.inl rfl, Or.inl ⟨rfl, rfl⟩⟩

theorem Sound.exec (hw : w.Sound) (hok : exec c w = .ok w') : w'.Sound := by
  obtain ⟨lost, ⟨added, happended, hperm⟩, -⟩ := exec_loses hok
  obtain ⟨hentries, hmetrics⟩ := exec_writes hok
  have hwithin : w'.accounted.Subperm w'.appended := by
    have hkept : w'.accounted.Subperm (w'.accounted ++ lost) :=
      (List.sublist_append_left _ _).subperm
    rw [happended]
    exact hkept.trans (hperm.symm.subperm.trans (hw.within.append (.refl added)))
  have hnumbers : (∀ e ∈ w'.appended, e.id < w'.appended.length) ∧ w'.appended.Nodup := by
    rcases hentries with hsame | ⟨fields, hnew⟩
    · rw [hsame]
      exact ⟨hw.numbered, hw.distinct⟩
    · rw [hnew, List.length_append]
      refine ⟨fun e he ↦ ?_, ?_⟩
      · rcases List.mem_append.mp he with hold | hlast
        · exact Nat.lt_add_right _ (hw.numbered e hold)
        · rw [List.mem_singleton.mp hlast]
          exact Nat.lt_succ_self _
      · -- The number of the new entry has not been given before.
        refine hw.distinct.append (List.nodup_singleton _) fun e hold hlast ↦ ?_
        have hnumber := hw.numbered e hold
        rw [List.mem_singleton.mp hlast] at hnumber
        exact absurd hnumber (Nat.lt_irrefl _)
  rcases hmetrics with ⟨hmetrics, hcounted⟩ | ⟨e, hmetrics, hcounted⟩
  · exact ⟨hnumbers.1, hnumbers.2, hwithin, fun k ↦ by rw [hmetrics, hcounted, hw.metrics],
      fun k m hm ↦ hw.totals k m (hmetrics ▸ hm)⟩
  · obtain ⟨hrows, htotals⟩ := consumeOne_metrics hw e
    exact ⟨hnumbers.1, hnumbers.2, hwithin, fun k ↦ by rw [hmetrics, hcounted, hrows],
      fun k m hm ↦ htotals k m (hmetrics ▸ hm)⟩

/-! ## A pass without a failure -/

/-- The steps of `run_once` when nothing fails. -/
def handled (i : ℕ) : ℕ → List ObservationStep
  | 0 => []
  | n + 1 => .consume i .done :: .xack i .done :: handled i n

theorem goOn_passes {i : ℕ} {pass : ObservationPass} (hpass : w.passes[i]? = some pass)
    (pass' : ObservationPass) : (w.goOn i pass').passes[i]? = some pass' :=
  List.getElem?_set_self (List.getElem?_eq_some_iff.mp hpass).1

theorem run_handled {i : ℕ} {events : List StreamEntry}
    (hpass : w.passes[i]? = some (.consuming events)) :
    (run exec w (handled i events.length)).counted = w.counted ++ events ∧
      (run exec w (handled i events.length)).stream.fresh = w.stream.fresh := by
  induction events generalizing w with
  | nil => exact ⟨(List.append_nil _).symm, rfl⟩
  | cons e events ih =>
      set w₁ := (w.consumeOne e).goOn i (.acknowledging e events) with hw₁
      set w₂ := (w₁.acknowledge e.id).goOn i (.consuming events) with hw₂
      have hconsumed : advance exec w (.consume i .done) = w₁ :=
        advance_of_ok (by simp only [exec, hpass, hw₁])
      have hpass₁ : w₁.passes[i]? = some (.acknowledging e events) :=
        goOn_passes (w := w.consumeOne e) hpass _
      have hacked : advance exec w₁ (.xack i .done) = w₂ :=
        advance_of_ok (by simp only [exec, hpass₁, hw₂])
      have hpass₂ : w₂.passes[i]? = some (.consuming events) :=
        goOn_passes (w := w₁.acknowledge e.id) hpass₁ _
      obtain ⟨hcounted, hfresh⟩ := ih hpass₂
      rw [List.length_cons, handled, run_cons, run_cons, hconsumed, hacked]
      refine ⟨hcounted.trans ?_, hfresh⟩
      exact List.append_assoc w.counted [e] events

/-- `run_once` when nothing fails. -/
def pass (count : ℕ) (w : ObservabilityWorld) : List ObservationStep :=
  .xreadgroup count :: handled w.passes.length (w.stream.fresh.take count).length

/-- A pass in which nothing fails counts the new entries it asks for, the oldest first. -/
theorem run_pass (w : ObservabilityWorld) {count : ℕ} (hcount : count ≠ 0) :
    (run exec w (w.pass count)).counted = w.counted ++ w.stream.fresh.take count ∧
      (run exec w (w.pass count)).stream.fresh = w.stream.fresh.drop count := by
  set w₁ : ObservabilityWorld := { w with
    stream := w.stream.xreadgroup count
    passes := w.passes ++ [.consuming (w.stream.fresh.take count)] } with hw₁
  have hread : advance exec w (.xreadgroup count) = w₁ :=
    advance_of_ok (by simp only [exec, hcount, if_false, hw₁])
  have hpass : w₁.passes[w.passes.length]? = some (.consuming (w.stream.fresh.take count)) := by
    rw [hw₁, List.getElem?_concat_length]
  rw [pass, run_cons, hread]
  exact run_handled hpass

end ObservabilityWorld

open ObservabilityWorld in
/-- In every run no observation is counted twice, and every metric is the sum of its outcomes.
None is lost in any state of the run exactly when no pass ends while it holds observations and
only delivered entries are trimmed.  A pass in which nothing fails counts the new ones. -/
theorem observations_counted_iff (steps : List ObservationStep) :
    (run ObservabilityWorld.exec start steps).CountsRight ∧
    ((∀ pre post, steps = pre ++ post → (run ObservabilityWorld.exec start pre).NothingLost) ↔
      Meets ObservabilityWorld.exec Undisturbed start steps) ∧
    ∀ w count, count ≠ 0 →
      (run ObservabilityWorld.exec w (w.pass count)).counted =
          w.counted ++ w.stream.fresh.take count ∧
        (run ObservabilityWorld.exec w (w.pass count)).stream.fresh =
          w.stream.fresh.drop count := by
  refine ⟨?_, ?_, fun w count hcount ↦ run_pass w hcount⟩
  · exact (run_preserves (fun _ _ _ hw hok ↦ hw.exec hok) sound_start steps).countsRight
  · have hstart : start.NothingLost := .nil
    have hrun : (∀ pre post, steps = pre ++ post →
        (run ObservabilityWorld.exec start pre).NothingLost) ↔
        start.NothingLost ∧ Meets ObservabilityWorld.exec Undisturbed start steps :=
      run_invariant_iff (W := fun _ ↦ True) (V := fun _ ↦ True) (fun _ _ _ _ ↦ trivial)
        (fun _ _ _ _ hw ↦ undisturbed_iff hw) trivial fun _ _ ↦ trivial
    rw [hrun]
    exact and_iff_right hstart

namespace Sample

def called (statusCode : ℤ) : Observation := ⟨1, 5, "getFile", statusCode, "r", 0⟩

/-- The first of two observations cannot be counted, and two more passes follow. -/
def failedPass : List ObservationStep :=
  [.append (called 200) 0, .append (called 404) 0, .xreadgroup 10, .consume 0 .refused,
    .xreadgroup 10, .xreadgroup 10]

end Sample

open ObservabilityWorld in
/-- The observations of a failed pass are neither counted nor delivered again. -/
theorem failed_pass_loses_observations :
    ¬ ∀ steps, (run ObservabilityWorld.exec start steps).NothingLost := by
  intro h
  have hlength := (h Sample.failedPass).length_eq
  exact absurd hlength (by decide)

end S3mp.Governance
