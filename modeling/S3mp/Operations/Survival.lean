import S3mp.Operations.NothingLost
import S3mp.Operations.OnlyCopy

/-!
# Which steps lose an operation

A step of a handler loses nothing, except the start of an operation which occupies
no file row, which no recovery will select, and the retry of an operation whose
delivery has lost its message while nothing else is on its way.
-/

namespace S3mp

open Relational Files Storage Transition

variable {γ : Type} {s : BrokerSystem γ} {db' : Db} {o : Uuid}

/-! ## Quiet steps -/

theorem expected_withWorld {w : World γ} (houtbox : w.db.outbox = s.world.db.outbox)
    (h : s.Expected o) : BrokerSystem.Expected { s with world := w } o := by
  rcases h with hannounced | hflight
  · exact Or.inl (announced_congr houtbox rfl hannounced)
  · exact Or.inr hflight

theorem dispose_world {tag : Uuid} {h : Handler} {disposal : Disposal} :
    (s.dispose tag h disposal).world = s.world := by
  unfold BrokerSystem.dispose
  dsimp only
  split
  · rfl
  split
  · rfl
  · rfl

theorem QuietStep.nothingLost {tag : Uuid} {h : Handler} {s' : BrokerSystem γ}
    (hs : WellDelivered s) (hlost : s.NothingLost) (hlookup : s.handlers.lookup tag = some h)
    (hstep : QuietStep s tag h s') : s'.NothingLost := by
  cases hstep with
  | goes stage hstage hbody =>
      refine nothingLost_of_expected hlost rfl (fun i ↦ .refl i _) fun i ↦ expected_enter hs hlookup ?_
      intro hi hkeeps
      rcases hbody with hnone | hnot
      · rw [hnone] at hi
        cases hi
      · rw [hnot] at hkeeps
        cases hkeeps
  | falls => exact nothingLost_of_expected hlost rfl (fun i ↦ .refl i _) fun i ↦ expected_drop
  | disposes disposal hstage =>
      refine nothingLost_of_expected hlost (by rw [dispose_world]) (fun i ↦ ?_) fun i ↦
        expected_dispose hlookup hstage
      exact rowsKept_of_files (by rw [dispose_world])
  | declines o hbody hnot =>
      refine ⟨fun i op hop hstartable ↦ ?_, hlost.processing⟩
      refine expected_enter hs hlookup (fun hi ↦ ?_) (hlost.waiting i op hop hstartable)
      obtain rfl := Option.some.inj (hbody.symm.trans hi)
      rw [hnot op hop] at hstartable
      cases hstartable
  | works D r c stage hstage hkeeps =>
      obtain ⟨hoperations, houtbox, hrows, hconsistent⟩ := answer_quiet (D := D) r c hs.consistent
      have hlegacy : LegacyFresh (World.answer D r c s.world).2.db := by
        unfold LegacyFresh
        rw [hoperations, houtbox]
        exact hs.legacy
      have hs' := hs.world hconsistent hlegacy fun _ ↦ knows_congr houtbox
      refine nothingLost_of_expected hlost hoperations hrows fun i hexpected ↦
        expected_enter hs' hlookup (fun _ hkept ↦ ?_) (expected_withWorld houtbox hexpected)
      rw [hkeeps] at hkept
      cases hkept
  | settles o db' disposal hkeeps hconsistent hserves hterminal =>
      have hs' : WellDelivered (s.withDb db') :=
        hs.served hconsistent hserves fun op' hop' ↦ legacy_of_terminal (hterminal op' hop')
      refine nothingLost_of_serves hlost hserves (fun i _ hexpected ↦ ?_) (fun op hop hstartable ↦ ?_)
        fun op hop hprocessing ↦ ?_
      · refine expected_enter hs' hlookup (fun _ hkept ↦ ?_)
          (expected_withWorld hserves.outbox hexpected)
        rw [hkeeps] at hkept
        cases hkept
      · rw [(not_startable_of_terminal (hterminal op hop)).1] at hstartable
        cases hstartable
      · exact absurd hprocessing (not_startable_of_terminal (hterminal op hop)).2
  | sends m queue disposal hfresh =>
      have hs' : WellDelivered { s with
          messages := s.messages.insert m ⟨h.body, .delayed queue⟩ } :=
        hs.insert fun _ h ↦ nomatch h
      refine nothingLost_of_expected hlost rfl (fun i ↦ .refl i _) fun i hexpected ↦ ?_
      by_cases hi : h.body = some i
      · exact Or.inr ⟨m, _, AList.lookup_insert _, hi, fun _ _ h ↦ nomatch h⟩
      · exact expected_enter hs' hlookup (fun hbody ↦ absurd hbody hi)
          (expected_insert hfresh hexpected)
  | gives =>
      exact nothingLost_of_expected hlost rfl (fun i ↦ .refl i _) fun i ↦
        expected_enter hs hlookup fun _ _ ↦ rfl

/-! ## The start and the retry -/

theorem operationFileIds_ne_nil {db : Db} :
    operationFileIds o db ≠ [] ↔
      ∃ j f, db.files.lookup j = some f ∧ f.activeOperationId = some o := by
  have hmem : operationFileIds o db ≠ [] ↔ ∃ j, j ∈ operationFileIds o db :=
    ⟨List.exists_mem_of_ne_nil _, fun ⟨_, hj⟩ ↦ List.ne_nil_of_mem hj⟩
  rw [hmem]
  refine exists_congr fun j ↦ ?_
  rw [operationFileIds, AList.mem_keys_select]
  simp only [decide_eq_true_eq]

theorem started_nothingLost_iff {tag : Uuid} {h : Handler} {op' : FileOperation} {now : Timestamp}
    {op : FileOperation} (hs : WellDelivered s) (hlost : s.NothingLost)
    (hlookup : s.handlers.lookup tag = some h) (hbody : h.body = some o)
    (hop : s.world.db.operations.lookup o = some op) (hstatus : op'.status = .processing)
    (hconsistent : Consistent (started s tag h o op' now).world.db) :
    operationFileIds o s.world.db ≠ [] ↔ (started s tag h o op' now).NothingLost := by
  have hop' : (started s tag h o op' now).world.db.operations.lookup o = some op' :=
    lookup_update_status hop
  rw [operationFileIds_ne_nil]
  constructor
  · rintro ⟨j, f, hf, hheld⟩
    have hs' : WellDelivered (s.withDb (started s tag h o op' now).world.db) := by
      refine hs.served hconsistent serves_phase fun op'' hop'' ↦ ?_
      obtain rfl := Option.some.inj (hop'.symm.trans hop'')
      rw [hstatus]
      rfl
    refine nothingLost_of_serves hlost serves_phase (fun i hi hexpected ↦ ?_)
      (fun op'' hop'' hstartable ↦ ?_) fun _ _ _ ↦ ?_
    · refine expected_enter hs' hlookup (fun hi' ↦ ?_) (expected_withWorld rfl hexpected)
      exact absurd (Option.some.inj (hi'.symm.trans hbody)) hi
    · obtain rfl := Option.some.inj (hop'.symm.trans hop'')
      rw [hstatus] at hstartable
      cases hstartable
    · refine ⟨j, f.inPhase .processing (some now), ?_, hheld, rfl⟩
      simp [started, BrokerSystem.enter, BrokerSystem.withDb, updateHeld, AList.lookup_updateWhere,
        hf, hheld]
  · intro hlost'
    have hselectable := hlost'.processing o op' hop' hstatus
    obtain ⟨j, f', hf', hheld', -⟩ := (selectable_iff hstatus).mp hselectable
    obtain ⟨f, hf, rfl⟩ := Option.map_eq_some_iff.mp
      ((AList.lookup_updateWhere _ _ s.world.db.files j).symm.trans hf')
    refine ⟨j, f, hf, ?_⟩
    split at hheld'
    · exact hheld'
    · exact hheld'

/-- Recording a retry loses the operation unless something is still to bring it to a worker. -/
theorem retried_nothingLost_iff {tag : Uuid} {h : Handler} {op' row : FileOperation}
    {attemptCount : ℕ} (hs : WellDelivered s) (hlost : s.NothingLost)
    (hlookup : s.handlers.lookup tag = some h) (hbody : h.body = some o)
    (hrow : s.world.db.operations.lookup o = some row) (hstatus : op'.status = .retryScheduled)
    (hconsistent : Consistent (retried s tag h o op' attemptCount).world.db) :
    (s.HasMessage tag h ∨ s.Expected o) ↔ (retried s tag h o op' attemptCount).NothingLost := by
  have hop' : (retried s tag h o op' attemptCount).world.db.operations.lookup o = some op' :=
    lookup_update_status hrow
  have hs' : WellDelivered (s.withDb (retried s tag h o op' attemptCount).world.db) := by
    refine hs.served hconsistent serves_phase fun op'' hop'' ↦ ?_
    obtain rfl := Option.some.inj (hop'.symm.trans hop'')
    rw [hstatus]
    rfl
  have hexpected : ∀ i, s.Expected i → (retried s tag h o op' attemptCount).Expected i :=
    fun i hexpected ↦ expected_enter hs' hlookup (fun _ _ ↦ rfl) (expected_withWorld rfl hexpected)
  constructor
  · intro hcomes
    refine nothingLost_of_serves hlost serves_phase (fun i _ ↦ hexpected i) (fun _ _ _ ↦ ?_)
      fun op'' hop'' hprocessing ↦ ?_
    · rcases hcomes with hmine | hother
      · refine Or.inr ⟨h.message, _, hmine, hbody, ?_⟩
        rintro tag' h' ⟨⟩ hlookup'
        obtain rfl := Option.some.inj ((AList.lookup_insert _).symm.trans hlookup')
        rfl
      · exact hexpected o hother
    · obtain rfl := Option.some.inj (hop'.symm.trans hop'')
      rw [hstatus] at hprocessing
      cases hprocessing
  · intro hlost'
    have hstartable : op'.status.startable := by rw [hstatus]; rfl
    rcases hlost'.waiting o op' hop' hstartable with hannounced | ⟨m, message, hm, hbody', hkept⟩
    · exact Or.inr (Or.inl hannounced)
    by_cases hplace : message.place = .unacked tag
    · obtain ⟨rfl, hsame⟩ := hs.held m message tag h hm hplace hlookup
      refine Or.inl (Eq.trans hm ?_)
      rw [hsame, ← hplace]
    · refine Or.inr (Or.inr ⟨m, message, hm, hbody', fun tag' h' hplace' hlookup' ↦ ?_⟩)
      have htag : tag' ≠ tag := by
        rintro rfl
        exact hplace hplace'
      exact hkept tag' h' hplace' ((AList.lookup_insert_ne htag).trans hlookup')

section

variable {D : Digest γ} {tenantId : Uuid} {maxRetries : ℕ}

theorem keepsOperations_of_untested {tag : Uuid} {h : Handler} {c : HandlerChoice}
    (hlookup : s.handlers.lookup tag = some h) (huntested : Untested maxRetries s h) :
    s.KeepsOperations maxRetries (.handle tag c) := by
  intro h' o row hlookup' hbody hrow
  obtain rfl := Option.some.inj (hlookup.symm.trans hlookup')
  obtain ⟨hstart, hretry⟩ := huntested o row hbody hrow
  refine ⟨fun hreceived hstartable ↦ ?_, fun op reason hretrying hattempts hprocessing ↦ ?_⟩
  · rw [hstart hreceived] at hstartable
    cases hstartable
  · exact absurd hprocessing (hretry op reason hretrying hattempts)

theorem HandlerStep.keepsOperations_iff {tag : Uuid} {h : Handler} {c : HandlerChoice}
    {s' : BrokerSystem γ} (hs : WellDelivered s) (hlost : s.NothingLost)
    (hlookup : s.handlers.lookup tag = some h) (hstep : HandlerStep maxRetries s tag h s') :
    s.KeepsOperations maxRetries (.handle tag c) ↔ s'.NothingLost := by
  cases hstep with
  | quiet huntested hquiet =>
      constructor
      · exact fun _ ↦ hquiet.nothingLost hs hlost hlookup
      · exact fun _ ↦ keepsOperations_of_untested hlookup huntested
  | starts o op op' now hbody hstage hop hstartable hstatus hconsistent =>
      rw [← started_nothingLost_iff hs hlost hlookup hbody hop hstatus hconsistent]
      constructor
      · exact fun hkeeps ↦ (hkeeps h o op hlookup hbody hop).1 hstage hstartable
      · intro hheld h' o' row hlookup' hbody' hrow
        obtain rfl := Option.some.inj (hlookup.symm.trans hlookup')
        obtain rfl := Option.some.inj (hbody.symm.trans hbody')
        refine ⟨fun _ _ ↦ hheld, fun op reason hretrying ↦ ?_⟩
        rw [hstage] at hretrying
        cases hretrying
  | retries o op op' row reason attemptCount hbody hstage hattempts hrow hprocessing hstatus
      hconsistent =>
      rw [← retried_nothingLost_iff hs hlost hlookup hbody hrow hstatus hconsistent]
      constructor
      · exact fun hkeeps ↦
          (hkeeps h o row hlookup hbody hrow).2 op reason hstage hattempts hprocessing
      · intro hcomes h' o' row' hlookup' hbody' hrow'
        obtain rfl := Option.some.inj (hlookup.symm.trans hlookup')
        obtain rfl := Option.some.inj (hbody.symm.trans hbody')
        refine ⟨fun hreceived ↦ ?_, fun _ _ _ _ _ ↦ hcomes⟩
        rw [hstage] at hreceived
        cases hreceived

/-- A handler which cannot go on stands where nothing is decided. -/
theorem untested_of_handle_error {tag : Uuid} {c : HandlerChoice} {h : Handler}
    (hexec : s.handle D tenantId maxRetries tag c = .error ())
    (hlookup : s.handlers.lookup tag = some h) : Untested maxRetries s h := by
  unfold BrokerSystem.handle at hexec
  rw [hlookup] at hexec
  dsimp only at hexec
  split at hexec
  · rename_i hnone
    intro o row hbody
    rw [hnone] at hbody
    cases hbody
  rename_i o hbody
  split at hexec
  · split at hexec <;> cases hexec
  · split at hexec <;> cases hexec
  · cases hexec
  · cases hexec
  · cases hexec
  · split at hexec
    · cases hexec
    split at hexec
    · cases hexec
    split at hexec <;> cases hexec
  · cases hexec
  · rename_i hstage
    exact untested_of_stage (by simp [hstage]) (by simp [hstage])
  · cases hexec

theorem handle_keepsOperations_iff {tag : Uuid} {c : HandlerChoice} (hs : WellDelivered s)
    (hlost : s.NothingLost) :
    s.KeepsOperations maxRetries (.handle tag c) ↔
      (advance (brokerExec D tenantId maxRetries) s (.handle tag c)).NothingLost := by
  cases hexec : brokerExec D tenantId maxRetries (.handle tag c) s with
  | error e =>
      rw [advance_of_error hexec]
      refine ⟨fun _ ↦ hlost, fun _ h o row hlookup ↦ ?_⟩
      exact keepsOperations_of_untested hlookup (untested_of_handle_error hexec hlookup) h o row
        hlookup (c := c)
  | ok s' =>
      rw [advance_of_ok hexec]
      obtain ⟨h, hlookup, hstep⟩ := handle_step hs hexec
      exact hstep.keepsOperations_iff hs hlost hlookup

/-! ## The steps of a publisher -/

theorem claimOutboxEvents_unpublished {now : Timestamp} {picked : List Uuid} {db : Db} {e : Uuid}
    {event : OperationOutboxEvent} (he : db.outbox.lookup e = some event)
    (hunpublished : event.publishedAt = none) :
    ∃ event', (claimOutboxEvents now picked db).2.outbox.lookup e = some event' ∧
      event'.operationId = event.operationId ∧ event'.publishedAt = none := by
  simp only [claimOutboxEvents, AList.lookup_updateWhere, he, Option.map_some]
  refine ⟨_, rfl, ?_, ?_⟩
  · split <;> rfl
  · split <;> exact hunpublished

theorem releaseOutboxEvent_unpublished {db : Db} {e e' : Uuid} {event : OperationOutboxEvent}
    (he : db.outbox.lookup e = some event) (hunpublished : event.publishedAt = none) :
    ∃ event', (releaseOutboxEvent e' db).outbox.lookup e = some event' ∧
      event'.operationId = event.operationId ∧ event'.publishedAt = none := by
  by_cases hne : e = e'
  · subst hne
    simp only [releaseOutboxEvent, AList.lookup_update_self, he, Option.map_some]
    refine ⟨_, rfl, ?_, ?_⟩
    · split <;> rfl
    · split <;> exact hunpublished
  · exact ⟨event, (AList.lookup_update_of_ne hne _ _).trans he, rfl, hunpublished⟩

/-- A claim or a release of events leaves every announcement. -/
theorem expected_republished (hunpublished : ∀ e event, s.world.db.outbox.lookup e = some event →
      event.publishedAt = none → ∃ event', db'.outbox.lookup e = some event' ∧
        event'.operationId = event.operationId ∧ event'.publishedAt = none)
    (h : s.Expected o) : (s.withDb db').Expected o := by
  rcases h with hannounced | hflight
  · refine Or.inl (announced_mono (s := s) (fun e event he _ ↦ hunpublished e event he) ?_ hannounced)
    exact fun _ _ publisher rest hmarks ↦ ⟨publisher, rest, hmarks⟩
  · exact Or.inr hflight

/-- The event which is marked has given its place to a message already. -/
theorem expected_marked {publisher e : Uuid} {rest : List (Uuid × Uuid)} {now : Timestamp}
    (hlookup : s.publishers.lookup publisher = some (.marking e rest)) (h : s.Expected o) :
    (s.withDb (markOutboxPublished now e s.world.db)).Expected o := by
  rcases h with hannounced | hflight
  · refine Or.inl (announced_mono (s := s) (fun e' event he hnot hunpublished ↦ ?_) ?_ hannounced)
    · have hne : e' ≠ e := by
        rintro rfl
        exact hnot publisher rest hlookup
      exact ⟨event, (AList.lookup_update_of_ne hne _ _).trans he, rfl, hunpublished⟩
    · exact fun _ _ publisher rest hmarks ↦ ⟨publisher, rest, hmarks⟩
  · exact Or.inr hflight

theorem publish_nothingLost {publisher m : Uuid} {now : Timestamp} {publication : Publication}
    {s' : BrokerSystem γ} (hs : WellDelivered s) (hlost : s.NothingLost)
    (hexec : s.publish publisher now publication m = .ok s') : s'.NothingLost := by
  unfold BrokerSystem.publish at hexec
  split at hexec
  · cases hexec
  · cases hexec
    exact nothingLost_of_expected hlost rfl (fun i ↦ .refl i _) fun i ↦ expected_erasePublisher
  · rename_i e o rest hlookup
    obtain ⟨s₁, hsend, rfl⟩ := Except.map_eq_ok.mp hexec
    rcases send_eq_ok hsend with ⟨rfl, rfl⟩ | ⟨hfresh, rfl⟩
    · exact nothingLost_of_expected hlost rfl (fun i ↦ .refl i _) fun i hexpected ↦
        expected_publishers hexpected fun _ _ h ↦ nomatch h
    refine nothingLost_of_expected hlost rfl (fun i ↦ .refl i _) fun i hexpected ↦ ?_
    split
    · exact expected_published hs hfresh hlookup hexpected
    · exact expected_publishers (expected_insert hfresh hexpected) fun _ _ h ↦ nomatch h
  · rename_i e rest hlookup
    cases hexec
    refine nothingLost_of_expected hlost rfl (fun i ↦ .refl i _) fun i hexpected ↦ ?_
    exact expected_publishers (expected_marked hlookup hexpected) fun _ _ h ↦ nomatch h
  · rename_i e hlookup
    cases hexec
    refine nothingLost_of_expected hlost rfl (fun i ↦ .refl i _) fun i hexpected ↦ ?_
    exact expected_erasePublisher (expected_republished
      (fun _ _ he ↦ releaseOutboxEvent_unpublished he) hexpected)

/-! ## Every step -/

/-- No step but one of a handler loses an operation. -/
theorem nothingLost_of_other {c : BrokerCmd γ} (hs : WellDelivered s) (hlost : s.NothingLost)
    (hc : ∀ tag choice, c ≠ .handle tag choice) :
    (advance (brokerExec D tenantId maxRetries) s c).NothingLost := by
  refine advance_preserves hlost fun s' hexec ↦ ?_
  cases c with
  | store c =>
      simp only [brokerExec] at hexec
      split at hexec
      · cases hexec
      rename_i db' hstore
      cases hexec
      exact nothingLost_store hs hlost (storeCmd_handsOver hs.consistent hs.legacy hstore)
  | provider objects =>
      cases hexec
      exact nothingLost_of_expected hlost rfl (fun i ↦ .refl i _) fun i ↦ expected_withWorld rfl
  | claim publisher now picked =>
      simp only [brokerExec] at hexec
      split at hexec
      · cases hexec
      · cases hexec
        refine nothingLost_of_expected hlost rfl (fun i ↦ .refl i _) fun i hexpected ↦ ?_
        exact expected_publishers (expected_republished
          (fun _ _ he ↦ claimOutboxEvents_unpublished he) hexpected) fun _ _ h ↦ by cases h
  | publish publisher now publication m => exact publish_nothingLost hs hlost hexec
  | publisherCrash publisher =>
      cases hexec
      exact nothingLost_of_expected hlost rfl (fun i ↦ .refl i _) fun i ↦ expected_erasePublisher
  | arrive m body =>
      obtain ⟨hfresh, rfl⟩ := accept_eq_ok hexec
      exact nothingLost_of_expected hlost rfl (fun i ↦ .refl i _) fun i ↦ expected_insert hfresh
  | expire m | redeliver m =>
      simp only [brokerExec] at hexec
      split at hexec
      · rename_i hm
        cases hexec
        exact nothingLost_of_expected hlost rfl (fun i ↦ .refl i _) fun i ↦ expected_ready hm
      · cases hexec
  | deliver m tag =>
      simp only [brokerExec] at hexec
      split at hexec
      · rename_i hm
        split at hexec
        · cases hexec
        rename_i hfree
        cases hexec
        push Not at hfree
        refine nothingLost_of_expected hlost rfl (fun i ↦ .refl i _) fun i ↦
          expected_deliver hm hfree.1 fun m' message hm' hplace ↦ ?_
        exact Bool.false_ne_true ((AList.anyRow_eq_false.mp (by simpa using hfree.2)) m' message hm'
          |>.symm.trans (by simpa using hplace))
      · cases hexec
  | handle tag choice => exact absurd rfl (hc tag choice)
  | handlerCrash tag =>
      cases hexec
      exact nothingLost_of_expected hlost rfl (fun i ↦ .refl i _) fun i ↦ expected_drop

theorem keepsOperations_iff (hs : WellDelivered s) (hlost : s.NothingLost) (c : BrokerCmd γ) :
    s.KeepsOperations maxRetries c ↔
      (advance (brokerExec D tenantId maxRetries) s c).NothingLost := by
  cases c with
  | handle tag choice => exact handle_keepsOperations_iff hs hlost
  | _ =>
      refine ⟨fun _ ↦ nothingLost_of_other hs hlost fun _ _ h ↦ ?_, fun _ ↦ trivial⟩
      cases h

/-- In a run of publishers, broker, receivers, recovery, cutover and operator with crashes between
any two steps, every operation is announced, on its way or selectable in every state exactly when
it is so at the start, no delivery starts an operation without a file row, and no delivery which
has lost its message records a retry that nothing else will serve. -/
theorem no_operation_lost_iff (hs : WellDelivered s) (cs : List (BrokerCmd γ)) :
    (∀ pre post, cs = pre ++ post →
      (run (brokerExec D tenantId maxRetries) s pre).NothingLost) ↔
      s.NothingLost ∧ Meets (brokerExec D tenantId maxRetries)
        (fun s c ↦ s.KeepsOperations maxRetries c) s cs :=
  run_invariant_iff (I := fun s : BrokerSystem γ ↦ s.NothingLost) (W := WellDelivered)
    (V := fun _ ↦ True) (fun _ c hs _ ↦ wellDelivered_advance hs c)
    (fun _ c hs _ hlost ↦ keepsOperations_iff hs hlost c) hs fun _ _ ↦ trivial

end

namespace Sample

/-- The stored file, with nothing under way. -/
def delivering : BrokerSystem Bool := ⟨moving none, ∅, ∅, ∅⟩

def handled (locked : Bool) : HandlerChoice := ⟨seconds 10, locked, served, .confirmed, 79⟩

/-- The rename is accepted, published, delivered and started. -/
def firstDelivery : List (BrokerCmd Bool) :=
  [.store (.createRenameOperation operationIds 2 rename),
    .claim 70 0 [51],
    .publish 70 0 .confirmed 71,
    .publish 70 0 .confirmed 71,
    .deliver 71 72,
    .handle 72 (handled false)]

/-- The only attempt is over, and the operator replays the operation. -/
def secondDelivery : List (BrokerCmd Bool) :=
  firstDelivery ++
    [.handle 72 (handled false),
      .handle 72 (handled false),
      .handle 72 (handled false),
      .store (.replayDeadLetterOperation 54 50 51),
      .claim 73 (seconds 20) [54],
      .publish 73 (seconds 20) .confirmed 74,
      .deliver 74 75,
      .handle 75 (handled false)]

theorem wellDelivered_delivering : WellDelivered delivering :=
  ⟨consistent_stored, (fun _ _ _ _ h ↦ nomatch h), (fun _ _ h ↦ nomatch h),
    (fun _ _ _ _ h ↦ nomatch h), (fun _ _ h ↦ nomatch h)⟩

theorem nothingLost_delivering : delivering.NothingLost :=
  ⟨(fun _ _ h ↦ nomatch h), (fun _ _ h ↦ nomatch h)⟩

theorem keepsOperations_firstDelivery :
    Meets (brokerExec digest 1 1) (fun s c ↦ s.KeepsOperations 1 c) delivering firstDelivery := by
  refine ⟨trivial, trivial, trivial, trivial, trivial, fun h o row hlookup hbody hrow ↦ ?_, trivial⟩
  obtain rfl := Option.some.inj hlookup
  obtain rfl := Option.some.inj hbody
  exact ⟨fun _ _ ↦ by decide, fun _ _ h ↦ nomatch h⟩

end Sample

theorem no_operation_lost_sample :
    (run (brokerExec Sample.digest 1 1) Sample.delivering Sample.firstDelivery).NothingLost :=
  (no_operation_lost_iff Sample.wellDelivered_delivering Sample.firstDelivery).mpr
    ⟨Sample.nothingLost_delivering, Sample.keepsOperations_firstDelivery⟩ _ []
    (List.append_nil _).symm

/-- A replayed operation occupies no row, and no recovery selects it once it has been started. -/
theorem replayed_operation_is_lost : ¬ ∀ (s : BrokerSystem Bool) (cs : List (BrokerCmd Bool)),
    WellDelivered s → s.NothingLost → (run (brokerExec Sample.digest 1 1) s cs).NothingLost := by
  intro h
  have hlost := h Sample.delivering Sample.secondDelivery Sample.wellDelivered_delivering
    Sample.nothingLost_delivering
  have hstatus : ((run (brokerExec Sample.digest 1 1) Sample.delivering
      Sample.secondDelivery).world.db.operations.lookup 50).map (·.status) = some .processing := by
    decide +kernel
  obtain ⟨op, hop, hprocessing⟩ := Option.map_eq_some_iff.mp hstatus
  obtain ⟨j, f, hf, hheld, -⟩ :=
    (selectable_iff hprocessing).mp (hlost.processing 50 op hop hprocessing)
  have hrows : operationFileIds 50 (run (brokerExec Sample.digest 1 1) Sample.delivering
      Sample.secondDelivery).world.db = [] := by
    decide +kernel
  exact operationFileIds_ne_nil.mpr ⟨j, f, hf, hheld⟩ hrows

end S3mp
