import S3mp.Knowledge.Handling

/-!
# Runs of publishers and receivers

The invariant says besides what must not be lost that the publishers know their events and the
handlers their messages.  It is kept by the transactions, by the broker, by the publishers and
by the handlers, one lemma each.
-/

namespace S3mp.Knowledge

open Relational Messaging Transition

/-! ## Publishers -/

/-- The events a publisher has still to publish. -/
def OutboxPublisher.events : OutboxPublisher → List (Uuid × EventPayload)
  | .publishing events => events
  | .marking _ rest => rest
  | .releasing _ => []

/-- The events of the publisher are in the outbox, with the payloads it has read. -/
structure OutboxPublisher.Knows (db : KnowledgeDb) (p : OutboxPublisher) : Prop where
  payloads : ∀ e payload, (e, payload) ∈ p.events →
    ∃ event, db.outbox.lookup e = some event ∧ event.payload = payload
  marked : ∀ e rest, p = .marking e rest → e ∈ db.outbox

variable {db : KnowledgeDb}

/-- Events keep their payloads. -/
def SamePayloads (db db' : KnowledgeDb) : Prop :=
  ∀ e event, db.outbox.lookup e = some event → ∃ event',
    db'.outbox.lookup e = some event' ∧ event'.payload = event.payload

theorem HandsOver.samePayloads {db' : KnowledgeDb} (h : HandsOver db db') : SamePayloads db db' :=
  fun e event he ↦
    let ⟨event', he', hpayload, _⟩ := h.events e event he
    ⟨event', he', hpayload⟩

theorem OutboxPublisher.Knows.mono {db' : KnowledgeDb} {p : OutboxPublisher} (hp : p.Knows db)
    (h : SamePayloads db db') : p.Knows db' := by
  refine ⟨fun e payload he ↦ ?_, fun e rest hp' ↦ ?_⟩
  · obtain ⟨event, hevent, rfl⟩ := hp.payloads e payload he
    exact h e event hevent
  · obtain ⟨event, hevent⟩ := AList.exists_lookup_of_mem (hp.marked e rest hp')
    obtain ⟨event', hevent', -⟩ := h e event hevent
    exact AList.mem_of_lookup hevent'

/-! ## The invariant -/

namespace AnalysisSystem

structure Delivered (s : AnalysisSystem) : Prop where
  attended : s.broker.Attended
  known : ∀ publisher p, s.publishers.lookup publisher = some p → p.Knows s.db
  leased : Leased s.db
  waiting : ∀ taskId task, s.db.tasks.lookup taskId = some task → task.state = .queued →
    s.Expected taskId

variable {s : AnalysisSystem} {tag : Uuid} {h : AnalysisHandler} {taskId : Uuid}
  {c : ReceiverChoice} {maxRetries : ℕ} {broker : AnalysisBroker}

/-- A task which has a lease is selected once the lease has run out. -/
theorem Delivered.nothingLost (hs : s.Delivered) : s.NothingLost := by
  refine ⟨hs.waiting, fun taskId task htask hprocessing ↦ ?_, hs.attended.attended⟩
  obtain ⟨expires, hexpires⟩ := hs.leased taskId task htask hprocessing
  refine ⟨expires, fun now hnow ↦ ?_⟩
  simp [AnalysisTask.stale, hprocessing, hexpires, hnow]

theorem Announced.mono (hannounced : s.Announced taskId)
    (hevents : ∀ e event, s.db.outbox.lookup e = some event → ∃ event',
      db.outbox.lookup e = some event' ∧ event'.payload = event.payload ∧
        (event.publishedAt = none → event'.publishedAt = none)) :
    Announced { s with db, broker } taskId := by
  obtain ⟨e, event, hevent, hname, hopen, hunmarked⟩ := hannounced
  obtain ⟨event', hevent', hpayload, hopen'⟩ := hevents e event hevent
  exact ⟨e, event', hevent', hpayload ▸ hname, hopen' hopen, hunmarked⟩

/-- The database and the broker change; a message may be lost if its task does not wait. -/
theorem Delivered.change (hs : s.Delivered) (hdb : HandsOver s.db db)
    (hattended : broker.Attended)
    (hflight : ∀ taskId task, db.tasks.lookup taskId = some task → task.state = .queued →
      s.InFlight taskId → broker.InFlight ReceiverStage.keepsMessage (some taskId)) :
    Delivered { s with db, broker } := by
  refine ⟨hattended, fun publisher p hp ↦ (hs.known publisher p hp).mono hdb.samePayloads,
    hdb.leased hs.leased, fun taskId task htask hqueued ↦ ?_⟩
  rcases hdb.waiting taskId task htask hqueued with ⟨before, hbefore, hwaited⟩ |
    ⟨e, event, hnew, hevent, hname, hopen⟩
  · exact (hs.waiting taskId before hbefore hwaited).imp (·.mono hdb.events)
      (hflight taskId task htask hqueued)
  · refine Or.inl ⟨e, event, hevent, hname, hopen, fun publisher rest hmarking ↦ hnew ?_⟩
    exact (hs.known publisher _ hmarking).marked e rest rfl

/-! ## The store -/

theorem Delivered.store (hs : s.Delivered) (hdb : HandsOver s.db db) :
    Delivered { s with db } :=
  hs.change hdb hs.attended fun _ _ _ _ hflight ↦ hflight

/-! ## The broker -/

theorem Delivered.onBroker {f : AnalysisBroker → AnalysisBroker} (hs : s.Delivered)
    (hattended : (f s.broker).Attended)
    (hflight : ∀ taskId, s.InFlight taskId →
      (f s.broker).InFlight ReceiverStage.keepsMessage (some taskId)) :
    (s.onBroker f).Delivered :=
  hs.change (.refl _) hattended fun taskId _ _ _ ↦ hflight taskId

theorem Delivered.put {m : Uuid} {body : Option Uuid} {place : Place Uuid} (hs : s.Delivered)
    (hplace : ∀ tag, place ≠ .unacked tag)
    (hsame : ∀ message, s.broker.messages.lookup m = some message → message.body = body) :
    (s.onBroker (·.put m body place)).Delivered :=
  hs.onBroker (hs.attended.put hplace) fun _ hflight ↦ hflight.put hplace hsame

theorem Delivered.putNew {m : Uuid} {body : Option Uuid} {place : Place Uuid} (hs : s.Delivered)
    (hplace : ∀ tag, place ≠ .unacked tag) (hnew : m ∉ s.broker.messages) :
    (s.onBroker (·.put m body place)).Delivered :=
  hs.put hplace fun _ hm ↦ absurd (AList.mem_of_lookup hm) hnew

theorem Delivered.send {s' : AnalysisSystem} {publication : Publication} {m : Uuid}
    {body : Option Uuid} {place : Place Uuid} (hs : s.Delivered)
    (hplace : ∀ tag, place ≠ .unacked tag) (hok : s.send publication m body place = .ok s') :
    s'.Delivered := by
  rcases send_cases hok with ⟨-, rfl⟩ | ⟨hnew, rfl⟩
  · exact hs
  · exact hs.putNew hplace hnew

theorem Delivered.drop (hs : s.Delivered) (hh : s.broker.handlers.lookup tag = some h)
    (hlost : ¬ s.broker.HasMessage tag h) : (s.onBroker (·.drop tag)).Delivered :=
  hs.onBroker (hs.attended.drop hh hlost) fun _ hflight ↦ hflight.drop

theorem Delivered.leave {disposal : Disposal} (hs : s.Delivered)
    (hh : s.broker.handlers.lookup tag = some h)
    (hkeeps : disposal = .requeue ∨ h.stage.keepsMessage = false) :
    (s.onBroker (·.leave tag h disposal)).Delivered :=
  hs.onBroker (hs.attended.leave hh) fun _ hflight ↦ hflight.leave hh hkeeps

/-! ## Handlers -/

theorem Delivered.enter {stage : ReceiverStage} (hs : s.Delivered)
    (hh : s.broker.handlers.lookup tag = some h) (hdb : HandsOver s.db db)
    (hkeeps : ∀ taskId task, h.body = some taskId → db.tasks.lookup taskId = some task →
      task.state = .queued → h.stage.keepsMessage → stage.keepsMessage) :
    (s.enter tag h db stage).Delivered :=
  hs.change hdb (hs.attended.enter hh) fun taskId task htask hqueued hflight ↦
    Broker.InFlight.enter hflight hs.attended hh fun hbody ↦ hkeeps taskId task hbody htask hqueued

/-- The task waits again, for the message the handler has or for another one. -/
theorem Delivered.requeue {reason : String} {attemptCount : ℕ} {task : AnalysisTask}
    (hs : s.Delivered) (hh : s.broker.handlers.lookup tag = some h) (hbody : h.body = some taskId)
    (hexpected : s.broker.HasMessage tag h ∨ s.Expected taskId) :
    (s.enter tag h (s.db.updateTask taskId fun _ ↦ task.requeued reason)
      (.opening attemptCount)).Delivered := by
  have hkept : ∀ b, s.broker.InFlight ReceiverStage.keepsMessage b →
      (s.broker.enter tag h (.opening attemptCount)).InFlight ReceiverStage.keepsMessage b :=
    fun b hflight ↦ Broker.InFlight.enter hflight hs.attended hh fun _ _ ↦ rfl
  refine ⟨hs.attended.enter hh, fun publisher p hp ↦ (hs.known publisher p hp).mono
    fun _ event he ↦ ⟨event, he, rfl⟩, fun i task' htask' hprocessing ↦ ?_,
    fun i task' htask' hqueued ↦ ?_⟩
  · change (s.db.updateTask taskId _).tasks.lookup i = some task' at htask'
    rw [KnowledgeDb.lookup_updateTask] at htask'
    split at htask'
    · obtain ⟨_, -, rfl⟩ := Option.map_eq_some_iff.mp htask'
      cases hprocessing
    · exact hs.leased i task' htask' hprocessing
  · have hbefore : s.broker.HasMessage tag h ∧ i = taskId ∨ s.Expected i := by
      change (s.db.updateTask taskId _).tasks.lookup i = some task' at htask'
      rw [KnowledgeDb.lookup_updateTask] at htask'
      split at htask'
      · rename_i hi
        subst hi
        exact hexpected.imp (⟨·, rfl⟩) id
      · exact Or.inr (hs.waiting i task' htask' hqueued)
    rcases hbefore with ⟨hhas, rfl⟩ | hannounced | hflight
    · refine Or.inr ?_
      have hself : (s.broker.enter tag h (.opening attemptCount)).InFlight
          ReceiverStage.keepsMessage h.body := Broker.inFlight_enter_self hhas rfl
      rw [hbody] at hself
      exact hself
    · exact Or.inl hannounced
    · exact Or.inr (hkept _ hflight)

/-- The copy is in flight before the handler lets go of its message. -/
theorem Delivered.handOn {place : Place Uuid} (hs : s.Delivered)
    (hh : s.broker.handlers.lookup tag = some h) (hplace : ∀ tag, place ≠ .unacked tag)
    (hnew : c.fresh ∉ s.broker.messages) :
    ((s.onBroker (·.put c.fresh h.body place)).enter tag h s.db (.leaving .ack)).Delivered := by
  have hput : (s.onBroker (·.put c.fresh h.body place)).Delivered :=
    hs.putNew hplace hnew
  refine hput.change (.refl _) (hput.attended.enter hh) fun taskId _ _ _ hflight ↦ ?_
  -- The handler goes on as if the copy had been put afterwards.
  change ((s.broker.enter tag h (.leaving .ack)).put c.fresh h.body place).InFlight _ _
  by_cases hbody : h.body = some taskId
  · rw [hbody]
    exact Broker.inFlight_put_self hplace
  · exact Broker.InFlight.enter hflight hput.attended hh fun hsame ↦ absurd hsame hbody

theorem Delivered.handled {s' : AnalysisSystem} (hs : s.Delivered)
    (hh : s.broker.handlers.lookup tag = some h) (hbody : h.body = some taskId)
    (hwell : HandlesWell maxRetries s tag h taskId c)
    (hhandled : Handled s maxRetries tag h taskId c s') : s'.Delivered := by
  cases hhandled with
  | escape hescapes =>
      refine hs.drop hh fun hhas ↦ ?_
      rcases hescapes with hescapes | ⟨status, reason, state, task, hstage, hsettles, htask, hopen,
        hrefused⟩
      · exact absurd hescapes (by rw [hwell.caught hhas]; nofun)
      · rcases hwell.settles hhas status reason state task hstage hsettles htask with
          hterminal | hallowed
        · rw [hopen] at hterminal
          cases hterminal
        · exact hrefused hallowed
  | goOn db stage _ hdb hkeeps =>
      refine hs.enter hh hdb fun i task hi htask ↦ ?_
      obtain rfl := Option.some.inj (hbody.symm.trans hi)
      exact hkeeps task htask
  | requeue reason task hstage hraises htask hprocessing hattempts =>
      exact hs.requeue hh hbody
        (hwell.retries reason task hstage hraises htask hprocessing hattempts)
  | giveBack attemptCount s₁ place hplace hstage hsend =>
      refine (hs.send hplace hsend).enter ?_ (.refl _) fun _ _ _ _ _ _ ↦ rfl
      rcases send_cases hsend with ⟨-, rfl⟩ | ⟨-, rfl⟩
      · exact hh
      · exact hh
  | handOn attemptCount place hplace hstage hnew => exact hs.handOn hh hplace hnew
  | escapeClosing attemptCount place hplace hstage hnew hescapes =>
      refine (hs.putNew hplace hnew).drop hh fun hhas ↦ ?_
      rw [hwell.caught (Broker.hasMessage_of_put hplace hhas)] at hescapes
      cases hescapes
  | leave disposal hstage =>
      refine hs.leave hh ?_
      rw [hstage]
      cases disposal with
      | requeue => exact Or.inl rfl
      | ack => exact Or.inr rfl
      | reject => exact Or.inr rfl

/-- A message which cannot be parsed belongs to no task. -/
theorem Delivered.handle {s' : AnalysisSystem} (hs : s.Delivered)
    (hwell : s.KeepsTasks maxRetries (.handle tag c)) (hok : s.handle maxRetries tag c = .ok s') :
    s'.Delivered := by
  cases hh : s.broker.handlers.lookup tag with
  | none =>
      rw [AnalysisSystem.handle, hh] at hok
      cases hok
  | some h =>
      rcases handle_cases hh hok with ⟨taskId, hbody, hhandled⟩ |
        ⟨hbody, ⟨disposal, hstage, rfl⟩ | ⟨-, rfl⟩⟩
      · exact hs.handled hh hbody (hwell h taskId hh hbody) hhandled
      · refine hs.leave hh ?_
        rw [hstage]
        cases disposal with
        | requeue => exact Or.inl rfl
        | ack => exact Or.inr rfl
        | reject => exact Or.inr rfl
      · refine hs.enter hh (.refl _) fun taskId _ hname ↦ ?_
        rw [hbody] at hname
        cases hname

/-! ## Publishers -/

/-- A publisher may begin to mark an event when a message for its task is in flight. -/
theorem Delivered.withPublishers {publishers : Table Uuid OutboxPublisher} (hs : s.Delivered)
    (hknown : ∀ publisher p, publishers.lookup publisher = some p →
      p.Knows s.db ∧ ∀ e rest, p = .marking e rest →
        (∃ publisher rest, s.publishers.lookup publisher = some (.marking e rest)) ∨
          ∀ event taskId, s.db.outbox.lookup e = some event →
            event.payload.analysisTask = some taskId → s.InFlight taskId) :
    Delivered { s with publishers } := by
  refine ⟨hs.attended, fun publisher p hp ↦ (hknown publisher p hp).1, hs.leased,
    fun taskId task htask hqueued ↦ ?_⟩
  rcases hs.waiting taskId task htask hqueued with
    ⟨e, event, hevent, hname, hopen, hunmarked⟩ | hflight
  · by_cases hmarked : ∃ publisher rest, publishers.lookup publisher = some (.marking e rest)
    · obtain ⟨publisher, rest, hmarking⟩ := hmarked
      rcases (hknown publisher _ hmarking).2 e rest rfl with ⟨publisher', rest', hmarks⟩ | hflight
      · exact absurd hmarks (hunmarked publisher' rest')
      · exact Or.inr (hflight event taskId hevent hname)
    · exact Or.inl ⟨e, event, hevent, hname, hopen, fun publisher rest hmarking ↦
        hmarked ⟨publisher, rest, hmarking⟩⟩
  · exact Or.inr hflight

theorem Delivered.erasePublisher (hs : s.Delivered) (publisher : Uuid) :
    Delivered { s with publishers := s.publishers.erase publisher } := by
  refine hs.withPublishers fun publisher' p hp ↦ ?_
  obtain ⟨-, hp'⟩ := AList.lookup_of_lookup_erase hp
  refine ⟨hs.known publisher' p hp', fun e rest hmarking ↦ Or.inl ?_⟩
  exact ⟨publisher', rest, hmarking ▸ hp'⟩

theorem Delivered.insertPublisher {publisher : Uuid} {p : OutboxPublisher} (hs : s.Delivered)
    (hknows : p.Knows s.db)
    (hmarking : ∀ e rest, p = .marking e rest → ∀ event taskId,
      s.db.outbox.lookup e = some event → event.payload.analysisTask = some taskId →
        s.InFlight taskId) :
    Delivered { s with publishers := s.publishers.insert publisher p } := by
  refine hs.withPublishers fun publisher' p' hp' ↦ ?_
  rw [AList.lookup_insert'] at hp'
  split at hp'
  · obtain rfl := Option.some.inj hp'
    exact ⟨hknows, fun e rest hmarks ↦ Or.inr (hmarking e rest hmarks)⟩
  · exact ⟨hs.known publisher' p' hp', fun e rest hmarks ↦ Or.inl
      ⟨publisher', rest, hmarks ▸ hp'⟩⟩

/-- The event which is marked is not the one that announces a task. -/
theorem Delivered.mark {publisher e : Uuid} {now : Timestamp}
    {rest : List (Uuid × EventPayload)} (hs : s.Delivered)
    (hp : s.publishers.lookup publisher = some (.marking e rest)) :
    Delivered { s with
      db := markOutboxPublished now e s.db
      publishers := s.publishers.insert publisher (.publishing rest) } := by
  have hpayloads : SamePayloads s.db (markOutboxPublished now e s.db) := by
    intro e' event hevent
    by_cases hsame : e' = e
    · subst hsame
      exact ⟨_, (AList.lookup_update_self _ _ _).trans (congrArg _ hevent), rfl⟩
    · exact ⟨event, (AList.lookup_update_of_ne hsame _ _).trans hevent, rfl⟩
  refine ⟨hs.attended, fun publisher' p' hp' ↦ ?_, hs.leased, fun taskId task htask hqueued ↦ ?_⟩
  · rw [AList.lookup_insert'] at hp'
    split at hp'
    · obtain rfl := Option.some.inj hp'
      have hknows : OutboxPublisher.Knows s.db (.publishing rest) :=
        ⟨(hs.known publisher _ hp).payloads, nofun⟩
      exact hknows.mono hpayloads
    · exact (hs.known publisher' p' hp').mono hpayloads
  · refine (hs.waiting taskId task htask hqueued).imp ?_ id
    rintro ⟨e', event, hevent, hname, hopen, hunmarked⟩
    have hne : e' ≠ e := by
      rintro rfl
      exact hunmarked publisher rest hp
    refine ⟨e', event, (AList.lookup_update_of_ne hne _ _).trans hevent, hname, hopen,
      fun publisher' rest' hmarks ↦ ?_⟩
    rw [AList.lookup_insert'] at hmarks
    split at hmarks
    · cases hmarks
    · exact hunmarked publisher' rest' hmarks

theorem Delivered.publish {s' : AnalysisSystem} {publisher m : Uuid} {now : Timestamp}
    {publication : Publication} (hs : s.Delivered)
    (hok : s.publish publisher now publication m = .ok s') : s'.Delivered := by
  unfold AnalysisSystem.publish at hok
  split at hok
  · cases hok
  · obtain rfl := Except.ok.inj hok
    exact hs.erasePublisher publisher
  · rename_i e payload rest hp
    have hknows := hs.known publisher _ hp
    -- The publication leaves the database alone, and if confirmed brings the task in flight.
    obtain ⟨s₁, hs₁, hdb, hflight, rfl⟩ : ∃ s₁ : AnalysisSystem, s₁.Delivered ∧ s₁.db = s.db ∧
        (publication = .confirmed → ∀ taskId, payload.analysisTask = some taskId →
          s₁.InFlight taskId) ∧
        s' = { s₁ with
          publishers := s₁.publishers.insert publisher
            (if publication = .confirmed then .marking e rest else .releasing e) } := by
      cases htask : payload.analysisTask with
      | some taskId =>
        rw [htask] at hok
        obtain ⟨s₁, hsend, hs'⟩ := Except.bind_eq_ok.mp hok
        have hplace : ∀ tag : Uuid, Place.ready ≠ .unacked tag := fun _ hplace ↦ nomatch hplace
        refine ⟨s₁, hs.send hplace hsend, ?_⟩
        rcases send_cases hsend with ⟨hrefused, rfl⟩ | ⟨-, rfl⟩
        · exact ⟨rfl, fun hconfirmed ↦ absurd hconfirmed hrefused, (Except.pure_eq_ok.mp hs').symm⟩
        · refine ⟨rfl, fun _ taskId' hname ↦ ?_, (Except.pure_eq_ok.mp hs').symm⟩
          obtain rfl := Option.some.inj hname
          exact Broker.inFlight_put_self hplace
      | none =>
        rw [htask] at hok
        exact ⟨s, hs, rfl, fun _ _ hname ↦ (nomatch hname), (Except.ok.inj hok).symm⟩
    obtain ⟨event, hevent, hpayload⟩ := hknows.payloads e payload List.mem_cons_self
    refine hs₁.insertPublisher ?_ fun e' rest' hmarking event' taskId hevent' hname ↦ ?_
    · rw [hdb]
      split
      · refine ⟨fun e' payload' he' ↦ hknows.payloads e' payload' (List.mem_cons_of_mem _ he'),
          fun e' rest' hmarks ↦ ?_⟩
        obtain ⟨rfl, -⟩ := OutboxPublisher.marking.inj hmarks
        exact AList.mem_of_lookup hevent
      · exact ⟨fun _ _ he' ↦ absurd he' List.not_mem_nil, nofun⟩
    · split at hmarking
      · obtain ⟨rfl, -⟩ := OutboxPublisher.marking.inj hmarking
        rw [hdb] at hevent'
        obtain rfl := Option.some.inj (hevent.symm.trans hevent')
        exact hflight ‹_› taskId (hpayload ▸ hname)
      · cases hmarking
  · rename_i e rest hp
    obtain rfl := Except.ok.inj hok
    exact hs.mark hp
  · obtain rfl := Except.ok.inj hok
    exact (hs.store releaseOutboxEvent_handsOver).erasePublisher publisher

/-! ## Runs -/

theorem exec_delivered {cmd : AnalysisCmd} {s' : AnalysisSystem} (hs : s.Delivered)
    (hcmd : s.KeepsTasks maxRetries cmd) (hok : exec maxRetries cmd s = .ok s') :
    s'.Delivered := by
  have hready : ∀ tag : Uuid, Place.ready ≠ .unacked tag := fun _ hplace ↦ nomatch hplace
  cases cmd with
  | store c =>
      simp only [exec] at hok
      split at hok
      · obtain ⟨db, hdb, rfl⟩ := Except.map_eq_ok.mp hok
        exact hs.store (TaskCmd.exec_handsOver ‹_› hdb)
      · cases hok
  | claim publisher now picked =>
      simp only [exec] at hok
      split at hok
      · cases hok
      · obtain rfl := Except.ok.inj hok
        refine (hs.store claimOutboxEvents_handsOver).insertPublisher ?_ fun _ _ hmarks ↦
          nomatch hmarks
        refine OutboxPublisher.Knows.mono ⟨fun e payload he ↦ ?_, nofun⟩
          claimOutboxEvents_handsOver.samePayloads
        obtain ⟨⟨e', event⟩, hclaimed, heq⟩ := List.mem_map.mp he
        obtain ⟨rfl, rfl⟩ := Prod.mk.inj heq
        exact ⟨event, lookup_of_mem_claimed hclaimed, rfl⟩
  | publish publisher now publication m => exact hs.publish hok
  | publisherCrash publisher =>
      obtain rfl := Except.ok.inj hok
      exact hs.erasePublisher publisher
  | arrive m body => exact hs.send hready hok
  | expire m =>
      simp only [exec] at hok
      split at hok
      · rename_i body queue hm
        obtain rfl := Except.ok.inj hok
        refine hs.put hready fun message hmessage ↦ ?_
        rw [← Option.some.inj (hm.symm.trans hmessage)]
      · cases hok
  | deliver m tag =>
      simp only [exec] at hok
      split at hok
      · rename_i body hm
        split at hok
        · cases hok
        · rename_i hfree
          obtain rfl := Except.ok.inj hok
          have hnew : tag ∉ s.broker.handlers := fun hmem ↦ hfree (Or.inl hmem)
          exact hs.onBroker (hs.attended.handOut hnew) fun _ hflight ↦
            Broker.InFlight.handOut hflight hs.attended hnew hm rfl rfl
      · cases hok
  | redeliver m =>
      simp only [exec] at hok
      split at hok
      · rename_i body tag hm
        obtain rfl := Except.ok.inj hok
        refine hs.put hready fun message hmessage ↦ ?_
        rw [← Option.some.inj (hm.symm.trans hmessage)]
      · cases hok
  | work tag c =>
      simp only [exec] at hok
      split at hok
      · split at hok
        · obtain ⟨db, hdb, rfl⟩ := Except.map_eq_ok.mp hok
          exact hs.store (WorkerCall.exec_handsOver ‹_› hdb)
        · cases hok
      · cases hok
  | handle tag c => exact hs.handle hcmd hok
  | handlerCrash tag =>
      simp only [exec] at hok
      split at hok
      · rename_i h hh
        obtain rfl := Except.ok.inj hok
        exact hs.leave hh (Or.inl rfl)
      · cases hok

/-- No task has been created yet, and nothing has been sent. -/
structure Idle (s : AnalysisSystem) : Prop where
  tasks : s.db.tasks = ∅
  messages : s.broker.messages = ∅
  handlers : s.broker.handlers = ∅
  publishers : s.publishers = ∅

theorem Idle.delivered (hs : s.Idle) : s.Delivered := by
  have hmessages : ∀ m message, s.broker.messages.lookup m ≠ some message := by
    intro m message hm
    rw [hs.messages] at hm
    cases hm
  refine ⟨⟨fun m message _ _ hm ↦ absurd hm (hmessages m message), fun m message _ hm ↦
    absurd hm (hmessages m message)⟩, fun publisher p hp ↦ ?_, fun taskId task htask ↦ ?_,
    fun taskId task htask ↦ ?_⟩
  · rw [hs.publishers] at hp
    cases hp
  · rw [hs.tasks] at htask
    cases htask
  · rw [hs.tasks] at htask
    cases htask

/-- In every run from an idle system in which no exception escapes while a delivery has its
message, the reported ends are allowed, and a task is queued for a retry only where a delivery
of it is to come, nothing is ever lost, and every handler comes to its end. -/
theorem no_task_is_lost {cmds : List AnalysisCmd} (hs : s.Idle)
    (hmeets : Meets (exec maxRetries) (KeepsTasks maxRetries) s cmds) {pre post : List AnalysisCmd}
    (heq : cmds = pre ++ post) :
    (run (exec maxRetries) s pre).NothingLost ∧
      (run (exec maxRetries) s pre).Advances maxRetries := by
  subst heq
  refine ⟨Delivered.nothingLost ?_, advances maxRetries _⟩
  exact run_invariant (fun _ _ _ hs hcmd hok ↦ exec_delivered hs hcmd hok) hs.delivered
    (meets_append _ |>.mp hmeets).1

end AnalysisSystem

namespace Sample

open AnalysisSystem

def idle : AnalysisSystem := ⟨emptyDb, ⟨∅, ∅⟩, ∅⟩

theorem idle_idle : idle.Idle := ⟨rfl, rfl, rfl, rfl⟩

/-- The execution raises, and every call succeeds. -/
def choice : ReceiverChoice := ⟨0, 11, false, none, .confirmed, 101⟩

/-- The task 1 is created, published in the message 100, and delivered. -/
def delivered : List AnalysisCmd :=
  [.store enqueued, .claim 0 0 [1], .publish 0 0 .confirmed 100, .publish 0 0 .confirmed 100,
    .deliver 100 200]

/-- The message is delivered again, and the second handler is about to discard it when the
first one, which has failed, wants to use it for the retry. -/
def discarded : List AnalysisCmd :=
  delivered ++ [.handle 200 choice, .redeliver 100, .deliver 100 201, .handle 201 choice,
    .handle 200 choice, .handle 200 choice, .handle 201 choice, .handlerCrash 200]

/-- The lease runs out, and the task waits again when its execution ends. -/
def unsettled : List AnalysisCmd :=
  delivered ++ [.handle 200 choice, .store (.recoverStaleProcessing (seconds 1801) 3 (· + 1) [1]),
    .handle 200 { choice with outcome := some (.completed, none) }, .handle 200 choice]

/-- The first execution fails, and a copy of the message waits for the second. -/
def retried : List AnalysisCmd :=
  delivered ++ [.handle 200 choice, .handle 200 choice, .handle 200 choice, .handle 200 choice,
    .handle 200 choice]

theorem handlesWell_choice {s : AnalysisSystem} {h : AnalysisHandler} (hhas :
    s.broker.HasMessage 200 h) (hstage : ∀ status reason, h.stage ≠ .executed status reason)
    (taskId : Uuid) : HandlesWell 3 s 200 h taskId choice := by
  refine ⟨fun _ ↦ ?_, fun _ status reason _ _ hexecuted ↦ absurd hexecuted (hstage status reason),
    fun _ _ _ _ _ _ _ ↦ Or.inl hhas⟩
  cases hcase : h.stage with
  | executed status reason => exact absurd hcase (hstage status reason)
  | _ => rfl

theorem keepsTasks_handle {s : AnalysisSystem} (stage : ReceiverStage)
    (hh : s.broker.handlers.lookup 200 = some ⟨100, some 1, stage⟩)
    (hm : s.broker.messages.lookup 100 = some ⟨some 1, .unacked 200⟩)
    (hstage : ∀ status reason, stage ≠ .executed status reason) :
    KeepsTasks 3 s (.handle 200 choice) := by
  intro h taskId hlookup _
  obtain rfl := Option.some.inj (hh.symm.trans hlookup)
  have hhas : s.broker.HasMessage 200 ⟨100, some 1, stage⟩ := hm
  exact handlesWell_choice hhas hstage taskId

theorem keepsTasks_retried : Meets (AnalysisSystem.exec 3) (KeepsTasks 3) idle retried := by
  refine (meets_append _).mpr ⟨⟨trivial, trivial, trivial, trivial, trivial, trivial⟩, ?_⟩
  refine ⟨keepsTasks_handle .received ?_ ?_ nofun,
    keepsTasks_handle .executing ?_ ?_ nofun,
    keepsTasks_handle (.retrying "unhandled_worker_error") ?_ ?_ nofun,
    keepsTasks_handle (.opening 1) ?_ ?_ nofun,
    keepsTasks_handle (.publishing 1) ?_ ?_ nofun, trivial⟩
  all_goals decide

theorem not_expected_discarded : ¬ (run (AnalysisSystem.exec 3) idle discarded).Expected 1 := by
  have hpublished : (run (AnalysisSystem.exec 3) idle discarded).db.outbox.anyRow
      (fun _ event ↦ event.publishedAt.isNone) = false := by decide
  have hgone : (run (AnalysisSystem.exec 3) idle discarded).broker.messages.anyRow (fun _ _ ↦ true) = false := by
    decide
  rintro (⟨e, event, hevent, -, hopen, -⟩ | ⟨m, message, hm, -⟩)
  · have hclosed := AList.anyRow_eq_false.mp hpublished e event hevent
    rw [hopen] at hclosed
    cases hclosed
  · exact absurd (AList.anyRow_eq_false.mp hgone m message hm) nofun

end Sample

theorem no_task_is_lost_sample :
    (run (AnalysisSystem.exec 3) Sample.idle Sample.retried).NothingLost ∧
      (run (AnalysisSystem.exec 3) Sample.idle Sample.retried).Advances 3 :=
  AnalysisSystem.no_task_is_lost Sample.idle_idle Sample.keepsTasks_retried
    (List.append_nil _).symm

/-- A task waits for a message which has been discarded, and a message which is handed out has
no handler. -/
theorem task_is_lost :
    ¬ (run (AnalysisSystem.exec 3) Sample.idle Sample.discarded).NothingLost ∧
      ¬ (run (AnalysisSystem.exec 3) Sample.idle Sample.unsettled).NothingLost := by
  refine ⟨fun hlost ↦ ?_, fun hlost ↦ ?_⟩
  · have hqueued : ((run (AnalysisSystem.exec 3) Sample.idle
        Sample.discarded).db.tasks.lookup 1).map AnalysisTask.state = some .queued := by decide
    obtain ⟨task, htask, hstate⟩ := Option.map_eq_some_iff.mp hqueued
    exact Sample.not_expected_discarded (hlost.waiting 1 task htask hstate)
  · have hmessage : (run (AnalysisSystem.exec 3) Sample.idle
        Sample.unsettled).broker.messages.lookup 100 = some ⟨some 1, .unacked 200⟩ := by decide
    exact absurd (hlost.attended 100 _ 200 hmessage rfl) (by decide)

end S3mp.Knowledge
