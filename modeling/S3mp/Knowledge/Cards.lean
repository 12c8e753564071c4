import S3mp.Knowledge.Batches

/-!
# Card rows and card objects

A completion adds rows and events of the cards it reports and changes no row.  As long as the
objects at recorded keys keep their content, rows and objects agree.
-/

namespace S3mp.Knowledge

open Relational Transition

/-! ## Transactions which record no card -/

variable {db db' db'' : KnowledgeDb} {taskId : Uuid}

/-- Every event of a card belongs to a card on record. -/
def EventsRefer (db : KnowledgeDb) : Prop :=
  ∀ id e cardRow, db.outbox.lookup id = some e → e.cardId = some cardRow → cardRow ∈ db.cards

/-- What of a row is written once. -/
def Card.entry (c : Card) : Uuid × String × String × String :=
  (c.batchId, c.cardId, c.s3Key, c.checksum)

structure KeepsCards (db db' : KnowledgeDb) : Prop where
  cards : ∀ id, (db'.cards.lookup id).map Card.entry = (db.cards.lookup id).map Card.entry
  batches : db'.batches = db.batches
  events : ∀ id e', db'.outbox.lookup id = some e' →
    e'.cardId = none ∨ ∃ e, db.outbox.lookup id = some e ∧ e.cardId = e'.cardId

theorem KeepsCards.refl (db : KnowledgeDb) : KeepsCards db db :=
  ⟨fun _ ↦ rfl, rfl, fun _ e he ↦ Or.inr ⟨e, he, rfl⟩⟩

theorem KeepsCards.trans (h : KeepsCards db db') (h' : KeepsCards db' db'') :
    KeepsCards db db'' := by
  refine ⟨fun id ↦ (h'.cards id).trans (h.cards id), h'.batches.trans h.batches,
    fun id e'' he'' ↦ ?_⟩
  rcases h'.events id e'' he'' with hnone | ⟨e', he', hcard'⟩
  · exact Or.inl hnone
  rcases h.events id e' he' with hnone | ⟨e, he, hcard⟩
  · exact Or.inl (hcard'.symm.trans hnone)
  · exact Or.inr ⟨e, he, hcard.trans hcard'⟩

/-- A row of the later state was there before, but for its index state. -/
theorem KeepsCards.lookup (h : KeepsCards db db') {id : Uuid} {card' : Card}
    (hcard' : db'.cards.lookup id = some card') :
    ∃ card, db.cards.lookup id = some card ∧ card.entry = card'.entry := by
  have hentry := h.cards id
  rw [hcard'] at hentry
  exact Option.map_eq_some_iff.mp hentry.symm

theorem KeepsCards.lookup' (h : KeepsCards db db') {id : Uuid} {card : Card}
    (hcard : db.cards.lookup id = some card) :
    ∃ card', db'.cards.lookup id = some card' ∧ card'.entry = card.entry := by
  have hentry := h.cards id
  rw [hcard] at hentry
  exact Option.map_eq_some_iff.mp hentry

theorem KeepsCards.refer (h : KeepsCards db db') (hdb : EventsRefer db) : EventsRefer db' := by
  intro id e' cardRow he' hcard'
  rcases h.events id e' he' with hnone | ⟨e, he, hcard⟩
  · rw [hnone] at hcard'
    cases hcard'
  · obtain ⟨card, hrow⟩ := AList.exists_lookup_of_mem (hdb id e cardRow he (hcard.trans hcard'))
    obtain ⟨card', hrow', -⟩ := h.lookup' hrow
    exact AList.mem_of_lookup hrow'

theorem keepsCards_updateTask (f : AnalysisTask → AnalysisTask) :
    KeepsCards db (db.updateTask taskId f) :=
  ⟨fun _ ↦ rfl, rfl, fun _ e he ↦ Or.inr ⟨e, he, rfl⟩⟩

theorem keepsCards_insert {tasks : Table Uuid AnalysisTask} {eventId : Uuid} {replay : Bool} :
    KeepsCards db { db with
      tasks, outbox := db.outbox.insert eventId (analysisEvent taskId replay) } := by
  refine ⟨fun _ ↦ rfl, rfl, fun id e he ↦ ?_⟩
  rw [AList.lookup_insert'] at he
  split at he
  · obtain rfl := Option.some.inj he
    exact Or.inl rfl
  · exact Or.inr ⟨e, he, rfl⟩

/-- The events are leased, released or marked. -/
theorem keepsCards_outbox {p : Uuid → KnowledgeEvent → Bool} {f : KnowledgeEvent → KnowledgeEvent}
    (hf : ∀ e, (f e).cardId = e.cardId) :
    KeepsCards db { db with outbox := db.outbox.updateWhere p f } := by
  refine ⟨fun _ ↦ rfl, rfl, fun id e' he' ↦ ?_⟩
  rw [AList.lookup_updateWhere] at he'
  obtain ⟨e, he, rfl⟩ := Option.map_eq_some_iff.mp he'
  refine Or.inr ⟨e, he, ?_⟩
  split
  · exact (hf e).symm
  · rfl

theorem recoverTask_keepsCards {now : Timestamp} {maxRetries : ℕ} {eventId : Uuid → Uuid}
    (h : recoverTask now maxRetries eventId db taskId = .ok db') : KeepsCards db db' := by
  rcases recoverTask_cases h with rfl | ⟨task, -, -, rfl | ⟨-, -, rfl⟩⟩
  · exact .refl _
  · exact keepsCards_updateTask _
  · exact keepsCards_insert

theorem TaskCmd.exec_keepsCards {c : TaskCmd} (h : c.exec db = .ok db') : KeepsCards db db' := by
  cases c with
  | enqueueKnowledgeTask taskId eventId now enabled contract source rules =>
      rcases enqueueKnowledgeTask_cases h with rfl | ⟨task, -, -, ⟨-, rfl⟩ | ⟨-, -, rfl⟩⟩
      · exact .refl _
      · exact ⟨fun _ ↦ rfl, rfl, fun _ e he ↦ Or.inr ⟨e, he, rfl⟩⟩
      · exact keepsCards_insert
  | recoverStaleProcessing now maxRetries eventId picked =>
      exact Tx.foldlM_relates KeepsCards.refl KeepsCards.trans recoverTask_keepsCards h
  | recordDeadLetter fresh taskId reason =>
      obtain ⟨deadLetters, -, h⟩ := Except.bind_eq_ok.mp h
      rw [← Except.pure_eq_ok.mp h]
      exact ⟨fun _ ↦ rfl, rfl, fun _ e he ↦ Or.inr ⟨e, he, rfl⟩⟩
  | replayDeadLetter eventId taskId =>
      obtain ⟨out, hout, rfl⟩ := Except.map_eq_ok.mp h
      rcases replayDeadLetter_cases hout with hsame | ⟨task, -, -, -, hout⟩
      · rw [hsame]
        exact .refl _
      · rw [hout]
        exact keepsCards_insert
  | claimOutboxEvents now picked =>
      rw [← Except.ok.inj h]
      exact keepsCards_outbox fun _ ↦ rfl
  | markOutboxPublished now eventId =>
      rw [← Except.ok.inj h]
      exact keepsCards_outbox fun _ ↦ rfl
  | releaseOutboxEvent eventId =>
      rw [← Except.ok.inj h]
      refine keepsCards_outbox fun e ↦ ?_
      split <;> rfl
  | setCardIndexState cardRow state =>
      rw [← Except.ok.inj h]
      refine ⟨fun id ↦ ?_, rfl, fun _ e he ↦ Or.inr ⟨e, he, rfl⟩⟩
      change ((db.cards.update cardRow _).lookup id).map Card.entry = _
      rw [AList.lookup_update]
      split
      · rename_i hid
        subst hid
        rw [Option.map_map]
        rfl
      · rfl

theorem claimTask_keepsCards (token : Uuid) (now : Timestamp) :
    KeepsCards db (claimTask token now taskId db).2 := by
  obtain ⟨out, db', hclaim⟩ : ∃ out db', claimTask token now taskId db = (out, db') := ⟨_, _, rfl⟩
  rw [hclaim]
  rcases claimTask_cases hclaim with
    ⟨-, hsame, -⟩ | ⟨task, -, -, -, hclaimed⟩
  · rw [hsame]
    exact .refl db
  · rw [hclaimed]
    exact keepsCards_updateTask _

/-- Of the calls of a worker only the completion records cards. -/
theorem WorkerCall.exec_keepsCards {c : WorkerCall}
    (hnot : ∀ ids now result, c ≠ .completeS3Batch ids now result)
    (h : c.exec taskId db = .ok db') : KeepsCards db db' := by
  cases c with
  | setTaskPhase phase =>
      rw [← Except.ok.inj h]
      exact keepsCards_updateTask _
  | resolveSourceSha256 sha =>
      obtain ⟨out, hout, rfl⟩ := Except.map_eq_ok.mp h
      rcases resolveSourceSha256_cases hout with hsame | ⟨task, -, -, hout⟩
      · rw [hsame]
        exact .refl db
      · rw [hout]
        exact keepsCards_updateTask _
  | completeS3Batch ids now result => exact absurd rfl (hnot ids now result)
  | settleTask now state reason =>
      rcases settleTask_cases h with ⟨rfl, -⟩ | ⟨task, -, -, -, rfl⟩
      · exact .refl _
      · exact keepsCards_updateTask _
  | scheduleRetry now reason maxRetries =>
      have hdb' := Except.ok.inj h
      rcases scheduleRetry_cases (Prod.mk.eta.symm.trans (congrArg (Prod.mk _) hdb')) with
        ⟨-, rfl, -⟩ | ⟨task, -, -, ⟨-, -, rfl⟩ | ⟨-, -, rfl⟩⟩
      · exact .refl _
      · exact keepsCards_updateTask _
      · exact keepsCards_updateTask _

/-! ## The loop of a completion -/

/-- What the loop adds: cards of the batch, each with a new event. -/
structure Extends (taskId batchRow : Uuid) (result : BatchResult) (db db' : KnowledgeDb) :
    Prop where
  batches : db'.batches = db.batches
  cards : ∀ id card, db.cards.lookup id = some card → db'.cards.lookup id = some card
  events : ∀ id e, db.outbox.lookup id = some e → db'.outbox.lookup id = some e
  refer : EventsRefer db → EventsRefer db'
  added : EventsRefer db → ∀ id card, db'.cards.lookup id = some card → id ∉ db.cards →
    ∃ record ∈ result.cards, card = draftCard batchRow record ∧
      ∃ e, e ∉ db.outbox ∧ db'.outbox.lookup e = some (indexEvent taskId id result record)

variable {batchRow : Uuid} {result : BatchResult}

theorem Extends.refl (db : KnowledgeDb) : Extends taskId batchRow result db db :=
  ⟨rfl, fun _ _ h ↦ h, fun _ _ h ↦ h, fun h ↦ h,
    fun _ _ _ hcard hnew ↦ absurd (AList.mem_of_lookup hcard) hnew⟩

theorem Extends.trans (h : Extends taskId batchRow result db db')
    (h' : Extends taskId batchRow result db' db'') : Extends taskId batchRow result db db'' := by
  refine ⟨h'.batches.trans h.batches, fun id card hcard ↦ h'.cards id card (h.cards id card hcard),
    fun id e he ↦ h'.events id e (h.events id e he), fun hdb ↦ h'.refer (h.refer hdb),
    fun hdb id card hcard hnew ↦ ?_⟩
  by_cases hid : id ∈ db'.cards
  · obtain ⟨card', hcard'⟩ := AList.exists_lookup_of_mem hid
    obtain rfl := Option.some.inj ((h'.cards id card' hcard').symm.trans hcard)
    obtain ⟨record, hrecord, hdraft, e, hfresh, he⟩ := h.added hdb id card' hcard' hnew
    exact ⟨record, hrecord, hdraft, e, hfresh, h'.events e _ he⟩
  · obtain ⟨record, hrecord, hdraft, e, hfresh, he⟩ := h'.added (h.refer hdb) id card hcard hid
    refine ⟨record, hrecord, hdraft, e, fun hmem ↦ hfresh ?_, he⟩
    obtain ⟨event, hevent⟩ := AList.exists_lookup_of_mem hmem
    exact AList.mem_of_lookup (h.events e event hevent)

/-- The card of the record has a row in the batch. -/
def HasRow (batchRow : Uuid) (record : CardRecord) (db : KnowledgeDb) : Prop :=
  ∃ id card, db.cards.lookup id = some card ∧ card.batchId = batchRow ∧ card.cardId = record.id

theorem Extends.hasRow (h : Extends taskId batchRow result db db') {record : CardRecord}
    (hrow : HasRow batchRow record db) : HasRow batchRow record db' := by
  obtain ⟨id, card, hcard, hbatch, hid⟩ := hrow
  exact ⟨id, card, h.cards id card hcard, hbatch, hid⟩

theorem hasIndexEvent_mem {cardRow : Uuid} (hdb : EventsRefer db)
    (h : hasIndexEvent taskId cardRow db) : cardRow ∈ db.cards := by
  obtain ⟨id, e, he, hp⟩ := AList.anyRow_eq_true.mp h
  simp only [Bool.and_eq_true, decide_eq_true_eq] at hp
  exact hdb id e cardRow he hp.1.2

theorem recordCard_extends {ids : CompletionIds} {record : CardRecord}
    (hrecord : record ∈ result.cards)
    (h : recordCard ids taskId batchRow result db record = .ok db') :
    Extends taskId batchRow result db db' ∧ HasRow batchRow record db' := by
  obtain ⟨cardRow, cards, hcards, hevent⟩ := recordCard_cases h
  have hgrows : (∀ id card, db.cards.lookup id = some card → cards.lookup id = some card) ∧
      (∃ card, cards.lookup cardRow = some card ∧ card.batchId = batchRow ∧
        card.cardId = record.id) ∧
      ∀ id card, cards.lookup id = some card → id ∉ db.cards →
        id = cardRow ∧ card = draftCard batchRow record := by
    rcases hcards with ⟨card, hfound, rfl⟩ | ⟨hfresh, rfl⟩
    · obtain ⟨hcard, hp⟩ := AList.lookup_of_selectFirst hfound
      simp only [Bool.and_eq_true, decide_eq_true_eq] at hp
      exact ⟨fun _ _ h ↦ h, ⟨card, hcard, hp⟩,
        fun _ _ h hnew ↦ absurd (AList.mem_of_lookup h) hnew⟩
    · refine ⟨fun _ _ h ↦ AList.lookup_insert_of_lookup h hfresh,
        ⟨_, AList.lookup_insert _, rfl, rfl⟩, fun id card hcard hnew ↦ ?_⟩
      rw [AList.lookup_insert'] at hcard
      split at hcard
      · rename_i hid
        exact ⟨hid, (Option.some.inj hcard).symm⟩
      · exact absurd (AList.mem_of_lookup hcard) hnew
  obtain ⟨hkept, ⟨card, hcard, hrow⟩, hnew⟩ := hgrows
  have hmem : ∀ id, id ∈ db.cards → id ∈ cards := fun id hid ↦
    have ⟨card, hcard⟩ := AList.exists_lookup_of_mem hid
    AList.mem_of_lookup (hkept id card hcard)
  rcases hevent with ⟨hhas, rfl⟩ | ⟨eventId, hfresh, rfl⟩
  · refine ⟨⟨rfl, hkept, fun _ _ h ↦ h,
      fun hdb id e c he hc ↦ hmem c (hdb id e c he hc), fun hdb id card' hcard' hid ↦ ?_⟩,
      cardRow, card, hcard, hrow⟩
    obtain ⟨rfl, -⟩ := hnew id card' hcard' hid
    exact absurd (hasIndexEvent_mem hdb hhas) hid
  · refine ⟨⟨rfl, hkept, fun _ _ h ↦ AList.lookup_insert_of_lookup h hfresh,
      fun hdb id e c he hc ↦ ?_, fun hdb id card' hcard' hid ↦ ?_⟩, cardRow, card, hcard, hrow⟩
    · change (db.outbox.insert eventId _).lookup id = some e at he
      rw [AList.lookup_insert'] at he
      split at he
      · obtain rfl := Option.some.inj he
        obtain rfl := Option.some.inj hc
        exact AList.mem_of_lookup hcard
      · exact hmem c (hdb id e c he hc)
    · obtain ⟨rfl, rfl⟩ := hnew id card' hcard' hid
      exact ⟨record, hrecord, rfl, eventId, hfresh, AList.lookup_insert _⟩

theorem recordCards_extend {ids : CompletionIds}
    (h : result.cards.foldlM (recordCard ids taskId batchRow result) db = .ok db') :
    Extends taskId batchRow result db db' ∧
      ∀ record ∈ result.cards, HasRow batchRow record db' :=
  Tx.foldlM_establishes (P := HasRow batchRow) Extends.refl Extends.trans (fun hrow h ↦ h.hasRow hrow)
    (fun _ hrecord _ _ hturn ↦ recordCard_extends hrecord hturn) h

theorem completeS3Batch_extends {ids : CompletionIds} {now : Timestamp}
    (h : completeS3Batch ids now taskId result db = .ok db') (htask : taskId ∈ db.tasks) :
    ∃ batchRow batch batches, Extends taskId batchRow result { db with batches } db' ∧
      batches.lookup batchRow = some batch ∧ batch.batchId = result.batchId ∧
      (∀ id b, db.batches.lookup id = some b → batches.lookup id = some b) ∧
      ∀ record ∈ result.cards, HasRow batchRow record db' := by
  rcases completeS3Batch_cases h with ⟨hnone, -⟩ | ⟨task, batchRow, batches, db₁, -, hbatch, hloop, rfl⟩
  · exact absurd htask (AList.lookup_eq_none.mp hnone)
  obtain ⟨hextends, hrows⟩ := recordCards_extend hloop
  have hextends' : Extends taskId batchRow result { db with batches }
      (db₁.updateTask taskId (·.completedWith now result)) :=
    ⟨hextends.batches, hextends.cards, hextends.events, hextends.refer, hextends.added⟩
  rcases hbatch with ⟨batch, hfound, rfl⟩ | ⟨hfresh, rfl⟩
  · obtain ⟨hlookup, hid⟩ := AList.lookup_of_selectFirst hfound
    exact ⟨batchRow, batch, _, hextends', hlookup, of_decide_eq_true hid, fun _ _ h ↦ h, hrows⟩
  · exact ⟨batchRow, _, _, hextends', AList.lookup_insert _, rfl,
      fun _ _ h ↦ AList.lookup_insert_of_lookup h hfresh, hrows⟩

/-! ## The invariant -/

namespace CardWorld

variable {γ : Type} {E : Encoding γ} {tenantId : Uuid} {w w' : CardWorld γ}

structure Sound (E : Encoding γ) (w : CardWorld γ) : Prop where
  described : w.Described E
  recorded : w.AllRecorded
  refer : EventsRefer w.db
  belongs : ∀ id card, w.db.cards.lookup id = some card → card.batchId ∈ w.db.batches

/-- There are no cards, no events of cards and no completed batches yet. -/
structure Fresh (w : CardWorld γ) : Prop where
  cards : w.db.cards = ∅
  events : ∀ id e, w.db.outbox.lookup id = some e → e.cardId = none
  completed : w.completed = []

theorem Fresh.sound (h : Fresh w) : Sound E w := by
  have hcards : ∀ id card, w.db.cards.lookup id ≠ some card := fun id card hcard ↦ by
    rw [h.cards, AList.lookup_empty] at hcard
    cases hcard
  refine ⟨fun id card hcard ↦ absurd hcard (hcards id card), fun done hdone ↦ ?_,
    fun id e cardRow he hcard ↦ ?_, fun id card hcard ↦ absurd hcard (hcards id card)⟩
  · rw [h.completed] at hdone
    cases hdone
  · rw [h.events id e he] at hcard
    cases hcard

theorem Holds.unique {key checksum checksum' : String} (h : w.Holds E key checksum)
    (h' : w.Holds E key checksum') : checksum = checksum' := by
  obtain ⟨body, hbody, rfl⟩ := h
  obtain ⟨body', hbody', rfl⟩ := h'
  rw [Option.some.inj (hbody.symm.trans hbody')]

theorem Sound.withWrites (h : Sound E w) (writes : Table Uuid (BatchWrite γ)) :
    Sound E { w with writes } :=
  ⟨h.described, h.recorded, h.refer, h.belongs⟩

theorem Sound.keepsCards (h : Sound E w) {db : KnowledgeDb} (hdb : KeepsCards w.db db) :
    Sound E { w with db } := by
  refine ⟨fun id card' hcard' ↦ ?_, fun done hdone record hrecord ↦ ?_, hdb.refer h.refer,
    fun id card' hcard' ↦ ?_⟩
  · obtain ⟨card, hcard, hentry⟩ := hdb.lookup hcard'
    simp only [Card.entry, Prod.mk.injEq] at hentry
    rw [← hentry.2.2.1, ← hentry.2.2.2]
    exact h.described id card hcard
  · obtain ⟨batchRow, batch, id, card, hbatch, hname, hcard, hrow⟩ :=
      h.recorded done hdone record hrecord
    obtain ⟨card', hcard', hentry⟩ := hdb.lookup' hcard
    simp only [Card.entry, Prod.mk.injEq] at hentry
    refine ⟨batchRow, batch, id, card', hdb.batches ▸ hbatch, hname, hcard', ?_⟩
    rw [hentry.1, hentry.2.1, hentry.2.2.1, hentry.2.2.2]
    exact hrow
  · obtain ⟨card, hcard, hentry⟩ := hdb.lookup hcard'
    simp only [Card.entry, Prod.mk.injEq] at hentry
    change card'.batchId ∈ db.batches
    rw [hdb.batches, ← hentry.1]
    exact h.belongs id card hcard

theorem Sound.put (h : Sound E w) {key : String} {body : γ}
    (hkeeps : ∀ id card, w.db.cards.lookup id = some card → card.s3Key = key →
      card.checksum = E.sha256 body) :
    Sound E { w with objects := w.objects.insert key body } := by
  refine ⟨fun id card hcard ↦ ?_, h.recorded, h.refer, h.belongs⟩
  by_cases hkey : card.s3Key = key
  · exact ⟨body, by rw [hkey]; exact AList.lookup_insert _, hkeeps id card hcard hkey⟩
  · obtain ⟨body', hbody', hchecksum⟩ := h.described id card hcard
    exact ⟨body', (AList.lookup_insert_ne hkey).trans hbody', hchecksum⟩

section Complete

variable {ids : CompletionIds} {now : Timestamp} {write : BatchWrite γ} {batch : Batch}
  {batches : Table Uuid Batch}

/-- The rows of the batch are those of its records. -/
theorem row_of_record (h : Sound E w) (hintact : w.Intact E write)
    (hextends : Extends taskId batchRow write.result { w.db with batches } db')
    (hbatch : batches.lookup batchRow = some batch) (hname : batch.batchId = write.result.batchId)
    (hkept : ∀ id b, w.db.batches.lookup id = some b → batches.lookup id = some b)
    {record : CardRecord} (hrecord : record ∈ write.result.cards) {id : Uuid} {card : Card}
    (hcard : db'.cards.lookup id = some card) (hrow : card.batchId = batchRow)
    (hid : card.cardId = record.id) :
    card.s3Key = record.s3Key ∧ card.checksum = record.checksum := by
  by_cases hold : id ∈ w.db.cards
  · obtain ⟨card₀, hcard₀⟩ := AList.exists_lookup_of_mem hold
    obtain rfl := Option.some.inj ((hextends.cards id card₀ hcard₀).symm.trans hcard)
    obtain ⟨b, hb⟩ := AList.exists_lookup_of_mem (h.belongs id card₀ hcard₀)
    have hsame : b = batch := by
      have hlookup := hkept card₀.batchId b hb
      rw [hrow] at hlookup
      exact Option.some.inj (hlookup.symm.trans hbatch)
    have hkey := hintact.sameKey record hrecord card₀.batchId b id card₀ hb (hsame ▸ hname) hcard₀
      rfl hid
    have hheld := h.described id card₀ hcard₀
    rw [hkey] at hheld
    exact ⟨hkey, hheld.unique (hintact.stored record hrecord)⟩
  · obtain ⟨record', hrecord', rfl, -⟩ := hextends.added h.refer id card hcard hold
    have hkey : record'.s3Key = record.s3Key :=
      hintact.oneKey record' hrecord' record hrecord hid
    have hheld := hintact.stored record' hrecord'
    rw [hkey] at hheld
    exact ⟨hkey, hheld.unique (hintact.stored record hrecord)⟩

/-- A completed batch is on record, and so are its objects and events. -/
theorem Sound.completed (h : Sound E w) (hintact : w.Intact E write)
    (hok : completeS3Batch ids now write.taskId write.result w.db = .ok db')
    (htask : write.taskId ∈ w.db.tasks) :
    Sound E { w with db := db', completed := w.completed ++ [(write.taskId, write.result)] } ∧
      w.Announced { w with
        db := db', completed := w.completed ++ [(write.taskId, write.result)] } := by
  obtain ⟨batchRow, batch, batches, hextends, hbatch, hname, hkept, hrows⟩ :=
    completeS3Batch_extends hok htask
  have hbatches : db'.batches = batches := hextends.batches
  refine ⟨⟨fun id card hcard ↦ ?_, fun done hdone record hrecord ↦ ?_, hextends.refer h.refer,
    fun id card hcard ↦ ?_⟩, fun taskId' result' hcompleted record hrecord hnew ↦ ?_⟩
  · by_cases hold : id ∈ w.db.cards
    · obtain ⟨card₀, hcard₀⟩ := AList.exists_lookup_of_mem hold
      obtain rfl := Option.some.inj ((hextends.cards id card₀ hcard₀).symm.trans hcard)
      exact h.described id card₀ hcard₀
    · obtain ⟨record, hrecord, rfl, -⟩ := hextends.added h.refer id card hcard hold
      exact hintact.stored record hrecord
  · rcases List.mem_append.mp hdone with hold | hlast
    · obtain ⟨row, b, id, card, hb, hbname, hcard, hrow⟩ := h.recorded done hold record hrecord
      exact ⟨row, b, id, card, hbatches ▸ hkept row b hb, hbname, hextends.cards id card hcard, hrow⟩
    · obtain rfl := List.mem_singleton.mp hlast
      obtain ⟨id, card, hcard, hrow, hid⟩ := hrows record hrecord
      exact ⟨batchRow, batch, id, card, hbatches ▸ hbatch, hname, hcard, hrow, hid,
        row_of_record h hintact hextends hbatch hname hkept hrecord hcard hrow hid⟩
  · change card.batchId ∈ db'.batches
    rw [hbatches]
    by_cases hold : id ∈ w.db.cards
    · obtain ⟨card₀, hcard₀⟩ := AList.exists_lookup_of_mem hold
      obtain rfl := Option.some.inj ((hextends.cards id card₀ hcard₀).symm.trans hcard)
      obtain ⟨b, hb⟩ := AList.exists_lookup_of_mem (h.belongs id card₀ hcard₀)
      exact AList.mem_of_lookup (hkept _ b hb)
    · obtain ⟨record, -, rfl, -⟩ := hextends.added h.refer id card hcard hold
      exact AList.mem_of_lookup hbatch
  · obtain ⟨rfl, rfl⟩ := Prod.mk.inj
      (List.singleton_inj.mp (List.append_cancel_left hcompleted))
    obtain ⟨id, card, hcard, hrow, hid⟩ := hrows record hrecord
    obtain ⟨hkey, hchecksum⟩ :=
      row_of_record h hintact hextends hbatch hname hkept hrecord hcard hrow hid
    have hfresh : id ∉ w.db.cards := fun hold ↦ by
      obtain ⟨card₀, hcard₀⟩ := AList.exists_lookup_of_mem hold
      obtain rfl := Option.some.inj ((hextends.cards id card₀ hcard₀).symm.trans hcard)
      exact hnew id card₀ hcard₀ hkey hchecksum
    obtain ⟨record', -, rfl, eventId, hevent, he⟩ := hextends.added h.refer id card hcard hfresh
    refine ⟨eventId, _, id, _, hevent, he, ?_, hcard, hkey, hchecksum⟩
    have hkey' : record'.s3Key = record.s3Key := hkey
    simp only [indexEvent, hkey']

end Complete

/-! ## Steps and runs -/

theorem announced_of_completed (h : w'.completed = w.completed) : w.Announced w' := by
  intro taskId result hcompleted
  rw [h] at hcompleted
  exact absurd (List.self_eq_append_right.mp hcompleted) (List.cons_ne_nil _ _)

theorem complete_sound {process : Uuid} {ids : CompletionIds} {now : Timestamp}
    {write : BatchWrite γ} (h : Sound E w) (hintact : w.Intact E write) :
    Sound E (w.complete process ids now write.taskId write.result) ∧
      w.Announced (w.complete process ids now write.taskId write.result) := by
  unfold CardWorld.complete
  dsimp only
  split
  · exact ⟨h.withWrites _, announced_of_completed rfl⟩
  · rename_i db hok
    split
    · rename_i htask
      obtain ⟨hsound, hannounced⟩ := h.completed hintact hok htask
      exact ⟨hsound.withWrites _, hannounced⟩
    · rename_i htask
      refine ⟨?_, announced_of_completed rfl⟩
      rcases completeS3Batch_cases hok with ⟨-, rfl⟩ | ⟨task, _, _, _, hlookup, -⟩
      · exact h.withWrites _
      · exact absurd (AList.mem_of_lookup hlookup) htask

theorem exec_sound {c : CardCmd γ} (h : Sound E w) (hc : w.Careful E c)
    (hok : exec E tenantId c w = .ok w') : Sound E w' ∧ w.Announced w' := by
  cases c with
  | begin process taskId sourceFileId sourceSha256 sourceBody drafts documents =>
      simp only [exec] at hok
      split at hok
      · cases hok
      · obtain ⟨write, -, hok⟩ := Except.bind_eq_ok.mp hok
        rw [← Except.pure_eq_ok.mp hok]
        exact ⟨h.withWrites _, announced_of_completed rfl⟩
  | put process outcome =>
      simp only [exec] at hok
      split at hok
      · rename_i taskId key body pending result hwrite
        rw [← Except.ok.inj hok]
        refine ⟨?_, announced_of_completed rfl⟩
        by_cases houtcome : outcome = .refused
        · simp only [houtcome, if_true]
          exact h.withWrites _
        · simp only [houtcome, if_false]
          exact (h.put (hc houtcome _ key body pending hwrite rfl)).withWrites _
      · cases hok
  | complete process ids now =>
      simp only [exec] at hok
      split at hok
      · rename_i taskId result hwrite
        rw [← Except.ok.inj hok]
        exact complete_sound h (hc _ hwrite rfl)
      · cases hok
  | crash process =>
      rw [← Except.ok.inj hok]
      exact ⟨h.withWrites _, announced_of_completed rfl⟩
  | claimTask token now taskId =>
      rw [← Except.ok.inj hok]
      exact ⟨h.keepsCards (claimTask_keepsCards token now), announced_of_completed rfl⟩
  | work taskId c =>
      have hnot : ∀ ids now result, c ≠ .completeS3Batch ids now result := by
        rintro ids now result rfl
        cases hok
      have hrun : (c.exec taskId w.db).map (fun db ↦ { w with db }) = .ok w' := by
        cases c with
        | completeS3Batch ids now result => exact absurd rfl (hnot ids now result)
        | _ => exact hok
      obtain ⟨db, hdb, rfl⟩ := Except.map_eq_ok.mp hrun
      exact ⟨h.keepsCards (WorkerCall.exec_keepsCards hnot hdb), announced_of_completed rfl⟩
  | other c =>
      obtain ⟨db, hdb, rfl⟩ := Except.map_eq_ok.mp hok
      exact ⟨h.keepsCards (TaskCmd.exec_keepsCards hdb), announced_of_completed rfl⟩

/-- In a run which replaces no object of a recorded card and completes intact batches only,
rows and objects agree, every card of a completed batch has its row, and a completion
announces what it records for the first time. -/
theorem cards_describe_objects (hw : Fresh w) {cs : List (CardCmd γ)}
    (hmeets : Meets (exec E tenantId) (fun w c ↦ w.Careful E c) w cs) (pre post : List (CardCmd γ))
    (heq : cs = pre ++ post) :
    (run (exec E tenantId) w pre).Described E ∧ (run (exec E tenantId) w pre).AllRecorded ∧
      ∀ c rest, post = c :: rest →
        (run (exec E tenantId) w pre).Announced (run (exec E tenantId) w (pre ++ [c])) := by
  subst heq
  obtain ⟨hpre, hpost⟩ := (meets_append _).mp hmeets
  have hsound : Sound E (run (exec E tenantId) w pre) :=
    run_invariant (fun _ _ _ h hc hok ↦ (exec_sound h hc hok).1) hw.sound hpre
  refine ⟨hsound.described, hsound.recorded, ?_⟩
  rintro c rest rfl
  rw [run_append]
  change CardWorld.Announced _ (advance (exec E tenantId) (run (exec E tenantId) w pre) c)
  cases hok : exec E tenantId c (run (exec E tenantId) w pre) with
  | error e =>
      rw [advance_of_error hok]
      exact announced_of_completed rfl
  | ok w' =>
      rw [advance_of_ok hok]
      exact (exec_sound hsound hpost.1 hok).2

/-! ## A write without interruption -/

/-- The objects of a batch are put one after the other. -/
def putAll (objects : Table String γ) (pending : List (String × γ)) : Table String γ :=
  pending.foldl (fun t o ↦ t.insert o.1 o.2) objects

theorem run_puts {process taskId' : Uuid} {pending : List (String × γ)} :
    run (exec E tenantId)
        { w with writes := w.writes.insert process ⟨taskId', pending, result⟩ }
        (List.replicate pending.length (.put process .verified)) =
      { w with
        objects := putAll w.objects pending
        writes := w.writes.insert process ⟨taskId', [], result⟩ } := by
  induction pending generalizing w with
  | nil => rfl
  | cons o pending ih =>
      have hput : advance (exec E tenantId)
          { w with writes := w.writes.insert process ⟨taskId', o :: pending, result⟩ }
          (.put process .verified) =
          { w with
            objects := w.objects.insert o.1 o.2
            writes := w.writes.insert process ⟨taskId', pending, result⟩ } := by
        simp [advance, exec, AList.insert_insert]
      rw [List.length_cons, List.replicate_succ, run_cons, hput]
      exact ih (w := { w with objects := w.objects.insert o.1 o.2 })

/-- The commands of a worker nobody interrupts. -/
def uninterrupted (process taskId : Uuid) (sourceFileId : Option Uuid) (sourceBody : γ)
    (drafts : List ValidatedDraft) (documents : BatchDocuments) (ids : CompletionIds)
    (now : Timestamp) : List (CardCmd γ) :=
  .begin process taskId sourceFileId none sourceBody drafts documents ::
    (List.replicate (drafts.length + 4) (.put process .verified) ++ [.complete process ids now])

/-- Without an interruption all objects are put, and then the batch is completed. -/
theorem run_uninterrupted {process taskId' sourceFileId : Uuid} {sourceBody : γ}
    {drafts : List ValidatedDraft} {documents : BatchDocuments} {ids : CompletionIds}
    {now : Timestamp} (hnew : process ∉ w.writes) :
    run (exec E tenantId) w
        (uninterrupted process taskId' (some sourceFileId) sourceBody drafts documents ids now) =
      CardWorld.complete process ids now taskId' (batchResult E tenantId taskId' drafts)
        { w with
          objects := putAll w.objects (batchObjects E tenantId taskId' drafts documents)
          writes := w.writes.insert process
            (BatchWrite.mk taskId' [] (batchResult E tenantId taskId' drafts)) } := by
  have hlength : drafts.length + 4 = (batchObjects E tenantId taskId' drafts documents).length := by
    simp only [batchObjects, List.length_append, List.length_cons, List.length_nil,
      List.length_map]
    omega
  have hbegin : advance (exec E tenantId) w
      (.begin process taskId' (some sourceFileId) none sourceBody drafts documents) =
      { w with
        writes := w.writes.insert process
          (BatchWrite.mk taskId' (batchObjects E tenantId taskId' drafts documents)
            (batchResult E tenantId taskId' drafts)) } := by
    refine advance_of_ok ?_
    rw [exec, if_neg hnew]
    rfl
  rw [uninterrupted, run_cons, hbegin, run_append, hlength, run_puts]
  refine advance_of_ok ?_
  simp only [exec, AList.lookup_insert]

end CardWorld

namespace Sample

open CardWorld

def netRevenue : ValidatedDraft := ⟨"revenue", "metric", "# Net", ["p. 1"], "high"⟩

def grossRevenue : ValidatedDraft := ⟨"revenue", "metric", "# Gross", ["p. 2"], "low"⟩

def documents : BatchDocuments := ⟨"a", "b", "c", "d"⟩

/-- The task 1 has been claimed. -/
def claimedDb : KnowledgeDb :=
  { emptyDb with
    tasks := AList.insert 1 ((createdTask 0 contract source false true false).claimed 11 0) ∅ }

def noCardsYet (γ : Type) : CardWorld γ := ⟨claimedDb, ∅, ∅, []⟩

theorem fresh_noCardsYet (γ : Type) : Fresh (noCardsYet γ) :=
  ⟨rfl, fun _ _ he ↦ (nomatch he), rfl⟩

/-- The task is written and completed by one worker. -/
def analysed {γ : Type} (body : γ) (drafts : List ValidatedDraft) : List (CardCmd γ) :=
  uninterrupted 1 1 (some 7) body drafts documents drawn 2

/-- A digest which tells all texts apart. -/
def plain : Encoding String := ⟨id, id⟩

theorem careful_of_no_cards {γ : Type} {E : Encoding γ} {w : CardWorld γ} {process : Uuid}
    {outcome : PutOutcome} (h : w.db.cards = ∅) : w.Careful E (.put process outcome) := by
  intro _ _ _ _ _ _ _ id card hcard
  rw [h, AList.lookup_empty] at hcard
  cases hcard

theorem careful_analysed : Meets (CardWorld.exec plain 1) (fun w c ↦ w.Careful plain c)
    (noCardsYet String) (analysed "text" [netRevenue]) := by
  refine ⟨trivial, careful_of_no_cards rfl, careful_of_no_cards rfl, careful_of_no_cards rfl,
    careful_of_no_cards rfl, careful_of_no_cards rfl, fun write hwrite _ ↦ ?_, trivial⟩
  have hreported : (run (CardWorld.exec plain 1) (noCardsYet String)
      ((analysed "text" [netRevenue]).take 6)).writes.lookup 1 =
      some ⟨1, [], batchResult plain 1 1 [netRevenue]⟩ := rfl
  obtain rfl := Option.some.inj (hreported.symm.trans hwrite)
  refine ⟨fun record hrecord ↦ ?_, fun record hrecord record' hrecord' _ ↦ ?_,
    fun _ _ _ _ _ _ _ _ hcard ↦ (nomatch hcard)⟩
  · obtain rfl := List.mem_singleton.mp hrecord
    exact ⟨"# Net", rfl, rfl⟩
  · rw [List.mem_singleton.mp hrecord, List.mem_singleton.mp hrecord']

theorem card_ne_manifest : cardKey 1 1 netRevenue ≠ completionManifestKey 1 1 := by decide

theorem card_ne_report :
    cardKey 1 1 netRevenue ≠ batchPrefix 1 1 ++ "/reports/extraction-output.json" := by
  decide

/-- The row is the one of the first draft, the object that of the second. -/
theorem two_drafts {γ : Type} (E : Encoding γ) (body : γ)
    (hne : E.sha256 (E.utf8 "# Net") ≠ E.sha256 (E.utf8 "# Gross")) :
    ¬ (run (CardWorld.exec E 1) (noCardsYet γ)
      (analysed body [netRevenue, grossRevenue])).Described E := by
  intro h
  rw [analysed, run_uninterrupted (AList.notMem_empty 1)] at h
  obtain ⟨stored, hstored, hchecksum⟩ := h 40 (draftCard 30 (cardRecord E 1 1 netRevenue)) rfl
  have hlast : (putAll (∅ : Table String γ)
      (batchObjects E 1 1 [netRevenue, grossRevenue] documents)).lookup (cardKey 1 1 netRevenue) =
      some (E.utf8 "# Gross") := by
    simp only [putAll, batchObjects, List.map_cons, List.map_nil, List.cons_append,
      List.nil_append, List.foldl_cons, List.foldl_nil]
    rw [AList.lookup_insert_ne card_ne_manifest, AList.lookup_insert_ne card_ne_report]
    exact AList.lookup_insert _
  rw [← Option.some.inj (hlast.symm.trans hstored)] at hchecksum
  exact hne hchecksum

end Sample

theorem cards_describe_objects_sample :
    (run (CardWorld.exec Sample.plain 1) (Sample.noCardsYet String)
      (Sample.analysed "text" [Sample.netRevenue])).Described Sample.plain ∧
    (run (CardWorld.exec Sample.plain 1) (Sample.noCardsYet String)
      (Sample.analysed "text" [Sample.netRevenue])).AllRecorded ∧
    (run (CardWorld.exec Sample.plain 1) (Sample.noCardsYet String)
      ((Sample.analysed "text" [Sample.netRevenue]).take 6)).Announced
      (run (CardWorld.exec Sample.plain 1) (Sample.noCardsYet String)
        ((Sample.analysed "text" [Sample.netRevenue]).take 6 ++ [.complete 1 Sample.drawn 2])) := by
  have hend := CardWorld.cards_describe_objects (Sample.fresh_noCardsYet String)
    Sample.careful_analysed (Sample.analysed "text" [Sample.netRevenue]) []
    (List.append_nil _).symm
  have hlast := CardWorld.cards_describe_objects (Sample.fresh_noCardsYet String)
    Sample.careful_analysed ((Sample.analysed "text" [Sample.netRevenue]).take 6)
    [.complete 1 Sample.drawn 2] rfl
  exact ⟨hend.1, hend.2.1, hlast.2.2 _ [] rfl⟩

/-- A batch with two drafts of one card is recorded with the checksum of the first. -/
theorem second_draft_overwrites :
    ¬ ∀ (γ : Type) (E : Encoding γ) (w : CardWorld γ), w.Fresh → ∀ cs,
      (run (CardWorld.exec E 1) w cs).Described E :=
  fun h ↦ Sample.two_drafts Sample.plain "text" (by decide)
    (h String Sample.plain _ (Sample.fresh_noCardsYet String) _)

end S3mp.Knowledge
