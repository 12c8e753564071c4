import S3mp.Relational.Table

/-!
# Messages and their handlers

A broker keeps each message until the delivery it was handed out with has disposed of it.  A
delivery is looked after by a handler, which goes from stage to stage.  In some of its stages
the handler is sure to give the message back, or to have replaced it, before it lets go of it;
a message which is in no other hands is in flight.
-/

open Relational

namespace Messaging

inductive Place (τ : Type) where
  | ready
  | delayed (queue : String)
  | unacked (tag : τ)
  deriving DecidableEq, Repr

/-- How a publication ends: it is confirmed, or raises, in which case the broker may have
accepted the message. -/
inductive Publication where
  | confirmed | refused | unconfirmed
  deriving DecidableEq, Repr

inductive Disposal where
  | ack | reject | requeue
  deriving DecidableEq, Repr

structure Message (τ β : Type) where
  body : β
  place : Place τ
  deriving DecidableEq, Repr

structure Handler (μ β σ : Type) where
  message : μ
  body : β
  stage : σ
  deriving DecidableEq, Repr

structure Broker (μ τ β σ : Type) where
  messages : Table μ (Message τ β)
  handlers : Table τ (Handler μ β σ)

namespace Broker

variable {μ τ β σ : Type} [DecidableEq μ] [DecidableEq τ]

/-! ## Operations -/

/-- A message is put in a place. -/
def put (m : μ) (body : β) (place : Place τ) (s : Broker μ τ β σ) : Broker μ τ β σ :=
  { s with messages := s.messages.insert m ⟨body, place⟩ }

/-- The handler goes on at another stage. -/
def enter (tag : τ) (h : Handler μ β σ) (stage : σ) (s : Broker μ τ β σ) : Broker μ τ β σ :=
  { s with handlers := s.handlers.insert tag { h with stage } }

def drop (tag : τ) (s : Broker μ τ β σ) : Broker μ τ β σ :=
  { s with handlers := s.handlers.erase tag }

/-- The message is handed out to a new handler. -/
def handOut (m : μ) (body : β) (tag : τ) (stage : σ) (s : Broker μ τ β σ) : Broker μ τ β σ :=
  { s.put m body (.unacked tag) with handlers := s.handlers.insert tag ⟨m, body, stage⟩ }

variable [DecidableEq β]

/-- The handler ends; it may dispose of its message only while that is handed out with it. -/
def leave (tag : τ) (h : Handler μ β σ) (disposal : Disposal) (s : Broker μ τ β σ) :
    Broker μ τ β σ :=
  if s.messages.lookup h.message ≠ some ⟨h.body, .unacked tag⟩ then s.drop tag
  else if disposal = .requeue then (s.drop tag).put h.message h.body .ready
  else { s.drop tag with messages := s.messages.erase h.message }

omit [DecidableEq β]

/-! ## Who has a message -/

def HasMessage (s : Broker μ τ β σ) (tag : τ) (h : Handler μ β σ) : Prop :=
  s.messages.lookup h.message = some ⟨h.body, .unacked tag⟩

/-- Handlers know their messages, and no message is handed out with a delivery which has no
handler any more. -/
structure Attended (s : Broker μ τ β σ) : Prop where
  held : ∀ m message tag h, s.messages.lookup m = some message → message.place = .unacked tag →
    s.handlers.lookup tag = some h → h.message = m ∧ h.body = message.body
  attended : ∀ m message tag, s.messages.lookup m = some message →
    message.place = .unacked tag → tag ∈ s.handlers

variable {s : Broker μ τ β σ} {m : μ} {message : Message τ β} {tag : τ} {h : Handler μ β σ}
  {body b : β} {place : Place τ} {stage : σ}

theorem Attended.hasMessage (hs : s.Attended) (hm : s.messages.lookup m = some message)
    (hplace : message.place = .unacked tag) (hh : s.handlers.lookup tag = some h) :
    s.HasMessage tag h := by
  obtain ⟨rfl, hbody⟩ := hs.held m message tag h hm hplace hh
  rw [HasMessage, hm, hbody, ← hplace]

theorem Attended.put (hs : s.Attended) (hplace : ∀ tag, place ≠ .unacked tag) :
    (s.put m body place).Attended := by
  refine ⟨fun m' message' tag h hm' hplace' hh ↦ ?_, fun m' message' tag hm' hplace' ↦ ?_⟩
  · change (s.messages.insert m ⟨body, place⟩).lookup m' = _ at hm'
    rw [AList.lookup_insert'] at hm'
    split at hm'
    · obtain rfl := Option.some.inj hm'
      exact absurd hplace' (hplace tag)
    · exact hs.held m' message' tag h hm' hplace' hh
  · change (s.messages.insert m ⟨body, place⟩).lookup m' = _ at hm'
    rw [AList.lookup_insert'] at hm'
    split at hm'
    · obtain rfl := Option.some.inj hm'
      exact absurd hplace' (hplace tag)
    · exact hs.attended m' message' tag hm' hplace'

theorem Attended.enter (hs : s.Attended) (hh : s.handlers.lookup tag = some h) :
    (s.enter tag h stage).Attended := by
  refine ⟨fun m message tag' h' hm hplace hh' ↦ ?_, fun m message tag' hm hplace ↦ ?_⟩
  · change (s.handlers.insert tag { h with stage }).lookup tag' = _ at hh'
    rw [AList.lookup_insert'] at hh'
    split at hh'
    · rename_i htag
      subst htag
      obtain rfl := Option.some.inj hh'
      exact hs.held m message tag' h hm hplace hh
    · exact hs.held m message tag' h' hm hplace hh'
  · exact AList.mem_insert'.mpr (Or.inr (hs.attended m message tag' hm hplace))

theorem Attended.handOut (hs : s.Attended) (hnew : tag ∉ s.handlers) :
    (s.handOut m body tag stage).Attended := by
  have hunused : ∀ m' message', s.messages.lookup m' = some message' →
      message'.place ≠ .unacked tag := fun m' message' hm' hplace ↦
    hnew (hs.attended m' message' tag hm' hplace)
  refine ⟨fun m' message' tag' h' hm' hplace hh' ↦ ?_, fun m' message' tag' hm' hplace ↦ ?_⟩
  · change (s.messages.insert m ⟨body, .unacked tag⟩).lookup m' = _ at hm'
    change (s.handlers.insert tag ⟨m, body, stage⟩).lookup tag' = _ at hh'
    rw [AList.lookup_insert'] at hm' hh'
    split at hm'
    · rename_i hm
      obtain rfl := Option.some.inj hm'
      obtain rfl := Place.unacked.inj hplace
      obtain rfl := Option.some.inj ((if_pos rfl).symm.trans hh')
      exact ⟨hm.symm, rfl⟩
    · split at hh'
      · rename_i htag
        exact absurd (htag ▸ hplace) (hunused m' message' hm')
      · exact hs.held m' message' tag' h' hm' hplace hh'
  · change (s.messages.insert m ⟨body, .unacked tag⟩).lookup m' = _ at hm'
    rw [AList.lookup_insert'] at hm'
    refine AList.mem_insert'.mpr ?_
    split at hm'
    · obtain rfl := Option.some.inj hm'
      exact Or.inl (Place.unacked.inj hplace).symm
    · exact Or.inr (hs.attended m' message' tag' hm' hplace)

omit [DecidableEq μ] in
theorem handlers_of_drop {tag' : τ} {h' : Handler μ β σ}
    (hh : (s.drop tag).handlers.lookup tag' = some h') :
    tag' ≠ tag ∧ s.handlers.lookup tag' = some h' :=
  AList.lookup_of_lookup_erase hh

theorem leave_handlers [DecidableEq β] (s : Broker μ τ β σ) (tag : τ) (h : Handler μ β σ)
    (disposal : Disposal) : (s.leave tag h disposal).handlers = s.handlers.erase tag := by
  unfold leave
  split
  · rfl
  · split <;> rfl

omit [DecidableEq τ] in
/-- A message put elsewhere is no longer the handler's. -/
theorem hasMessage_of_put (hplace : ∀ tag, place ≠ .unacked tag)
    (hhas : (s.put m body place).HasMessage tag h) : s.HasMessage tag h := by
  by_cases hm : h.message = m
  · subst hm
    have hmessage := Option.some.inj ((AList.lookup_insert _).symm.trans hhas)
    exact absurd (congrArg Message.place hmessage) (hplace tag)
  · exact (AList.lookup_insert_ne hm).symm.trans hhas

/-- A handler which has lost its message may go. -/
theorem Attended.drop (hs : s.Attended) (hh : s.handlers.lookup tag = some h)
    (hlost : ¬ s.HasMessage tag h) : (s.drop tag).Attended := by
  refine ⟨fun m message tag' h' hm hplace hh' ↦ ?_, fun m message tag' hm hplace ↦ ?_⟩
  · exact hs.held m message tag' h' hm hplace (handlers_of_drop hh').2
  · have htag : tag' ≠ tag := by
      rintro rfl
      exact hlost (hs.hasMessage hm hplace hh)
    exact AList.mem_erase.mpr ⟨htag, hs.attended m message tag' hm hplace⟩

theorem Attended.leave [DecidableEq β] {disposal : Disposal} (hs : s.Attended)
    (hh : s.handlers.lookup tag = some h) : (s.leave tag h disposal).Attended := by
  unfold Broker.leave
  split
  · exact hs.drop hh ‹_›
  rename_i hhas
  have hmine : s.messages.lookup h.message = some ⟨h.body, .unacked tag⟩ := not_not.mp hhas
  -- The only message handed out with this delivery is the one it disposes of.
  have hother : ∀ m message, s.messages.lookup m = some message → m ≠ h.message →
      message.place ≠ .unacked tag := fun m message hm hne hplace ↦
    hne (hs.held m message tag h hm hplace hh).1.symm
  have hrest : ∀ {messages : Table μ (Message τ β)}, (∀ m message tag',
      messages.lookup m = some message → message.place = .unacked tag' →
        m ≠ h.message ∧ s.messages.lookup m = some message) →
      Attended { s.drop tag with messages } := by
    intro messages hsub
    refine ⟨fun m message tag' h' hm hplace hh' ↦ ?_, fun m message tag' hm hplace ↦ ?_⟩
    · exact hs.held m message tag' h' (hsub m message tag' hm hplace).2 hplace
        (handlers_of_drop hh').2
    · obtain ⟨hne, hm₀⟩ := hsub m message tag' hm hplace
      refine AList.mem_erase.mpr ⟨fun htag ↦ ?_, hs.attended m message tag' hm₀ hplace⟩
      exact hother m message hm₀ hne (htag ▸ hplace)
  split
  · refine hrest fun m message tag' hm hplace ↦ ?_
    rw [AList.lookup_insert'] at hm
    split at hm
    · obtain rfl := Option.some.inj hm
      cases hplace
    · exact ⟨‹_›, hm⟩
  · refine hrest fun m message tag' hm _ ↦ ?_
    exact AList.lookup_of_lookup_erase hm

/-! ## Messages in flight -/

/-- Nobody is about to discard the message. -/
def Kept (s : Broker μ τ β σ) (keeps : σ → Bool) (message : Message τ β) : Prop :=
  ∀ tag h, message.place = .unacked tag → s.handlers.lookup tag = some h → keeps h.stage

def InFlight (s : Broker μ τ β σ) (keeps : σ → Bool) (b : β) : Prop :=
  ∃ m message, s.messages.lookup m = some message ∧ message.body = b ∧ s.Kept keeps message

variable {keeps : σ → Bool}

theorem inFlight_put_self (hplace : ∀ tag, place ≠ .unacked tag) :
    (s.put m body place).InFlight keeps body :=
  ⟨m, _, AList.lookup_insert _, rfl, fun tag _ hunacked ↦ absurd hunacked (hplace tag)⟩

theorem InFlight.put (hb : s.InFlight keeps b) (hplace : ∀ tag, place ≠ .unacked tag)
    (hsame : ∀ message, s.messages.lookup m = some message → message.body = body) :
    (s.put m body place).InFlight keeps b := by
  obtain ⟨m', message, hm', hbody, hkept⟩ := hb
  by_cases hm : m' = m
  · subst hm
    obtain rfl : body = b := (hsame message hm').symm.trans hbody
    exact inFlight_put_self hplace
  · exact ⟨m', message, (AList.lookup_insert_ne hm).trans hm', hbody, hkept⟩

theorem InFlight.enter (hb : s.InFlight keeps b) (hs : s.Attended)
    (hh : s.handlers.lookup tag = some h) (hkeeps : h.body = b → keeps h.stage → keeps stage) :
    (s.enter tag h stage).InFlight keeps b := by
  obtain ⟨m, message, hm, hbody, hkept⟩ := hb
  refine ⟨m, message, hm, hbody, fun tag' h' hplace hh' ↦ ?_⟩
  change (s.handlers.insert tag { h with stage }).lookup tag' = _ at hh'
  rw [AList.lookup_insert'] at hh'
  split at hh'
  · rename_i htag
    subst htag
    obtain rfl := Option.some.inj hh'
    exact hkeeps ((hs.held m message tag' h hm hplace hh).2.trans hbody) (hkept tag' h hplace hh)
  · exact hkept tag' h' hplace hh'

/-- A handler which has its message may bring it in flight again. -/
theorem inFlight_enter_self (hhas : s.HasMessage tag h) (hkeeps : keeps stage) :
    (s.enter tag h stage).InFlight keeps h.body := by
  refine ⟨h.message, _, hhas, rfl, fun tag' h' hplace hh' ↦ ?_⟩
  obtain rfl := Place.unacked.inj hplace
  obtain rfl := Option.some.inj ((AList.lookup_insert _).symm.trans hh')
  exact hkeeps

theorem InFlight.handOut (hb : s.InFlight keeps b) (hs : s.Attended) (hnew : tag ∉ s.handlers)
    (hm : s.messages.lookup m = some message) (hbody : message.body = body)
    (hkeeps : keeps stage) : (s.handOut m body tag stage).InFlight keeps b := by
  obtain ⟨m', message', hm', hbody', hkept⟩ := hb
  by_cases hsame : m' = m
  · subst hsame
    obtain rfl := Option.some.inj (hm.symm.trans hm')
    refine ⟨m', ⟨body, .unacked tag⟩, AList.lookup_insert _, hbody.symm.trans hbody',
      fun tag' h' hplace hh' ↦ ?_⟩
    obtain rfl := Place.unacked.inj hplace
    obtain rfl := Option.some.inj ((AList.lookup_insert _).symm.trans hh')
    exact hkeeps
  · refine ⟨m', message', (AList.lookup_insert_ne hsame).trans hm', hbody',
      fun tag' h' hplace hh' ↦ ?_⟩
    have htag : tag' ≠ tag := by
      rintro rfl
      exact hnew (hs.attended m' message' tag' hm' hplace)
    exact hkept tag' h' hplace ((AList.lookup_insert_ne htag).symm.trans hh')

theorem InFlight.drop (hb : s.InFlight keeps b) : (s.drop tag).InFlight keeps b := by
  obtain ⟨m, message, hm, hbody, hkept⟩ := hb
  exact ⟨m, message, hm, hbody, fun tag' h' hplace hh' ↦
    hkept tag' h' hplace (handlers_of_drop hh').2⟩

/-- A message is lost only if its handler discards it. -/
theorem InFlight.leave [DecidableEq β] {disposal : Disposal} (hb : s.InFlight keeps b)
    (hh : s.handlers.lookup tag = some h)
    (hkeeps : disposal = .requeue ∨ keeps h.stage = false) :
    (s.leave tag h disposal).InFlight keeps b := by
  unfold Broker.leave
  split
  · exact hb.drop
  rename_i hhas
  have hmine : s.messages.lookup h.message = some ⟨h.body, .unacked tag⟩ := not_not.mp hhas
  split
  · refine hb.drop.put (fun _ hplace ↦ nomatch hplace) fun message hm ↦ ?_
    rw [← Option.some.inj (hmine.symm.trans hm)]
  · rename_i hrequeue
    obtain ⟨m, message, hm, hbody, hkept⟩ := hb
    have hne : m ≠ h.message := by
      rintro rfl
      obtain rfl := Option.some.inj (hmine.symm.trans hm)
      have hkept := hkept tag h rfl hh
      rw [hkeeps.resolve_left hrequeue] at hkept
      cases hkept
    exact ⟨m, message, (AList.lookup_erase_ne hne).trans hm, hbody, fun tag' h' hplace hh' ↦
      hkept tag' h' hplace (handlers_of_drop hh').2⟩

end Broker

end Messaging
