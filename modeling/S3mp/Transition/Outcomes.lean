import S3mp.Transition.Play

/-!
# Where a played program leads

Pre- and postconditions for programs which may raise, played against a world which
answers each request at once: one postcondition for the value they return, one for
the world they leave when they raise.
-/

namespace Transition

variable {ρ σ ε α β : Type} {Val : ρ → Type} {answer : (r : ρ) → σ → Except ε (Val r) × σ}
  {P E J : σ → Prop} {F : α → σ → Prop} {G : β → σ → Prop}

/-- From a world with `P` the program returns a value with `F`, or raises and leaves `J`. -/
def Leads (answer : (r : ρ) → σ → Except ε (Val r) × σ) (P J : σ → Prop) (F : α → σ → Prop)
    (x : Raising ε Val α) : Prop :=
  ∀ s, P s →
    match x.run.play answer s with
    | (.ok a, t) => F a t
    | (.error _, t) => J t

theorem Leads.of_ok {x : Raising ε Val α} (hx : Leads answer P J F x) {s t : σ} {a : α} (hs : P s)
    (h : x.run.play answer s = (.ok a, t)) : F a t := by
  have hthis := hx s hs
  rwa [h] at hthis

theorem Leads.of_error {x : Raising ε Val α} (hx : Leads answer P J F x) {s t : σ} {e : ε}
    (hs : P s) (h : x.run.play answer s = (.error e, t)) : J t := by
  have hthis := hx s hs
  rwa [h] at hthis

theorem leads_pure {a : α} (h : ∀ s, P s → F a s) :
    Leads answer P J F (pure a : Raising ε Val α) :=
  h

theorem leads_throw {e : ε} (h : ∀ s, P s → J s) :
    Leads answer P J F (throw e : Raising ε Val α) :=
  h

theorem leads_call {r : ρ} {F : Val r → σ → Prop}
    (hok : ∀ s a t, P s → answer r s = (.ok a, t) → F a t)
    (herror : ∀ s e t, P s → answer r s = (.error e, t) → J t) :
    Leads answer P J F (call r : Raising ε Val (Val r)) := by
  intro s hs
  have hplay : (call r : Raising ε Val (Val r)).run.play answer s = answer r s := rfl
  rw [hplay]
  cases hanswer : answer r s with
  | mk out t =>
      cases out with
      | ok a => exact hok s a t hs hanswer
      | error e => exact herror s e t hs hanswer

theorem leads_bind {x : Raising ε Val α} {k : α → Raising ε Val β} (hx : Leads answer P J F x)
    (hk : ∀ a, Leads answer (F a) J G (k a)) : Leads answer P J G (x >>= k) := by
  intro s hs
  cases hplay : x.run.play answer s with
  | mk out t =>
      cases out with
      | ok a =>
          rw [play_bind_ok hplay]
          exact hk a t (hx.of_ok hs hplay)
      | error e =>
          rw [play_bind_error hplay]
          exact hx.of_error hs hplay

/-- The handler starts from what the raising program leaves. -/
theorem leads_tryCatch {x : Raising ε Val α} {handler : ε → Raising ε Val α}
    (hx : Leads answer P E F x) (hhandler : ∀ e, Leads answer E J F (handler e)) :
    Leads answer P J F (tryCatch x handler) := by
  intro s hs
  cases hplay : x.run.play answer s with
  | mk out t =>
      cases out with
      | ok a =>
          rw [play_tryCatch_ok hplay]
          exact hx.of_ok hs hplay
      | error e =>
          rw [play_tryCatch_error hplay]
          exact hhandler e t (hx.of_error hs hplay)

end Transition
