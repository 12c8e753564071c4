import S3mp.Transition.Program

/-!
# Programs which may raise

Every request of such a program returns a value or raises, and a raise goes up to
the next handler.  The rules of a discipline for calls, sequencing, handlers, and
for parts of a program which only read.
-/

namespace Transition

variable {ρ σ κ ε α β : Type} {Val : ρ → Type}

abbrev Raising (ε : Type) (Val : ρ → Type) : Type → Type :=
  ExceptT ε (Program fun r ↦ Except ε (Val r))

def call (r : ρ) : Raising ε Val (Val r) :=
  ExceptT.mk (Program.ask r)

variable {answer : (r : ρ) → κ → σ → Except ε (Val r) × σ}

/-- The program is safe from `s` on, whether it returns or raises. -/
def Discipline.SafeR (D : Discipline answer) (x : Raising ε Val α)
    (post : Except ε α → σ → Prop) (s : σ) : Prop :=
  D.Safe x.run post s

variable {D : Discipline answer} {s : σ} {post : Except ε α → σ → Prop}
  {post' : Except ε β → σ → Prop}

theorem Discipline.SafeR.mono {x : Raising ε Val α} (h : D.SafeR x post s) {s' : σ}
    (hle : D.le s s') : D.SafeR x post s' :=
  Discipline.Safe.mono h hle

theorem safe_return {a : α} (h : ∀ t, D.inv t → D.le s t → post (.ok a) t) :
    D.SafeR (pure a : Raising ε Val α) post s :=
  h

theorem safe_raise {e : ε} (h : ∀ t, D.inv t → D.le s t → post (.error e) t) :
    D.SafeR (throw e : Raising ε Val α) post s :=
  h

theorem Discipline.SafeR.bind {x : Raising ε Val α} {k : α → Raising ε Val β}
    (h : D.SafeR x (fun out t ↦ match out with
      | .ok a => D.SafeR (k a) post' t
      | .error e => ∀ t', D.inv t' → D.le t t' → post' (.error e) t') s) (hs : D.inv s) :
    D.SafeR (x >>= k) post' s := by
  refine Discipline.Safe.bind (D := D) (h.consequence fun out t ht hout _ ↦ ?_) hs
  cases out with
  | ok a => exact hout
  | error e => exact hout

/-- A call must be allowed when it is made, and the program goes on with what it returns. -/
theorem safe_call_bind {r : ρ} {k : Val r → Raising ε Val β}
    (h : ∀ t, D.inv t → D.le s t → D.guard t r ∧ ∀ c, match (answer r c t).1 with
      | .ok x => D.SafeR (k x) post' (answer r c t).2
      | .error e => ∀ t', D.inv t' → D.le (answer r c t).2 t' → post' (.error e) t') :
    D.SafeR (call r >>= k) post' s := by
  intro t ht hle
  obtain ⟨hguard, hnext⟩ := h t ht hle
  refine ⟨hguard, fun c ↦ ?_⟩
  have hnext := hnext c
  change D.Safe (ExceptT.bindCont k (answer r c t).1) post' (answer r c t).2
  cases hx : (answer r c t).1 with
  | ok x =>
      rw [hx] at hnext
      exact hnext
  | error e =>
      rw [hx] at hnext
      exact hnext

theorem safe_tryCatch {x : Raising ε Val α} {handler : ε → Raising ε Val α}
    (h : D.SafeR x (fun out t ↦ match out with
      | .ok a => ∀ t', D.inv t' → D.le t t' → post (.ok a) t'
      | .error e => D.SafeR (handler e) post t) s) (hs : D.inv s) :
    D.SafeR (tryCatch x handler) post s := by
  refine Discipline.Safe.bind (D := D) (h.consequence fun out t ht hout _ ↦ ?_) hs
  cases out with
  | ok a => exact hout
  | error e => exact hout

/-! ## Disciplines which allow every request -/

section Unguarded

variable (hguard : ∀ t r, D.guard t r)
include hguard

/-- Where nothing is forbidden, a program is safe for what holds in every later world. -/
theorem Discipline.safe_unguarded {p : Program (fun r ↦ Except ε (Val r)) α} {post : α → σ → Prop}
    (hpost : ∀ a t, D.inv t → D.le s t → post a t) (hs : D.inv s) : D.Safe p post s := by
  induction p generalizing s with
  | done a => exact fun t ht hle ↦ hpost a t ht hle
  | request r next ih =>
      intro t ht hle
      refine ⟨hguard t r, fun c ↦ ?_⟩
      obtain ⟨hinv, hkeep⟩ := D.keeps (c := c) ht (hguard t r)
      refine ih _ (fun a u hu htu ↦ ?_) hinv
      exact hpost a u hu (D.le_trans hle (D.le_trans hkeep htu))

theorem safeR_unguarded {x : Raising ε Val α}
    (hpost : ∀ out t, D.inv t → D.le s t → post out t) (hs : D.inv s) : D.SafeR x post s :=
  D.safe_unguarded hguard hpost hs

/-- A part of the program whose result does not matter. -/
theorem safeR_unguarded_bind {x : Raising ε Val α} {k : α → Raising ε Val β} (hs : D.inv s)
    (hraise : ∀ e t, D.inv t → D.le s t → post' (.error e) t)
    (hk : ∀ a t, D.inv t → D.le s t → D.SafeR (k a) post' t) : D.SafeR (x >>= k) post' s := by
  refine Discipline.SafeR.bind (safeR_unguarded hguard (fun out t ht hle ↦ ?_) hs) hs
  cases out with
  | ok a => exact hk a t ht hle
  | error e => exact fun t' ht' hle' ↦ hraise e t' ht' (D.le_trans hle hle')

end Unguarded

/-! ## Parts which only make requests of one kind -/

variable {P : ρ → Prop}

def OnlyR (P : ρ → Prop) (x : Raising ε Val α) : Prop :=
  x.run.Only P

theorem onlyR_pure (a : α) : OnlyR P (pure a : Raising ε Val α) := trivial

theorem onlyR_throw (e : ε) : OnlyR P (throw e : Raising ε Val α) := trivial

theorem onlyR_call {r : ρ} (h : P r) : OnlyR P (call r : Raising ε Val (Val r)) :=
  Program.only_ask h

theorem onlyR_bind {x : Raising ε Val α} {k : α → Raising ε Val β} (hx : OnlyR P x)
    (hk : ∀ a, OnlyR P (k a)) : OnlyR P (x >>= k) := by
  refine Program.only_bind hx fun out ↦ ?_
  cases out with
  | ok a => exact hk a
  | error e => exact trivial

/-- Requests which are always allowed and leave the world alone need no attention. -/
structure Discipline.Ignores (D : Discipline answer) (P : ρ → Prop) : Prop where
  allowed : ∀ t r, P r → D.guard t r
  unchanged : ∀ r c t, P r → (answer r c t).2 = t

theorem OnlyR.safe_bind (hP : D.Ignores P) {x : Raising ε Val α} {k : α → Raising ε Val β}
    (hx : OnlyR P x) (hs : D.inv s) (hraise : ∀ e t, D.inv t → D.le s t → post' (.error e) t)
    (hk : ∀ a, D.SafeR (k a) post' s) : D.SafeR (x >>= k) post' s := by
  refine Discipline.SafeR.bind (Discipline.Safe.of_only hP.allowed hP.unchanged hx ?_) hs
  intro out t _ hle
  cases out with
  | ok a => exact (hk a).mono hle
  | error e => exact fun t' ht' hle' ↦ hraise e t' ht' (D.le_trans hle hle')

/-! ## Returned values -/

/-- The program raises, or returns a value which satisfies `Q`. -/
def ReturnsR (Q : α → Prop) (x : Raising ε Val α) : Prop :=
  x.run.Returns fun out ↦ ∀ a, out = .ok a → Q a

variable {Q : α → Prop} {Q' : β → Prop}

theorem returnsR_pure {a : α} (h : Q a) : ReturnsR Q (pure a : Raising ε Val α) := by
  rintro b ⟨⟩
  exact h

theorem returnsR_throw (e : ε) : ReturnsR Q (throw e : Raising ε Val α) := by
  rintro b ⟨⟩

theorem returnsR_bind {x : Raising ε Val α} {k : α → Raising ε Val β} (hx : ReturnsR Q x)
    (hk : ∀ a, Q a → ReturnsR Q' (k a)) : ReturnsR Q' (x >>= k) := by
  refine Program.returns_bind hx fun out hout ↦ ?_
  cases out with
  | ok a => exact hk a (hout a rfl)
  | error e =>
      rintro b ⟨⟩

/-- Nothing is known of the values which the rest of the program goes on with. -/
theorem returnsR_rest {x : Raising ε Val α} {k : α → Raising ε Val β}
    (hk : ∀ a, ReturnsR Q' (k a)) : ReturnsR Q' (x >>= k) :=
  returnsR_bind (Q := fun _ ↦ True) (Program.returns_trivial (fun _ _ _ ↦ trivial) _)
    fun a _ ↦ hk a

theorem returnsR_tryCatch {x : Raising ε Val α} {handler : ε → Raising ε Val α}
    (hx : ReturnsR Q x) (hhandler : ∀ e, ReturnsR Q (handler e)) :
    ReturnsR Q (tryCatch x handler) := by
  refine Program.returns_bind hx fun out hout ↦ ?_
  cases out with
  | ok a => exact hout
  | error e => exact hhandler e

end Transition
