import S3mp.Transition.Raising

/-!
# Attempts

A program tried any number of times over one world.  Each request of an attempt takes
a choice of the environment, and an attempt whose choices run out has crashed: its
effects stay and it returns nothing.  What an attempt upholds is proved along the
program: the invariant at every request, where it may crash, and the postcondition
at its end, for all choices which meet the condition.
-/

namespace Transition

variable {ρ σ κ ε α β : Type} {Ans : ρ → Type}

namespace Program

section

variable (answer : (r : ρ) → κ → σ → Ans r × σ) (cond : ρ → κ → σ → Prop) (I : σ → Prop)

def attempt : Program Ans α → List κ → σ → Option α × σ
  | .done a, _, s => (some a, s)
  | .request _ _, [], s => (none, s)
  | .request r next, c :: cs, s => (next (answer r c s).1).attempt cs (answer r c s).2

/-- Every choice of the attempt meets the condition where it is taken. -/
def AttemptMeets : Program Ans α → List κ → σ → Prop
  | .done _, _, _ => True
  | .request _ _, [], _ => True
  | .request r next, c :: cs, s =>
      cond r c s ∧ (next (answer r c s).1).AttemptMeets cs (answer r c s).2

def Upholds : Program Ans α → (α → σ → Prop) → σ → Prop
  | .done a, post, s => post a s
  | .request r next, post, s =>
      I s ∧ ∀ c, cond r c s → (next (answer r c s).1).Upholds post (answer r c s).2

/-- Every value the program returns satisfies `P`, as long as its answers satisfy `A`. -/
def Under (A : (r : ρ) → Ans r → Prop) (P : α → Prop) : Program Ans α → Prop
  | .done a => P a
  | .request r next => ∀ x, A r x → (next x).Under A P

end

variable {answer : (r : ρ) → κ → σ → Ans r × σ} {cond : ρ → κ → σ → Prop} {I : σ → Prop}
  {post : α → σ → Prop} {s : σ}

theorem upholds_bind {p : Program Ans α} {k : α → Program Ans β} {post' : β → σ → Prop}
    (h : p.Upholds answer cond I (fun a t ↦ (k a).Upholds answer cond I post' t) s) :
    (p >>= k).Upholds answer cond I post' s := by
  induction p generalizing s with
  | done a => exact h
  | request r next ih => exact ⟨h.1, fun c hc ↦ ih _ (h.2 c hc)⟩

theorem Upholds.consequence {p : Program Ans α} {post' : α → σ → Prop}
    (h : p.Upholds answer cond I post s) (hpost : ∀ a t, post a t → post' a t) :
    p.Upholds answer cond I post' s := by
  induction p generalizing s with
  | done a => exact hpost a s h
  | request r next ih => exact ⟨h.1, fun c hc ↦ ih _ (h.2 c hc)⟩

theorem under_bind {A : (r : ρ) → Ans r → Prop} {P : α → Prop} {Q : β → Prop} {p : Program Ans α}
    {k : α → Program Ans β} (hp : p.Under A P) (hk : ∀ a, P a → (k a).Under A Q) :
    (p >>= k).Under A Q := by
  induction p with
  | done a => exact hk a hp
  | request r next ih => exact fun x hx ↦ ih x (hp x hx)

/-- What is known of the returned values whatever the answers. -/
theorem Upholds.returns {p : Program Ans α} {Q : α → Prop} (h : p.Upholds answer cond I post s)
    (hreturns : p.Returns Q) : p.Upholds answer cond I (fun a t ↦ post a t ∧ Q a) s := by
  induction p generalizing s with
  | done a => exact ⟨h, hreturns⟩
  | request r next ih => exact ⟨h.1, fun c hc ↦ ih _ (h.2 c hc) (hreturns _)⟩

/-- Run rule of one attempt: it leaves the invariant if it crashes, else the postcondition. -/
theorem Upholds.attempt {p : Program Ans α} (h : p.Upholds answer cond I post s) {cs : List κ}
    (hmeets : p.AttemptMeets answer cond cs s) :
    match p.attempt answer cs s with
    | (none, t) => I t
    | (some a, t) => post a t := by
  induction p generalizing s cs with
  | done a => exact h
  | request r next ih =>
      cases cs with
      | nil => exact h.1
      | cons c cs => exact ih _ (h.2 c hmeets.1) hmeets.2

end Program

/-! ## Several attempts -/

section

variable {δ : Type} (answer : (r : ρ) → κ → σ → Ans r × σ) (cond : ρ → κ → σ → Prop)
  (program : δ → Program Ans α) (choices : δ → List κ)

/-- The world some attempts leave, one after the other. -/
def afterAttempts (s : σ) (ds : List δ) : σ :=
  ds.foldl (fun s d ↦ ((program d).attempt answer (choices d) s).2) s

variable {answer cond program choices}

end

/-! ## Programs which may raise -/

section

variable {Val : ρ → Type} {answer : (r : ρ) → κ → σ → Except ε (Val r) × σ}
  {cond : ρ → κ → σ → Prop} {I : σ → Prop}

def UpholdsR (answer : (r : ρ) → κ → σ → Except ε (Val r) × σ) (cond : ρ → κ → σ → Prop)
    (I : σ → Prop) (x : Raising ε Val α) (post : Except ε α → σ → Prop) (s : σ) : Prop :=
  x.run.Upholds answer cond I post s

variable {post : Except ε α → σ → Prop} {post' : Except ε β → σ → Prop} {s : σ}

theorem UpholdsR.bind {x : Raising ε Val α} {k : α → Raising ε Val β}
    (h : UpholdsR answer cond I x (fun out t ↦ match out with
      | .ok a => UpholdsR answer cond I (k a) post' t
      | .error e => post' (.error e) t) s) : UpholdsR answer cond I (x >>= k) post' s := by
  refine Program.upholds_bind (h.consequence fun out t hout ↦ ?_)
  cases out with
  | ok a => exact hout
  | error e => exact hout

end

end Transition
