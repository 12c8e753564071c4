import S3mp.Transition.Run
import Mathlib.Data.Nat.Notation

/-!
# Programs which share a world

A program is a tree of requests: each is answered by the world, which may change
in answering, and the answer decides how the program goes on.  A machine runs
any number of programs over one world, one request at a time in any order.  A
program that is never stepped again has crashed.

A discipline says which requests are allowed in which world, what the world keeps
as long as only allowed requests are made, and what the others may change between
two requests of one program.  A program is safe when each of its requests is
allowed whatever the others did in between.  A machine which starts only safe
programs makes only allowed requests.
-/

namespace Transition

variable {ρ σ κ ι α β : Type} {Ans : ρ → Type}

inductive Program (Ans : ρ → Type) (α : Type) where
  | done (a : α)
  | request (r : ρ) (next : Ans r → Program Ans α)

namespace Program

def bind : Program Ans α → (α → Program Ans β) → Program Ans β
  | .done a, k => k a
  | .request r next, k => .request r fun x ↦ (next x).bind k

instance : Monad (Program Ans) where
  pure := .done
  bind := bind

/-- The program which makes one request and returns the answer. -/
def ask (r : ρ) : Program Ans (Ans r) :=
  .request r .done

/-- Every request the program can make satisfies `P`, whatever it is answered. -/
def Only (P : ρ → Prop) : Program Ans α → Prop
  | .done _ => True
  | .request r next => P r ∧ ∀ x, (next x).Only P

theorem only_ask {P : ρ → Prop} {r : ρ} (h : P r) : (ask r : Program Ans _).Only P :=
  ⟨h, fun _ ↦ trivial⟩

theorem only_bind {P : ρ → Prop} {p : Program Ans α} {k : α → Program Ans β} (hp : p.Only P)
    (hk : ∀ a, (k a).Only P) : (p >>= k).Only P := by
  induction p with
  | done a => exact hk a
  | request r next ih => exact ⟨hp.1, fun x ↦ ih x (hp.2 x)⟩

/-- Every value the program can return satisfies `P`, whatever its requests are answered. -/
def Returns (P : α → Prop) : Program Ans α → Prop
  | .done a => P a
  | .request _ next => ∀ x, (next x).Returns P

theorem returns_trivial {P : α → Prop} (h : ∀ a, P a) (p : Program Ans α) : p.Returns P := by
  induction p with
  | done a => exact h a
  | request r next ih => exact ih

theorem returns_bind {P : α → Prop} {Q : β → Prop} {p : Program Ans α} {k : α → Program Ans β}
    (hp : p.Returns P) (hk : ∀ a, P a → (k a).Returns Q) : (p >>= k).Returns Q := by
  induction p with
  | done a => exact hk a hp
  | request r next ih => exact fun x ↦ ih x (hp x)

/-- The program with every request replaced by a program which finds its answer. -/
def translate {ρ' : Type} {Ans' : ρ' → Type} (f : (r : ρ) → Program Ans' (Ans r)) :
    Program Ans α → Program Ans' α
  | .done a => .done a
  | .request r next => (f r).bind fun x ↦ (next x).translate f

end Program

/-! ## Disciplines -/

/-- A discipline for the world which answers a request by `answer`, the rest of the answer
being the choice of `κ`. -/
structure Discipline (answer : (r : ρ) → κ → σ → Ans r × σ) where
  inv : σ → Prop
  /-- What a program may rely on while the others act. -/
  le : σ → σ → Prop
  guard : σ → ρ → Prop
  le_refl : ∀ s, le s s
  le_trans : ∀ {s t u}, le s t → le t u → le s u
  keeps : ∀ {s r c}, inv s → guard s r → inv (answer r c s).2 ∧ le s (answer r c s).2

namespace Discipline

variable {answer : (r : ρ) → κ → σ → Ans r × σ} (D : Discipline answer)

/-- From `s` on, every request of the program is allowed, and its result meets `post`. -/
def Safe : Program Ans α → (α → σ → Prop) → σ → Prop
  | .done a, post, s => ∀ s', D.inv s' → D.le s s' → post a s'
  | .request r next, post, s => ∀ s', D.inv s' → D.le s s' →
      D.guard s' r ∧ ∀ c, Safe (next (answer r c s').1) post (answer r c s').2

variable {D} {post : α → σ → Prop} {s s' : σ}

theorem Safe.mono {p : Program Ans α} (h : D.Safe p post s) (hs : D.le s s') :
    D.Safe p post s' := by
  cases p with
  | done a => exact fun t ht hle ↦ h t ht (D.le_trans hs hle)
  | request r next => exact fun t ht hle ↦ h t ht (D.le_trans hs hle)

/-- Sequencing: the second program starts wherever the first may have ended. -/
theorem Safe.bind {p : Program Ans α} {k : α → Program Ans β} {post' : β → σ → Prop}
    (h : D.Safe p (fun a t ↦ D.inv t → D.Safe (k a) post' t) s) (hs : D.inv s) :
    D.Safe (p >>= k) post' s := by
  induction p generalizing s with
  | done a => exact h s hs (D.le_refl s) hs
  | request r next ih =>
      intro t ht hle
      obtain ⟨hguard, hnext⟩ := h t ht hle
      exact ⟨hguard, fun c ↦ ih _ (hnext c) (D.keeps ht hguard).1⟩

theorem Safe.consequence {p : Program Ans α} {post' : α → σ → Prop} (h : D.Safe p post s)
    (hpost : ∀ a t, D.inv t → post a t → post' a t) : D.Safe p post' s := by
  induction p generalizing s with
  | done a => exact fun t ht hle ↦ hpost a t ht (h t ht hle)
  | request r next ih =>
      intro t ht hle
      obtain ⟨hguard, hnext⟩ := h t ht hle
      exact ⟨hguard, fun c ↦ ih _ (hnext c)⟩

/-- A program may count on what was ordered before it. -/
theorem Safe.remember {p : Program Ans α} (h : D.Safe p post s) {r : σ} (hr : D.le r s)
    (hs : D.inv s) : D.Safe p (fun a t ↦ D.le r t ∧ post a t) s := by
  induction p generalizing s with
  | done a => exact fun t ht hle ↦ ⟨D.le_trans hr hle, h t ht hle⟩
  | request r' next ih =>
      intro t ht hle
      obtain ⟨hguard, hnext⟩ := h t ht hle
      refine ⟨hguard, fun c ↦ ?_⟩
      obtain ⟨hinv, hkeep⟩ := D.keeps (c := c) ht hguard
      exact ih _ (hnext c) (D.le_trans hr (D.le_trans hle hkeep)) hinv

/-- Requests which are always allowed and leave the world as it is need no attention. -/
theorem Safe.of_only {P : ρ → Prop} (hguard : ∀ t r, P r → D.guard t r)
    (hanswer : ∀ r c t, P r → (answer r c t).2 = t) {p : Program Ans α} (hp : p.Only P)
    (hpost : ∀ a t, D.inv t → D.le s t → post a t) : D.Safe p post s := by
  induction p with
  | done a => exact fun t ht hle ↦ hpost a t ht hle
  | request r next ih =>
      intro t ht hle
      refine ⟨hguard t r hp.1, fun c ↦ ?_⟩
      rw [hanswer r c t hp.1]
      exact (ih _ (hp.2 _)).mono hle

end Discipline

/-! ## Machines -/

structure Machine (Ans : ρ → Type) (α σ : Type) where
  world : σ
  threads : List (Program Ans α)

/-- A program starts, a program makes its next request, or something else happens. -/
inductive Machine.Event (Ans : ρ → Type) (α κ ι : Type) where
  | start (p : Program Ans α)
  | step (thread : ℕ) (choice : κ)
  | outside (e : ι)

namespace Machine

section Exec

variable (answer : (r : ρ) → κ → σ → Ans r × σ) (happen : ι → σ → σ)

def exec : Event Ans α κ ι → Machine Ans α σ → Except Unit (Machine Ans α σ)
  | .start p, m => .ok { m with threads := m.threads ++ [p] }
  | .step i c, m =>
    match m.threads[i]? with
    | some (.request r next) =>
      let (x, world) := answer r c m.world
      .ok ⟨world, m.threads.set i (next x)⟩
    | _ => .error ()
  | .outside e, m => .ok { m with world := happen e m.world }

end Exec

/-- The request the thread makes next. -/
def requests (m : Machine Ans α σ) (i : ℕ) (r : ρ) : Prop :=
  ∃ next, m.threads[i]? = some (.request r next)

def returns (m : Machine Ans α σ) (i : ℕ) (a : α) : Prop :=
  m.threads[i]? = some (.done a)

variable {answer : (r : ρ) → κ → σ → Ans r × σ} {D : Discipline answer} {happen : ι → σ → σ}
  {post : α → σ → Prop}

/-- Every program of the machine is safe in its world. -/
def Disciplined (D : Discipline answer) (post : α → σ → Prop) (m : Machine Ans α σ) : Prop :=
  D.inv m.world ∧ ∀ p ∈ m.threads, D.Safe p post m.world

/-- Only safe programs are started, and what else happens respects the discipline. -/
def Allowed (D : Discipline answer) (happen : ι → σ → σ) (post : α → σ → Prop)
    (m : Machine Ans α σ) : Event Ans α κ ι → Prop
  | .start p => D.Safe p post m.world
  | .step _ _ => True
  | .outside e => D.inv (happen e m.world) ∧ D.le m.world (happen e m.world)

theorem Disciplined.guard {m : Machine Ans α σ} (h : Disciplined D post m) {i : ℕ} {r : ρ}
    (hr : m.requests i r) : D.guard m.world r := by
  obtain ⟨next, hnext⟩ := hr
  exact (h.2 _ (List.mem_of_getElem? hnext) m.world h.1 (D.le_refl _)).1

theorem Disciplined.result {m : Machine Ans α σ} (h : Disciplined D post m) {i : ℕ} {a : α}
    (ha : m.returns i a) : post a m.world :=
  h.2 _ (List.mem_of_getElem? ha) m.world h.1 (D.le_refl _)

theorem Disciplined.exec {m m' : Machine Ans α σ} {e : Event Ans α κ ι} (h : Disciplined D post m)
    (he : Allowed D happen post m e) (hexec : exec answer happen e m = .ok m') :
    Disciplined D post m' := by
  obtain ⟨hinv, hsafe⟩ := h
  cases e with
  | start p =>
      cases hexec
      refine ⟨hinv, fun q hq ↦ ?_⟩
      rcases List.mem_append.mp hq with hq | hq
      · exact hsafe q hq
      · rw [List.mem_singleton.mp hq]
        exact he
  | step i c =>
      simp only [Machine.exec] at hexec
      split at hexec
      · rename_i r next hnext
        cases hexec
        obtain ⟨hguard, hrest⟩ :=
          hsafe _ (List.mem_of_getElem? hnext) m.world hinv (D.le_refl _)
        obtain ⟨hinv', hle⟩ := D.keeps (c := c) hinv hguard
        refine ⟨hinv', fun q hq ↦ ?_⟩
        rcases List.mem_or_eq_of_mem_set hq with hq | rfl
        · exact (hsafe q hq).mono hle
        · exact hrest c
      · cases hexec
  | outside e =>
      cases hexec
      exact ⟨he.1, fun q hq ↦ (hsafe q hq).mono he.2⟩

/-- Run rule: a disciplined machine stays disciplined if its events are allowed as long as it
is. -/
theorem disciplined_run {cond : Machine Ans α σ → Event Ans α κ ι → Prop}
    (hcond : ∀ m e, Disciplined D post m → cond m e → Allowed D happen post m e)
    {m : Machine Ans α σ} {es : List (Event Ans α κ ι)} (h : Disciplined D post m)
    (hmeets : Meets (Machine.exec answer happen) cond m es) :
    Disciplined D post (run (Machine.exec answer happen) m es) :=
  run_invariant (fun m e _ hs he hexec ↦ hs.exec (hcond m e hs he) hexec) h hmeets

end Machine

end Transition
