import S3mp.Transition.Run
import Mathlib.Tactic.Linarith

/-!
# Counting along runs

How often a run takes a step of a given kind.  A potential which every command
keeps from rising, and which every counted command lowers by one, bounds the count.
-/

namespace Transition

variable {σ κ ε : Type}

/-- How many commands of the run are counted, each in the state it is executed in. -/
def countSteps (exec : κ → σ → Except ε σ) (counted : σ → κ → Bool) : σ → List κ → ℕ
  | _, [] => 0
  | s, c :: cs => (if counted s c then 1 else 0) + countSteps exec counted (advance exec s c) cs

/-- The counted commands are paid for out of the potential of the first state. -/
theorem countSteps_add_potential_le {exec : κ → σ → Except ε σ} (counted : σ → κ → Bool)
    (potential : σ → ℤ) {cond : σ → κ → Prop} {I : σ → Prop}
    (hside : ∀ s c, I s → I (advance exec s c))
    (hpays : ∀ s c, I s → cond s c →
      (if counted s c then 1 else 0) + potential (advance exec s c) ≤ potential s)
    {s : σ} {cs : List κ} (hs : I s) (hmeets : Meets exec cond s cs) :
    countSteps exec counted s cs + potential (run exec s cs) ≤ potential s := by
  induction cs generalizing s with
  | nil => simp [countSteps]
  | cons c cs ih =>
      obtain ⟨hc, hrest⟩ := hmeets
      have hstep := hpays s c hs hc
      have htail := ih (hside s c hs) hrest
      rw [run_cons]
      simp only [countSteps, Nat.cast_add, Nat.cast_ite, Nat.cast_one, Nat.cast_zero]
      linarith

end Transition
