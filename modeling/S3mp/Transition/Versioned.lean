import Mathlib.Order.Basic
import S3mp.Transition.Run

/-!
# Versioned views

A view of the state which is cached under a version number.  A step is coherent
when no version decreases and every view which changes has its version
increased.  In a run of coherent steps an entry which is found under the current
version holds the current view.
-/

namespace Transition

variable {σ ι α ν κ ε : Type} [Preorder ν]

section

variable (view : σ → ι → α) (version : σ → ι → ν)

/-- Every view which changes has its version increased. -/
def Invalidates (s s' : σ) : Prop :=
  ∀ i, view s i ≠ view s' i → version s i < version s' i

structure Coherent (s s' : σ) : Prop where
  monotone : ∀ i, version s i ≤ version s' i
  invalidates : Invalidates view version s s'

end

variable {view : σ → ι → α} {version : σ → ι → ν} {s s' s'' : σ}

theorem Coherent.refl (s : σ) : Coherent view version s s :=
  ⟨fun _ ↦ le_rfl, fun _ h ↦ absurd rfl h⟩

theorem Coherent.trans (h : Coherent view version s s') (h' : Coherent view version s' s'') :
    Coherent view version s s'' := by
  refine ⟨fun i ↦ (h.monotone i).trans (h'.monotone i), fun i hne ↦ ?_⟩
  by_cases hfirst : view s i = view s' i
  · exact (h.monotone i).trans_lt (h'.invalidates i (hfirst ▸ hne))
  · exact (h.invalidates i hfirst).trans_le (h'.monotone i)

/-- An entry cached under a version which is still current is current. -/
theorem Coherent.cached (h : Coherent view version s s') {i : ι}
    (hversion : version s i = version s' i) : view s i = view s' i := by
  by_contra hne
  exact (h.invalidates i hne).ne hversion

theorem run_coherent {exec : κ → σ → Except ε σ} {cond : σ → κ → Prop} {W : σ → Prop}
    (hside : ∀ s c, W s → W (advance exec s c))
    (hstep : ∀ s c, W s → cond s c → Coherent view version s (advance exec s c))
    {cs : List κ} (hs : W s) (hmeets : Meets exec cond s cs) :
    Coherent view version s (run exec s cs) := by
  induction cs generalizing s with
  | nil => exact Coherent.refl s
  | cons c cs ih =>
      obtain ⟨hc, hrest⟩ := hmeets
      exact (hstep s c hs hc).trans (ih (hside s c hs) hrest)

end Transition
