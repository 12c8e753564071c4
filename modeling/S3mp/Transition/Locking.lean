import Mathlib.Logic.Basic

/-!
# Locks and their owners

Owners hold resources.  Each owner has a set of resources it was accepted for, and the locks are
in order when an owner holds these exactly as long as it is active, and no resource is held
twice.  A move changes one owner, so that only this owner has to be looked at.
-/

namespace Locking

variable {ω ρ : Type}

structure Locks (ω ρ : Type) where
  holds : ω → ρ → Prop
  active : ω → Prop
  claims : ω → ρ → Prop

namespace Locks

variable {L L' : Locks ω ρ} {o : ω}

structure InOrder (L : Locks ω ρ) : Prop where
  exact : ∀ o r, L.holds o r ↔ L.active o ∧ L.claims o r
  exclusive : ∀ o o' r, L.holds o r → L.holds o' r → o' = o

/-- Nothing changes for the owner, save that one without claims may become active or not. -/
structure Untouched (o : ω) (L L' : Locks ω ρ) : Prop where
  holds : ∀ r, L'.holds o r ↔ L.holds o r
  claims : ∀ r, L'.claims o r ↔ L.claims o r
  active : ∀ r, L.claims o r → (L'.active o ↔ L.active o)

theorem Untouched.refl (o : ω) (L : Locks ω ρ) : Untouched o L L :=
  ⟨fun _ ↦ Iff.rfl, fun _ ↦ Iff.rfl, fun _ _ ↦ Iff.rfl⟩

theorem Untouched.exact (h : Untouched o L L') (horder : L.InOrder) (r : ρ) :
    L'.holds o r ↔ L'.active o ∧ L'.claims o r := by
  rw [h.holds, h.claims, horder.exact]
  constructor
  · rintro ⟨hactive, hclaims⟩
    exact ⟨(h.active r hclaims).mpr hactive, hclaims⟩
  · rintro ⟨hactive, hclaims⟩
    exact ⟨(h.active r hclaims).mp hactive, hclaims⟩

theorem InOrder.congr (horder : L.InOrder) (h : ∀ o, Untouched o L L') : L'.InOrder := by
  refine ⟨fun o r ↦ (h o).exact horder r, fun o o' r hheld hheld' ↦ ?_⟩
  exact horder.exclusive o o' r (((h o).holds r).mp hheld) (((h o').holds r).mp hheld')

/-- Move rule: where one owner moves, the locks stay in order if it holds what it may and nobody
else does. -/
theorem InOrder.move (horder : L.InOrder) (hmove : ∀ o', o' ≠ o → Untouched o' L L')
    (hexact : ∀ r, L'.holds o r ↔ L'.active o ∧ L'.claims o r)
    (halone : ∀ r o', o' ≠ o → L'.holds o r → ¬ L.holds o' r) : L'.InOrder := by
  refine ⟨fun o₁ r ↦ ?_, fun o₁ o₂ r h₁ h₂ ↦ ?_⟩
  · by_cases ho : o₁ = o
    · exact ho ▸ hexact r
    · exact (hmove o₁ ho).exact horder r
  · by_cases ho₁ : o₁ = o
    · subst ho₁
      by_cases ho₂ : o₂ = o₁
      · exact ho₂
      · exact absurd (((hmove o₂ ho₂).holds r).mp h₂) (halone r o₂ ho₂ h₁)
    · have hheld₁ := ((hmove o₁ ho₁).holds r).mp h₁
      by_cases ho₂ : o₂ = o
      · subst ho₂
        exact absurd hheld₁ (halone r o₁ ho₁ h₂)
      · exact horder.exclusive o₁ o₂ r hheld₁ (((hmove o₂ ho₂).holds r).mp h₂)

/-- A new owner is accepted for what it then holds, and all of that was free. -/
theorem InOrder.acquire (horder : L.InOrder) (hmove : ∀ o', o' ≠ o → Untouched o' L L')
    (hactive : L'.active o) (hclaims : ∀ r, L'.claims o r ↔ L'.holds o r)
    (hfree : ∀ r o', o' ≠ o → L'.holds o r → ¬ L.holds o' r) : L'.InOrder :=
  horder.move hmove (fun r ↦ by simp [hactive, hclaims]) hfree

/-- An owner which is done lets go of everything. -/
theorem InOrder.release (horder : L.InOrder) (hmove : ∀ o', o' ≠ o → Untouched o' L L')
    (hdone : ¬ L'.active o) (hnone : ∀ r, ¬ L'.holds o r) : L'.InOrder :=
  horder.move hmove (fun r ↦ by simp [hdone, hnone]) fun r _ _ hheld ↦ absurd hheld (hnone r)

end Locks

end Locking
