import Mathlib.Data.Nat.Notation

/-!
# A value and its earlier versions

A value which is replaced from time to time, with the values it had before.  A copy which
was taken at some version is a copy of the value at a moment, however long ago.
-/

namespace Transition

/-- The versions of a value, the current one apart. -/
structure History (α : Type) where
  past : List α
  current : α

namespace History

variable {α : Type}

def version (h : History α) : ℕ := h.past.length

def at? (h : History α) (n : ℕ) : Option α := (h.past ++ [h.current])[n]?

def commit (a : α) (h : History α) : History α := ⟨h.past ++ [h.current], a⟩

/-- The value had the property at some moment between two versions. -/
def Between (h : History α) (m n : ℕ) (P : α → Prop) : Prop :=
  ∃ k a, m ≤ k ∧ k ≤ n ∧ h.at? k = some a ∧ P a

variable {h : History α} {a b : α} {m n : ℕ} {P : α → Prop}

@[simp] theorem version_commit : (h.commit a).version = h.version + 1 := by
  simp [commit, version]

theorem at?_version : h.at? h.version = some h.current := by
  simp [at?, version]

/-- A commit leaves the earlier versions alone. -/
theorem at?_commit (hb : h.at? n = some b) : (h.commit a).at? n = some b := by
  have hn : n < (h.past ++ [h.current]).length := (List.getElem?_eq_some_iff.mp hb).1
  exact (List.getElem?_append_left hn).trans hb

theorem Between.commit (hP : h.Between m n P) : (h.commit a).Between m n P := by
  obtain ⟨k, b, hm, hn, hb, hp⟩ := hP
  exact ⟨k, b, hm, hn, at?_commit hb, hp⟩

theorem Between.mono {m' n' : ℕ} (hP : h.Between m n P) (hm : m' ≤ m) (hn : n ≤ n') :
    h.Between m' n' P := by
  obtain ⟨k, b, hmk, hkn, hb, hp⟩ := hP
  exact ⟨k, b, Nat.le_trans hm hmk, Nat.le_trans hkn hn, hb, hp⟩

theorem Between.imp {Q : α → Prop} (hP : h.Between m n P) (hPQ : ∀ a, P a → Q a) :
    h.Between m n Q := by
  obtain ⟨k, b, hm, hn, hb, hp⟩ := hP
  exact ⟨k, b, hm, hn, hb, hPQ b hp⟩

theorem le_version (hb : h.at? n = some b) : n ≤ h.version := by
  have hn : n < (h.past ++ [h.current]).length := (List.getElem?_eq_some_iff.mp hb).1
  rw [List.length_append, List.length_singleton] at hn
  exact Nat.le_of_lt_succ hn

theorem between_of_at? (hb : h.at? n = some b) (hm : m ≤ n) (hP : P b) : h.Between m n P :=
  ⟨n, b, hm, Nat.le_refl n, hb, hP⟩

theorem between_current (hm : m ≤ h.version) (hP : P h.current) :
    h.Between m h.version P :=
  between_of_at? at?_version hm hP

end History

end Transition
