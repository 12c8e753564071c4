import Mathlib.Data.Nat.Notation
import Mathlib.Data.Int.Notation

/-!
# Identifiers, clock readings and errors

UUIDs are compared, never computed with, and a clock reading is a count of
microseconds.  A transaction ends in an `ApiError` the code raises, in a
violated database constraint, or in a plain `ValueError`; in all three cases
the session rolls back.
-/

namespace S3mp

abbrev Uuid := ℕ

abbrev Timestamp := ℤ

structure ApiError where
  code : String
  message : String
  statusCode : ℕ
  deriving DecidableEq, Repr

inductive TxError where
  | api (error : ApiError)
  | integrity (constraint : String)
  | value (message : String)
  deriving DecidableEq, Repr

abbrev Tx (α : Type) := Except TxError α

def raise {α : Type} (code message : String) (statusCode : ℕ) : Tx α :=
  .error (.api ⟨code, message, statusCode⟩)

/-- The unique-constraint violation PostgreSQL reports at flush time. -/
def integrityError {α : Type} (constraint : String) : Tx α :=
  .error (.integrity constraint)

@[simp] theorem raise_ne_ok {α : Type} (code message : String) (statusCode : ℕ) (a : α) :
    raise code message statusCode ≠ Except.ok a := by
  simp [raise]

@[simp] theorem integrityError_ne_ok {α : Type} (constraint : String) (a : α) :
    integrityError constraint ≠ Except.ok a := by
  simp [integrityError]

theorem Except.bind_eq_ok {ε α β : Type} {x : Except ε α} {f : α → Except ε β} {b : β} :
    (x >>= f) = .ok b ↔ ∃ a, x = .ok a ∧ f a = .ok b := by
  cases x with
  | error e =>
      constructor
      · intro h
        cases h
      · rintro ⟨a, ha, -⟩
        cases ha
  | ok a =>
      constructor
      · intro h
        exact ⟨a, rfl, h⟩
      · rintro ⟨a', ha, hb⟩
        cases ha
        exact hb

theorem Except.pure_eq_ok {ε α : Type} {a b : α} : (pure a : Except ε α) = .ok b ↔ a = b :=
  ⟨Except.ok.inj, congrArg Except.ok⟩

theorem Except.map_eq_ok {ε α β : Type} {x : Except ε α} {f : α → β} {b : β} :
    x.map f = .ok b ↔ ∃ a, x = .ok a ∧ f a = b := by
  cases x with
  | error e => simp [Except.map]
  | ok a => simp [Except.map]

/-- Loop rule: what relates every turn to its start relates the loop to its start. -/
theorem Tx.foldlM_relates {σ α : Type} {R : σ → σ → Prop} (hrefl : ∀ s, R s s)
    (htrans : ∀ {s s' s''}, R s s' → R s' s'' → R s s'') {turn : σ → α → Tx σ}
    (hturn : ∀ {s s' a}, turn s a = .ok s' → R s s') {s s' : σ} {picked : List α}
    (h : picked.foldlM turn s = .ok s') : R s s' := by
  induction picked generalizing s with
  | nil =>
      cases h
      exact hrefl _
  | cons a picked ih =>
      rw [List.foldlM_cons] at h
      obtain ⟨s₁, hfirst, hrest⟩ := Except.bind_eq_ok.mp h
      exact htrans (hturn hfirst) (ih hrest)

/-- Loop rule: what a turn establishes for its item, and what no turn undoes, holds of all
items at the end. -/
theorem Tx.foldlM_establishes {σ α : Type} {R : σ → σ → Prop} {P : α → σ → Prop}
    (hrefl : ∀ s, R s s) (htrans : ∀ {s s' s''}, R s s' → R s' s'' → R s s'')
    (hkeeps : ∀ {a s s'}, P a s → R s s' → P a s') {turn : σ → α → Tx σ} {picked : List α}
    (hturn : ∀ a ∈ picked, ∀ {s s'}, turn s a = .ok s' → R s s' ∧ P a s') {s s' : σ}
    (h : picked.foldlM turn s = .ok s') : R s s' ∧ ∀ a ∈ picked, P a s' := by
  induction picked generalizing s with
  | nil =>
      cases h
      exact ⟨hrefl _, fun a ha ↦ nomatch ha⟩
  | cons a picked ih =>
      rw [List.foldlM_cons] at h
      obtain ⟨s₁, hfirst, hrest⟩ := Except.bind_eq_ok.mp h
      obtain ⟨hR, hP⟩ := hturn a List.mem_cons_self hfirst
      obtain ⟨hR', hrest⟩ := ih (fun b hb ↦ hturn b (List.mem_cons_of_mem a hb)) hrest
      refine ⟨htrans hR hR', fun b hb ↦ ?_⟩
      rcases List.mem_cons.mp hb with rfl | hb
      · exact hkeeps hP hR'
      · exact hrest b hb

/-- Loop rule: a loop whose turns change nothing changes nothing. -/
theorem Tx.foldlM_unchanged {σ α : Type} {turn : σ → α → Tx σ} {s : σ} {picked : List α}
    (hturn : ∀ a ∈ picked, ∀ s', turn s a = .ok s' → s' = s) {s' : σ}
    (h : picked.foldlM turn s = .ok s') : s' = s := by
  induction picked with
  | nil =>
      cases h
      rfl
  | cons a picked ih =>
      rw [List.foldlM_cons] at h
      obtain ⟨s₁, hfirst, hrest⟩ := Except.bind_eq_ok.mp h
      obtain rfl := hturn a List.mem_cons_self s₁ hfirst
      exact ih (fun b hb ↦ hturn b (List.mem_cons_of_mem a hb)) hrest

/-- Python's truth value of an optional text: the empty text counts as absent. -/
def truthy (value : Option String) : Option String :=
  value.filter (· ≠ "")

end S3mp
