import Mathlib.Data.List.Basic
import Mathlib.Data.Nat.Notation
import Mathlib.Tactic.IntervalCases

/-!
# Hexadecimal numerals

Reading the digits of a number gives the number, whatever zeros stand before them.
-/

namespace S3mp.Encoding

/-- The value of a lower-case hexadecimal digit. -/
def digitValue (c : Char) : ℕ :=
  if c.isDigit then c.toNat - '0'.toNat else c.toNat - 'a'.toNat + 10

def numeralValue (digits : List Char) : ℕ :=
  digits.foldl (fun n c ↦ 16 * n + digitValue c) 0

theorem digitValue_digitChar {d : ℕ} (h : d < 16) : digitValue d.digitChar = d := by
  interval_cases d <;> rfl

theorem numeralValue_append_singleton (digits : List Char) (c : Char) :
    numeralValue (digits ++ [c]) = 16 * numeralValue digits + digitValue c := by
  rw [numeralValue, List.foldl_append]
  rfl

theorem numeralValue_toDigits (n : ℕ) : numeralValue (Nat.toDigits 16 n) = n := by
  induction n using Nat.strongRecOn with
  | ind n ih =>
      rcases Nat.lt_or_ge n 16 with hsmall | hlarge
      · rw [Nat.toDigits_of_lt_base hsmall]
        exact (Nat.zero_add _).trans (digitValue_digitChar hsmall)
      · have hdigit : n % 16 < 16 := Nat.mod_lt n (by decide)
        rw [Nat.toDigits_of_base_le (by decide) hlarge, numeralValue_append_singleton,
          ih (n / 16) (Nat.div_lt_self (by omega) (by decide)), digitValue_digitChar hdigit]
        omega

theorem numeralValue_replicate_zero (k : ℕ) (digits : List Char) :
    numeralValue (List.replicate k '0' ++ digits) = numeralValue digits := by
  induction k with
  | zero => rfl
  | succ k ih => exact ih

theorem numeralValue_leftpad (k n : ℕ) : numeralValue ((Nat.toDigits 16 n).leftpad k '0') = n := by
  rw [List.leftpad, numeralValue_replicate_zero, numeralValue_toDigits]

theorem isDigitChar_of_mem_toDigits {n : ℕ} {c : Char} (h : c ∈ Nat.toDigits 16 n) :
    ∃ d < 16, c = d.digitChar := by
  induction n using Nat.strongRecOn with
  | ind n ih =>
      rcases Nat.lt_or_ge n 16 with hsmall | hlarge
      · rw [Nat.toDigits_of_lt_base hsmall, List.mem_singleton] at h
        exact ⟨n, hsmall, h⟩
      · rw [Nat.toDigits_of_base_le (by decide) hlarge, List.mem_append, List.mem_singleton] at h
        rcases h with h | h
        · exact ih (n / 16) (Nat.div_lt_self (by omega) (by decide)) h
        · exact ⟨n % 16, Nat.mod_lt n (by decide), h⟩

theorem mem_leftpad_toDigits {k n : ℕ} {c : Char}
    (h : c ∈ (Nat.toDigits 16 n).leftpad k '0') : ∃ d < 16, c = d.digitChar := by
  rcases List.mem_append.mp h with h | h
  · exact ⟨0, by decide, List.eq_of_mem_replicate h⟩
  · exact isDigitChar_of_mem_toDigits h

end S3mp.Encoding
