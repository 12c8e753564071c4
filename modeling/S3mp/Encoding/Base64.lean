import Mathlib.Data.Nat.Notation
import Mathlib.Data.Int.Notation
import Mathlib.Logic.Function.Basic

/-!
# URL-safe base64 without padding

Three bytes make four digits; at the end two bytes make three and one makes two.
The number of digits and the digits themselves give the bytes back; the reader
of `binascii` gives them back from the padded text.
-/

namespace S3mp.Encoding

/-- The URL-safe alphabet. -/
def base64Char (n : ℕ) : Char :=
  if n < 26 then Char.ofNat ('A'.toNat + n)
  else if n < 52 then Char.ofNat ('a'.toNat + (n - 26))
  else if n < 62 then Char.ofNat ('0'.toNat + (n - 52))
  else if n = 62 then '-'
  else '_'

theorem base64Char_inj {m n : ℕ} (hm : m < 64) (hn : n < 64)
    (h : base64Char m = base64Char n) : m = n := by
  have hall : ∀ m < 64, ∀ n < 64, base64Char m = base64Char n → m = n := by decide
  exact hall m hm n hn h

def base64Digits : List UInt8 → List ℕ
  | [] => []
  | [a] => [a.toNat / 4, a.toNat % 4 * 16]
  | [a, b] => [a.toNat / 4, a.toNat % 4 * 16 + b.toNat / 16, b.toNat % 16 * 4]
  | a :: b :: c :: rest =>
      a.toNat / 4 :: (a.toNat % 4 * 16 + b.toNat / 16) ::
        (b.toNat % 16 * 4 + c.toNat / 64) :: c.toNat % 64 :: base64Digits rest

/-- `base64.urlsafe_b64encode` with the padding stripped. -/
def urlsafeBase64 (bytes : List UInt8) : List Char :=
  (base64Digits bytes).map base64Char

theorem base64Digits_lt (bytes : List UInt8) : ∀ d ∈ base64Digits bytes, d < 64 := by
  induction bytes using base64Digits.induct with
  | case1 => simp [base64Digits]
  | case2 a =>
      have ha := a.toNat_lt
      simp only [base64Digits, List.mem_cons, List.not_mem_nil, or_false]
      rintro d (rfl | rfl) <;> omega
  | case3 a b =>
      have ha := a.toNat_lt
      have hb := b.toNat_lt
      simp only [base64Digits, List.mem_cons, List.not_mem_nil, or_false]
      rintro d (rfl | rfl | rfl) <;> omega
  | case4 a b c rest ih =>
      have ha := a.toNat_lt
      have hb := b.toNat_lt
      have hc := c.toNat_lt
      simp only [base64Digits, List.mem_cons]
      rintro d (rfl | rfl | rfl | rfl | hd)
      · omega
      · omega
      · omega
      · omega
      · exact ih d hd

theorem base64Digits_injective : Function.Injective base64Digits := by
  intro bytes
  induction bytes using base64Digits.induct with
  | case1 =>
      rintro (_ | ⟨a, _ | ⟨b, _ | ⟨c, rest⟩⟩⟩) h <;> simp_all [base64Digits]
  | case2 a =>
      rintro (_ | ⟨a', _ | ⟨b', _ | ⟨c', rest'⟩⟩⟩) h <;>
        simp only [base64Digits, List.cons.injEq, reduceCtorEq, and_false, and_true] at h
      obtain rfl : a = a' := UInt8.toNat_inj.mp (by omega)
      rfl
  | case3 a b =>
      rintro (_ | ⟨a', _ | ⟨b', _ | ⟨c', rest'⟩⟩⟩) h <;>
        simp only [base64Digits, List.cons.injEq, reduceCtorEq, and_false, and_true] at h
      have hb := b.toNat_lt
      have hb' := b'.toNat_lt
      obtain rfl : a = a' := UInt8.toNat_inj.mp (by omega)
      obtain rfl : b = b' := UInt8.toNat_inj.mp (by omega)
      rfl
  | case4 a b c rest ih =>
      rintro (_ | ⟨a', _ | ⟨b', _ | ⟨c', rest'⟩⟩⟩) h <;>
        simp only [base64Digits, List.cons.injEq, reduceCtorEq, and_false] at h
      obtain ⟨h₁, h₂, h₃, h₄, hrest⟩ := h
      have hb := b.toNat_lt
      have hb' := b'.toNat_lt
      have hc := c.toNat_lt
      have hc' := c'.toNat_lt
      obtain rfl : a = a' := UInt8.toNat_inj.mp (by omega)
      obtain rfl : b = b' := UInt8.toNat_inj.mp (by omega)
      obtain rfl : c = c' := UInt8.toNat_inj.mp (by omega)
      rw [ih hrest]

theorem urlsafeBase64_injective : Function.Injective urlsafeBase64 := by
  intro bytes bytes' h
  refine base64Digits_injective ?_
  have hlt := base64Digits_lt bytes
  have hlt' := base64Digits_lt bytes'
  unfold urlsafeBase64 at h
  generalize base64Digits bytes = digits at h hlt
  generalize base64Digits bytes' = digits' at h hlt'
  induction digits generalizing digits' with
  | nil => exact (List.map_eq_nil_iff.mp h.symm).symm
  | cons d digits ih =>
      cases digits' with
      | nil => exact absurd h (List.cons_ne_nil _ _)
      | cons d' digits' =>
          obtain ⟨hchar, hrest⟩ := List.cons.inj h
          rw [base64Char_inj (hlt d List.mem_cons_self) (hlt' d' List.mem_cons_self) hchar,
            ih (fun x hx ↦ hlt x (List.mem_cons_of_mem _ hx)) digits' hrest
              (fun x hx ↦ hlt' x (List.mem_cons_of_mem _ hx))]

/-! ## Reading the digits -/

/-- The value of a digit; `+` and `/` are read as the two last digits as well. -/
def base64Value (c : Char) : Option ℕ :=
  if 'A' ≤ c ∧ c ≤ 'Z' then some (c.toNat - 'A'.toNat)
  else if 'a' ≤ c ∧ c ≤ 'z' then some (c.toNat - 'a'.toNat + 26)
  else if '0' ≤ c ∧ c ≤ '9' then some (c.toNat - '0'.toNat + 52)
  else if c = '-' ∨ c = '+' then some 62
  else if c = '_' ∨ c = '/' then some 63
  else none

/-- `binascii.a2b_base64` behind `quadPos` digits of a group of four: `leftchar` holds the bits
of the last digit no byte has taken and `pads` counts the padding since.  Characters of
neither kind are skipped, and what follows a complete padding is not read. -/
def a2bBase64 (quadPos leftchar pads : ℕ) : List Char → Option (List UInt8)
  | [] => if quadPos = 0 then some [] else none
  | c :: rest =>
      if c = '=' then
        if 2 ≤ quadPos then
          if 4 ≤ quadPos + (pads + 1) then some []
          else a2bBase64 quadPos leftchar (pads + 1) rest
        else a2bBase64 quadPos leftchar pads rest
      else match base64Value c with
        | none => a2bBase64 quadPos leftchar pads rest
        | some d =>
            match quadPos with
            | 0 => a2bBase64 1 d 0 rest
            | 1 => (a2bBase64 2 (d % 16) 0 rest).map (UInt8.ofNat (leftchar * 4 + d / 16) :: ·)
            | 2 => (a2bBase64 3 (d % 4) 0 rest).map (UInt8.ofNat (leftchar * 16 + d / 4) :: ·)
            | _ => (a2bBase64 0 0 0 rest).map (UInt8.ofNat (leftchar * 64 + d) :: ·)

/-- `base64.urlsafe_b64decode` of a text; `none` is the `ValueError`. -/
def urlsafeB64decode (s : List Char) : Option (List UInt8) :=
  if s.all fun c ↦ c.toNat < 128 then a2bBase64 0 0 0 s else none

/-- The padding of a text of `n` digits. -/
def padding (n : ℕ) : List Char := List.replicate (-(n : ℤ) % 4).toNat '='

theorem padding_add_four (n : ℕ) : padding (n + 4) = padding n := by
  have h : (-((n + 4 : ℕ) : ℤ)) % 4 = -(n : ℤ) % 4 := by omega
  rw [padding, h, padding]

theorem base64Char_isDigit {d : ℕ} (hd : d < 64) : base64Char d ≠ '=' ∧
    base64Value (base64Char d) = some d ∧ (base64Char d).toNat < 128 := by
  have hall : ∀ d < 64, base64Char d ≠ '=' ∧ base64Value (base64Char d) = some d ∧
      (base64Char d).toNat < 128 := by decide
  exact hall d hd

section Digit

variable {d leftchar pads : ℕ} {rest : List Char}

theorem a2bBase64_first (hd : d < 64) :
    a2bBase64 0 leftchar pads (base64Char d :: rest) = a2bBase64 1 d 0 rest := by
  obtain ⟨hpad, hvalue, -⟩ := base64Char_isDigit hd
  simp only [a2bBase64, hpad, hvalue, if_false]

theorem a2bBase64_second (hd : d < 64) :
    a2bBase64 1 leftchar pads (base64Char d :: rest) =
    (a2bBase64 2 (d % 16) 0 rest).map (UInt8.ofNat (leftchar * 4 + d / 16) :: ·) := by
  obtain ⟨hpad, hvalue, -⟩ := base64Char_isDigit hd
  simp only [a2bBase64, hpad, hvalue, if_false]

theorem a2bBase64_third (hd : d < 64) :
    a2bBase64 2 leftchar pads (base64Char d :: rest) =
    (a2bBase64 3 (d % 4) 0 rest).map (UInt8.ofNat (leftchar * 16 + d / 4) :: ·) := by
  obtain ⟨hpad, hvalue, -⟩ := base64Char_isDigit hd
  simp only [a2bBase64, hpad, hvalue, if_false]

theorem a2bBase64_fourth (hd : d < 64) :
    a2bBase64 3 leftchar pads (base64Char d :: rest) =
    (a2bBase64 0 0 0 rest).map (UInt8.ofNat (leftchar * 64 + d) :: ·) := by
  obtain ⟨hpad, hvalue, -⟩ := base64Char_isDigit hd
  simp only [a2bBase64, hpad, hvalue, if_false]

end Digit

/-- A byte from its high and low bits. -/
theorem byte_eq {a : UInt8} {n : ℕ} (h : n = a.toNat) : UInt8.ofNat n = a := by
  rw [h, UInt8.ofNat_toNat]

/-- Read behind its padding, the text of the bytes gives the bytes back. -/
theorem a2bBase64_urlsafeBase64 (bytes : List UInt8) (pads : ℕ) :
    a2bBase64 0 0 pads (urlsafeBase64 bytes ++ padding (urlsafeBase64 bytes).length) =
      some bytes := by
  induction bytes using base64Digits.induct generalizing pads with
  | case1 => rfl
  | case2 a =>
      have ha := a.toNat_lt
      have hpadding : padding 2 = ['=', '='] := by decide
      simp only [urlsafeBase64, base64Digits, List.map_cons, List.map_nil, List.length_cons,
        List.length_nil, List.cons_append, List.nil_append, Nat.zero_add, Nat.reduceAdd]
      rw [a2bBase64_first (by omega), a2bBase64_second (by omega), hpadding]
      simp only [a2bBase64]
      simp only [ite_true, Nat.reduceLeDiff, Nat.reduceAdd, if_false, Option.map_some]
      rw [byte_eq (a := a) (by omega)]
  | case3 a b =>
      have ha := a.toNat_lt
      have hb := b.toNat_lt
      have hpadding : padding 3 = ['='] := by decide
      simp only [urlsafeBase64, base64Digits, List.map_cons, List.map_nil, List.length_cons,
        List.length_nil, List.cons_append, List.nil_append, Nat.zero_add, Nat.reduceAdd]
      rw [a2bBase64_first (by omega), a2bBase64_second (by omega), a2bBase64_third (by omega),
        hpadding]
      simp only [a2bBase64, ite_true, Nat.reduceLeDiff, Nat.reduceAdd, Option.map_some]
      rw [byte_eq (a := a) (by omega), byte_eq (a := b) (by omega)]
  | case4 a b c rest ih =>
      have ha := a.toNat_lt
      have hb := b.toNat_lt
      have hc := c.toNat_lt
      have hcut : urlsafeBase64 (a :: b :: c :: rest) = base64Char (a.toNat / 4) ::
          base64Char (a.toNat % 4 * 16 + b.toNat / 16) ::
          base64Char (b.toNat % 16 * 4 + c.toNat / 64) :: base64Char (c.toNat % 64) ::
          urlsafeBase64 rest := rfl
      rw [hcut]
      simp only [List.length_cons, List.cons_append]
      rw [a2bBase64_first (by omega), a2bBase64_second (by omega), a2bBase64_third (by omega),
        a2bBase64_fourth (by omega), padding_add_four, ih 0]
      simp only [Option.map_some]
      rw [byte_eq (a := a) (by omega), byte_eq (a := b) (by omega), byte_eq (a := c) (by omega)]

theorem urlsafeB64decode_urlsafeBase64 (bytes : List UInt8) :
    urlsafeB64decode (urlsafeBase64 bytes ++ padding (urlsafeBase64 bytes).length) =
      some bytes := by
  have hascii : ∀ c ∈ urlsafeBase64 bytes ++ padding (urlsafeBase64 bytes).length,
      c.toNat < 128 := by
    intro c hc
    rcases List.mem_append.mp hc with hc | hc
    · obtain ⟨d, hd, rfl⟩ := List.mem_map.mp hc
      exact (base64Char_isDigit (base64Digits_lt bytes d hd)).2.2
    · rw [(List.mem_replicate.mp hc).2]
      decide
  rw [urlsafeB64decode, if_pos (List.all_eq_true.mpr fun c hc ↦ decide_eq_true (hascii c hc)),
    a2bBase64_urlsafeBase64]

end S3mp.Encoding
