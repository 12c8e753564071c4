import Mathlib.Algebra.Group.Nat.Defs
import Mathlib.Data.List.Basic
import Mathlib.Data.Nat.Notation

/-!
# Codes which can be read off the front of a text

A text made by writing code words one after the other determines the words when
no code word is a proper beginning of another.  Some codes have this only where
the rest of the text starts with a delimiter; the predicate on the rest carries
this.
-/

namespace S3mp.Encoding

variable {α β γ : Type}

/-- Whatever follows, if it is delimited, the code word of `a` is read back as `a`. -/
def ReadsBack (delimited : List γ → Prop) (enc : α → List γ) (a : α) : Prop :=
  ∀ ⦃b : α⦄ ⦃r s : List γ⦄, delimited r → delimited s → enc a ++ r = enc b ++ s → a = b ∧ r = s

def PrefixFree (enc : α → List γ) : Prop :=
  ∀ a, ReadsBack (fun _ ↦ True) enc a

/-- Reading with the rest returned is the usual way to see that a code is prefix free. -/
theorem PrefixFree.of_reader {enc : α → List γ} (read : List γ → Option (α × List γ))
    (hread : ∀ a r, read (enc a ++ r) = some (a, r)) : PrefixFree enc := by
  intro a b r s _ _ h
  have heq : some (a, r) = some (b, s) := by rw [← hread a r, h, hread b s]
  exact Prod.mk.inj (Option.some.inj heq)

/-- A word of one code after a word of another. -/
theorem ReadsBack.pair {delimited : List γ → Prop} {first : α → List γ} {second : β → List γ}
    {a : α} {b : β} (hfirst : ReadsBack (fun _ ↦ True) first a)
    (hsecond : ReadsBack delimited second b) :
    ReadsBack delimited (fun p : α × β ↦ first p.1 ++ second p.2) (a, b) := by
  rintro ⟨a', b'⟩ r s hr hs h
  simp only [List.append_assoc] at h
  obtain ⟨rfl, htail⟩ := hfirst trivial trivial h
  obtain ⟨rfl, hrest⟩ := hsecond hr hs htail
  exact ⟨rfl, hrest⟩

/-! ## Sequences -/

/-- Words of a prefix-free code up to a mark no word begins with. -/
theorem PrefixFree.flatMap_mark {enc : α → List γ} {mark : γ} (henc : PrefixFree enc)
    (hmark : ∀ a r, (enc a ++ r).head? ≠ some mark) :
    PrefixFree fun l : List α ↦ l.flatMap enc ++ [mark] := by
  intro l
  induction l with
  | nil =>
      intro l' r s _ _ h
      cases l' with
      | nil => simpa using h
      | cons b l' =>
          refine absurd ?_ (hmark b (l'.flatMap enc ++ [mark] ++ s))
          have hhead := congrArg List.head? h
          simpa using hhead.symm
  | cons a l ih =>
      intro l' r s _ _ h
      cases l' with
      | nil =>
          refine absurd ?_ (hmark a (l.flatMap enc ++ [mark] ++ r))
          have hhead := congrArg List.head? h
          simpa using hhead
      | cons b l' =>
          simp only [List.flatMap_cons, List.append_assoc] at h
          obtain ⟨rfl, htail⟩ := henc a trivial trivial h
          obtain ⟨rfl, hrest⟩ := ih trivial trivial (by simpa using htail)
          exact ⟨rfl, hrest⟩

/-- The words after the first one, each behind the separator. -/
def separated (separator : γ) (words : List (List γ)) : List γ :=
  words.flatMap (separator :: ·)

/-- The words with the separator between them. -/
def joined (separator : γ) : List (List γ) → List γ
  | [] => []
  | word :: words => word ++ separated separator words

section Joined

variable {separator mark : γ} {enc : α → List γ} {delimited : List γ → Prop}
  (hseparator : ∀ r, delimited (separator :: r)) (hmark : ∀ r, delimited (mark :: r))
  (hne : separator ≠ mark)
include hseparator hmark hne

omit hne in
theorem delimited_separated (words : List (List γ)) (r : List γ) :
    delimited (separated separator words ++ mark :: r) := by
  cases words with
  | nil => exact hmark r
  | cons word words => exact hseparator _

theorem separated_inj {l l' : List α} {r s : List γ}
    (henc : ∀ a ∈ l, ReadsBack delimited enc a)
    (h : separated separator (l.map enc) ++ mark :: r =
      separated separator (l'.map enc) ++ mark :: s) : l = l' ∧ r = s := by
  induction l generalizing l' with
  | nil =>
      cases l' with
      | nil => simpa [separated] using h
      | cons b l' => exact absurd (List.cons.inj h).1.symm hne
  | cons a l ih =>
      cases l' with
      | nil => exact absurd (List.cons.inj h).1 hne
      | cons b l' =>
          have htail : enc a ++ (separated separator (l.map enc) ++ mark :: r) =
              enc b ++ (separated separator (l'.map enc) ++ mark :: s) := by
            simpa [separated] using h
          obtain ⟨rfl, hrest⟩ := henc a List.mem_cons_self
            (delimited_separated hseparator hmark _ r)
            (delimited_separated hseparator hmark _ s) htail
          obtain ⟨rfl, hrs⟩ := ih (fun b hb ↦ henc b (List.mem_cons_of_mem _ hb)) hrest
          exact ⟨rfl, hrs⟩

/-- Words which are only read back before a delimiter, with separators between them and a
mark, which begins no word, at the end. -/
theorem joined_inj {l l' : List α} {r s : List γ} (hfirst : ∀ a r, (enc a ++ r).head? ≠ some mark)
    (henc : ∀ a ∈ l, ReadsBack delimited enc a)
    (h : joined separator (l.map enc) ++ mark :: r = joined separator (l'.map enc) ++ mark :: s) :
    l = l' ∧ r = s := by
  cases l with
  | nil =>
      cases l' with
      | nil => simpa [joined] using h
      | cons b l' =>
          refine absurd ?_ (hfirst b (separated separator (l'.map enc) ++ mark :: s))
          have hhead := congrArg List.head? h
          simpa [joined] using hhead.symm
  | cons a l =>
      cases l' with
      | nil =>
          refine absurd ?_ (hfirst a (separated separator (l.map enc) ++ mark :: r))
          have hhead := congrArg List.head? h
          simpa [joined] using hhead
      | cons b l' =>
          simp only [List.map_cons, joined, List.append_assoc] at h
          obtain ⟨rfl, htail⟩ := henc a List.mem_cons_self
            (delimited_separated hseparator hmark _ r)
            (delimited_separated hseparator hmark _ s) h
          obtain ⟨rfl, hrest⟩ := separated_inj hseparator hmark hne
            (fun b hb ↦ henc b (List.mem_cons_of_mem _ hb)) htail
          exact ⟨rfl, hrest⟩

end Joined

/-! ## Length prefixes -/

/-- `int.to_bytes(width, "big")` of a number which fits. -/
def bytesBE : ℕ → ℕ → List UInt8
  | 0, _ => []
  | width + 1, n => bytesBE width (n / 256) ++ [UInt8.ofNat (n % 256)]

/-- `int.to_bytes` raises `OverflowError` on a number which does not fit. -/
def toBytesBE (width n : ℕ) : Except String (List UInt8) :=
  if n < 256 ^ width then .ok (bytesBE width n) else .error "int too big to convert"

@[simp] theorem length_bytesBE (width n : ℕ) : (bytesBE width n).length = width := by
  induction width generalizing n with
  | zero => rfl
  | succ width ih => simp [bytesBE, ih]

theorem bytesBE_inj {width m n : ℕ} (hm : m < 256 ^ width) (hn : n < 256 ^ width)
    (h : bytesBE width m = bytesBE width n) : m = n := by
  induction width generalizing m n with
  | zero => omega
  | succ width ih =>
      rw [Nat.pow_succ] at hm hn
      obtain ⟨hhigh, hlow⟩ := List.append_inj' h rfl
      have hdiv : m / 256 = n / 256 := ih (by omega) (by omega) hhigh
      have hmod : m % 256 = n % 256 := by
        have := congrArg UInt8.toNat (List.singleton_inj.mp hlow)
        simpa using this
      omega

def lengthPrefixed (width : ℕ) (item : List UInt8) : Except String (List UInt8) := do
  let length ← toBytesBE width item.length
  return length ++ item

theorem lengthPrefixed_eq_ok {width : ℕ} {item word : List UInt8} :
    lengthPrefixed width item = .ok word ↔
      item.length < 256 ^ width ∧ bytesBE width item.length ++ item = word := by
  unfold lengthPrefixed toBytesBE
  split
  · rename_i hfits
    constructor
    · intro h
      exact ⟨hfits, Except.ok.inj h⟩
    · rintro ⟨-, hword⟩
      exact congrArg Except.ok hword
  · rename_i hbig
    constructor
    · intro h
      cases h
    · rintro ⟨hfits, -⟩
      exact absurd hfits hbig

/-- The items one after the other, each behind its length. -/
def lengthPrefixedAll (width : ℕ) : List (List UInt8) → Except String (List UInt8)
  | [] => .ok []
  | item :: items => do
      let word ← lengthPrefixed width item
      let rest ← lengthPrefixedAll width items
      return word ++ rest

theorem lengthPrefixedAll_cons_eq_ok {width : ℕ} {item : List UInt8} {items : List (List UInt8)}
    {text : List UInt8} :
    lengthPrefixedAll width (item :: items) = .ok text ↔
      item.length < 256 ^ width ∧ ∃ rest, lengthPrefixedAll width items = .ok rest ∧
        bytesBE width item.length ++ (item ++ rest) = text := by
  constructor
  · intro h
    cases hword : lengthPrefixed width item with
    | error e =>
        simp only [lengthPrefixedAll, hword] at h
        cases h
    | ok word =>
        obtain ⟨hfits, hword'⟩ := lengthPrefixed_eq_ok.mp hword
        cases hrest : lengthPrefixedAll width items with
        | error e =>
            simp only [lengthPrefixedAll, hword, hrest] at h
            cases h
        | ok rest =>
            simp only [lengthPrefixedAll, hword, hrest] at h
            refine ⟨hfits, rest, rfl, ?_⟩
            rw [← List.append_assoc, hword']
            exact Except.ok.inj h
  · rintro ⟨hfits, rest, hrest, htext⟩
    have hword := lengthPrefixed_eq_ok.mpr ⟨hfits, rfl⟩
    simp only [lengthPrefixedAll, hword, hrest]
    rw [← htext, ← List.append_assoc]
    rfl

/-- Length prefixes leave no ambiguity, whatever the items contain. -/
theorem lengthPrefixedAll_inj {width : ℕ} (hwidth : 0 < width) {items items' : List (List UInt8)}
    {text : List UInt8} (h : lengthPrefixedAll width items = .ok text)
    (h' : lengthPrefixedAll width items' = .ok text) : items = items' := by
  have hnonempty : ∀ {n : ℕ} {rest : List UInt8}, bytesBE width n ++ rest ≠ [] := by
    intro n rest hnil
    have hlength := congrArg List.length hnil
    simp only [List.length_append, length_bytesBE, List.length_nil] at hlength
    omega
  induction items generalizing items' text with
  | nil =>
      obtain rfl := Except.ok.inj h
      cases items' with
      | nil => rfl
      | cons item' items' =>
          obtain ⟨-, rest, -, htext⟩ := lengthPrefixedAll_cons_eq_ok.mp h'
          exact absurd htext hnonempty
  | cons item items ih =>
      obtain ⟨hfits, rest, hrest, htext⟩ := lengthPrefixedAll_cons_eq_ok.mp h
      cases items' with
      | nil => exact absurd (htext.trans (Except.ok.inj h').symm) hnonempty
      | cons item' items' =>
          obtain ⟨hfits', rest', hrest', htext'⟩ := lengthPrefixedAll_cons_eq_ok.mp h'
          obtain ⟨hlength, htail⟩ := List.append_inj (htext.trans htext'.symm) (by simp)
          have hlength := bytesBE_inj hfits hfits' hlength
          obtain ⟨rfl, rfl⟩ := List.append_inj htail hlength
          rw [ih hrest hrest']

end S3mp.Encoding
