import S3mp.Encoding.PrefixCode
import Mathlib.Data.List.Sort
import Mathlib.Data.String.Basic

/-!
# Canonical JSON

The text `json.dumps(value, ensure_ascii=False, sort_keys=True,
separators=(",", ":"))` of a JSON value.  Sorting the members makes the text a
function of the value, and the text gives the sorted value back.
-/

namespace S3mp.Encoding

def isNumberChar (c : Char) : Bool :=
  c.isDigit || c == '-' || c == '+' || c == '.' || c == 'e' || c == 'E'

/-- The text of a finite number. -/
structure NumberText where
  chars : List Char
  nonempty : chars ≠ []
  numeric : chars.all isNumberChar = true
  deriving DecidableEq

theorem NumberText.ext_chars {m n : NumberText} (h : m.chars = n.chars) : m = n := by
  cases m
  cases n
  cases h
  rfl

inductive Json where
  | null
  | bool (b : Bool)
  | number (n : NumberText)
  | string (s : String)
  | array (items : List Json)
  | object (members : List (String × Json))

/-! ## Strings -/

/-- The lower-case hexadecimal digit of a number below 16. -/
def hexDigit (n : ℕ) : Char :=
  if n < 10 then Char.ofNat ('0'.toNat + n) else Char.ofNat ('a'.toNat + (n - 10))

def hexValue (c : Char) : ℕ :=
  if c.isDigit then c.toNat - '0'.toNat else c.toNat - 'a'.toNat + 10

theorem hexValue_hexDigit {n : ℕ} (hn : n < 16) : hexValue (hexDigit n) = n := by
  have hall : ∀ n < 16, hexValue (hexDigit n) = n := by decide
  exact hall n hn

/-- The table `ESCAPE_DCT`; other control characters become a hexadecimal escape. -/
def escapeChar (c : Char) : List Char :=
  if c = '\\' then ['\\', '\\']
  else if c = '"' then ['\\', '"']
  else if c = '\x08' then ['\\', 'b']
  else if c = '\x0c' then ['\\', 'f']
  else if c = '\n' then ['\\', 'n']
  else if c = '\r' then ['\\', 'r']
  else if c = '\t' then ['\\', 't']
  else if c.toNat < 0x20 then
    ['\\', 'u', '0', '0', hexDigit (c.toNat / 16), hexDigit (c.toNat % 16)]
  else [c]

/-- Reads one character of a quoted string. -/
def readChar : List Char → Option (Char × List Char)
  | '\\' :: '\\' :: r => some ('\\', r)
  | '\\' :: '"' :: r => some ('"', r)
  | '\\' :: 'b' :: r => some ('\x08', r)
  | '\\' :: 'f' :: r => some ('\x0c', r)
  | '\\' :: 'n' :: r => some ('\n', r)
  | '\\' :: 'r' :: r => some ('\r', r)
  | '\\' :: 't' :: r => some ('\t', r)
  | '\\' :: 'u' :: _ :: _ :: high :: low :: r =>
      some (Char.ofNat (16 * hexValue high + hexValue low), r)
  | '\\' :: _ => none
  | c :: r => some (c, r)
  | [] => none

theorem readChar_escapeChar (c : Char) (r : List Char) :
    readChar (escapeChar c ++ r) = some (c, r) := by
  unfold escapeChar
  split
  · simp_all [readChar]
  split
  · simp_all [readChar]
  split
  · simp_all [readChar]
  split
  · simp_all [readChar]
  split
  · simp_all [readChar]
  split
  · simp_all [readChar]
  split
  · simp_all [readChar]
  split
  · rename_i hcontrol
    have hc : 16 * (c.toNat / 16) + c.toNat % 16 = c.toNat := by omega
    simp only [List.cons_append, List.nil_append, readChar]
    rw [hexValue_hexDigit (by omega), hexValue_hexDigit (by omega), hc, Char.ofNat_toNat]
  · rename_i hplain _ _ _ _ _ _ _
    simp [readChar, hplain]

theorem escapeChar_head (c : Char) (r : List Char) :
    (escapeChar c ++ r).head? ≠ some '"' := by
  unfold escapeChar
  split_ifs <;> simp_all

/-- A string between quotation marks. -/
def quoted (s : String) : List Char :=
  '"' :: (s.toList.flatMap escapeChar ++ ['"'])

theorem quoted_prefixFree : PrefixFree quoted := by
  intro s t r r' hr hr' h
  have hbody := (List.cons.inj h).2
  have hmark := (PrefixFree.of_reader readChar readChar_escapeChar).flatMap_mark escapeChar_head
  obtain ⟨hchars, hrest⟩ := hmark s.toList hr hr' hbody
  exact ⟨String.toList_injective hchars, hrest⟩

/-! ## Values -/

theorem sizeOf_snd_lt {members : List (String × Json)} {m : String × Json} (hm : m ∈ members) :
    sizeOf m.2 < 1 + sizeOf members := by
  have hmember := List.sizeOf_lt_of_mem hm
  obtain ⟨key, v⟩ := m
  simp only [Prod.mk.sizeOf_spec] at hmember
  simp only
  omega

/-- The compact text of a value, the members in the order they stand in. -/
def Json.render : Json → List Char
  | .null => ['n', 'u', 'l', 'l']
  | .bool true => ['t', 'r', 'u', 'e']
  | .bool false => ['f', 'a', 'l', 's', 'e']
  | .number n => n.chars
  | .string s => quoted s
  | .array items => '[' :: (joined ',' (items.map fun v ↦ v.render) ++ [']'])
  | .object members =>
      '{' :: (joined ',' (members.map fun m ↦ quoted m.1 ++ ':' :: m.2.render) ++ ['}'])
termination_by v => sizeOf v
decreasing_by
  · have hv := List.sizeOf_lt_of_mem ‹v ∈ items›
    simp only [Json.array.sizeOf_spec]
    omega
  · simpa using sizeOf_snd_lt ‹m ∈ members›

/-- The value with the members of its objects in the order of their keys. -/
def Json.sorted : Json → Json
  | .array items => .array (items.map fun v ↦ v.sorted)
  | .object members =>
      .object ((members.map fun m ↦ (m.1, m.2.sorted)).mergeSort fun m m' ↦ m.1 ≤ m'.1)
  | v => v
termination_by v => sizeOf v
decreasing_by
  · have hv := List.sizeOf_lt_of_mem ‹v ∈ items›
    simp only [Json.array.sizeOf_spec]
    omega
  · simpa using sizeOf_snd_lt ‹m ∈ members›

/-- The order in which a mapping holds its members does not count. -/
theorem sorted_object_of_perm {members members' : List (String × Json)}
    (hperm : members.Perm members') (hkeys : (members.map Prod.fst).Nodup) :
    (Json.object members).sorted = (Json.object members').sorted := by
  have htrans : ∀ m m' m'' : String × Json, decide (m.1 ≤ m'.1) → decide (m'.1 ≤ m''.1) →
      decide (m.1 ≤ m''.1) := by
    intro m m' m'' h h'
    exact decide_eq_true (le_trans (of_decide_eq_true h) (of_decide_eq_true h'))
  have htotal : ∀ m m' : String × Json, (decide (m.1 ≤ m'.1) || decide (m'.1 ≤ m.1)) = true := by
    intro m m'
    simpa using le_total m.1 m'.1
  have hinner := hperm.map fun m ↦ (m.1, m.2.sorted)
  have hkeys' : ((members.map fun m ↦ (m.1, m.2.sorted)).map Prod.fst).Nodup := by
    simpa [Function.comp_def] using hkeys
  simp only [Json.sorted]
  congr 1
  refine List.Perm.eq_of_pairwise ?_ (List.pairwise_mergeSort htrans htotal _)
    (List.pairwise_mergeSort htrans htotal _)
    (((List.mergeSort_perm _ _).trans hinner).trans (List.mergeSort_perm _ _).symm)
  intro m m' hm hm' hle hle'
  have hkey : m.1 = m'.1 := le_antisymm (of_decide_eq_true hle) (of_decide_eq_true hle')
  refine List.inj_on_of_nodup_map hkeys' ?_ ?_ hkey
  · exact (List.mergeSort_perm _ _).mem_iff.mp hm
  · exact hinner.mem_iff.mpr ((List.mergeSort_perm _ _).mem_iff.mp hm')

def canonicalJson (v : Json) : List Char :=
  v.sorted.render

/-- What may follow a value: nothing that continues a number. -/
def EndsValue (r : List Char) : Prop :=
  ∀ c, r.head? = some c → isNumberChar c = false

theorem number_readsBack {n m : NumberText} {r s : List Char} (hr : EndsValue r)
    (hs : EndsValue s) (h : n.chars ++ r = m.chars ++ s) : n = m ∧ r = s := by
  have htake : ∀ {chars r : List Char}, chars.all isNumberChar = true → EndsValue r →
      (chars ++ r).takeWhile isNumberChar = chars := by
    intro chars r hchars hr
    rw [List.takeWhile_append_of_pos (List.all_eq_true.mp hchars)]
    cases r with
    | nil => simp
    | cons c r => simp [hr c rfl]
  have hchars : n.chars = m.chars := by
    rw [← htake n.numeric hr, h, htake m.numeric hs]
  exact ⟨NumberText.ext_chars hchars, List.append_cancel_left (hchars ▸ h)⟩

/-- The first character of a value which is not a number. -/
def Json.opening : Json → Option Char
  | .null => some 'n'
  | .bool true => some 't'
  | .bool false => some 'f'
  | .number _ => none
  | .string _ => some '"'
  | .array _ => some '['
  | .object _ => some '{'

theorem head_number (n : NumberText) (r : List Char) :
    ∃ c, (n.chars ++ r).head? = some c ∧ isNumberChar c = true := by
  obtain ⟨c, chars, hchars⟩ := List.exists_cons_of_ne_nil n.nonempty
  refine ⟨c, by rw [hchars]; rfl, ?_⟩
  exact List.all_eq_true.mp n.numeric c (by rw [hchars]; exact List.mem_cons_self)

theorem head_render (v : Json) (r : List Char) :
    ∃ c, (v.render ++ r).head? = some c ∧
      (v.opening = some c ∧ isNumberChar c = false ∨ v.opening = none ∧ isNumberChar c = true) := by
  cases v with
  | number n =>
      obtain ⟨c, hhead, hc⟩ := head_number n r
      exact ⟨c, by rw [Json.render]; exact hhead, Or.inr ⟨rfl, hc⟩⟩
  | bool b => cases b <;> exact ⟨_, by rw [Json.render]; rfl, Or.inl ⟨rfl, by decide⟩⟩
  | _ => exact ⟨_, by rw [Json.render]; rfl, Or.inl ⟨rfl, by decide⟩⟩

theorem opening_eq {v w : Json} {r s : List Char} (h : v.render ++ r = w.render ++ s) :
    v.opening = w.opening := by
  obtain ⟨c, hv, hvc⟩ := head_render v r
  obtain ⟨d, hw, hwd⟩ := head_render w s
  obtain rfl : c = d := Option.some.inj (hv.symm.trans ((congrArg List.head? h).trans hw))
  rcases hvc with ⟨hv, hc⟩ | ⟨hv, hc⟩
  · rcases hwd with ⟨hw, -⟩ | ⟨-, hc'⟩
    · rw [hv, hw]
    · rw [hc] at hc'
      cases hc'
  · rcases hwd with ⟨-, hc'⟩ | ⟨hw, -⟩
    · rw [hc] at hc'
      cases hc'
    · rw [hv, hw]

theorem head_render_ne {c : Char} (hc : isNumberChar c = false)
    (hopening : ∀ v : Json, v.opening ≠ some c) (v : Json) (r : List Char) :
    (v.render ++ r).head? ≠ some c := by
  obtain ⟨d, hhead, ⟨hd, -⟩ | ⟨-, hd⟩⟩ := head_render v r
  · rw [hhead]
    rintro heq
    exact hopening v (hd.trans heq)
  · rw [hhead]
    rintro heq
    obtain rfl := Option.some.inj heq
    rw [hc] at hd
    cases hd

theorem render_readsBack (v : Json) : ReadsBack EndsValue Json.render v := by
  have hends : ∀ {c : Char}, isNumberChar c = false → ∀ r, EndsValue (c :: r) := by
    intro c hc r d hd
    obtain rfl := Option.some.inj hd
    exact hc
  induction v using Json.render.induct with
  | case1 =>
      intro w r s hr hs h
      have hopening := opening_eq h
      rcases w with _ | (_ | _) | _ | _ | _ | _ <;> simp [Json.opening] at hopening
      exact ⟨rfl, List.append_cancel_left h⟩
  | case2 =>
      intro w r s hr hs h
      have hopening := opening_eq h
      rcases w with _ | (_ | _) | _ | _ | _ | _ <;> simp [Json.opening] at hopening
      exact ⟨rfl, List.append_cancel_left h⟩
  | case3 =>
      intro w r s hr hs h
      have hopening := opening_eq h
      rcases w with _ | (_ | _) | _ | _ | _ | _ <;> simp [Json.opening] at hopening
      exact ⟨rfl, List.append_cancel_left h⟩
  | case4 n =>
      intro w r s hr hs h
      have hopening := opening_eq h
      rcases w with _ | (_ | _) | m | _ | _ | _ <;> simp [Json.opening] at hopening
      simp only [Json.render] at h
      obtain ⟨rfl, hrest⟩ := number_readsBack hr hs h
      exact ⟨rfl, hrest⟩
  | case5 text =>
      intro w r s hr hs h
      have hopening := opening_eq h
      rcases w with _ | (_ | _) | _ | text' | _ | _ <;> simp [Json.opening] at hopening
      simp only [Json.render] at h
      obtain ⟨rfl, hrest⟩ := quoted_prefixFree text trivial trivial h
      exact ⟨rfl, hrest⟩
  | case6 items ih =>
      intro w r s hr hs h
      have hopening := opening_eq h
      rcases w with _ | (_ | _) | _ | _ | items' | _ <;> simp [Json.opening] at hopening
      simp only [Json.render, List.cons_append, List.append_assoc, List.nil_append,
        List.cons.injEq, true_and] at h
      obtain ⟨rfl, hrest⟩ := joined_inj (hends (by decide)) (hends (by decide)) (by decide)
        (head_render_ne (by decide) (by rintro (_ | (_ | _) | _ | _ | _ | _) <;> simp [Json.opening]))
        ih h
      exact ⟨rfl, hrest⟩
  | case7 members ih =>
      intro w r s hr hs h
      have hopening := opening_eq h
      rcases w with _ | (_ | _) | _ | _ | _ | members' <;> simp [Json.opening] at hopening
      simp only [Json.render, List.cons_append, List.append_assoc, List.nil_append,
        List.cons.injEq, true_and] at h
      have hmember : ∀ m ∈ members, ReadsBack EndsValue
          (fun m : String × Json ↦ quoted m.1 ++ ':' :: m.2.render) m := by
        intro m hm
        have hvalue : ReadsBack EndsValue (fun v : Json ↦ ':' :: v.render) m.2 := by
          intro w r s hr hs h
          exact ih m hm hr hs (List.cons.inj h).2
        exact (quoted_prefixFree m.1).pair hvalue
      obtain ⟨rfl, hrest⟩ := joined_inj (hends (by decide)) (hends (by decide)) (by decide)
        (fun m r ↦ by simp [quoted]) hmember h
      exact ⟨rfl, hrest⟩

/-- The canonical texts of two values are the same exactly when the values are, the order of
the members apart. -/
theorem canonicalJson_eq_iff {v w : Json} : canonicalJson v = canonicalJson w ↔
    v.sorted = w.sorted := by
  constructor
  · intro h
    have hempty : EndsValue [] := fun c hc ↦ nomatch hc
    exact (render_readsBack v.sorted hempty hempty (congrArg (· ++ []) h)).1
  · intro h
    rw [canonicalJson, h, canonicalJson]

end S3mp.Encoding
