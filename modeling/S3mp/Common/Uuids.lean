import S3mp.Common.Basic
import S3mp.Encoding.Hex

/-!
# Identifiers as text

The text of a UUID has 36 characters, none of which is a slash, and tells which
UUID it is.
-/

namespace S3mp

open Encoding

/-- `str(uuid)`: at least 32 hexadecimal digits, with hyphens between them. -/
def uuidText (id : Uuid) : String :=
  let hex := (Nat.toDigits 16 id).leftpad 32 '0'
  String.ofList (hex.take 8 ++ '-' :: (hex.drop 8).take 4 ++ '-' :: (hex.drop 12).take 4 ++
    '-' :: (hex.drop 16).take 4 ++ '-' :: hex.drop 20)

example : uuidText 0xd9428888122b11e1b85c61cd3cbb3210 = "d9428888-122b-11e1-b85c-61cd3cbb3210" := by
  decide

theorem length_uuidText {id : Uuid} (h : id < 2 ^ 128) : (uuidText id).length = 36 := by
  have hdigits : (Nat.toDigits 16 id).length ≤ 32 :=
    (Nat.length_toDigits_le_iff (by decide) (by decide)).mpr (by omega)
  have hhex : ((Nat.toDigits 16 id).leftpad 32 '0').length = 32 := by
    rw [List.length_leftpad]
    omega
  rw [uuidText, String.length_ofList]
  simp only [List.length_append, List.length_cons, List.length_take, List.length_drop, hhex]
  decide

theorem mem_uuidText {id : Uuid} {c : Char} (h : c ∈ (uuidText id).toList) :
    c = '-' ∨ ∃ d < 16, c = d.digitChar := by
  rw [uuidText, String.toList_ofList] at h
  simp only [List.mem_append, List.mem_cons] at h
  rcases h with ((((h | h | h) | h | h) | h | h) | h | h)
  · exact Or.inr (mem_leftpad_toDigits (List.mem_of_mem_take h))
  · exact Or.inl h
  · exact Or.inr (mem_leftpad_toDigits (List.mem_of_mem_drop (List.mem_of_mem_take h)))
  · exact Or.inl h
  · exact Or.inr (mem_leftpad_toDigits (List.mem_of_mem_drop (List.mem_of_mem_take h)))
  · exact Or.inl h
  · exact Or.inr (mem_leftpad_toDigits (List.mem_of_mem_drop (List.mem_of_mem_take h)))
  · exact Or.inl h
  · exact Or.inr (mem_leftpad_toDigits (List.mem_of_mem_drop h))

theorem slash_not_mem_uuidText (id : Uuid) : '/' ∉ (uuidText id).toList := by
  intro hmem
  rcases mem_uuidText hmem with h | ⟨d, hd, h⟩
  · revert h
    decide
  · interval_cases d <;> revert h <;> decide

/-- Without its hyphens the text is the hexadecimal numeral again. -/
theorem filter_uuidText (id : Uuid) :
    (uuidText id).toList.filter (· != '-') = (Nat.toDigits 16 id).leftpad 32 '0' := by
  have hself : ∀ part : List Char, (∀ c ∈ part, c ∈ (Nat.toDigits 16 id).leftpad 32 '0') →
      part.filter (· != '-') = part := by
    refine fun part hpart ↦ List.filter_eq_self.mpr fun c hc ↦ ?_
    obtain ⟨d, hd, rfl⟩ := mem_leftpad_toDigits (hpart c hc)
    interval_cases d <;> decide
  have hparts : ∀ hex : List Char, hex.take 8 ++ (hex.drop 8).take 4 ++ (hex.drop 12).take 4 ++
      (hex.drop 16).take 4 ++ hex.drop 20 = hex := by
    intro hex
    rw [← List.take_add, ← List.take_add, ← List.take_add, List.take_append_drop]
  rw [uuidText, String.toList_ofList]
  simp only [List.filter_append, List.filter_cons, bne_self_eq_false, Bool.false_eq_true,
    if_false]
  rw [hself _ fun _ ↦ List.mem_of_mem_take,
    hself _ fun _ h ↦ List.mem_of_mem_drop (List.mem_of_mem_take h),
    hself _ fun _ h ↦ List.mem_of_mem_drop (List.mem_of_mem_take h),
    hself _ fun _ h ↦ List.mem_of_mem_drop (List.mem_of_mem_take h),
    hself _ fun _ ↦ List.mem_of_mem_drop, hparts]

theorem uuidText_injective {a b : Uuid} (h : uuidText a = uuidText b) : a = b := by
  rw [← numeralValue_leftpad 32 a, ← filter_uuidText, h, filter_uuidText, numeralValue_leftpad]

end S3mp
