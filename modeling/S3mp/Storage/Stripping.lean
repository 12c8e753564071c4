import S3mp.Storage.Checksum
import Mathlib.Data.List.DropRight

/-!
# Stripped text

`str.strip()` takes the white space off both ends and keeps what stands between.
-/

namespace S3mp.Storage

variable {s : List Char}

theorem filter_dropWhile_space (s : List Char) :
    (s.dropWhile isPySpace).filter (!isPySpace ·) = s.filter (!isPySpace ·) := by
  induction s with
  | nil => rfl
  | cons c s ih =>
      by_cases hc : isPySpace c = true
      · rw [List.dropWhile_cons_of_pos hc, ih, List.filter_cons_of_neg (by simp [hc])]
      · rw [List.dropWhile_cons_of_neg hc]

/-- Only white space is taken off. -/
theorem filter_strip (s : List Char) :
    (strip s).filter (!isPySpace ·) = s.filter (!isPySpace ·) := by
  rw [strip, List.filter_reverse, filter_dropWhile_space, List.filter_reverse, List.reverse_reverse,
    filter_dropWhile_space]

theorem isInfix_strip (s : List Char) : strip s <:+: s :=
  (List.rdropWhile_prefix isPySpace _).isInfix.trans (List.dropWhile_suffix isPySpace).isInfix

theorem length_strip_le (s : List Char) : (strip s).length ≤ s.length :=
  (isInfix_strip s).length_le

theorem getLast?_strip {c : Char} (h : c ∈ (strip s).getLast?) : isPySpace c = false := by
  obtain ⟨hne, hlast⟩ := List.mem_getLast?_eq_getLast h
  have hkept := List.rdropWhile_last_not isPySpace (s.dropWhile isPySpace) hne
  rw [hlast]
  exact Bool.eq_false_iff.mpr hkept

theorem head?_strip {c : Char} (h : c ∈ (strip s).head?) : isPySpace c = false := by
  have hfront : (s.dropWhile isPySpace).head? = some c := by
    obtain ⟨rest, hrest⟩ : strip s <+: s.dropWhile isPySpace := List.rdropWhile_prefix isPySpace _
    rw [← hrest]
    exact List.mem_head?_append_of_mem_head? h
  have hkept := List.head?_dropWhile_not isPySpace s
  rw [hfront] at hkept
  exact hkept

theorem strip_eq_self (hhead : ∀ c ∈ s.head?, isPySpace c = false)
    (hlast : ∀ c ∈ s.getLast?, isPySpace c = false) : strip s = s := by
  have hfront : s.dropWhile isPySpace = s := by
    cases s with
    | nil => rfl
    | cons c s => exact List.dropWhile_cons_of_neg (by simp [hhead c rfl])
  change (s.dropWhile isPySpace).rdropWhile isPySpace = s
  rw [hfront, List.rdropWhile_eq_self_iff]
  intro hne
  simp [hlast _ (List.getLast?_eq_some_getLast hne)]

theorem strip_eq_self_iff :
    strip s = s ↔ (∀ c ∈ s.head?, isPySpace c = false) ∧
      ∀ c ∈ s.getLast?, isPySpace c = false := by
  constructor
  · intro h
    rw [← h]
    exact ⟨fun c ↦ head?_strip, fun c ↦ getLast?_strip⟩
  · rintro ⟨hhead, hlast⟩
    exact strip_eq_self hhead hlast

theorem strip_strip (s : List Char) : strip (strip s) = strip s :=
  strip_eq_self (fun _ ↦ head?_strip) fun _ ↦ getLast?_strip

end S3mp.Storage
