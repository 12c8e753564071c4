import Mathlib.Data.List.Sort
import Mathlib.Order.Basic

/-!
# Passes over the oldest of a queue

A pass looks at a bounded number of those who wait, the oldest ones, and takes out
those it can serve.  Who is looked at is decided by how many older ones wait.  One
who is never looked at has `limit` others in front which no pass takes out.
-/

namespace Transition

variable {κ ρ : Type} [LinearOrder ρ]

/-- The oldest `limit` of those who wait. -/
def oldest (rank : κ → ρ) (limit : ℕ) (waiting : List κ) : List κ :=
  (waiting.mergeSort fun a b ↦ rank a ≤ rank b).take limit

/-- Those who wait and are older than `a`. -/
def olderThan (rank : κ → ρ) (a : κ) (waiting : List κ) : List κ :=
  waiting.filter fun b ↦ rank b < rank a

variable {rank : κ → ρ} {limit : ℕ} {waiting : List κ} {a b : κ}

theorem mem_of_mem_oldest (h : a ∈ oldest rank limit waiting) : a ∈ waiting :=
  List.mem_mergeSort.mp (List.mem_of_mem_take h)

theorem mem_olderThan : b ∈ olderThan rank a waiting ↔ b ∈ waiting ∧ rank b < rank a := by
  simp [olderThan]

theorem pairwise_mergeSort_rank (rank : κ → ρ) (waiting : List κ) :
    (waiting.mergeSort fun a b ↦ rank a ≤ rank b).Pairwise fun a b ↦ rank a ≤ rank b := by
  have htrans : ∀ a b c : κ, decide (rank a ≤ rank b) = true → decide (rank b ≤ rank c) = true →
      decide (rank a ≤ rank c) = true := by
    intro a b c hab hbc
    simp only [decide_eq_true_eq] at hab hbc ⊢
    exact hab.trans hbc
  have htotal : ∀ a b : κ, (decide (rank a ≤ rank b) || decide (rank b ≤ rank a)) = true :=
    fun a b ↦ by simpa using le_total (rank a) (rank b)
  have hsorted := List.pairwise_mergeSort htrans htotal waiting
  exact hsorted.imp fun h ↦ by simpa using h

/-- One who waits is looked at exactly when fewer than `limit` older ones wait. -/
theorem mem_oldest_iff (hrank : Function.Injective rank) (hnodup : waiting.Nodup)
    (ha : a ∈ waiting) :
    a ∈ oldest rank limit waiting ↔ (olderThan rank a waiting).length < limit := by
  have hperm := List.mergeSort_perm waiting fun a b ↦ decide (rank a ≤ rank b)
  have hsorted := pairwise_mergeSort_rank rank waiting
  have hnodup' := hperm.nodup_iff.mpr hnodup
  obtain ⟨pre, post, hsplit⟩ := List.append_of_mem (hperm.mem_iff.mpr ha)
  rw [hsplit] at hsorted hnodup'
  obtain ⟨-, hcons, hcross⟩ := List.pairwise_append.mp hsorted
  have hlater : ∀ b ∈ post, ¬ rank b < rank a :=
    fun b hb ↦ not_lt.mpr ((List.pairwise_cons.mp hcons).1 b hb)
  have hnotmem : a ∉ pre := fun hmem ↦
    (List.nodup_append.mp hnodup').2.2 a hmem a List.mem_cons_self rfl
  have hearlier : ∀ b ∈ pre, rank b < rank a := by
    intro b hb
    have hle := hcross b hb a List.mem_cons_self
    exact lt_of_le_of_ne hle fun heq ↦ hnotmem (hrank heq ▸ hb)
  -- In the sorted list the older ones are what stands before `a`.
  have holder : (olderThan rank a waiting).length = pre.length := by
    have hfilter : (olderThan rank a (pre ++ a :: post)).length = pre.length := by
      unfold olderThan
      rw [List.filter_append, List.filter_eq_self.mpr (by simpa using hearlier),
        List.filter_eq_nil_iff.mpr, List.append_nil]
      intro b hb
      rcases List.mem_cons.mp hb with rfl | hb
      · simp
      · simpa using hlater b hb
    rw [← hfilter, ← hsplit]
    exact ((hperm.filter _).length_eq).symm
  rw [holder, oldest, hsplit, List.take_append]
  constructor
  · intro hmem
    rcases List.mem_append.mp hmem with hmem | hmem
    · exact absurd (List.mem_of_mem_take hmem) hnotmem
    · by_contra hle
      rw [Nat.sub_eq_zero_of_le (not_lt.mp hle)] at hmem
      simp at hmem
  · intro hlt
    refine List.mem_append_right _ ?_
    obtain ⟨k, hk⟩ := Nat.exists_eq_add_of_lt hlt
    rw [hk, Nat.add_assoc, Nat.add_sub_cancel_left]
    exact List.mem_cons_self

/-- Whoever is looked at in place of `a` is older, and there are `limit` of them. -/
theorem oldest_subset_olderThan (hrank : Function.Injective rank) (hnodup : waiting.Nodup)
    (ha : a ∈ waiting) (hnot : a ∉ oldest rank limit waiting)
    (hb : b ∈ oldest rank limit waiting) : b ∈ olderThan rank a waiting := by
  have hbw := mem_of_mem_oldest hb
  refine mem_olderThan.mpr ⟨hbw, not_le.mp fun hle ↦ hnot ?_⟩
  refine (mem_oldest_iff hrank hnodup ha).mpr (lt_of_le_of_lt (List.Sublist.length_le ?_)
    ((mem_oldest_iff hrank hnodup hbw).mp hb))
  refine List.monotone_filter_right waiting fun c hc ↦ ?_
  simp only [decide_eq_true_eq] at hc ⊢
  exact hc.trans_le hle

theorem length_oldest (h : limit ≤ waiting.length) : (oldest rank limit waiting).length = limit := by
  rw [oldest, List.length_take, List.length_mergeSort]
  exact min_eq_left h

theorem nodup_oldest (hnodup : waiting.Nodup) : (oldest rank limit waiting).Nodup :=
  ((List.mergeSort_perm waiting _).nodup_iff.mpr hnodup).sublist (List.take_sublist _ _)

end Transition
