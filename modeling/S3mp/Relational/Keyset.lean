import S3mp.Relational.Numbered

/-!
# Pages in the order of the keys

A page holds rows behind a cursor in the order of their keys, and names the cursor
behind which the next one starts.
-/

namespace AList

open Relational

variable {α : Type}

/-- `ORDER BY` the key. -/
def ordered (p : ℕ → α → Bool) (t : Table ℕ α) : List (ℕ × α) :=
  (t.select p).insertionSort fun a b ↦ a.1 ≤ b.1

def behind (cursor : Option ℕ) (k : ℕ) : Bool :=
  cursor.all (· < k)

/-- The rows which are still to be shown. -/
def remaining (p : ℕ → α → Bool) (cursor : Option ℕ) (t : Table ℕ α) : List (ℕ × α) :=
  t.ordered fun k a ↦ p k a && behind cursor k

/-- A client goes from page to page until there is none. -/
inductive Walk (fetch : Option ℕ → List (ℕ × α) × Option ℕ) : Option ℕ → List (ℕ × α) → Prop
  | last (cursor : Option ℕ) (rows : List (ℕ × α)) (h : fetch cursor = (rows, none)) :
      Walk fetch cursor rows
  | more (cursor : Option ℕ) (next : ℕ) (rows rest : List (ℕ × α))
      (h : fetch cursor = (rows, some next)) (hrest : Walk fetch (some next) rest) :
      Walk fetch cursor (rows ++ rest)

section

variable {p : ℕ → α → Bool} {cursor : Option ℕ} {t : Table ℕ α}

theorem mem_ordered {k : ℕ} {a : α} : (k, a) ∈ t.ordered p ↔ t.lookup k = some a ∧ p k a := by
  rw [ordered, List.mem_insertionSort, mem_select_iff]

theorem ordered_ascending (p : ℕ → α → Bool) (t : Table ℕ α) : Ascending (t.ordered p) := by
  have hkeys : ((t.ordered p).map Prod.fst).Nodup :=
    ((List.perm_insertionSort _ _).map Prod.fst).nodup_iff.mpr (nodup_keys_select p t)
  have : Std.Total fun a b : ℕ × α ↦ a.1 ≤ b.1 := ⟨fun a b ↦ Nat.le_total a.1 b.1⟩
  have : IsTrans (ℕ × α) fun a b ↦ a.1 ≤ b.1 := ⟨fun _ _ _ ↦ Nat.le_trans⟩
  exact ((List.pairwise_insertionSort _ _).and (List.pairwise_map.mp hkeys)).imp
    fun h ↦ lt_of_le_of_ne h.1 h.2

theorem mem_remaining {k : ℕ} {a : α} :
    (k, a) ∈ t.remaining p cursor ↔ (t.lookup k = some a ∧ p k a) ∧ behind cursor k := by
  rw [remaining, mem_ordered, Bool.and_eq_true, and_assoc]

theorem behind_trans {k m : ℕ} (h : behind cursor k) (hlt : k < m) : behind cursor m := by
  cases cursor with
  | none => rfl
  | some c => exact decide_eq_true ((of_decide_eq_true h).trans hlt)

/-- Behind a row the rows after it remain. -/
theorem remaining_behind {pre post : List (ℕ × α)} {x : ℕ × α}
    (h : t.remaining p cursor = pre ++ x :: post) : t.remaining p (some x.1) = post := by
  have hsorted : Ascending (t.remaining p cursor) := ordered_ascending _ t
  rw [h] at hsorted
  obtain ⟨-, hcons, hcross⟩ := List.pairwise_append.mp hsorted
  obtain ⟨hafter, hpost⟩ := List.pairwise_cons.mp hcons
  have hx := (mem_remaining.mp (h ▸ List.mem_append_right pre List.mem_cons_self)).2
  refine (ordered_ascending _ t).eq_of_mem_iff hpost fun e ↦ ?_
  constructor
  · intro he
    obtain ⟨hrow, hlt⟩ := mem_remaining.mp he
    have hlt : x.1 < e.1 := of_decide_eq_true hlt
    have hmem : e ∈ pre ++ x :: post := h ▸ mem_remaining.mpr ⟨hrow, behind_trans hx hlt⟩
    rcases List.mem_append.mp hmem with hpre | htail
    · exact absurd hlt (hcross e hpre x List.mem_cons_self).asymm
    · rcases List.mem_cons.mp htail with rfl | hpost
      · exact absurd hlt (lt_irrefl _)
      · exact hpost
  · intro he
    have hmem : e ∈ t.remaining p cursor :=
      h ▸ List.mem_append_right pre (List.mem_cons_of_mem x he)
    exact mem_remaining.mpr ⟨(mem_remaining.mp hmem).1, decide_eq_true (hafter e he)⟩

end

/-! ## Lists without one in so many -/

/-- The list without every `n + 1`-st of its entries. -/
def thinned (n : ℕ) (l : List α) : List α :=
  (l.zipIdx.filter fun e ↦ e.2 % (n + 1) ≠ n).map Prod.fst

example : thinned 2 [5, 6, 7, 8] = [5, 6, 8] := by decide

variable {n : ℕ} {pre post : List α} {x : α}

theorem thinned_of_length_le {l : List α} (h : l.length ≤ n) : thinned n l = l := by
  rw [thinned, List.filter_eq_self.mpr, List.zipIdx_map_fst]
  intro e hmem
  have hi := List.snd_lt_of_mem_zipIdx hmem
  rw [Nat.mod_eq_of_lt (by omega)]
  exact decide_eq_true (by omega)

theorem thinned_split (h : pre.length = n) :
    thinned n (pre ++ x :: post) = pre ++ thinned n post := by
  have hskipped : n % (n + 1) = n := Nat.mod_eq_of_lt n.lt_succ_self
  -- behind `x` the count starts anew
  have hlater : (post.zipIdx (n + 1)).filter (fun e ↦ e.2 % (n + 1) ≠ n) =
      (post.zipIdx.filter fun e ↦ e.2 % (n + 1) ≠ n).map (Prod.map id (· + (n + 1))) := by
    have hshift : post.zipIdx (n + 1) = post.zipIdx.map (Prod.map id (· + (n + 1))) :=
      (@List.map_snd_add_zipIdx_eq_zipIdx _ post (n + 1) 0).symm
    rw [hshift, List.filter_map]
    exact congrArg _ (List.filter_congr fun e _ ↦ by simp)
  have hpre := thinned_of_length_le h.le
  unfold thinned at hpre ⊢
  rw [List.zipIdx_append, List.filter_append, List.map_append, hpre, List.zipIdx_cons, h,
    zero_add, List.filter_cons_of_neg (by simp [hskipped]), hlater, List.map_map]
  rfl

theorem length_le_or_split (n : ℕ) (l : List α) :
    l.length ≤ n ∨ ∃ pre x post, pre.length = n ∧ l = pre ++ x :: post := by
  rcases Nat.lt_or_ge n l.length with hlt | hle
  · refine Or.inr ⟨l.take n, l[n], l.drop (n + 1), by rw [List.length_take]; omega, ?_⟩
    rw [List.getElem_cons_drop, List.take_append_drop]
  · exact Or.inl hle

theorem take_succ_split (h : pre.length = n) : (pre ++ x :: post).take (n + 1) = pre ++ [x] := by
  subst h
  rw [List.take_append, List.take_of_length_le (Nat.le_succ _), Nat.add_sub_cancel_left]
  rfl

end AList
