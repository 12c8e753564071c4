import S3mp.Relational.Table
import Mathlib.Data.List.Sort

/-!
# Numbered rows

The rows of a table whose keys are a name and a number, those of one name in the order of
their numbers.
-/

open List

namespace AList

open Relational

variable {κ κ' α β : Type} [DecidableEq κ] [DecidableEq κ']

/-- The numbers go up. -/
def Ascending (l : List (ℕ × α)) : Prop :=
  l.Pairwise fun a b ↦ a.1 < b.1

theorem Ascending.eq_of_mem_iff {l l' : List (ℕ × α)} (h : Ascending l) (h' : Ascending l')
    (hmem : ∀ p, p ∈ l ↔ p ∈ l') : l = l' := by
  have hnodup : ∀ {m : List (ℕ × α)}, Ascending m → m.Nodup := fun hm ↦
    hm.imp fun hlt heq ↦ absurd (congrArg Prod.fst heq) hlt.ne
  refine Perm.eq_of_pairwise (fun a b _ _ hab hba ↦ ?_) h h'
    ((perm_ext_iff_of_nodup (hnodup h) (hnodup h')).mpr hmem)
  exact absurd (hab.trans hba) (lt_irrefl _)

omit [DecidableEq κ'] in
theorem lookup_eq_some_iff_mem {l : List (κ × α)} (h : (l.map Prod.fst).Nodup) {k : κ} {a : α} :
    l.lookup k = some a ↔ (k, a) ∈ l := by
  induction l with
  | nil => simp
  | cons p l ih =>
      obtain ⟨j, b⟩ := p
      obtain ⟨hfirst, hrest⟩ := List.nodup_cons.mp h
      rw [List.lookup_cons, List.mem_cons]
      by_cases hk : k = j
      · subst hk
        have hnot : (k, a) ∉ l := fun hmem ↦ hfirst (List.mem_map.mpr ⟨_, hmem, rfl⟩)
        simp [hnot, eq_comm]
      · rw [beq_false_of_ne hk, ih hrest]
        simp [hk]

theorem Ascending.nodup {l : List (ℕ × α)} (h : Ascending l) : (l.map Prod.fst).Nodup :=
  List.pairwise_map.mpr (h.imp ne_of_lt)

def numbered (t : Table (κ × ℕ) α) (k : κ) : List (ℕ × α) :=
  ((t.select fun key _ ↦ key.1 = k).map fun (key, a) ↦ (key.2, a)).mergeSort
    fun a b ↦ a.1 ≤ b.1

theorem mem_numbered {t : Table (κ × ℕ) α} {k : κ} {n : ℕ} {a : α} :
    (n, a) ∈ t.numbered k ↔ t.lookup (k, n) = some a := by
  rw [numbered, mem_mergeSort, List.mem_map]
  constructor
  · rintro ⟨⟨⟨k', n'⟩, a'⟩, hmem, heq⟩
    obtain ⟨rfl, rfl⟩ := Prod.mk.inj heq
    obtain ⟨hlookup, hk⟩ := mem_select_iff.mp hmem
    have hk : k' = k := of_decide_eq_true hk
    rwa [hk] at hlookup
  · intro h
    exact ⟨((k, n), a), mem_select_iff.mpr ⟨h, decide_eq_true rfl⟩, rfl⟩

omit [DecidableEq κ] in
theorem nodup_select (p : κ → α → Bool) (t : Table κ α) : (t.select p).Nodup := by
  refine Nodup.map (fun e e' heq ↦ ?_) (t.nodupKeys.nodup.filter _)
  obtain ⟨hk, ha⟩ := Prod.mk.inj heq
  exact Sigma.ext hk (heq_of_eq ha)

theorem numbered_ascending (t : Table (κ × ℕ) α) (k : κ) : Ascending (t.numbered k) := by
  have htrans : ∀ a b c : ℕ × α, decide (a.1 ≤ b.1) = true → decide (b.1 ≤ c.1) = true →
      decide (a.1 ≤ c.1) = true :=
    fun a b c hab hbc ↦ decide_eq_true ((of_decide_eq_true hab).trans (of_decide_eq_true hbc))
  have htotal : ∀ a b : ℕ × α, (decide (a.1 ≤ b.1) || decide (b.1 ≤ a.1)) = true :=
    fun a b ↦ by simpa using Nat.le_total a.1 b.1
  have hsorted := pairwise_mergeSort htrans htotal
    ((t.select fun key _ ↦ key.1 = k).map fun (key, a) ↦ (key.2, a))
  have hnodup : (t.numbered k).Nodup := by
    refine (mergeSort_perm _ _).nodup_iff.mpr (Nodup.map_on (fun x hx y hy heq ↦ ?_)
      (nodup_select _ t))
    obtain ⟨⟨i, n⟩, a⟩ := x
    obtain ⟨⟨j, m⟩, b⟩ := y
    have hi : i = k := of_decide_eq_true (mem_select_iff.mp hx).2
    have hj : j = k := of_decide_eq_true (mem_select_iff.mp hy).2
    obtain ⟨rfl, rfl⟩ := Prod.mk.inj heq
    rw [hi, hj]
  refine (hsorted.and hnodup).imp_of_mem fun {x y} hx hy hle ↦ ?_
  refine lt_of_le_of_ne (of_decide_eq_true hle.1) fun heq ↦ hle.2 ?_
  -- one number has one row
  obtain ⟨n, a⟩ := x
  obtain ⟨m, b⟩ := y
  obtain rfl : n = m := heq
  have hsame := (mem_numbered.mp hx).symm.trans (mem_numbered.mp hy)
  rw [Option.some.inj hsame]

theorem lookup_numbered (t : Table (κ × ℕ) α) (k : κ) (n : ℕ) :
    (t.numbered k).lookup n = t.lookup (k, n) := by
  ext a
  rw [lookup_eq_some_iff_mem (numbered_ascending t k).nodup, mem_numbered]

theorem Ascending.map {l : List (ℕ × α)} (h : Ascending l) (f : α → β) :
    Ascending (l.map fun p ↦ (p.1, f p.2)) :=
  List.pairwise_map.mpr h

/-- Rows of two tables which agree in what is read of each are listed alike. -/
theorem numbered_map_eq {γ : Type} {t : Table (κ × ℕ) α} {t' : Table (κ' × ℕ) β} {k : κ} {k' : κ'}
    {f : α → γ} {g : β → γ}
    (h : ∀ n, (t.lookup (k, n)).map f = (t'.lookup (k', n)).map g) :
    ((t.numbered k).map fun p ↦ (p.1, f p.2)) = (t'.numbered k').map fun p ↦ (p.1, g p.2) := by
  have hmem : ∀ {κ α : Type} [DecidableEq κ] (t : Table (κ × ℕ) α) (k : κ) (f : α → γ) n c,
      (n, c) ∈ (t.numbered k).map (fun p ↦ (p.1, f p.2)) ↔ (t.lookup (k, n)).map f = some c := by
    intro κ α _ t k f n c
    rw [List.mem_map, Option.map_eq_some_iff]
    constructor
    · rintro ⟨⟨m, a⟩, hma, heq⟩
      obtain ⟨rfl, rfl⟩ := Prod.mk.inj heq
      exact ⟨a, mem_numbered.mp hma, rfl⟩
    · rintro ⟨a, ha, rfl⟩
      exact ⟨(n, a), mem_numbered.mpr ha, rfl⟩
  refine ((numbered_ascending t k).map f).eq_of_mem_iff ((numbered_ascending t' k').map g) ?_
  rintro ⟨n, c⟩
  rw [hmem, hmem, h n]

end AList
