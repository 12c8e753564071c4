import Mathlib.Algebra.BigOperators.Group.List.Basic
import Mathlib.Algebra.BigOperators.Group.Finset.Basic
import Mathlib.Algebra.Order.BigOperators.Group.Finset
import Mathlib.Algebra.Order.BigOperators.Group.List
import Mathlib.Data.List.AList
import Mathlib.Tactic.Abel

/-!
# Keyed tables and their totals

A table is a finite association list with distinct keys.  This module adds the
bulk update and selection of a relational store to Mathlib's `AList`, and the
total of a weight over all rows.  The central lemma compares the totals of two
tables which agree outside one key: it is what makes an aggregate column kept
in another table provably equal to the sum it stands for.
-/

open List

/-- Rows of type `α` addressed by a primary key. -/
abbrev Relational.Table (κ α : Type) := AList fun _ : κ ↦ α

namespace AList

open Relational

variable {κ α : Type}

def updateWhere (p : κ → α → Bool) (f : α → α) (t : Table κ α) : Table κ α where
  entries := t.entries.map fun e ↦ ⟨e.1, if p e.1 e.2 then f e.2 else e.2⟩
  nodupKeys := t.nodupKeys.map₂ fun k v ↦ if p k v then f v else v

def deleteWhere (p : κ → α → Bool) (t : Table κ α) : Table κ α where
  entries := t.entries.filter fun e ↦ !p e.1 e.2
  nodupKeys := t.nodupKeys.sublist List.filter_sublist

def select (p : κ → α → Bool) (t : Table κ α) : List (κ × α) :=
  (t.entries.filter fun e ↦ p e.1 e.2).map fun e ↦ (e.1, e.2)

def selectFirst (p : κ → α → Bool) (t : Table κ α) : Option (κ × α) :=
  (t.entries.find? fun e ↦ p e.1 e.2).map fun e ↦ (e.1, e.2)

def anyRow (p : κ → α → Bool) (t : Table κ α) : Bool :=
  t.entries.any fun e ↦ p e.1 e.2

theorem keys_updateWhere (p : κ → α → Bool) (f : α → α) (t : Table κ α) :
    (t.updateWhere p f).keys = t.keys := by
  simp [updateWhere, keys, List.keys]

@[simp] theorem mem_updateWhere {p : κ → α → Bool} {f : α → α} {t : Table κ α} {k : κ} :
    k ∈ t.updateWhere p f ↔ k ∈ t := by
  rw [mem_keys, mem_keys, keys_updateWhere]

theorem nodup_keys_select (p : κ → α → Bool) (t : Table κ α) :
    ((t.select p).map Prod.fst).Nodup := by
  have hsub : ((t.select p).map Prod.fst).Sublist t.keys := by
    simp only [select, List.map_map, keys, List.keys]
    exact List.filter_sublist.map _
  exact t.keys_nodup.sublist hsub

section Lookup

variable [DecidableEq κ]

def update (k : κ) (f : α → α) (t : Table κ α) : Table κ α :=
  t.updateWhere (fun j _ ↦ j = k) f

theorem lookup_updateWhere (p : κ → α → Bool) (f : α → α) (t : Table κ α) (k : κ) :
    (t.updateWhere p f).lookup k =
      (t.lookup k).map fun v ↦ if p k v then f v else v := by
  exact dlookup_map₂ (l := t.entries) (f := fun k v ↦ if p k v then f v else v) k

@[simp] theorem lookup_update_self (k : κ) (f : α → α) (t : Table κ α) :
    (t.update k f).lookup k = (t.lookup k).map f := by
  simp [update, lookup_updateWhere]

theorem lookup_update_of_ne {j k : κ} (h : j ≠ k) (f : α → α) (t : Table κ α) :
    (t.update k f).lookup j = t.lookup j := by
  simp [update, lookup_updateWhere, h]

theorem lookup_update (j k : κ) (f : α → α) (t : Table κ α) :
    (t.update k f).lookup j = if j = k then (t.lookup k).map f else t.lookup j := by
  by_cases h : j = k
  · subst h
    simp
  · simp [h, lookup_update_of_ne h]

/-- A row of an updated table comes from a row of the table. -/
theorem of_lookup_update {j k : κ} {f : α → α} {t : Table κ α} {v' : α}
    (h : (t.update k f).lookup j = some v') :
    ∃ v, t.lookup j = some v ∧ v' = if j = k then f v else v := by
  rw [lookup_update] at h
  split at h
  · rename_i hj
    subst hj
    obtain ⟨v, hv, rfl⟩ := Option.map_eq_some_iff.mp h
    exact ⟨v, hv, (if_pos rfl).symm⟩
  · rename_i hj
    exact ⟨v', h, (if_neg hj).symm⟩

theorem lookup_insert' (j k : κ) (v : α) (t : Table κ α) :
    (t.insert k v).lookup j = if j = k then some v else t.lookup j := by
  by_cases h : j = k
  · subst h; simp
  · simp [h, lookup_insert_ne h]

theorem update_eq_self {t : Table κ α} {k : κ} {v : α} {f : α → α} (h : t.lookup k = some v)
    (hf : f v = v) : t.update k f = t := by
  apply AList.ext
  refine (List.map_congr_left ?_).trans (List.map_id _)
  rintro ⟨j, w⟩ hjw
  by_cases hjk : j = k
  · subst hjk
    have hwv : w = v := Option.some.inj ((mem_lookup_iff (s := t)).mpr hjw |>.symm.trans h)
    subst hwv
    simp [hf]
  · simp [hjk]

theorem mem_insert' {j k : κ} {v : α} {t : Table κ α} : j ∈ t.insert k v ↔ j = k ∨ j ∈ t := by
  rw [mem_keys, keys_insert, List.mem_cons, mem_keys]
  by_cases h : j = k
  · simp [h]
  · simp [h, List.mem_erase_of_ne h, keys]

@[simp] theorem mem_update {j k : κ} {f : α → α} {t : Table κ α} :
    j ∈ t.update k f ↔ j ∈ t :=
  mem_updateWhere

theorem mem_of_lookup {t : Table κ α} {k : κ} {v : α} (h : t.lookup k = some v) : k ∈ t := by
  rw [← lookup_isSome, h]
  rfl

/-- A new row leaves the others where they are. -/
theorem lookup_insert_of_lookup {t : Table κ α} {j k : κ} {v w : α} (hj : t.lookup j = some v)
    (hk : k ∉ t) : (t.insert k w).lookup j = some v := by
  refine (lookup_insert_ne ?_).trans hj
  rintro rfl
  exact hk (mem_of_lookup hj)

theorem lookup_of_lookup_erase {t : Table κ α} {j k : κ} {v : α}
    (h : (t.erase k).lookup j = some v) : j ≠ k ∧ t.lookup j = some v := by
  have hne : j ≠ k := by
    rintro rfl
    exact absurd (mem_of_lookup h) (by simp)
  exact ⟨hne, (lookup_erase_ne hne).symm.trans h⟩

theorem lookup_single {k j : κ} {v w : α} :
    ((∅ : Table κ α).insert k v).lookup j = some w ↔ j = k ∧ w = v := by
  rw [lookup_insert']
  split
  · rename_i hj
    simp [hj, eq_comm]
  · rename_i hj
    simp [hj]

theorem exists_lookup_of_mem {t : Table κ α} {k : κ} (h : k ∈ t) :
    ∃ v, t.lookup k = some v :=
  Option.isSome_iff_exists.mp (lookup_isSome.mpr h)

theorem mem_entries_iff_lookup {t : Table κ α} {k : κ} {v : α} :
    (⟨k, v⟩ : Σ _ : κ, α) ∈ t.entries ↔ t.lookup k = some v :=
  (mem_lookup_iff (s := t)).symm

theorem lookup_deleteWhere (p : κ → α → Bool) (t : Table κ α) (k : κ) :
    (t.deleteWhere p).lookup k = (t.lookup k).filter fun v ↦ !p k v := by
  ext v
  rw [← mem_entries_iff_lookup, deleteWhere, List.mem_filter, mem_entries_iff_lookup,
    Option.filter_eq_some_iff]

theorem mem_select_iff {p : κ → α → Bool} {t : Table κ α} {k : κ} {v : α} :
    (k, v) ∈ t.select p ↔ t.lookup k = some v ∧ p k v := by
  constructor
  · intro h
    obtain ⟨⟨j, w⟩, hmem, heq⟩ := List.mem_map.mp h
    obtain ⟨rfl, rfl⟩ := Prod.mk.inj heq
    obtain ⟨hrow, hp⟩ := List.mem_filter.mp hmem
    exact ⟨mem_entries_iff_lookup.mp hrow, hp⟩
  · rintro ⟨hrow, hp⟩
    exact List.mem_map.mpr
      ⟨⟨k, v⟩, List.mem_filter.mpr ⟨mem_entries_iff_lookup.mpr hrow, hp⟩, rfl⟩

theorem mem_keys_select {p : κ → α → Bool} {t : Table κ α} {k : κ} :
    k ∈ (t.select p).map Prod.fst ↔ ∃ v, t.lookup k = some v ∧ p k v := by
  constructor
  · intro h
    obtain ⟨⟨j, v⟩, hmem, rfl⟩ := List.mem_map.mp h
    exact ⟨v, mem_select_iff.mp hmem⟩
  · rintro ⟨v, hv⟩
    exact List.mem_map.mpr ⟨(k, v), mem_select_iff.mpr hv, rfl⟩

theorem lookup_of_selectFirst {p : κ → α → Bool} {t : Table κ α} {k : κ} {v : α}
    (h : t.selectFirst p = some (k, v)) : t.lookup k = some v ∧ p k v := by
  obtain ⟨⟨j, w⟩, hfind, heq⟩ := Option.map_eq_some_iff.mp h
  obtain ⟨rfl, rfl⟩ := Prod.mk.inj heq
  exact ⟨mem_entries_iff_lookup.mp (List.mem_of_find?_eq_some hfind),
    by simpa using List.find?_some hfind⟩

theorem selectFirst_eq_none {p : κ → α → Bool} {t : Table κ α} :
    t.selectFirst p = none ↔ ∀ k v, t.lookup k = some v → p k v = false := by
  simp only [selectFirst, Option.map_eq_none_iff, List.find?_eq_none, Sigma.forall,
    mem_entries_iff_lookup, Bool.not_eq_true]

theorem anyRow_eq_true {p : κ → α → Bool} {t : Table κ α} :
    t.anyRow p = true ↔ ∃ k v, t.lookup k = some v ∧ p k v := by
  simp only [anyRow, List.any_eq_true, Sigma.exists, mem_entries_iff_lookup]

theorem anyRow_eq_false {p : κ → α → Bool} {t : Table κ α} :
    t.anyRow p = false ↔ ∀ k v, t.lookup k = some v → p k v = false := by
  simp only [anyRow, List.any_eq_false, Sigma.forall, mem_entries_iff_lookup, Bool.not_eq_true]

theorem updateWhere_congr {p : κ → α → Bool} {f g : α → α} {t : Table κ α}
    (h : ∀ k v, t.lookup k = some v → p k v → f v = g v) :
    t.updateWhere p f = t.updateWhere p g := by
  apply AList.ext
  apply List.map_congr_left
  rintro ⟨k, v⟩ hkv
  by_cases hp : p k v
  · simp [hp, h k v (mem_entries_iff_lookup.mp hkv) hp]
  · simp [hp]

theorem updateWhere_eq_self {p : κ → α → Bool} {f : α → α} {t : Table κ α}
    (h : ∀ k v, t.lookup k = some v → p k v → f v = v) : t.updateWhere p f = t := by
  apply AList.ext
  refine (List.map_congr_left ?_).trans (List.map_id _)
  rintro ⟨k, v⟩ hkv
  by_cases hp : p k v
  · simp [hp, h k v (mem_entries_iff_lookup.mp hkv) hp]
  · simp [hp]

theorem update_update (k : κ) (f g : α → α) (t : Table κ α) :
    (t.update k f).update k g = t.update k fun v ↦ g (f v) := by
  apply AList.ext
  simp only [update, updateWhere, List.map_map]
  refine List.map_congr_left fun e _ ↦ ?_
  by_cases h : e.1 = k <;> simp [h]

theorem update_eq_const {t : Table κ α} {k : κ} {v : α} (h : t.lookup k = some v) (f : α → α) :
    t.update k f = t.update k fun _ ↦ f v := by
  apply updateWhere_congr
  intro j w hj hjk
  obtain rfl : j = k := by simpa using hjk
  rw [Option.some.inj (hj.symm.trans h)]

end Lookup

/-! ## Totals -/

section Total

variable [DecidableEq κ] {M : Type} [AddCommGroup M]

def total (w : κ → α → M) (t : Table κ α) : M :=
  (t.entries.map fun e ↦ w e.1 e.2).sum

/-- The weight of the row with key `k`, zero when there is none. -/
def weightAt (w : κ → α → M) (t : Table κ α) (k : κ) : M :=
  match t.lookup k with
  | some v => w k v
  | none => 0

theorem weightAt_of_lookup {w : κ → α → M} {t : Table κ α} {k : κ} {v : α}
    (h : t.lookup k = some v) : t.weightAt w k = w k v := by
  simp [weightAt, h]

theorem weightAt_of_notMem {w : κ → α → M} {t : Table κ α} {k : κ} (h : k ∉ t) :
    t.weightAt w k = 0 := by
  simp [weightAt, lookup_eq_none.mpr h]

theorem total_eq_sum_keys (w : κ → α → M) (t : Table κ α) :
    t.total w = ∑ k ∈ t.keys.toFinset, t.weightAt w k := by
  rw [List.sum_toFinset _ t.keys_nodup]
  simp only [total, keys, List.keys, List.map_map]
  congr 1
  apply List.map_congr_left
  intro e he
  exact (weightAt_of_lookup (mem_entries_iff_lookup.mp he)).symm

theorem total_eq_sum (w : κ → α → M) (t : Table κ α) {s : Finset κ}
    (hs : t.keys.toFinset ⊆ s) : t.total w = ∑ k ∈ s, t.weightAt w k := by
  rw [total_eq_sum_keys]
  apply Finset.sum_subset hs
  intro k _ hk
  apply weightAt_of_notMem
  rw [mem_keys]
  simpa using hk

/-- Two tables whose weights agree outside one key have totals which differ by
the weights at that key. -/
theorem total_of_agree_off {w w' : κ → α → M} {t t' : Table κ α} (k : κ)
    (h : ∀ j, j ≠ k → t'.weightAt w' j = t.weightAt w j) :
    t'.total w' = t.total w - t.weightAt w k + t'.weightAt w' k := by
  let s : Finset κ := Insert.insert k (t.keys.toFinset ∪ t'.keys.toFinset)
  have hk : k ∈ s := Finset.mem_insert_self k _
  have ht : t.keys.toFinset ⊆ s :=
    Finset.subset_union_left.trans (Finset.subset_insert k _)
  have ht' : t'.keys.toFinset ⊆ s :=
    Finset.subset_union_right.trans (Finset.subset_insert k _)
  have hoff : ∑ j ∈ s.erase k, t'.weightAt w' j = ∑ j ∈ s.erase k, t.weightAt w j :=
    Finset.sum_congr rfl fun j hj ↦ h j (Finset.ne_of_mem_erase hj)
  rw [total_eq_sum w t ht, total_eq_sum w' t' ht', ← Finset.add_sum_erase s _ hk,
    ← Finset.add_sum_erase s (fun j ↦ t.weightAt w j) hk, hoff]
  abel

theorem total_congr {w w' : κ → α → M} {t t' : Table κ α}
    (h : ∀ j, t'.weightAt w' j = t.weightAt w j) : t'.total w' = t.total w := by
  rw [total_eq_sum w t Finset.subset_union_left,
    total_eq_sum w' t' (s := t.keys.toFinset ∪ t'.keys.toFinset) Finset.subset_union_right]
  exact Finset.sum_congr rfl fun j _ ↦ h j

/-- A total is a sum over rows with distinct keys which cover every weight. -/
theorem total_eq_sum_rows {β : Type} {w : κ → α → M} {t : Table κ α} {rows : List (κ × β)}
    {g : κ × β → M} (hnodup : (rows.map Prod.fst).Nodup)
    (hin : ∀ row ∈ rows, g row = t.weightAt w row.1)
    (hout : ∀ k v, t.lookup k = some v → k ∉ rows.map Prod.fst → w k v = 0) :
    t.total w = (rows.map g).sum := by
  have hcover : ∑ k ∈ (rows.map Prod.fst).toFinset, t.weightAt w k = t.total w := by
    rw [total_eq_sum w t (s := t.keys.toFinset ∪ (rows.map Prod.fst).toFinset)
      Finset.subset_union_left]
    refine Finset.sum_subset Finset.subset_union_right fun k _ hk ↦ ?_
    unfold weightAt
    cases hv : t.lookup k with
    | none => rfl
    | some v => exact hout k v hv fun hmem ↦ hk (List.mem_toFinset.mpr hmem)
  rw [← hcover, List.sum_toFinset _ hnodup, List.map_map]
  exact congrArg List.sum (List.map_congr_left fun row hrow ↦ (hin row hrow).symm)

theorem total_eq_zero {w : κ → α → M} {t : Table κ α}
    (h : ∀ k v, t.lookup k = some v → w k v = 0) : t.total w = 0 := by
  refine List.sum_eq_zero fun x hx ↦ ?_
  obtain ⟨e, he, rfl⟩ := List.mem_map.mp hx
  exact h e.1 e.2 (mem_entries_iff_lookup.mp he)

theorem total_insert {w : κ → α → M} {t : Table κ α} {k : κ} {v : α} (hk : k ∉ t) :
    (t.insert k v).total w = t.total w + w k v := by
  rw [total_of_agree_off k (t := t) (w := w), weightAt_of_notMem hk,
    weightAt_of_lookup (lookup_insert t), sub_zero]
  intro j hj
  simp [weightAt, lookup_insert_ne hj]

theorem total_update {w : κ → α → M} {t : Table κ α} {k : κ} {v : α} {f : α → α}
    (hk : t.lookup k = some v) :
    (t.update k f).total w = t.total w - w k v + w k (f v) := by
  rw [total_of_agree_off k (t := t) (w := w), weightAt_of_lookup hk,
    weightAt_of_lookup (v := f v) (by simp [hk])]
  intro j hj
  simp [weightAt, lookup_update_of_ne hj]

omit [DecidableEq κ] in
theorem total_add (w w' : κ → α → M) (t : Table κ α) :
    t.total (fun k v ↦ w k v + w' k v) = t.total w + t.total w' :=
  List.sum_map_add

omit [DecidableEq κ] in
/-- The sum over selected rows is a total. -/
theorem sum_filter_select (p : κ → α → Bool) (q : α → Bool) (g : α → M) (t : Table κ α) :
    ((((t.select p).map Prod.snd).filter q).map g).sum =
      t.total fun k v ↦ if p k v && q v then g v else 0 := by
  unfold select total
  induction t.entries with
  | nil => rfl
  | cons e es ih =>
      rw [List.map_cons, List.sum_cons, ← ih]
      by_cases hp : p e.1 e.2
      · by_cases hq : q e.2
        · simp [hp, hq]
        · simp [hp, hq]
      · simp [hp]

/-! ### Tables of amounts -/

theorem total_at (t : Table κ M) (k : κ) :
    (t.total fun j m ↦ if j = k then m else 0) = (t.lookup k).getD 0 := by
  have hempty : (∅ : Table κ M).total (fun _ m ↦ m) = 0 := rfl
  rw [total_of_agree_off k (t := (∅ : Table κ M)) (w := fun _ m ↦ m), hempty]
  · cases h : t.lookup k with
    | none => simp [weightAt, h]
    | some m => simp [weightAt, h]
  · intro j hj
    cases h : t.lookup j with
    | none => simp [weightAt, h]
    | some m => simp [weightAt, h, hj]

/-- Adding to one entry of a dictionary of amounts adds to every total which counts it. -/
theorem total_accumulate (p : κ → Prop) [DecidablePred p] (t : Table κ M) (k : κ) (n : M) :
    (t.insert k ((t.lookup k).getD 0 + n)).total (fun j m ↦ if p j then m else 0) =
      (t.total fun j m ↦ if p j then m else 0) + if p k then n else 0 := by
  rw [total_of_agree_off k (t := t) (w := fun j m ↦ if p j then m else 0)
      fun j hj ↦ by simp [weightAt, lookup_insert_ne hj],
    weightAt_of_lookup (lookup_insert t)]
  cases h : t.lookup k with
  | none =>
      rw [weightAt_of_notMem (lookup_eq_none.mp h)]
      simp
  | some m =>
      rw [weightAt_of_lookup h]
      by_cases hp : p k
      · simp [hp]
        abel
      · simp [hp]
section Ordered

variable [PartialOrder M] [IsOrderedAddMonoid M] {w : κ → α → M} {t : Table κ α}

theorem total_le_total {w' : κ → α → M} {t' : Table κ α}
    (h : ∀ k, t'.weightAt w' k ≤ t.weightAt w k) : t'.total w' ≤ t.total w := by
  rw [total_eq_sum w t (s := t.keys.toFinset ∪ t'.keys.toFinset) Finset.subset_union_left,
    total_eq_sum w' t' (s := t.keys.toFinset ∪ t'.keys.toFinset) Finset.subset_union_right]
  exact Finset.sum_le_sum fun k _ ↦ h k

theorem total_nonneg (hw : ∀ k v, t.lookup k = some v → 0 ≤ w k v) : 0 ≤ t.total w := by
  refine List.sum_nonneg fun x hx ↦ ?_
  obtain ⟨e, he, rfl⟩ := List.mem_map.mp hx
  exact hw e.1 e.2 (mem_entries_iff_lookup.mp he)

theorem le_total (hw : ∀ k v, t.lookup k = some v → 0 ≤ w k v) {k : κ} {v : α}
    (hk : t.lookup k = some v) : w k v ≤ t.total w := by
  refine List.single_le_sum (fun x hx ↦ ?_) _
    (List.mem_map.mpr ⟨⟨k, v⟩, mem_entries_iff_lookup.mpr hk, rfl⟩)
  obtain ⟨e, he, rfl⟩ := List.mem_map.mp hx
  exact hw e.1 e.2 (mem_entries_iff_lookup.mp he)

end Ordered

end Total

end AList
