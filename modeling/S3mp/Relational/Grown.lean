import S3mp.Relational.Table

/-!
# Tables which only grow

Some columns of a row say what it stands for: its key columns.  A table has grown
when the key columns of every old row have stayed, in a sense to be chosen, and
those of every new row are the ones foreseen for it.
-/

namespace Relational

variable {κ α β : Type} {key : α → β} {stays : β → β → Prop} {new : κ → Option β}
  {rows rows' rows'' : Table κ α}

section

variable [DecidableEq κ]

/-- Every row comes from a row with the same key columns. -/
def KeepsKey (key : α → β) (rows rows' : Table κ α) : Prop :=
  ∀ j x', rows'.lookup j = some x' → ∃ x, rows.lookup j = some x ∧ key x' = key x

theorem KeepsKey.refl (key : α → β) (rows : Table κ α) : KeepsKey key rows rows :=
  fun _ x h ↦ ⟨x, h, rfl⟩

theorem KeepsKey.trans (h : KeepsKey key rows rows') (h' : KeepsKey key rows' rows'') :
    KeepsKey key rows rows'' := by
  intro j x'' hx''
  obtain ⟨x', hx', hkey'⟩ := h' j x'' hx''
  obtain ⟨x, hx, hkey⟩ := h j x' hx'
  exact ⟨x, hx, hkey'.trans hkey⟩

theorem keeps_updateWhere {p : κ → α → Bool} {f : α → α} (hf : ∀ x, key (f x) = key x) :
    KeepsKey key rows (rows.updateWhere p f) := by
  intro j x' hx'
  rw [AList.lookup_updateWhere, Option.map_eq_some_iff] at hx'
  obtain ⟨x, hx, rfl⟩ := hx'
  refine ⟨x, hx, ?_⟩
  split
  · exact hf x
  · rfl

theorem keeps_update {k : κ} {f : α → α} (hf : ∀ x, rows.lookup k = some x → key (f x) = key x) :
    KeepsKey key rows (rows.update k f) := by
  intro j x' hx'
  obtain ⟨x, hx, rfl⟩ := AList.of_lookup_update hx'
  refine ⟨x, hx, ?_⟩
  split
  · rename_i hj
    exact hf x (hj ▸ hx)
  · rfl

/-- Every row is a row that has stayed, or one of the new rows. -/
def Grown (key : α → β) (stays : β → β → Prop) (new : κ → Option β) (rows rows' : Table κ α) :
    Prop :=
  ∀ j x', rows'.lookup j = some x' →
    (∃ x, rows.lookup j = some x ∧ stays (key x) (key x')) ∨
      rows.lookup j = none ∧ new j = some (key x')

theorem Grown.keeps (h : Grown key stays new rows rows') (h' : KeepsKey key rows' rows'') :
    Grown key stays new rows rows'' := by
  intro j x'' hx''
  obtain ⟨x', hx', hkey⟩ := h' j x'' hx''
  rw [hkey]
  exact h j x' hx'

/-- The key columns alone. -/
theorem Grown.lookup_key (h : Grown key stays new rows rows') {j : κ} {k' : β}
    (hk' : (rows'.lookup j).map key = some k') :
    (∃ k, (rows.lookup j).map key = some k ∧ stays k k') ∨
      (rows.lookup j).map key = none ∧ new j = some k' := by
  obtain ⟨x', hx', rfl⟩ := Option.map_eq_some_iff.mp hk'
  rcases h j x' hx' with ⟨x, hx, hstays⟩ | ⟨hnone, hnew⟩
  · exact Or.inl ⟨key x, by rw [hx, Option.map_some], hstays⟩
  · exact Or.inr ⟨by rw [hnone, Option.map_none], hnew⟩

variable [Std.Refl stays]

theorem KeepsKey.grown (h : KeepsKey key rows rows') : Grown key stays new rows rows' := by
  intro j x' hx'
  obtain ⟨x, hx, hkey⟩ := h j x' hx'
  exact Or.inl ⟨x, hx, hkey ▸ Std.Refl.refl _⟩

theorem Grown.refl (rows : Table κ α) : Grown key stays new rows rows :=
  (KeepsKey.refl key rows).grown

theorem grown_update {k : κ} {f : α → α}
    (hf : ∀ x, rows.lookup k = some x → stays (key x) (key (f x))) :
    Grown key stays new rows (rows.update k f) := by
  intro j x' hx'
  obtain ⟨x, hx, rfl⟩ := AList.of_lookup_update hx'
  refine Or.inl ⟨x, hx, ?_⟩
  split
  · rename_i hj
    exact hf x (hj ▸ hx)
  · exact Std.Refl.refl _

theorem grown_insert {k : κ} {x : α} (hfresh : k ∉ rows) (hnew : new k = some (key x)) :
    Grown key stays new rows (rows.insert k x) := by
  intro j x' hx'
  rw [AList.lookup_insert'] at hx'
  split at hx'
  · rename_i hj
    obtain rfl := Option.some.inj hx'
    subst hj
    exact Or.inr ⟨AList.lookup_eq_none.mpr hfresh, hnew⟩
  · exact Or.inl ⟨x', hx', Std.Refl.refl _⟩

end

end Relational
