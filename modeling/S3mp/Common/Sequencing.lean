import S3mp.Common.Basic
import Mathlib.Data.List.Forall2

/-!
# Sequences of fallible steps

When a sequence of steps which may fail succeeds, and with what.
-/

namespace S3mp

variable {ε α β : Type}

theorem mapM_eq_ok_iff {f : α → Except ε β} {as : List α} {bs : List β} :
    as.mapM f = .ok bs ↔ List.Forall₂ (fun a b ↦ f a = .ok b) as bs := by
  induction as generalizing bs with
  | nil =>
      rw [List.mapM_nil, List.forall₂_nil_left_iff]
      exact ⟨fun h ↦ (Except.ok.inj h).symm, fun h ↦ congrArg Except.ok h.symm⟩
  | cons a as ih =>
      rw [List.mapM_cons, List.forall₂_cons_left_iff, Except.bind_eq_ok]
      constructor
      · rintro ⟨b, hb, h⟩
        obtain ⟨bs, hbs, h⟩ := Except.bind_eq_ok.mp h
        exact ⟨b, bs, hb, ih.mp hbs, (Except.ok.inj h).symm⟩
      · rintro ⟨b, bs, hb, hbs, rfl⟩
        exact ⟨b, hb, Except.bind_eq_ok.mpr ⟨bs, ih.mpr hbs, rfl⟩⟩

theorem mem_iff_of_mapM {f : α → Except ε β} {as : List α} {bs : List β}
    (h : as.mapM f = .ok bs) {b : β} : b ∈ bs ↔ ∃ a ∈ as, f a = .ok b := by
  have hall := mapM_eq_ok_iff.mp h
  clear h
  induction hall with
  | nil => simp
  | cons ha _ ih =>
      constructor
      · intro hmem
        rcases List.mem_cons.mp hmem with rfl | hmem
        · exact ⟨_, List.mem_cons_self, ha⟩
        · obtain ⟨a, hmem, hb⟩ := ih.mp hmem
          exact ⟨a, List.mem_cons_of_mem _ hmem, hb⟩
      · rintro ⟨a, hmem, hb⟩
        rcases List.mem_cons.mp hmem with rfl | hmem
        · rw [ha] at hb
          exact List.mem_cons.mpr (Or.inl (Except.ok.inj hb).symm)
        · exact List.mem_cons_of_mem _ (ih.mpr ⟨a, hmem, hb⟩)

theorem exists_of_mapM {f : α → Except ε β} {as : List α} {bs : List β}
    (h : as.mapM f = .ok bs) {a : α} (ha : a ∈ as) : ∃ b ∈ bs, f a = .ok b := by
  have hall := mapM_eq_ok_iff.mp h
  clear h
  induction hall with
  | nil => cases ha
  | cons hb _ ih =>
      rcases List.mem_cons.mp ha with rfl | ha
      · exact ⟨_, List.mem_cons_self, hb⟩
      · obtain ⟨b, hmem, hb⟩ := ih ha
        exact ⟨b, List.mem_cons_of_mem _ hmem, hb⟩

theorem exists_mapM_eq_ok {f : α → Except ε β} {as : List α}
    (h : ∀ a ∈ as, ∃ b, f a = .ok b) : ∃ bs, as.mapM f = .ok bs := by
  induction as with
  | nil => exact ⟨[], rfl⟩
  | cons a as ih =>
      obtain ⟨b, hb⟩ := h a List.mem_cons_self
      obtain ⟨bs, hbs⟩ := ih fun a' ha' ↦ h a' (List.mem_cons_of_mem a ha')
      exact ⟨b :: bs, mapM_eq_ok_iff.mpr (.cons hb (mapM_eq_ok_iff.mp hbs))⟩

theorem forM_eq_ok {f : α → Except ε Unit} {as : List α} :
    as.forM f = .ok () ↔ ∀ a ∈ as, f a = .ok () := by
  induction as with
  | nil => exact iff_of_true rfl fun a ha ↦ absurd ha List.not_mem_nil
  | cons a as ih =>
      have hcons : (a :: as).forM f = (f a >>= fun _ ↦ as.forM f) := rfl
      rw [hcons, Except.bind_eq_ok, List.forall_mem_cons, ← ih]
      constructor
      · rintro ⟨_, ha, has⟩
        exact ⟨ha, has⟩
      · rintro ⟨ha, has⟩
        exact ⟨(), ha, has⟩

end S3mp
