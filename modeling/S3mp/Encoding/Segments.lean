import Mathlib.Data.List.Flatten
import Mathlib.Data.List.Infix

/-!
# Paths of segments

The segments of a path are what stands between its separators.  A path lies below a
directory when its segments start with those of the directory, which is to say that
it is the directory or goes on with a separator after it.
-/

namespace S3mp.Encoding

variable {α : Type} [DecidableEq α] {sep : α} {directory directory' key key' base rest : List α}

omit [DecidableEq α] in
theorem intercalate_append {front back : List (List α)} (hfront : front ≠ []) (hback : back ≠ []) :
    [sep].intercalate (front ++ back) =
      [sep].intercalate front ++ sep :: [sep].intercalate back := by
  induction front with
  | nil => exact absurd rfl hfront
  | cons segment front ih =>
      rw [List.cons_append,
        List.intercalate_cons_of_ne_nil (List.append_ne_nil_of_right_ne_nil front hback)]
      by_cases hnil : front = []
      · subst hnil
        simp
      · rw [ih hnil, List.intercalate_cons_of_ne_nil hnil]
        simp

/-- No separator stands within a segment. -/
theorem not_mem_of_mem_splitOn {path segment : List α} (h : segment ∈ path.splitOn sep) :
    sep ∉ segment := by
  induction path generalizing segment with
  | nil =>
      rw [List.splitOn_nil, List.mem_singleton] at h
      rw [h]
      exact List.not_mem_nil
  | cons x path ih =>
      rw [List.splitOn_cons_eq_if_modifyHead] at h
      split at h
      · rcases List.mem_cons.mp h with rfl | h
        · exact List.not_mem_nil
        · exact ih h
      · rename_i hx
        obtain ⟨first, others, hsplit⟩ := List.exists_cons_of_ne_nil (List.splitOn_ne_nil sep path)
        rw [hsplit, List.modifyHead_cons] at h
        rcases List.mem_cons.mp h with rfl | h
        · have hfirst := ih (hsplit ▸ List.mem_cons_self)
          simp only [List.mem_cons, not_or]
          exact ⟨fun heq ↦ hx (by simp [heq]), hfirst⟩
        · exact ih (hsplit ▸ List.mem_cons_of_mem _ h)

/-- What is appended without a separator goes to the last segment. -/
theorem splitOn_append_of_not_mem (path : List α) (hrest : sep ∉ rest) :
    ∃ init last, path.splitOn sep = init ++ [last] ∧
      (path ++ rest).splitOn sep = init ++ [last ++ rest] := by
  induction path with
  | nil => exact ⟨[], [], List.splitOn_nil sep, List.splitOn_eq_singleton hrest⟩
  | cons x path ih =>
      obtain ⟨init, last, hpath, happend⟩ := ih
      rw [List.cons_append, List.splitOn_cons_eq_if_modifyHead, List.splitOn_cons_eq_if_modifyHead,
        hpath, happend]
      split
      · exact ⟨[] :: init, last, rfl, rfl⟩
      · cases init with
        | nil => exact ⟨[], x :: last, rfl, rfl⟩
        | cons first init => exact ⟨(x :: first) :: init, last, rfl, rfl⟩

omit [DecidableEq α] in
theorem mem_intercalate {segments : List (List α)} {segment : List α} {x : α}
    (h : segment ∈ segments) (hx : x ∈ segment) : x ∈ [sep].intercalate segments := by
  induction segments with
  | nil => cases h
  | cons first segments ih =>
      by_cases hnil : segments = []
      · rw [hnil, List.mem_singleton] at h
        rwa [hnil, List.intercalate_singleton, ← h]
      · rw [List.intercalate_cons_of_ne_nil hnil]
        rcases List.mem_cons.mp h with rfl | h
        · exact List.mem_append_left _ (List.mem_append_left _ hx)
        · exact List.mem_append_right _ (ih h)

omit [DecidableEq α] in
theorem mem_of_mem_intercalate {segments : List (List α)} {x : α}
    (h : x ∈ [sep].intercalate segments) : x = sep ∨ ∃ segment ∈ segments, x ∈ segment := by
  induction segments with
  | nil => cases h
  | cons first segments ih =>
      by_cases hnil : segments = []
      · rw [hnil, List.intercalate_singleton] at h
        exact Or.inr ⟨first, List.mem_cons_self, h⟩
      · rw [List.intercalate_cons_of_ne_nil hnil, List.append_assoc] at h
        rcases List.mem_append.mp h with h | h
        · exact Or.inr ⟨first, List.mem_cons_self, h⟩
        · rcases List.mem_cons.mp h with h | h
          · exact Or.inl h
          · rcases ih h with h | ⟨segment, hsegment, hx⟩
            · exact Or.inl h
            · exact Or.inr ⟨segment, List.mem_cons_of_mem _ hsegment, hx⟩

theorem mem_of_mem_splitOn {path segment : List α} {x : α} (h : segment ∈ path.splitOn sep)
    (hx : x ∈ segment) : x ∈ path := by
  have hmem : x ∈ [sep].intercalate (path.splitOn sep) := mem_intercalate h hx
  rwa [List.intercalate_splitOn] at hmem

omit [DecidableEq α] in
theorem length_intercalate (segments : List (List α)) :
    ([sep].intercalate segments).length = segments.flatten.length + (segments.length - 1) := by
  induction segments with
  | nil => rfl
  | cons segment segments ih =>
      by_cases hnil : segments = []
      · simp [hnil]
      · have hpos := List.length_pos_of_ne_nil hnil
        rw [List.intercalate_cons_of_ne_nil hnil, List.length_append, List.length_append, ih]
        simp
        omega

omit [DecidableEq α] in
/-- Leaving out segments does not make a path longer. -/
theorem length_intercalate_le {segments segments' : List (List α)} (h : segments.Sublist segments') :
    ([sep].intercalate segments).length ≤ ([sep].intercalate segments').length := by
  have hlength := h.length_le
  have hflatten := h.flatten.length_le
  rw [length_intercalate, length_intercalate]
  omega

/-- The path is the directory or lies below it, by whole segments. -/
def Below (sep : α) (directory key : List α) : Prop :=
  directory.splitOn sep <+: key.splitOn sep

theorem below_iff :
    Below sep directory key ↔ key = directory ∨ directory ++ [sep] <+: key := by
  constructor
  · rintro ⟨segments, hsegments⟩
    have hkey : [sep].intercalate (directory.splitOn sep ++ segments) = key := by
      rw [hsegments]
      exact List.intercalate_splitOn sep
    by_cases hnil : segments = []
    · left
      rw [hnil, List.append_nil, List.intercalate_splitOn] at hkey
      exact hkey.symm
    · right
      rw [intercalate_append (List.splitOn_ne_nil sep directory) hnil,
        List.intercalate_splitOn] at hkey
      refine ⟨[sep].intercalate segments, ?_⟩
      rw [List.append_assoc]
      exact hkey
  · rintro (rfl | ⟨rest, rfl⟩)
    · exact List.prefix_refl _
    · rw [Below, List.append_assoc, List.singleton_append, List.splitOn_append_cons_self]
      exact List.prefix_append _ _

theorem below_refl (sep : α) (key : List α) : Below sep key key :=
  List.prefix_refl _

theorem Below.trans (h : Below sep directory key) (h' : Below sep key key') :
    Below sep directory key' :=
  List.IsPrefix.trans h h'

theorem below_append (base rest : List α) : Below sep base (base ++ sep :: rest) := by
  rw [Below, List.splitOn_append_cons_self]
  exact List.prefix_append _ _

/-- Of two directories of one path one lies below the other. -/
theorem Below.total (h : Below sep directory key) (h' : Below sep directory' key) :
    Below sep directory directory' ∨ Below sep directory' directory :=
  List.prefix_or_prefix_of_prefix h h'

end S3mp.Encoding
