import Mathlib.Data.List.Chain
import Mathlib.Data.List.Infix

/-!
# Packing a sequence into runs

A sequence is cut into consecutive runs none of which is larger than a limit.  A run is
closed only when the next element would make it too large, and then no other packing
has fewer runs.
-/

namespace S3mp.Encoding

variable {α : Type} {size : List α → ℕ} {limit : ℕ} {xs : List α} {runs : List (List α)}

/-- Consecutive runs which are not empty and not larger than the limit. -/
structure IsPacking (size : List α → ℕ) (limit : ℕ) (xs : List α) (runs : List (List α)) :
    Prop where
  flatten : runs.flatten = xs
  nonempty : ∀ run ∈ runs, run ≠ []
  fits : ∀ run ∈ runs, size run ≤ limit

theorem IsPacking.tail {run : List α} (h : IsPacking size limit xs (run :: runs)) :
    IsPacking size limit runs.flatten runs where
  flatten := rfl
  nonempty r hr := h.nonempty r (List.mem_cons_of_mem _ hr)
  fits r hr := h.fits r (List.mem_cons_of_mem _ hr)

/-- No run has room for the first element of the next one. -/
def Greedy (size : List α → ℕ) (limit : ℕ) (runs : List (List α)) : Prop :=
  runs.IsChain fun run next ↦ ∀ x ∈ next.head?, limit < size (run ++ [x])

/-! ## Greedy packings are shortest -/

section

variable (hmono : ∀ run run' : List α, run <:+: run' → size run ≤ size run')
include hmono

/-- A run which fits and goes on after the first run of a greedy packing goes on with nothing. -/
theorem Greedy.no_room {before run other more : List α} {rest : List α}
    (hgreedy : Greedy size limit (run :: runs)) (hpacking : IsPacking size limit xs (run :: runs))
    (hfits : size other ≤ limit) (hother : other = before ++ run ++ more)
    (hrest : runs.flatten = more ++ rest) : more = [] := by
  cases more with
  | nil => rfl
  | cons x more =>
      exfalso
      cases runs with
      | nil => cases hrest
      | cons next runs =>
          have hnext : next.head? = some x := by
            have hne := hpacking.nonempty next (List.mem_cons_of_mem _ List.mem_cons_self)
            cases next with
            | nil => exact absurd rfl hne
            | cons y next => exact congrArg some (List.cons.inj hrest).1
          have hlarge := hgreedy.rel x hnext
          have hinfix : run ++ [x] <:+: other := by
            rw [hother]
            exact ⟨before, more, by simp⟩
          exact absurd (hlarge.trans_le ((hmono _ _ hinfix).trans hfits)) (lt_irrefl _)

/-- A greedy packing gets at least as far with its first runs as any packing does, even one which
starts earlier. -/
theorem Greedy.length_le_of_suffix {before : List α} {others : List (List α)}
    (hgreedy : Greedy size limit runs) (hpacking : IsPacking size limit xs runs)
    (hothers : IsPacking size limit (before ++ xs) others) : runs.length ≤ others.length := by
  induction runs generalizing xs before others with
  | nil => exact Nat.zero_le _
  | cons run runs ih =>
      have hxs : run ++ runs.flatten = xs := hpacking.flatten
      cases others with
      | nil =>
          have hnil : before ++ xs = [] := hothers.flatten.symm
          rw [← hxs] at hnil
          exact absurd (List.append_eq_nil_iff.mp (List.append_eq_nil_iff.mp hnil).2).1
            (hpacking.nonempty run List.mem_cons_self)
      | cons other others =>
          have hother : (before ++ run) ++ runs.flatten = other ++ others.flatten := by
            rw [List.append_assoc, hxs]
            exact hothers.flatten.symm
          -- the first of the other runs ends before ours does
          obtain ⟨rest, hrest⟩ : ∃ rest, others.flatten = rest ++ runs.flatten := by
            rcases List.append_eq_append_iff.mp hother with ⟨more, hmore, hruns⟩ | ⟨rest, -, hrest⟩
            · have hnil := hgreedy.no_room hmono hpacking (hothers.fits other List.mem_cons_self)
                hmore hruns
              rw [hnil] at hruns
              exact ⟨[], hruns.symm⟩
            · exact ⟨rest, hrest⟩
          have htheirs : IsPacking size limit (rest ++ runs.flatten) others := hrest ▸ hothers.tail
          exact Nat.succ_le_succ (ih hgreedy.tail hpacking.tail htheirs)

theorem Greedy.length_le {others : List (List α)} (hgreedy : Greedy size limit runs)
    (hpacking : IsPacking size limit xs runs) (hothers : IsPacking size limit xs others) :
    runs.length ≤ others.length := by
  have hothers' : IsPacking size limit ([] ++ xs) others := hothers
  exact hgreedy.length_le_of_suffix hmono hpacking hothers'

/-- Of two greedy packings neither first run can end before the other. -/
theorem Greedy.unique {others : List (List α)} (hgreedy : Greedy size limit runs)
    (hpacking : IsPacking size limit xs runs) (hgreedy' : Greedy size limit others)
    (hothers : IsPacking size limit xs others) : runs = others := by
  induction runs generalizing xs others with
  | nil =>
      cases others with
      | nil => rfl
      | cons other others =>
          have hnil : other ++ others.flatten = [] := hothers.flatten.trans hpacking.flatten.symm
          exact absurd (List.append_eq_nil_iff.mp hnil).1 (hothers.nonempty other List.mem_cons_self)
  | cons run runs ih =>
      have hxs : run ++ runs.flatten = xs := hpacking.flatten
      cases others with
      | nil =>
          rw [← hothers.flatten] at hxs
          exact absurd (List.append_eq_nil_iff.mp hxs).1 (hpacking.nonempty run List.mem_cons_self)
      | cons other others =>
          have hother : other ++ others.flatten = xs := hothers.flatten
          have hsame : run = other := by
            rcases List.append_eq_append_iff.mp (hxs.trans hother.symm) with
              ⟨more, hmore, hruns⟩ | ⟨more, hmore, hruns⟩
            · have hmore' : other = [] ++ run ++ more := hmore
              have hnil := hgreedy.no_room hmono hpacking (hothers.fits other List.mem_cons_self)
                hmore' hruns
              rw [hmore, hnil, List.append_nil]
            · have hmore' : run = [] ++ other ++ more := hmore
              have hnil := hgreedy'.no_room hmono hothers (hpacking.fits run List.mem_cons_self)
                hmore' hruns
              rw [hmore, hnil, List.append_nil]
          subst hsame
          have hflatten : others.flatten = runs.flatten :=
            List.append_cancel_left (hother.trans hxs.symm)
          have htheirs : IsPacking size limit runs.flatten others := hflatten ▸ hothers.tail
          have hruns : runs = others := ih hgreedy.tail hpacking.tail hgreedy'.tail htheirs
          rw [hruns]

end

/-! ## Packing one element after the other -/

/-- The runs which are closed, and the open one. -/
def packStep (size : List α → ℕ) (limit : ℕ) :
    List (List α) × List α → α → List (List α) × List α
  | (closed, run), x =>
    if run ≠ [] ∧ limit < size (run ++ [x]) then (closed ++ [run], [x]) else (closed, run ++ [x])

/-- What is closed and what is open pack the elements met so far. -/
structure Packed (size : List α → ℕ) (limit : ℕ) (xs : List α)
    (state : List (List α) × List α) : Prop where
  flatten : (state.1 ++ [state.2]).flatten = xs
  nonempty : ∀ run ∈ state.1, run ≠ []
  fits : ∀ run ∈ state.1 ++ [state.2], size run ≤ limit
  greedy : Greedy size limit (state.1 ++ [state.2])
  started : state.2 = [] → state.1 = []

theorem packed_nil (h : size [] ≤ limit) : Packed size limit [] ([], []) where
  flatten := rfl
  nonempty := by simp
  fits := by simpa using h
  greedy := List.isChain_singleton _
  started _ := rfl

theorem Packed.step {state : List (List α) × List α} {x : α} (h : Packed size limit xs state)
    (hx : size [x] ≤ limit) : Packed size limit (xs ++ [x]) (packStep size limit state x) := by
  obtain ⟨closed, run⟩ := state
  simp only [packStep]
  split
  · rename_i hclose
    refine ⟨?_, ?_, ?_, ?_, fun hnil ↦ by cases hnil⟩
    · rw [List.flatten_append, h.flatten]
      rfl
    · intro r hr
      rcases List.mem_append.mp hr with hr | hr
      · exact h.nonempty r hr
      · rw [List.mem_singleton.mp hr]
        exact hclose.1
    · intro r hr
      rcases List.mem_append.mp hr with hr | hr
      · exact h.fits r hr
      · rwa [List.mem_singleton.mp hr]
    · refine h.greedy.append (List.isChain_singleton _) fun r hr next hnext y hy ↦ ?_
      obtain rfl : run = r := by simpa using hr
      obtain rfl : [x] = next := by simpa using hnext
      obtain rfl : x = y := by simpa using hy
      exact hclose.2
  · rename_i hopen
    have hfits : size (run ++ [x]) ≤ limit := by
      by_cases hnil : run = []
      · subst hnil
        exact hx
      · exact not_lt.mp fun hlarge ↦ hopen ⟨hnil, hlarge⟩
    refine ⟨?_, h.nonempty, ?_, ?_, fun hnil ↦ by simp at hnil⟩
    · rw [← h.flatten]
      simp
    · intro r hr
      rcases List.mem_append.mp hr with hr | hr
      · exact h.fits r (List.mem_append_left _ hr)
      · rwa [List.mem_singleton.mp hr]
    · by_cases hnil : run = []
      · have hclosed : closed = [] := h.started hnil
        subst hclosed
        exact List.isChain_singleton _
      · obtain ⟨hchain, -, hlast⟩ := List.isChain_append.mp h.greedy
        refine hchain.append (List.isChain_singleton _) fun r hr next hnext y hy ↦ ?_
        obtain rfl : run ++ [x] = next := by simpa using hnext
        rw [List.head?_append_of_ne_nil _ hnil] at hy
        exact hlast r hr run (by simp) y hy

/-- The open run is closed at the end. -/
def packed (state : List (List α) × List α) : List (List α) :=
  if state.2 = [] then state.1 else state.1 ++ [state.2]

theorem packed_flatten (state : List (List α) × List α) :
    (packed state).flatten = (state.1 ++ [state.2]).flatten := by
  unfold packed
  split
  · rename_i hnil
    simp [hnil]
  · rfl

theorem Packed.isPacking {state : List (List α) × List α} (h : Packed size limit xs state) :
    IsPacking size limit xs (packed state) ∧ Greedy size limit (packed state) := by
  unfold packed
  split
  · rename_i hnil
    have hclosed := h.started hnil
    rw [hclosed]
    refine ⟨⟨?_, by simp, by simp⟩, List.isChain_nil⟩
    rw [← h.flatten, hclosed, hnil]
    rfl
  · rename_i hopen
    refine ⟨⟨h.flatten, fun r hr ↦ ?_, h.fits⟩, h.greedy⟩
    rcases List.mem_append.mp hr with hr | hr
    · exact h.nonempty r hr
    · rwa [List.mem_singleton.mp hr]

/-- The greedy packing of a sequence. -/
def pack (size : List α → ℕ) (limit : ℕ) (xs : List α) : List (List α) :=
  packed (xs.foldl (packStep size limit) ([], []))

theorem Packed.foldl {ys : List α} {state : List (List α) × List α}
    (h : Packed size limit xs state) (hys : ∀ y ∈ ys, size [y] ≤ limit) :
    Packed size limit (xs ++ ys) (ys.foldl (packStep size limit) state) := by
  induction ys generalizing xs state with
  | nil => rwa [List.append_nil]
  | cons y ys ih =>
      rw [List.append_cons]
      exact ih (h.step (hys y List.mem_cons_self)) fun y hy ↦ hys y (List.mem_cons_of_mem _ hy)

end S3mp.Encoding
