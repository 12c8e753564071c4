import Mathlib.Algebra.GroupWithZero.Nat
import S3mp.Encoding.Packing
import S3mp.Storage.Stripping

/-!
# Chunks of a document

`chunk_text` and `chunk_segments` of `knowledge/application/text_extraction.py`: a text
is cut at its paragraphs, and within a paragraph which is too long; evidence segments are
joined but never cut.
-/

namespace S3mp.Knowledge

open Encoding Storage

/-- `ExtractionLimitExceeded` is a `ValueError` of its own. -/
inductive ExtractionError where
  | value (message : String)
  | limitExceeded (message : String)
  deriving DecidableEq, Repr

/-! ## Evidence segments -/

inductive LocationValue where
  | text (s : String)
  | number (n : ℤ)
  deriving DecidableEq, Repr

abbrev Location := List (String × LocationValue)

structure EvidenceSegment where
  text : String
  location : Location
  deriving DecidableEq, Repr

structure EvidenceChunk where
  text : String
  locations : List Location
  deriving DecidableEq, Repr

/-- The local variables of `chunk_segments`. -/
structure Chunking where
  chunks : List EvidenceChunk
  textParts : List String
  locations : List Location
  currentSize : ℕ
  deriving DecidableEq, Repr

def Chunking.start : Chunking := ⟨[], [], [], 0⟩

def Chunking.flush (c : Chunking) : Chunking where
  chunks := c.chunks ++ [⟨"\n\n".intercalate c.textParts, c.locations⟩]
  textParts := []
  locations := []
  currentSize := 0

def chunkSegment (maxCharacters : ℕ) (c : Chunking) (segment : EvidenceSegment) :
    Except ExtractionError Chunking :=
  if maxCharacters < segment.text.length then
    .error (.limitExceeded "one evidence segment exceeds the configured chunk limit")
  else
    -- the separator is settled before the flush
    let separator := if c.textParts ≠ [] then 2 else 0
    let c := if c.textParts ≠ [] ∧
      maxCharacters < c.currentSize + separator + segment.text.length then c.flush else c
    .ok { c with
      textParts := c.textParts ++ [segment.text]
      locations := c.locations ++ [segment.location]
      currentSize := c.currentSize + (separator + segment.text.length) }

def chunkSegments (segments : List EvidenceSegment) (maxCharacters : ℕ) :
    Except ExtractionError (List EvidenceChunk) :=
  if maxCharacters < 1 then .error (.value "max_characters must be positive")
  else do
    let c ← segments.foldlM (chunkSegment maxCharacters) Chunking.start
    return (if c.textParts ≠ [] then c.flush else c).chunks

/-! ## Runs of segments -/

def chunkOf (run : List EvidenceSegment) : EvidenceChunk :=
  ⟨"\n\n".intercalate (run.map (·.text)), run.map (·.location)⟩

def joinedSize (run : List EvidenceSegment) : ℕ :=
  (chunkOf run).text.length

theorem joinedSize_append {run : List EvidenceSegment} (x : EvidenceSegment) (h : run ≠ []) :
    joinedSize (run ++ [x]) = joinedSize run + 2 + x.text.length := by
  have hparts : run.map (·.text) ≠ [] := by simpa using h
  simp only [joinedSize, chunkOf, List.map_append, List.map_cons, List.map_nil]
  rw [String.intercalate_append_of_ne_nil hparts (List.cons_ne_nil _ _),
    String.intercalate_singleton, String.length_append, String.length_append]
  rfl

theorem joinedSize_singleton (x : EvidenceSegment) : joinedSize [x] = x.text.length := by
  simp [joinedSize, chunkOf]

theorem joinedSize_eq (run : List EvidenceSegment) :
    joinedSize run = (run.map (·.text.length)).sum + 2 * (run.length - 1) := by
  induction run using List.reverseRecOn with
  | nil => rfl
  | append_singleton run x ih =>
      by_cases hnil : run = []
      · subst hnil
        simp [joinedSize_singleton]
      · have hpos := List.length_pos_of_ne_nil hnil
        rw [joinedSize_append x hnil, ih]
        simp
        omega

theorem joinedSize_mono {run run' : List EvidenceSegment} (h : run <:+: run') :
    joinedSize run ≤ joinedSize run' := by
  obtain ⟨before, after, rfl⟩ := h
  simp only [joinedSize_eq, List.map_append, List.sum_append, List.length_append]
  omega

/-! ## What the running size makes of the runs -/

/-- After the first flush the running size counts a separator too many. -/
def drift (closed : List (List EvidenceSegment)) : ℕ :=
  if closed = [] then 0 else 2

/-- The code's step on runs. -/
def driftStep (limit : ℕ) :
    List (List EvidenceSegment) × List EvidenceSegment → EvidenceSegment →
      List (List EvidenceSegment) × List EvidenceSegment
  | (closed, run), x =>
    if run ≠ [] ∧ limit < joinedSize (run ++ [x]) + drift closed then (closed ++ [run], [x])
    else (closed, run ++ [x])

/-- The local variables hold what is closed and what is open. -/
structure Chunking.Holds (c : Chunking)
    (state : List (List EvidenceSegment) × List EvidenceSegment) : Prop where
  chunks : c.chunks = state.1.map chunkOf
  textParts : c.textParts = state.2.map (·.text)
  locations : c.locations = state.2.map (·.location)
  currentSize : c.currentSize = joinedSize state.2 + drift state.1
  started : state.2 = [] → state.1 = []

theorem Chunking.start_holds : Chunking.start.Holds ([], []) where
  chunks := rfl
  textParts := rfl
  locations := rfl
  currentSize := rfl
  started _ := rfl

theorem chunkSegment_holds {limit : ℕ} {c : Chunking}
    {state : List (List EvidenceSegment) × List EvidenceSegment} {x : EvidenceSegment}
    (h : c.Holds state) (hx : x.text.length ≤ limit) :
    ∃ c', chunkSegment limit c x = .ok c' ∧ c'.Holds (driftStep limit state x) := by
  obtain ⟨closed, run⟩ := state
  obtain ⟨hchunks, htexts, hlocations, hsize, hstarted⟩ := h
  dsimp only at hchunks htexts hlocations hstarted hsize
  refine ⟨_, by rw [chunkSegment, if_neg (not_lt.mpr hx)], ?_⟩
  by_cases hrun : run = []
  · have hnil : c.textParts = [] := by simpa [hrun] using htexts
    have hclosed := hstarted hrun
    subst hrun hclosed
    simp only [driftStep, hnil, ne_eq, not_true_eq_false, false_and, if_false, List.nil_append]
    refine ⟨hchunks, rfl, by simp [hlocations], ?_, fun hnil ↦ by cases hnil⟩
    simp only [hsize, joinedSize_singleton, Nat.zero_add]
    exact Nat.add_comm _ _
  · have hne : c.textParts ≠ [] := by
      rw [htexts]
      simpa using hrun
    have hlarge : c.currentSize + 2 + x.text.length = joinedSize (run ++ [x]) + drift closed := by
      rw [joinedSize_append x hrun, hsize]
      omega
    simp only [driftStep, hrun, hne, ne_eq, not_false_eq_true, true_and, if_true, hlarge]
    by_cases hclose : limit < joinedSize (run ++ [x]) + drift closed
    · simp only [if_pos hclose]
      refine ⟨?_, rfl, rfl, ?_, fun hnil ↦ by cases hnil⟩
      · simp [Chunking.flush, hchunks, htexts, hlocations, chunkOf]
      · simp [Chunking.flush, joinedSize_singleton, drift]
        omega
    · simp only [if_neg hclose]
      refine ⟨hchunks, by simp [htexts], by simp [hlocations], ?_, fun hnil ↦ by simp at hnil⟩
      dsimp only
      omega

theorem foldlM_holds {limit : ℕ} {c : Chunking}
    {state : List (List EvidenceSegment) × List EvidenceSegment} {segments : List EvidenceSegment}
    (h : c.Holds state) (hfits : ∀ x ∈ segments, x.text.length ≤ limit) :
    ∃ c', segments.foldlM (chunkSegment limit) c = .ok c' ∧
      c'.Holds (segments.foldl (driftStep limit) state) := by
  induction segments generalizing c state with
  | nil => exact ⟨c, rfl, h⟩
  | cons x segments ih =>
      obtain ⟨c₁, hstep, hc₁⟩ := chunkSegment_holds h (hfits x List.mem_cons_self)
      obtain ⟨c', hrest, hc'⟩ := ih hc₁ fun y hy ↦ hfits y (List.mem_cons_of_mem _ hy)
      refine ⟨c', ?_, hc'⟩
      rw [List.foldlM_cons, hstep]
      exact hrest

theorem foldlM_error {limit : ℕ} {c : Chunking} {segments : List EvidenceSegment}
    (h : ∃ x ∈ segments, limit < x.text.length) :
    ∃ e, segments.foldlM (chunkSegment limit) c = .error e := by
  induction segments generalizing c with
  | nil => simp at h
  | cons x segments ih =>
      rw [List.foldlM_cons]
      by_cases hx : limit < x.text.length
      · refine ⟨.limitExceeded "one evidence segment exceeds the configured chunk limit", ?_⟩
        rw [chunkSegment, if_pos hx]
        rfl
      · have hrest : ∃ y ∈ segments, limit < y.text.length := by
          obtain ⟨y, hy, hlarge⟩ := h
          rcases List.mem_cons.mp hy with rfl | hy
          · exact absurd hlarge hx
          · exact ⟨y, hy, hlarge⟩
        rw [chunkSegment, if_neg hx]
        exact ih hrest

/-! ## The room the code asks for -/

/-- Every run after the first is a single segment or leaves room for another separator. -/
def Roomy (limit : ℕ) (runs : List (List EvidenceSegment)) : Prop :=
  ∀ run ∈ runs.tail, run.length ≤ 1 ∨ joinedSize run + 2 ≤ limit

instance (limit : ℕ) (runs : List (List EvidenceSegment)) : Decidable (Roomy limit runs) :=
  inferInstanceAs (Decidable (∀ _ ∈ _, _))

section

variable {limit : ℕ} {segments : List EvidenceSegment} {x : EvidenceSegment}
  {state : List (List EvidenceSegment) × List EvidenceSegment}

theorem driftStep_roomy (h : Roomy limit (state.1 ++ [state.2])) :
    Roomy limit ((driftStep limit state x).1 ++ [(driftStep limit state x).2]) := by
  obtain ⟨closed, run⟩ := state
  simp only [driftStep]
  split
  · intro r hr
    rw [List.tail_append_of_ne_nil (by simp)] at hr
    rcases List.mem_append.mp hr with hr | hr
    · exact h r hr
    · rw [List.mem_singleton.mp hr]
      exact Or.inl le_rfl
  · rename_i hopen
    intro r hr
    cases closed with
    | nil => cases hr
    | cons first closed =>
        rcases List.mem_append.mp hr with hr | hr
        · exact h r (List.mem_append_left _ hr)
        · rw [List.mem_singleton.mp hr]
          by_cases hnil : run = []
          · exact Or.inl (by simp [hnil])
          · exact Or.inr (not_lt.mp fun hlarge ↦ hopen ⟨hnil, hlarge⟩)

theorem driftStep_eq_packStep
    (h : Roomy limit ((packStep joinedSize limit state x).1 ++
      [(packStep joinedSize limit state x).2])) :
    driftStep limit state x = packStep joinedSize limit state x := by
  obtain ⟨closed, run⟩ := state
  simp only [driftStep, packStep] at h ⊢
  by_cases hrun : run = []
  · simp [hrun]
  · by_cases hlarge : limit < joinedSize (run ++ [x])
    · rw [if_pos ⟨hrun, hlarge.trans_le (Nat.le_add_right _ _)⟩, if_pos ⟨hrun, hlarge⟩]
    · have hopen : ¬ (run ≠ [] ∧ limit < joinedSize (run ++ [x])) := fun hclose ↦ hlarge hclose.2
      rw [if_neg hopen] at h ⊢
      refine if_neg fun hclose ↦ ?_
      cases closed with
      | nil => exact hlarge hclose.2
      | cons first closed =>
          have hpos := List.length_pos_of_ne_nil hrun
          have hdrift : limit < joinedSize (run ++ [x]) + 2 := hclose.2
          rcases h (run ++ [x]) (by simp) with hshort | hroom
          · rw [List.length_append, List.length_singleton] at hshort
            omega
          · omega

theorem roomy_of_packStep
    (h : Roomy limit ((packStep joinedSize limit state x).1 ++
      [(packStep joinedSize limit state x).2])) : Roomy limit (state.1 ++ [state.2]) := by
  obtain ⟨closed, run⟩ := state
  intro r hr
  simp only [packStep] at h
  split at h
  · refine h r ?_
    rw [List.tail_append_of_ne_nil (by simp)]
    exact List.mem_append_left _ hr
  · cases closed with
    | nil => cases hr
    | cons first closed =>
        rcases List.mem_append.mp hr with hr | hr
        · exact h r (List.mem_append_left _ hr)
        · rw [List.mem_singleton.mp hr]
          change run.length ≤ 1 ∨ joinedSize run + 2 ≤ limit
          have hmono := joinedSize_mono (List.prefix_append run [x]).isInfix
          rcases h (run ++ [x]) (by simp) with hshort | hroom
          · rw [List.length_append, List.length_singleton] at hshort
            exact Or.inl (by omega)
          · exact Or.inr (by omega)

theorem foldl_drift_roomy (h : Roomy limit (state.1 ++ [state.2])) :
    Roomy limit ((segments.foldl (driftStep limit) state).1 ++
      [(segments.foldl (driftStep limit) state).2]) := by
  induction segments generalizing state with
  | nil => exact h
  | cons x segments ih => exact ih (driftStep_roomy h)

theorem roomy_of_foldl
    (h : Roomy limit ((segments.foldl (packStep joinedSize limit) state).1 ++
      [(segments.foldl (packStep joinedSize limit) state).2])) :
    Roomy limit (state.1 ++ [state.2]) := by
  induction segments generalizing state with
  | nil => exact h
  | cons x segments ih => exact roomy_of_packStep (ih h)

theorem foldl_drift_eq
    (h : Roomy limit ((segments.foldl (packStep joinedSize limit) state).1 ++
      [(segments.foldl (packStep joinedSize limit) state).2])) :
    segments.foldl (driftStep limit) state = segments.foldl (packStep joinedSize limit) state := by
  induction segments generalizing state with
  | nil => rfl
  | cons x segments ih =>
      have hstep := driftStep_eq_packStep (roomy_of_foldl h)
      rw [List.foldl_cons, hstep]
      exact ih h

/-- Elements are neither lost nor repeated. -/
theorem foldl_drift_flatten :
    ((segments.foldl (driftStep limit) state).1 ++
      [(segments.foldl (driftStep limit) state).2]).flatten =
        (state.1 ++ [state.2]).flatten ++ segments := by
  induction segments generalizing state with
  | nil => exact (List.append_nil _).symm
  | cons x segments ih =>
      have hstep : ((driftStep limit state x).1 ++ [(driftStep limit state x).2]).flatten =
          (state.1 ++ [state.2]).flatten ++ [x] := by
        obtain ⟨closed, run⟩ := state
        simp only [driftStep]
        split <;> simp
      rw [List.foldl_cons, ih, hstep, List.append_assoc]
      rfl

end

/-! ## Packing the segments -/

section

variable {limit : ℕ} {segments : List EvidenceSegment}

theorem Chunking.Holds.finish {c : Chunking}
    {state : List (List EvidenceSegment) × List EvidenceSegment} (h : c.Holds state) :
    (if c.textParts ≠ [] then c.flush else c).chunks = (packed state).map chunkOf := by
  obtain ⟨closed, run⟩ := state
  by_cases hrun : run = []
  · have hnil : c.textParts = [] := by simpa [hrun] using h.textParts
    rw [if_neg (not_not.mpr hnil), packed, if_pos hrun]
    exact h.chunks
  · have hne : c.textParts ≠ [] := by
      rw [h.textParts]
      simpa using hrun
    rw [if_pos hne, packed, if_neg hrun]
    simp [Chunking.flush, h.chunks, h.textParts, h.locations, chunkOf]

theorem chunkSegments_eq_ok (hpos : 0 < limit) (hfits : ∀ x ∈ segments, x.text.length ≤ limit) :
    chunkSegments segments limit =
      .ok ((packed (segments.foldl (driftStep limit) ([], []))).map chunkOf) := by
  obtain ⟨c, hc, hholds⟩ := foldlM_holds Chunking.start_holds hfits
  rw [chunkSegments, if_neg (not_lt.mpr hpos), hc, ← hholds.finish]
  rfl

theorem chunkSegments_eq_error_iff (hpos : 0 < limit) :
    (∃ e, chunkSegments segments limit = .error e) ↔ ∃ x ∈ segments, limit < x.text.length := by
  constructor
  · rintro ⟨e, he⟩
    by_contra hfits
    push Not at hfits
    rw [chunkSegments_eq_ok hpos hfits] at he
    cases he
  · intro hlarge
    obtain ⟨e, he⟩ := foldlM_error (c := Chunking.start) hlarge
    refine ⟨e, ?_⟩
    rw [chunkSegments, if_neg (not_lt.mpr hpos), he]
    rfl

/-- The chunks are those of consecutive runs which take in as many segments as fit, and of
no fewer runs can all segments be packed. -/
def PacksGreedily (limit : ℕ) (segments : List EvidenceSegment) (chunks : List EvidenceChunk) :
    Prop :=
  ∃ runs, IsPacking joinedSize limit segments runs ∧ Greedy joinedSize limit runs ∧
    chunks = runs.map chunkOf ∧
    ∀ others, IsPacking joinedSize limit segments others → chunks.length ≤ others.length

/-- Whoever has the chunks has the runs, since each chunk has the location of every segment. -/
theorem runs_of_chunks {runs others : List (List EvidenceSegment)}
    (hflatten : runs.flatten = others.flatten) (h : runs.map chunkOf = others.map chunkOf) :
    runs = others := by
  rw [List.eq_iff_flatten_eq]
  refine ⟨hflatten, ?_⟩
  have hlengths := congrArg (List.map fun chunk ↦ chunk.locations.length) h
  simpa [chunkOf, Function.comp_def] using hlengths

theorem roomy_packed {state : List (List EvidenceSegment) × List EvidenceSegment}
    (hstarted : state.2 = [] → state.1 = []) :
    Roomy limit (packed state) ↔ Roomy limit (state.1 ++ [state.2]) := by
  obtain ⟨closed, run⟩ := state
  by_cases hrun : run = []
  · obtain rfl : closed = [] := hstarted hrun
    simp [packed, hrun, Roomy]
  · rw [packed, if_neg hrun]

theorem packed_foldl (hpos : 0 < limit) (hfits : ∀ x ∈ segments, x.text.length ≤ limit) :
    Packed joinedSize limit segments (segments.foldl (packStep joinedSize limit) ([], [])) := by
  refine (packed_nil hpos.le).foldl fun x hx ↦ ?_
  rw [joinedSize_singleton]
  exact hfits x hx

theorem chunkSegments_packs_iff (segments : List EvidenceSegment) {maxCharacters : ℕ}
    (hpos : 0 < maxCharacters) :
    (((∃ e, chunkSegments segments maxCharacters = .error e) ↔
        ∃ x ∈ segments, maxCharacters < x.text.length) ∧
      ∀ chunks, chunkSegments segments maxCharacters = .ok chunks →
        PacksGreedily maxCharacters segments chunks) ↔
      (∃ x ∈ segments, maxCharacters < x.text.length) ∨
        Roomy maxCharacters (pack joinedSize maxCharacters segments) := by
  have herror : (∃ e, chunkSegments segments maxCharacters = .error e) ↔ _ :=
    chunkSegments_eq_error_iff hpos
  rw [and_iff_right herror]
  by_cases hlarge : ∃ x ∈ segments, maxCharacters < x.text.length
  · obtain ⟨e, he⟩ := herror.mpr hlarge
    rw [he]
    exact iff_of_true (fun _ h ↦ by cases h) (Or.inl hlarge)
  · rw [or_iff_right hlarge]
    push Not at hlarge
    have hpacked := packed_foldl hpos hlarge
    obtain ⟨hpacking, hgreedy⟩ := hpacked.isPacking
    rw [chunkSegments_eq_ok hpos hlarge]
    constructor
    · intro h
      obtain ⟨runs, hruns, hruns', hchunks, -⟩ := h _ rfl
      obtain ⟨c, -, hholds⟩ := foldlM_holds Chunking.start_holds hlarge
      have hroomy : Roomy maxCharacters
          ((segments.foldl (driftStep maxCharacters) ([], [])).1 ++
            [(segments.foldl (driftStep maxCharacters) ([], [])).2]) :=
        foldl_drift_roomy fun run hrun ↦ by cases hrun
      have hflatten : (packed (segments.foldl (driftStep maxCharacters) ([], []))).flatten =
          runs.flatten := by
        rw [packed_flatten, foldl_drift_flatten, hruns.flatten]
        rfl
      have hsame : pack joinedSize maxCharacters segments = runs :=
        hgreedy.unique (fun _ _ ↦ joinedSize_mono) hpacking hruns' hruns
      rw [hsame, ← runs_of_chunks hflatten hchunks]
      exact (roomy_packed hholds.started).mpr hroomy
    · rintro hroomy chunks ⟨⟩
      have hsame : segments.foldl (driftStep maxCharacters) ([], []) =
          segments.foldl (packStep joinedSize maxCharacters) ([], []) :=
        foldl_drift_eq ((roomy_packed hpacked.started).mp hroomy)
      rw [hsame]
      refine ⟨_, hpacking, hgreedy, rfl, fun others hothers ↦ ?_⟩
      rw [List.length_map]
      exact hgreedy.length_le (fun _ _ ↦ joinedSize_mono) hpacking hothers

theorem chunkSegments_packs_pages :
    ((∃ e, chunkSegments [⟨"a", []⟩, ⟨"b", []⟩] 2 = .error e) ↔
        ∃ x ∈ [(⟨"a", []⟩ : EvidenceSegment), ⟨"b", []⟩], 2 < x.text.length) ∧
      ∀ chunks, chunkSegments [⟨"a", []⟩, ⟨"b", []⟩] 2 = .ok chunks →
        PacksGreedily 2 [⟨"a", []⟩, ⟨"b", []⟩] chunks :=
  (chunkSegments_packs_iff [⟨"a", []⟩, ⟨"b", []⟩] (by decide)).mpr (Or.inr (by decide))

/-- After the first chunk a run is closed although its next segment fits exactly. -/
theorem chunkSegments_closes_early : ¬ ∀ (segments : List EvidenceSegment) (maxCharacters : ℕ),
    0 < maxCharacters →
      ((∃ e, chunkSegments segments maxCharacters = .error e) ↔
        ∃ x ∈ segments, maxCharacters < x.text.length) ∧
      ∀ chunks, chunkSegments segments maxCharacters = .ok chunks →
        PacksGreedily maxCharacters segments chunks := by
  intro h
  obtain ⟨-, hpacks⟩ := h [⟨"aaa", []⟩, ⟨"b", []⟩, ⟨"b", []⟩] 4 (by decide)
  have hchunks : chunkSegments [⟨"aaa", []⟩, ⟨"b", []⟩, ⟨"b", []⟩] 4 =
      .ok [⟨"aaa", [[]]⟩, ⟨"b", [[]]⟩, ⟨"b", [[]]⟩] := by decide
  obtain ⟨runs, -, -, -, hleast⟩ := hpacks _ hchunks
  have htwo : IsPacking joinedSize 4 [⟨"aaa", []⟩, ⟨"b", []⟩, ⟨"b", []⟩]
      [[⟨"aaa", []⟩], [⟨"b", []⟩, ⟨"b", []⟩]] := ⟨rfl, by decide, by decide⟩
  exact absurd (hleast _ htwo) (by decide)

end

/-! ## Chunks of a text -/

/-- `text.split("\n\n")` -/
def splitParagraphs : List Char → List (List Char)
  | [] => [[]]
  | '\n' :: '\n' :: rest => [] :: splitParagraphs rest
  | c :: rest => (splitParagraphs rest).modifyHead (c :: ·)

def flushChunk (chunks : List (List Char)) (current : List Char) : List (List Char) :=
  if current ≠ [] then chunks ++ [current] else chunks

/-- The loop over a paragraph longer than a chunk.  It ends since each round shortens the
paragraph by at least one character. -/
def splitOverlong (maxCharacters : ℕ) (hpos : ¬ maxCharacters < 1) (chunks : List (List Char))
    (current paragraph : List Char) : List (List Char) × List Char × List Char :=
  if maxCharacters < paragraph.length then
    splitOverlong maxCharacters hpos
      (flushChunk chunks current ++ [paragraph.take maxCharacters]) []
      (paragraph.drop maxCharacters)
  else (chunks, current, paragraph)
termination_by paragraph.length
decreasing_by rw [List.length_drop]; omega

def chunkParagraph (maxCharacters : ℕ) (hpos : ¬ maxCharacters < 1) :
    List (List Char) × List Char → List Char → List (List Char) × List Char
  | (chunks, current), paragraph =>
    let paragraph := strip paragraph
    if paragraph = [] then (chunks, current)
    else
      let state := if current ≠ [] ∧ maxCharacters < current.length + paragraph.length + 2 then
        (chunks ++ [current], []) else (chunks, current)
      let (chunks, current, paragraph) := splitOverlong maxCharacters hpos state.1 state.2 paragraph
      (chunks, if current ≠ [] then strip (current ++ ['\n', '\n'] ++ paragraph) else paragraph)

def chunkText (text : String) (maxCharacters : ℕ) : Except ExtractionError (List String) :=
  if hpos : maxCharacters < 1 then .error (.value "max_characters must be positive")
  else if text = "" then .ok []
  else
    let (chunks, current) :=
      (splitParagraphs text.toList).foldl (chunkParagraph maxCharacters hpos) ([], [])
    .ok ((flushChunk chunks current).map String.ofList)

/-- The characters which are not white space. -/
def inked (text : List Char) : List Char :=
  text.filter (!isPySpace ·)

@[simp] theorem inked_nil : inked [] = [] := rfl

@[simp] theorem inked_append (s t : List Char) : inked (s ++ t) = inked s ++ inked t :=
  List.filter_append s t

@[simp] theorem inked_strip (s : List Char) : inked (strip s) = inked s := filter_strip s

theorem splitParagraphs_ne_nil (text : List Char) : splitParagraphs text ≠ [] := by
  fun_induction splitParagraphs text with
  | case1 => exact List.cons_ne_nil _ _
  | case2 rest ih => exact List.cons_ne_nil _ _
  | case3 c rest hrest ih => simpa using ih

theorem inked_splitParagraphs (text : List Char) :
    inked (splitParagraphs text).flatten = inked text := by
  fun_induction splitParagraphs text with
  | case1 => rfl
  | case2 rest ih => exact ih
  | case3 c rest hrest ih =>
      obtain ⟨first, others, hsplit⟩ := List.exists_cons_of_ne_nil (splitParagraphs_ne_nil rest)
      rw [hsplit] at ih ⊢
      change inked ([c] ++ (first :: others).flatten) = inked ([c] ++ rest)
      rw [inked_append, ih, inked_append]

section

variable {limit : ℕ} {hpos : ¬ limit < 1}

/-- Neither empty nor larger than allowed. -/
def FitsChunk (limit : ℕ) (chunk : List Char) : Prop :=
  chunk ≠ [] ∧ chunk.length ≤ limit

theorem flushChunk_flatten (chunks : List (List Char)) (current : List Char) :
    (flushChunk chunks current).flatten = chunks.flatten ++ current := by
  unfold flushChunk
  split
  · simp
  · rename_i hnil
    rw [not_not.mp hnil, List.append_nil]

theorem flushChunk_fits {chunks : List (List Char)} {current : List Char}
    (hchunks : ∀ chunk ∈ chunks, FitsChunk limit chunk) (hcurrent : current.length ≤ limit) :
    ∀ chunk ∈ flushChunk chunks current, FitsChunk limit chunk := by
  intro chunk hchunk
  unfold flushChunk at hchunk
  split at hchunk
  · rename_i hne
    rcases List.mem_append.mp hchunk with hchunk | hchunk
    · exact hchunks chunk hchunk
    · rw [List.mem_singleton.mp hchunk]
      exact ⟨hne, hcurrent⟩
  · exact hchunks chunk hchunk

theorem splitOverlong_spec (hpos : ¬ limit < 1) {chunks : List (List Char)} {current paragraph : List Char}
    (hchunks : ∀ chunk ∈ chunks, FitsChunk limit chunk) (hcurrent : current.length ≤ limit)
    (hparagraph : paragraph ≠ []) :
    ∃ chunks' current' paragraph',
      splitOverlong limit hpos chunks current paragraph = (chunks', current', paragraph') ∧
      (∀ chunk ∈ chunks', FitsChunk limit chunk) ∧ FitsChunk limit paragraph' ∧
      chunks'.flatten ++ current' ++ paragraph' = chunks.flatten ++ current ++ paragraph ∧
      (current' = [] ∨ current' = current ∧ paragraph' = paragraph) := by
  fun_induction splitOverlong limit hpos chunks current paragraph with
  | case1 chunks current paragraph hlong ih =>
      have htake : FitsChunk limit (paragraph.take limit) := by
        refine ⟨?_, List.length_take_le _ _⟩
        rw [ne_eq, List.take_eq_nil_iff, not_or]
        exact ⟨by omega, hparagraph⟩
      have hall : ∀ chunk ∈ flushChunk chunks current ++ [paragraph.take limit],
          FitsChunk limit chunk := by
        intro chunk hchunk
        rcases List.mem_append.mp hchunk with hchunk | hchunk
        · exact flushChunk_fits hchunks hcurrent chunk hchunk
        · rw [List.mem_singleton.mp hchunk]
          exact htake
      have hdrop : paragraph.drop limit ≠ [] := by
        rw [ne_eq, List.drop_eq_nil_iff]
        omega
      obtain ⟨chunks', current', paragraph', heq, hchunks', hfits, hflatten, hempty⟩ :=
        ih hall (Nat.zero_le _) hdrop
      refine ⟨chunks', current', paragraph', heq, hchunks', hfits, ?_, Or.inl ?_⟩
      · rw [hflatten, List.flatten_append, flushChunk_flatten, List.append_nil,
          List.flatten_singleton, List.append_assoc, List.take_append_drop]
      · rcases hempty with hempty | ⟨hempty, -⟩
        · exact hempty
        · exact hempty
  | case2 chunks current paragraph hlong =>
      exact ⟨chunks, current, paragraph, rfl, hchunks, ⟨hparagraph, not_lt.mp hlong⟩, rfl,
        Or.inr ⟨rfl, rfl⟩⟩

/-- What is closed and what is open holds the text met so far. -/
structure Covers (limit : ℕ) (text : List Char) (state : List (List Char) × List Char) : Prop where
  chunks : ∀ chunk ∈ state.1, FitsChunk limit chunk
  current : state.2.length ≤ limit
  text : inked (state.1.flatten ++ state.2) = inked text

theorem Covers.paragraph {text paragraph : List Char} {state : List (List Char) × List Char}
    (h : Covers limit text state) :
    Covers limit (text ++ paragraph) (chunkParagraph limit hpos state paragraph) := by
  obtain ⟨chunks, current⟩ := state
  obtain ⟨hchunks, hcurrent, htext⟩ := h
  dsimp only at hchunks hcurrent htext
  have hinked : inked (chunks.flatten ++ current ++ strip paragraph) =
      inked (text ++ paragraph) := by
    rw [inked_append, inked_strip, htext, inked_append]
  by_cases hblank : strip paragraph = []
  · simp only [chunkParagraph, hblank, if_true]
    refine ⟨hchunks, hcurrent, ?_⟩
    rwa [hblank, List.append_nil] at hinked
  · simp only [chunkParagraph, hblank, if_false]
    by_cases hlarge : current ≠ [] ∧ limit < current.length + (strip paragraph).length + 2
    · -- the open chunk is closed, and none is open after the loop
      have hflush : flushChunk chunks current = chunks ++ [current] := if_pos hlarge.1
      have hflatten := flushChunk_flatten chunks current
      have hfits := flushChunk_fits hchunks hcurrent
      have hnone : ([] : List Char).length ≤ limit := Nat.zero_le _
      rw [hflush] at hflatten hfits
      obtain ⟨chunks', current', paragraph', heq, hchunks', hlast, hall, hempty⟩ :=
        splitOverlong_spec hpos hfits hnone hblank
      obtain rfl : current' = [] := hempty.elim id And.left
      rw [if_pos hlarge, heq]
      refine ⟨hchunks', hlast.2, ?_⟩
      rw [← hinked, ← hflatten]
      simpa using congrArg inked hall
    · obtain ⟨chunks', current', paragraph', heq, hchunks', hlast, hall, hempty⟩ :=
        splitOverlong_spec hpos hchunks hcurrent hblank
      rw [if_neg hlarge, heq]
      rw [← hall] at hinked
      by_cases hopen : current' = []
      · refine ⟨hchunks', ?_, ?_⟩
        · simpa [hopen] using hlast.2
        · simpa [hopen] using hinked
      · obtain ⟨rfl, rfl⟩ : current' = current ∧ paragraph' = strip paragraph :=
          hempty.resolve_left hopen
        have hroom : current'.length + (strip paragraph).length + 2 ≤ limit :=
          not_lt.mp fun hover ↦ hlarge ⟨hopen, hover⟩
        refine ⟨hchunks', ?_, ?_⟩
        · simp only [ne_eq, hopen, not_false_eq_true, if_true]
          refine (length_strip_le _).trans ?_
          simp only [List.length_append, List.length_cons, List.length_nil]
          omega
        · have hnewlines : inked ['\n', '\n'] = [] := by decide
          rw [← hinked]
          simp only [ne_eq, hopen, not_false_eq_true, if_true, inked_append, inked_strip, hnewlines,
            List.nil_append, List.append_assoc]

theorem Covers.foldl {text : List Char} {state : List (List Char) × List Char}
    (h : Covers limit text state) (hpos : ¬ limit < 1) (paragraphs : List (List Char)) :
    Covers limit (text ++ paragraphs.flatten)
      (paragraphs.foldl (chunkParagraph limit hpos) state) := by
  induction paragraphs generalizing text state with
  | nil => rwa [List.flatten_nil, List.append_nil]
  | cons paragraph paragraphs ih =>
      rw [List.flatten_cons, ← List.append_assoc]
      exact ih h.paragraph

end

/-- Every chunk fits, and all together hold every character which is not white space. -/
theorem chunkText_covers (text : String) {maxCharacters : ℕ} (hpos : 0 < maxCharacters) :
    ∃ chunks, chunkText text maxCharacters = .ok chunks ∧
      (∀ chunk ∈ chunks, chunk ≠ "" ∧ chunk.length ≤ maxCharacters) ∧
      inked (chunks.flatMap String.toList) = inked text.toList := by
  have hnot : ¬ maxCharacters < 1 := not_lt.mpr hpos
  by_cases hempty : text = ""
  · refine ⟨[], ?_, by simp, ?_⟩
    · rw [chunkText, dif_neg hnot, if_pos hempty]
    · rw [hempty]
      rfl
  · have hstart : Covers maxCharacters [] ([], []) := ⟨by simp, Nat.zero_le _, rfl⟩
    have hcovers := hstart.foldl hnot (splitParagraphs text.toList)
    refine ⟨_, by rw [chunkText, dif_neg hnot, if_neg hempty], ?_, ?_⟩
    · intro chunk hchunk
      obtain ⟨list, hlist, rfl⟩ := List.mem_map.mp hchunk
      obtain ⟨hne, hlength⟩ := flushChunk_fits hcovers.chunks hcovers.current list hlist
      exact ⟨by simpa using hne, by simpa using hlength⟩
    · rw [List.flatMap_map]
      simp only [String.toList_ofList, List.flatMap_id', flushChunk_flatten]
      rw [hcovers.text, List.nil_append, inked_splitParagraphs]

theorem chunkText_covers_words : ∃ chunks, chunkText "a  bc" 2 = .ok chunks ∧
    (∀ chunk ∈ chunks, chunk ≠ "" ∧ chunk.length ≤ 2) ∧
    inked (chunks.flatMap String.toList) = inked "a  bc".toList :=
  chunkText_covers "a  bc" (by decide)

end S3mp.Knowledge
