import S3mp.Encoding.Segments
import S3mp.Knowledge.ExclusionRules
import S3mp.Storage.Policy
import S3mp.Storage.Stripping

/-!
# Which keys a rule excludes

A rule is stored normalised and normalised again for every key, and so is the key.  The
second normalisation takes off white space at both ends, and refuses the root.
-/

namespace S3mp.Knowledge

open Authorization Encoding Relational Storage

/-! ## Paths of proper segments -/

/-- No segment is empty or stands for another directory, and no character for a slash. -/
structure Proper (path : List Char) : Prop where
  segments : ∀ segment ∈ path.splitOn '/',
    segment ≠ [] ∧ segment ≠ ['.'] ∧ segment ≠ ['.', '.']
  noBackslash : '\\' ∉ path

/-- What `normalize_directory_path` asks of a stripped path besides the root. -/
def Relative (raw : List Char) : Prop :=
  raw.head? ≠ some '/' ∧ pathParts raw ≠ [] ∧ ['.', '.'] ∉ pathParts raw

variable {path key rule : String}

theorem proper_of_canonical (h : canonicalObjectKey key false = some key) : Proper key.toList := by
  unfold canonicalObjectKey at h
  split at h
  · cases h
  rename_i hempty
  split at h
  · rename_i hcanonical
    have hne : key ≠ "" := fun hnil ↦ hempty ⟨hnil, rfl⟩
    rw [isCanonicalPrefix, Bool.or_eq_true, decide_eq_true_eq, or_iff_right hne] at hcanonical
    simp only [Bool.and_eq_true, List.all_eq_true] at hcanonical
    obtain ⟨⟨-, hchars⟩, hsegments⟩ := hcanonical
    constructor
    · intro segment hsegment
      have hproper := hsegments segment hsegment
      simpa [not_or] using hproper
    · intro hbackslash
      exact absurd (hchars '\\' hbackslash) (by decide)
  · cases h

theorem Proper.head? {p : List Char} (h : Proper p) : p.head? ≠ some '/' := by
  intro hhead
  cases p with
  | nil => cases hhead
  | cons c p =>
      obtain rfl : c = '/' := Option.some.inj hhead
      have hempty : [] ∈ ('/' :: p).splitOn '/' := by
        rw [List.splitOn_cons_eq_if_modifyHead]
        exact List.mem_cons_self
      exact (h.segments [] hempty).1 rfl

theorem Proper.ne_nil {p : List Char} (h : Proper p) : p ≠ [] := by
  rintro rfl
  exact (h.segments [] List.mem_cons_self).1 rfl

theorem Proper.pathParts {p : List Char} (h : Proper p) : pathParts p = p.splitOn '/' := by
  refine List.filter_eq_self.mpr fun segment hsegment ↦ ?_
  obtain ⟨hempty, hdot, -⟩ := h.segments segment hsegment
  exact decide_eq_true ⟨hempty, hdot⟩

theorem Proper.relative {p : List Char} (h : Proper p) : Relative p := by
  refine ⟨h.head?, ?_, ?_⟩
  · rw [h.pathParts]
    exact List.splitOn_ne_nil _ _
  · rw [h.pathParts]
    exact fun hmem ↦ (h.segments _ hmem).2.2 rfl

/-! ## Normalisation -/

theorem splitOn_pathParts {raw : List Char} (h : Relative raw) :
    (['/'].intercalate (pathParts raw)).splitOn '/' = pathParts raw := by
  refine List.splitOn_intercalate _ (fun part hpart ↦ ?_) h.2.1
  exact not_mem_of_mem_splitOn (List.mem_of_mem_filter hpart)

theorem proper_of_relative {raw : List Char} (h : Relative raw) (hbackslash : '\\' ∉ raw) :
    Proper (['/'].intercalate (pathParts raw)) := by
  constructor
  · intro segment hsegment
    rw [splitOn_pathParts h] at hsegment
    obtain ⟨hempty, hdot⟩ := of_decide_eq_true (List.mem_filter.mp hsegment).2
    exact ⟨hempty, hdot, fun heq ↦ h.2.2 (heq ▸ hsegment)⟩
  · intro hmem
    rcases mem_of_mem_intercalate hmem with h | ⟨part, hpart, hchar⟩
    · exact absurd h (by decide)
    · exact hbackslash (mem_of_mem_splitOn (List.mem_of_mem_filter hpart) hchar)

/-- The path as `normalize_directory_path` reads it. -/
def rawPath (path : String) : List Char :=
  (strip path.toList).map fun c ↦ if c = '\\' then '/' else c

theorem rawPath_noBackslash (path : String) : '\\' ∉ rawPath path := by
  intro h
  obtain ⟨c, -, hc⟩ := List.mem_map.mp h
  split at hc
  · exact absurd hc (by decide)
  · contradiction

theorem rawPath_eq_strip (h : '\\' ∉ path.toList) : rawPath path = strip path.toList := by
  refine (List.map_congr_left fun c hc ↦ ?_).trans (List.map_id _)
  refine if_neg fun heq ↦ h ?_
  rw [← heq]
  exact (isInfix_strip path.toList).subset hc

/-- A path is normalised to the root, to its parts or not at all. -/
theorem normalizeDirectoryPath_eq_ok_iff {r : String} :
    normalizeDirectoryPath path = .ok r ↔
      (rawPath path = ['/'] ∧ r = "") ∨
        (Relative (rawPath path) ∧
          r = String.ofList (['/'].intercalate (pathParts (rawPath path)))) := by
  have hnil : ¬ Relative [] := fun h ↦ h.2.1 rfl
  have hroot : ¬ Relative ['/'] := fun h ↦ h.1 rfl
  simp only [normalizeDirectoryPath]
  rw [← rawPath]
  by_cases hempty : rawPath path = []
  · simp [hempty, hnil]
  by_cases hslash : rawPath path = ['/']
  · simp [hslash, hroot, eq_comm]
  rw [if_neg hempty, if_neg hslash]
  by_cases habsolute : (rawPath path).head? = some '/'
  · simp [habsolute, hslash, Relative]
  rw [if_neg habsolute]
  by_cases hparts : pathParts (rawPath path) = []
  · simp [hparts, hslash, Relative]
  by_cases hup : ['.', '.'] ∈ pathParts (rawPath path)
  · simp [hup, hslash, Relative]
  · have hrest : ¬ (pathParts (rawPath path) = [] ∨
        (pathParts (rawPath path)).any (· = ['.', '.'])) := by simp [hparts, hup]
    rw [if_neg hrest]
    constructor
    · intro h
      exact Or.inr ⟨⟨habsolute, hparts, hup⟩, (Except.ok.inj h).symm⟩
    · rintro (⟨hroot', -⟩ | ⟨-, rfl⟩)
      · exact absurd hroot' hslash
      · rfl

theorem proper_of_normalized {r : String} (h : normalizeDirectoryPath path = .ok r) (hr : r ≠ "") :
    Proper r.toList := by
  rcases normalizeDirectoryPath_eq_ok_iff.mp h with ⟨-, hroot⟩ | ⟨hrelative, rfl⟩
  · exact absurd hroot hr
  · rw [String.toList_ofList]
    exact proper_of_relative hrelative (rawPath_noBackslash path)

/-- A stored path is normalised to itself if nothing is stripped off it. -/
theorem normalized_again_iff (h : Proper rule.toList) :
    normalizeDirectoryPath rule = .ok rule ↔ strip rule.toList = rule.toList := by
  rw [normalizeDirectoryPath_eq_ok_iff, rawPath_eq_strip h.noBackslash]
  constructor
  · rintro (⟨-, rfl⟩ | ⟨hrelative, hrule⟩)
    · exact absurd rfl h.ne_nil
    · -- leaving out parts makes the stripped path no longer, so nothing has been stripped
      refine (isInfix_strip rule.toList).eq_of_length (le_antisymm (length_strip_le _) ?_)
      have hsublist : (((strip rule.toList).splitOn '/').filter fun part ↦
          decide (part ≠ [] ∧ part ≠ ['.'])).Sublist ((strip rule.toList).splitOn '/') :=
        List.filter_sublist
      have hlength : (['/'].intercalate _).length ≤ _ := length_intercalate_le hsublist
      rw [List.intercalate_splitOn] at hlength
      have hlist := congrArg String.toList hrule
      rw [String.toList_ofList] at hlist
      exact (congrArg List.length hlist).trans_le hlength
  · intro hstripped
    right
    rw [hstripped]
    refine ⟨h.relative, ?_⟩
    rw [h.pathParts, List.intercalate_splitOn, String.ofList_toList]

/-! ## Exclusion -/

theorem isExcluded_eq_ok_iff {excluded : Bool} :
    isExcluded key rule = .ok excluded ↔ ∃ k r, normalizeDirectoryPath key = .ok k ∧
      normalizeDirectoryPath rule = .ok r ∧
        excluded = (r = "" || k = r || (r ++ "/").toList.isPrefixOf k.toList) := by
  unfold isExcluded
  cases hkey : normalizeDirectoryPath key with
  | error e => simp [bind, Except.bind]
  | ok k =>
      cases hrule : normalizeDirectoryPath rule with
      | error e => simp [bind, Except.bind]
      | ok r => simp [bind, Except.bind, pure, Except.pure, eq_comm]

/-- Whether a directory which is not the root contains a path, by whole segments. -/
theorem within_directory_iff {k r : String} (hr : r ≠ "") :
    (r = "" || k = r || (r ++ "/").toList.isPrefixOf k.toList) = true ↔
      Below '/' r.toList k.toList := by
  rw [below_iff, Bool.or_eq_true, Bool.or_eq_true, decide_eq_true_eq, or_iff_right hr,
    decide_eq_true_eq, List.isPrefixOf_iff_prefix, String.toList_append, String.toList_inj]
  rfl

/-- The rule is not the root and neither begins nor ends with white space.  Nor does the key, or it
is still a relative path without it, and then the rule is not above the stripped key when white
space came first, and not the stripped key itself when it only came last. -/
structure Matchable (key rule : String) : Prop where
  notRoot : rule ≠ ""
  stripped : strip rule.toList = rule.toList
  key : strip key.toList = key.toList ∨
    (strip key.toList = ['/'] ∨ Relative (strip key.toList)) ∧
      if key.toList.head?.any isPySpace then
        ¬ rule.toList.splitOn '/' <+: pathParts (strip key.toList)
      else rule.toList ≠ strip key.toList

/-- The stored rule is normalised to itself, and the answer is about whole path segments. -/
structure SegmentExact (key rule : String) : Prop where
  idempotent : normalizeDirectoryPath rule = .ok rule
  answers : ∃ excluded, isExcluded key rule = .ok excluded ∧
    (excluded = true ↔ rule = "" ∨ Below '/' rule.toList key.toList)

/-! ### Keys with white space at an end -/

/-- A stripped directory holds no key which begins with white space. -/
theorem not_below_of_leading {r k : List Char} (hr : Proper r) (hstripped : strip r = r)
    (hlead : k.head?.any isPySpace = true) : ¬ Below '/' r k := by
  intro hbelow
  have hhead : k.head? = r.head? := by
    rcases below_iff.mp hbelow with rfl | ⟨rest, rfl⟩
    · rfl
    · rw [List.append_assoc, List.head?_append_of_ne_nil _ hr.ne_nil]
  rw [hhead, Option.any_eq_true] at hlead
  obtain ⟨c, hc, hspace⟩ := hlead
  have hblack := (strip_eq_self_iff.mp hstripped).1 c hc
  rw [hspace] at hblack
  cases hblack

/-- Without white space in front, a key is the stripped one with white space after it. -/
theorem exists_trailing {k : List Char} (hlead : ¬ k.head?.any isPySpace = true) :
    ∃ rest, k = strip k ++ rest ∧ ∀ c ∈ rest, isPySpace c = true := by
  have hfront : k.dropWhile isPySpace = k := by
    cases k with
    | nil => rfl
    | cons c k => exact List.dropWhile_cons_of_neg hlead
  have hstrip : strip k = k.rdropWhile isPySpace := by
    change (k.dropWhile isPySpace).rdropWhile isPySpace = _
    rw [hfront]
  refine ⟨k.rtakeWhile isPySpace, ?_, fun c ↦ List.mem_rtakeWhile_imp⟩
  rw [hstrip, List.rdropWhile_append_rtakeWhile]

theorem slash_not_mem_space {rest : List Char} (hrest : ∀ c ∈ rest, isPySpace c = true) :
    '/' ∉ rest :=
  fun hmem ↦ absurd (hrest '/' hmem) (by decide)

theorem below_trailing_iff {r raw rest : List Char} (hrest : ∀ c ∈ rest, isPySpace c = true)
    (hne : rest ≠ []) (hr : strip r = r) :
    Below '/' r (raw ++ rest) ↔ Below '/' r raw ∧ r ≠ raw := by
  rw [below_iff, below_iff]
  constructor
  · rintro (rfl | hprefix)
    · -- the rule does not end in white space
      exfalso
      obtain ⟨c, hc⟩ := List.getLast?_isSome.mpr hne |> Option.isSome_iff_exists.mp
      have hlast : (raw ++ rest).getLast? = some c := by
        rw [List.getLast?_append, hc]
        rfl
      have hblack := (strip_eq_self_iff.mp hr).2 c hlast
      rw [hrest c (List.mem_of_getLast? hc)] at hblack
      cases hblack
    · have hkey : r ++ ['/'] <+: raw := by
        rcases List.prefix_or_prefix_of_prefix hprefix (List.prefix_append raw rest) with h | h
        · exact h
        · rcases List.prefix_concat_iff.mp h with h | ⟨more, rfl⟩
          · rw [h]
          · -- the slash would stand in the white space
            rw [List.append_assoc, List.prefix_append_right_inj] at hprefix
            exact absurd ( hprefix.subset (by simp)) (slash_not_mem_space hrest)
      refine ⟨Or.inr hkey, ?_⟩
      rintro rfl
      exact absurd hkey.length_le (by simp)
  · rintro ⟨rfl | hkey, hneq⟩
    · exact absurd rfl hneq
    · exact Or.inr ( hkey.trans (List.prefix_append raw rest))

/-- A part which is dropped at the end makes no difference to a directory of proper segments. -/
theorem prefix_pathParts_iff {r raw rest : List Char} (hr : Proper r) (hkey : Proper (raw ++ rest))
    (hrest : '/' ∉ rest) : r.splitOn '/' <+: pathParts raw ↔ Below '/' r raw := by
  obtain ⟨init, last, hraw, hall⟩ := splitOn_append_of_not_mem raw hrest
  have hinit : init.filter (fun part ↦ decide (part ≠ [] ∧ part ≠ ['.'])) = init := by
    refine List.filter_eq_self.mpr fun segment hsegment ↦ ?_
    obtain ⟨hempty, hdot, -⟩ := hkey.segments segment (hall ▸ List.mem_append_left _ hsegment)
    exact decide_eq_true ⟨hempty, hdot⟩
  rw [Below, pathParts, hraw, List.filter_append, hinit]
  by_cases hlast : last ≠ [] ∧ last ≠ ['.']
  · rw [List.filter_cons, if_pos (decide_eq_true hlast), List.filter_nil]
  · rw [List.filter_cons, if_neg (by simpa using hlast), List.filter_nil, List.append_nil,
      List.prefix_concat_iff, or_iff_right]
    intro heq
    obtain ⟨hempty, hdot, -⟩ := hr.segments last (heq ▸ List.mem_append_right _ List.mem_cons_self)
    exact hlast ⟨hempty, hdot⟩

/-- The answer about a normalised key agrees with the one about the key itself. -/
theorem agrees_iff {r k : List Char} (hr : Proper r) (hstripped : strip r = r) (hk : Proper k)
    (hspace : strip k ≠ k) :
    (r.splitOn '/' <+: pathParts (strip k) ↔ Below '/' r k) ↔
      if k.head?.any isPySpace then ¬ r.splitOn '/' <+: pathParts (strip k) else r ≠ strip k := by
  split
  · rename_i hlead
    rw [iff_false_right (not_below_of_leading hr hstripped hlead)]
  · rename_i hlead
    obtain ⟨rest, hrest, hblank⟩ := exists_trailing hlead
    have hne : rest ≠ [] := by
      rintro rfl
      rw [List.append_nil] at hrest
      exact hspace hrest.symm
    have hproper : Proper (strip k ++ rest) := hrest ▸ hk
    have hbelow : Below '/' r k ↔ Below '/' r (strip k) ∧ r ≠ strip k := by
      rw [← below_trailing_iff hblank hne hstripped, ← hrest]
    rw [hbelow, prefix_pathParts_iff hr hproper (slash_not_mem_space hblank)]
    constructor
    · rintro hagree rfl
      exact (hagree.mp (below_refl _ _)).2 rfl
    · exact fun hneq ↦ ⟨fun h ↦ ⟨h, hneq⟩, And.left⟩

/-! ## Rules and keys which match -/

theorem normalize_key_eq_ok_iff (hkey : Proper key.toList) {k : String} :
    normalizeDirectoryPath key = .ok k ↔
      (strip key.toList = ['/'] ∨ Relative (strip key.toList)) ∧
        k = String.ofList (['/'].intercalate (pathParts (strip key.toList))) := by
  rw [normalizeDirectoryPath_eq_ok_iff, rawPath_eq_strip hkey.noBackslash, or_and_right]
  refine or_congr (and_congr_right fun hroot ↦ ?_) Iff.rfl
  rw [hroot]
  rfl

/-- The code compares the rule with the parts of the stripped key. -/
theorem isExcluded_stripped (hrule : Proper rule.toList)
    (hstripped : strip rule.toList = rule.toList) (hkey : Proper key.toList) {excluded : Bool} :
    isExcluded key rule = .ok excluded ↔
      (strip key.toList = ['/'] ∨ Relative (strip key.toList)) ∧
        (excluded = true ↔ rule.toList.splitOn '/' <+: pathParts (strip key.toList)) := by
  have hagain := (normalized_again_iff hrule).mpr hstripped
  have hne : rule ≠ "" := fun hnil ↦ hrule.ne_nil (by rw [hnil]; rfl)
  have hparts : strip key.toList = ['/'] ∨ Relative (strip key.toList) →
      (Below '/' rule.toList (['/'].intercalate (pathParts (strip key.toList))) ↔
        rule.toList.splitOn '/' <+: pathParts (strip key.toList)) := by
    rintro (hroot | hrelative)
    · rw [hroot]
      refine iff_of_false (fun hbelow ↦ ?_) fun hempty ↦ ?_
      · rcases below_iff.mp hbelow with h | ⟨rest, h⟩
        · exact hrule.ne_nil h.symm
        · have hlength := congrArg List.length h
          simp [pathParts, List.splitOn_cons_eq_if_modifyHead] at hlength
      · exact List.splitOn_ne_nil _ _ (List.prefix_nil.mp hempty)
    · rw [Below, splitOn_pathParts hrelative]
  rw [isExcluded_eq_ok_iff]
  constructor
  · rintro ⟨k, r, hk, hr, rfl⟩
    obtain rfl : r = rule := Except.ok.inj (hr.symm.trans hagain)
    obtain ⟨haccepted, rfl⟩ := (normalize_key_eq_ok_iff hkey).mp hk
    refine ⟨haccepted, ?_⟩
    rw [within_directory_iff hne, String.toList_ofList, hparts haccepted]
  · rintro ⟨haccepted, hanswer⟩
    refine ⟨_, rule, (normalize_key_eq_ok_iff hkey).mpr ⟨haccepted, rfl⟩, hagain, ?_⟩
    rw [Bool.eq_iff_iff, within_directory_iff hne, String.toList_ofList, hparts haccepted]
    exact hanswer

theorem segmentExact_iff_matchable (hrule : rule = "" ∨ Proper rule.toList)
    (hkey : Proper key.toList) : SegmentExact key rule ↔ Matchable key rule := by
  by_cases hroot : rule = ""
  · subst hroot
    exact iff_of_false (fun h ↦ by cases h.idempotent) fun h ↦ h.notRoot rfl
  have hproper := hrule.resolve_left hroot
  by_cases hstripped : strip rule.toList = rule.toList
  · have hagrees : SegmentExact key rule ↔
        (strip key.toList = ['/'] ∨ Relative (strip key.toList)) ∧
          (rule.toList.splitOn '/' <+: pathParts (strip key.toList) ↔
            Below '/' rule.toList key.toList) := by
      constructor
      · rintro ⟨-, excluded, hexcluded, hexact⟩
        obtain ⟨haccepted, hanswer⟩ := (isExcluded_stripped hproper hstripped hkey).mp hexcluded
        rw [or_iff_right hroot] at hexact
        exact ⟨haccepted, hanswer.symm.trans hexact⟩
      · rintro ⟨haccepted, hagree⟩
        have hdecides := decide_eq_true_iff
          (p := rule.toList.splitOn '/' <+: pathParts (strip key.toList))
        refine ⟨(normalized_again_iff hproper).mpr hstripped, _,
          (isExcluded_stripped hproper hstripped hkey).mpr ⟨haccepted, hdecides⟩, ?_⟩
        rw [hdecides, or_iff_right hroot]
        exact hagree
    rw [hagrees]
    by_cases hspace : strip key.toList = key.toList
    · refine iff_of_true ⟨Or.inr (hspace.symm ▸ hkey.relative), ?_⟩
        ⟨hroot, hstripped, Or.inl hspace⟩
      rw [hspace, hkey.pathParts]
      exact Iff.rfl
    · rw [agrees_iff hproper hstripped hkey hspace]
      constructor
      · exact fun h ↦ ⟨hroot, hstripped, Or.inr h⟩
      · exact fun h ↦ h.key.resolve_left hspace
  · refine iff_of_false (fun h ↦ hstripped ?_) fun h ↦ hstripped h.stripped
    exact (normalized_again_iff hproper).mp h.idempotent

/-- The path is in the row which `create_exclusion` returns. -/
def Accepted (rule : String) : Prop :=
  ∃ fresh active path source createdBy rules row rules',
    createExclusion fresh active path source createdBy rules = .ok (row, rules') ∧
      row.2.directoryPath = rule

theorem Accepted.normalized (h : Accepted rule) : ∃ path, normalizeDirectoryPath path = .ok rule := by
  obtain ⟨fresh, active, path, source, createdBy, rules, row, rules', hcreate, rfl⟩ := h
  refine ⟨path, ?_⟩
  unfold createExclusion at hcreate
  cases hpath : normalizeDirectoryPath path with
  | error e =>
      rw [hpath] at hcreate
      cases hcreate
  | ok normalized =>
      rw [hpath] at hcreate
      cases active with
      | false => cases hcreate
      | true =>
          simp only [bind, Except.bind, requireTenantApplication, if_true] at hcreate
          split at hcreate
          · rename_i found hfound
            cases hcreate
            obtain ⟨-, hselected⟩ := AList.lookup_of_selectFirst hfound
            rw [Bool.and_eq_true, decide_eq_true_eq] at hselected
            rw [hselected.1]
          · split at hcreate
            · cases hcreate
            · cases hcreate
              rfl

theorem firstExcluding_returns {paths : List String}
    (h : ∀ rule ∈ paths, ∃ excluded, isExcluded key rule = .ok excluded) :
    ∃ answer, firstExcluding key paths = .ok answer := by
  induction paths with
  | nil => exact ⟨none, rfl⟩
  | cons path paths ih =>
      obtain ⟨excluded, hexcluded⟩ := h path List.mem_cons_self
      obtain ⟨answer, hanswer⟩ := ih fun rule hrule ↦ h rule (List.mem_cons_of_mem _ hrule)
      rw [firstExcluding, hexcluded]
      cases excluded with
      | true => exact ⟨some path, rfl⟩
      | false => exact ⟨answer, hanswer⟩

/-- Matching by the accepted rules is exact and returns an answer if and only if every rule
matches. -/
theorem exclusions_exact_iff (hkey : canonicalObjectKey key false = some key) {paths : List String}
    (hpaths : ∀ rule ∈ paths, Accepted rule) :
    ((∀ rule ∈ paths, SegmentExact key rule) ∧ ∃ answer, firstExcluding key paths = .ok answer) ↔
      ∀ rule ∈ paths, Matchable key rule := by
  have hproper := proper_of_canonical hkey
  have heach : (∀ rule ∈ paths, SegmentExact key rule) ↔ ∀ rule ∈ paths, Matchable key rule := by
    refine forall₂_congr fun rule hrule ↦ ?_
    obtain ⟨path, hpath⟩ := (hpaths rule hrule).normalized
    exact segmentExact_iff_matchable (or_iff_not_imp_left.mpr (proper_of_normalized hpath)) hproper
  rw [← heach]
  refine and_iff_left_of_imp fun hexact ↦ firstExcluding_returns fun rule hrule ↦ ?_
  obtain ⟨excluded, hexcluded, -⟩ := (hexact rule hrule).answers
  exact ⟨excluded, hexcluded⟩

theorem accepted_of_normalized (h : normalizeDirectoryPath path = .ok rule) : Accepted rule := by
  refine ⟨1, true, path, "user", none, ∅, (1, ⟨rule, "user", none, true⟩),
    AList.insert 1 ⟨rule, "user", none, true⟩ ∅, ?_, rfl⟩
  rw [createExclusion, h]
  rfl

theorem exclusions_exact_reports :
    ((∀ rule ∈ ["reports"], SegmentExact "reports/a.pdf" rule) ∧
      ∃ answer, firstExcluding "reports/a.pdf" ["reports"] = .ok answer) ↔
        ∀ rule ∈ ["reports"], Matchable "reports/a.pdf" rule :=
  exclusions_exact_iff (by decide) fun rule hrule ↦ by
    rw [List.mem_singleton.mp hrule]
    exact accepted_of_normalized (show normalizeDirectoryPath "reports/" = _ by decide)

/-- The root is accepted, stored as the empty path, and no key can be matched with it. -/
theorem root_rule_unmatchable : ¬ ∀ (key : String) (paths : List String),
    canonicalObjectKey key false = some key → (∀ rule ∈ paths, Accepted rule) →
      (∀ rule ∈ paths, SegmentExact key rule) ∧
        ∃ answer, firstExcluding key paths = .ok answer := by
  intro h
  have hroot : Accepted "" := accepted_of_normalized (show normalizeDirectoryPath "/" = _ by decide)
  obtain ⟨-, answer, hanswer⟩ := h "a.pdf" [""] (by decide) fun rule hrule ↦ by
    rw [List.mem_singleton.mp hrule]
    exact hroot
  have herror : firstExcluding "a.pdf" [""] = .error (.value "directory path is required") := by
    decide
  rw [herror] at hanswer
  cases hanswer

end S3mp.Knowledge
