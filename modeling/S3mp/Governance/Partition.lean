import S3mp.Authorization.Evaluator
import S3mp.Governance.Inventory

/-!
# One result for each key

What a comparison is to say of a key depends on the active rows under it and on the
object under it.  The comparison counts the inactive rows as well, and an object
behind several rows is reported a second time.
-/

namespace S3mp.Governance

open Authorization

/-! ## What is to be said of a key -/

/-- The key lies in the namespace by whole segments.  A prefix may end with the slash itself. -/
def inNamespace (pre key : String) : Bool :=
  within pre key ||
    ((pre = "" || pre.toList.getLast? = some '/') && pre.toList.isPrefixOf key.toList)

def inKnownNamespace (prefixes : List String) (key : String) : Bool :=
  prefixes.any fun pre ↦ inNamespace pre key

/-- The result for an object no row has. -/
def placed (prefixes : List String) (provider : ReconciliationObject) : ReconciliationResult where
  kind := if inKnownNamespace prefixes provider.physicalKey then .dbMissing else .orphanObject
  physicalKey := provider.physicalKey
  recordedBytes := none
  observedBytes := some provider.contentLength

def expectedResult (files : List ReconciliationFile) (objects : List ReconciliationObject)
    (prefixes : List String) (key : String) : Option ReconciliationResult :=
  match (fileRows files key).filter (·.active) with
  | [row] => some (compareRow row key (providerRow objects key))
  | [] => if fileRows files key = [] then (providerRow objects key).map (placed prefixes) else none
  | _ => some ⟨.duplicateMapping, key, none, none⟩

/-- Rows share a key only as several active ones without an object, and a prefix an unmapped
object's key starts with ends at the end of a segment. -/
structure Separable (files : List ReconciliationFile) (objects : List ReconciliationObject)
    (prefixes : List String) : Prop where
  shared : ∀ key, 2 ≤ (fileRows files key).length →
    2 ≤ ((fileRows files key).filter (·.active)).length ∧ providerRow objects key = none
  segments : ∀ o ∈ objects, fileRows files o.physicalKey = [] →
    startsWithAny prefixes o.physicalKey = true → inKnownNamespace prefixes o.physicalKey = true

variable {files files' : List ReconciliationFile} {objects objects' : List ReconciliationObject}
  {prefixes : List String} {key : String} {o : ReconciliationObject}

theorem isPrefixOf_of_inNamespace {pre : String} (h : inNamespace pre key = true) :
    pre.toList.isPrefixOf key.toList = true := by
  simp only [inNamespace, within, Bool.or_eq_true, Bool.and_eq_true, decide_eq_true_eq] at h
  rw [List.isPrefixOf_iff_prefix]
  rcases h with (rfl | h) | ⟨-, h⟩
  · exact List.prefix_refl _
  · rw [List.isPrefixOf_iff_prefix, String.toList_append] at h
    exact (List.prefix_append _ _).trans h
  · exact List.isPrefixOf_iff_prefix.mp h

theorem startsWithAny_of_inKnownNamespace (h : inKnownNamespace prefixes key = true) :
    startsWithAny prefixes key = true := by
  obtain ⟨pre, hmem, hpre⟩ := List.any_eq_true.mp h
  exact List.any_eq_true.mpr ⟨pre, hmem, isPrefixOf_of_inNamespace hpre⟩

theorem unmapped_eq_placed_iff : unmapped prefixes o = placed prefixes o ↔
    (startsWithAny prefixes o.physicalKey = true →
      inKnownNamespace prefixes o.physicalKey = true) := by
  unfold unmapped placed
  cases hstarts : startsWithAny prefixes o.physicalKey with
  | false =>
      have hknown : inKnownNamespace prefixes o.physicalKey = false := by
        refine Bool.eq_false_iff.mpr fun hknown ↦ ?_
        rw [startsWithAny_of_inKnownNamespace hknown] at hstarts
        cases hstarts
      simp [hknown]
  | true =>
      cases hknown : inKnownNamespace prefixes o.physicalKey with
      | false => simp
      | true => simp

/-! ## The results of a key -/

/-- Results keyed by distinct keys: those of one key are what its key gives. -/
theorem filter_filterMap_of_nodup {keys : List String} {f : String → Option ReconciliationResult}
    (hnodup : keys.Nodup) (hf : ∀ k r, f k = some r → r.physicalKey = k) (key : String) :
    (keys.filterMap f).filter (·.physicalKey = key) =
      if key ∈ keys then (f key).toList else [] := by
  induction keys with
  | nil => rfl
  | cons k keys ih =>
      obtain ⟨hk, hrest⟩ := List.nodup_cons.mp hnodup
      have hrest := ih hrest
      rw [List.filterMap_cons]
      by_cases hkey : key = k
      · subst hkey
        rw [if_neg hk] at hrest
        rw [if_pos List.mem_cons_self]
        cases hr : f key with
        | none => simpa using hrest
        | some r => simp [hf key r hr, hrest]
      · have hmem : key ∈ k :: keys ↔ key ∈ keys := by simp [hkey]
        simp only [hmem]
        cases hr : f k with
        | none => exact hrest
        | some r =>
            have hne : ¬ r.physicalKey = key := fun h ↦ hkey (h.symm.trans (hf k r hr))
            simpa [hne] using hrest

theorem physicalKey_compareRow (row : ReconciliationFile) (key : String)
    (provider : Option ReconciliationObject) : (compareRow row key provider).physicalKey = key := by
  unfold compareRow
  split
  · rfl
  · split <;> rfl

theorem physicalKey_compareKey {r : ReconciliationResult}
    (h : compareKey files objects key = some r) : r.physicalKey = key := by
  unfold compareKey at h
  split at h
  · split at h
    · obtain rfl := Option.some.inj h
      exact physicalKey_compareRow _ _ _
    · cases h
  · obtain rfl := Option.some.inj h
    rfl

theorem mem_fileKeys : key ∈ files.map (·.physicalKey) ↔ fileRows files key ≠ [] := by
  rw [Ne, fileRows, List.filter_eq_nil_iff]
  simp

theorem providerRow_isSome : (providerRow objects key).isSome ↔ key ∈ objects.map (·.physicalKey) := by
  simp [providerRow, List.find?_isSome]

theorem filter_compareInventory (files : List ReconciliationFile)
    (objects : List ReconciliationObject) (prefixes : List String) (key : String) :
    (compareInventory files objects prefixes).filter (·.physicalKey = key) =
      (if fileRows files key = [] then none else compareKey files objects key).toList ++
        (if popped files key then none else (providerRow objects key).map (unmapped prefixes)).toList
    := by
  have hunmapped : ∀ k r, (providerRow objects k).map (unmapped prefixes) = some r →
      r.physicalKey = k := by
    intro k r hr
    obtain ⟨o, ho, rfl⟩ := Option.map_eq_some_iff.mp hr
    exact (providerRow_mem ho).2
  rw [compareInventory, List.filter_append,
    filter_filterMap_of_nodup (nodup_dictKeys _) (fun _ _ ↦ physicalKey_compareKey),
    filter_filterMap_of_nodup ((nodup_dictKeys _).filter _) hunmapped]
  congr 1
  · simp only [mem_dictKeys, mem_fileKeys]
    by_cases hrows : fileRows files key = []
    · rw [if_neg (not_not.mpr hrows), if_pos hrows]
      rfl
    · rw [if_pos hrows, if_neg hrows]
  · simp only [List.mem_filter, mem_dictKeys, ← providerRow_isSome]
    cases hpopped : popped files key with
    | true => simp
    | false =>
        cases hprovider : providerRow objects key with
        | none => simp
        | some o => simp

/-! ## When they are the expected ones -/

theorem filter_eq_expected_of_empty (hrows : fileRows files key = []) :
    (compareInventory files objects prefixes).filter (·.physicalKey = key) =
        (expectedResult files objects prefixes key).toList ↔
      ∀ o, providerRow objects key = some o → unmapped prefixes o = placed prefixes o := by
  rw [filter_compareInventory, if_pos hrows, if_neg (by simp [popped, hrows]), expectedResult, hrows]
  simp only [List.filter_nil, if_true, Option.toList_none, List.nil_append]
  cases hprovider : providerRow objects key with
  | none => simp
  | some o => simp

theorem filter_eq_expected_of_single {row : ReconciliationFile}
    (hrows : fileRows files key = [row]) :
    (compareInventory files objects prefixes).filter (·.physicalKey = key) =
      (expectedResult files objects prefixes key).toList := by
  rw [filter_compareInventory, if_neg (by simp [hrows]), if_pos (by simp [popped, hrows]),
    expectedResult, compareKey, hrows]
  cases hactive : row.active with
  | false => simp [hactive]
  | true => simp [hactive]

theorem filter_eq_expected_of_shared (hrows : 2 ≤ (fileRows files key).length) :
    (compareInventory files objects prefixes).filter (·.physicalKey = key) =
        (expectedResult files objects prefixes key).toList ↔
      2 ≤ ((fileRows files key).filter (·.active)).length ∧ providerRow objects key = none := by
  have hcompare : compareKey files objects key = some ⟨.duplicateMapping, key, none, none⟩ := by
    unfold compareKey
    split
    · rename_i row hrow
      rw [hrow] at hrows
      exact absurd hrows (by simp)
    · rfl
  have hpopped : popped files key = false := decide_eq_false (by omega)
  have hnonempty : fileRows files key ≠ [] := by
    intro hnil
    rw [hnil] at hrows
    exact absurd hrows (by decide)
  rw [filter_compareInventory, if_neg hnonempty, hpopped, hcompare, expectedResult]
  -- by the active rows: none and one ask for another result than the duplicate
  generalize (fileRows files key).filter (·.active) = actives
  match actives with
  | [] => simp [hnonempty]
  | [row] =>
      have hkind : (compareRow row key (providerRow objects key)).kind ≠ .duplicateMapping := by
        unfold compareRow
        split
        · simp
        · split <;> simp
      refine iff_of_false (fun h ↦ hkind ?_) (by simp)
      have hhead := congrArg List.head? h
      simp only [Option.toList_some, List.singleton_append, List.head?_cons,
        Option.some.injEq] at hhead
      rw [← hhead]
  | row :: row' :: rows => simp

theorem separable_iff (hdistinct : DistinctKeys objects) :
    (∀ key, (compareInventory files objects prefixes).filter (·.physicalKey = key) =
        (expectedResult files objects prefixes key).toList) ↔
      Separable files objects prefixes := by
  constructor
  · intro hall
    refine ⟨fun key hrows ↦ (filter_eq_expected_of_shared hrows).mp (hall key),
      fun o ho hrows ↦ unmapped_eq_placed_iff.mp ?_⟩
    exact (filter_eq_expected_of_empty hrows).mp (hall o.physicalKey) o
      (hdistinct.providerRow_eq_some.mpr ⟨ho, rfl⟩)
  · intro h key
    match hrows : fileRows files key with
    | [] =>
        refine (filter_eq_expected_of_empty hrows).mpr fun o ho ↦ ?_
        obtain ⟨hmem, rfl⟩ := providerRow_mem ho
        exact unmapped_eq_placed_iff.mpr (h.segments o hmem hrows)
    | [row] => exact filter_eq_expected_of_single hrows
    | row :: row' :: rows =>
        have hlength : 2 ≤ (fileRows files key).length := by
          rw [hrows]
          simp
        exact (filter_eq_expected_of_shared hlength).mpr (h.shared key hlength)

/-! ## The order of the lists -/

theorem compareKey_perm (h : files.Perm files') (key : String) :
    compareKey files objects key = compareKey files' objects key := by
  have hrows : (fileRows files key).Perm (fileRows files' key) := h.filter _
  unfold compareKey
  generalize fileRows files key = rows at hrows
  generalize fileRows files' key = rows' at hrows
  match rows with
  | [] =>
      rw [hrows.symm.eq_nil]
  | [row] =>
      rw [List.perm_singleton.mp hrows.symm]
  | row :: row' :: rest =>
      have hlength := hrows.length_eq
      match rows' with
      | [] => simp at hlength
      | [_] => simp at hlength
      | _ :: _ :: _ => rfl

theorem compareInventory_perm (hdistinct : DistinctKeys objects) (hfiles : files.Perm files')
    (hobjects : objects.Perm objects') :
    (compareInventory files objects prefixes).Perm (compareInventory files' objects' prefixes) := by
  refine List.Perm.trans ?_ (hdistinct.compareInventory_perm hobjects)
  have hkey : compareKey files objects = compareKey files' objects :=
    funext fun key ↦ compareKey_perm hfiles key
  have hpopped : popped files = popped files' := by
    funext key
    have hlength : (fileRows files key).length = (fileRows files' key).length :=
      (hfiles.filter _).length_eq
    rw [popped, popped, hlength]
  unfold compareInventory
  rw [hkey, hpopped]
  exact ((dictKeys_perm (hfiles.map _)).filterMap _).append_right _

/-- A comparison says of every key exactly what is to be said of it, whatever the order of the
lists, just where its input is separable. -/
theorem inventory_partitioned_iff (files : List ReconciliationFile)
    (objects : List ReconciliationObject) (prefixes : List String)
    (hdistinct : DistinctKeys objects) :
    ((∀ key, (compareInventory files objects prefixes).filter (·.physicalKey = key) =
          (expectedResult files objects prefixes key).toList) ∧
        ∀ files' objects', files.Perm files' → objects.Perm objects' →
          (compareInventory files objects prefixes).Perm
            (compareInventory files' objects' prefixes)) ↔
      Separable files objects prefixes := by
  rw [separable_iff hdistinct]
  exact and_iff_left fun _ _ ↦ compareInventory_perm hdistinct

namespace Sample

def reuploaded : List ReconciliationFile :=
  [⟨"ns/a", 4, false⟩, ⟨"ns/a", 4, true⟩]

def listed : List ReconciliationObject :=
  [⟨"ns/a", 4⟩]

end Sample

theorem inventory_partitioned_iff_sample :
    ((∀ key, (compareInventory [⟨"ns/a", 4, true⟩] Sample.listed ["ns/"]).filter
          (·.physicalKey = key) =
          (expectedResult [⟨"ns/a", 4, true⟩] Sample.listed ["ns/"] key).toList) ∧
        ∀ files' objects', List.Perm [⟨"ns/a", 4, true⟩] files' → Sample.listed.Perm objects' →
          (compareInventory [⟨"ns/a", 4, true⟩] Sample.listed ["ns/"]).Perm
            (compareInventory files' objects' ["ns/"])) ↔
      Separable [⟨"ns/a", 4, true⟩] Sample.listed ["ns/"] :=
  inventory_partitioned_iff [⟨"ns/a", 4, true⟩] Sample.listed ["ns/"] (by decide)

/-- The active file with its object is a duplicate beside the inactive row, and the object is
reported as missing in the database. -/
theorem matched_file_duplicate : ¬ ∀ (files : List ReconciliationFile)
    (objects : List ReconciliationObject) (prefixes : List String), DistinctKeys objects →
    ∀ key, (compareInventory files objects prefixes).filter (·.physicalKey = key) =
      (expectedResult files objects prefixes key).toList := by
  intro h
  have hsample := h Sample.reuploaded Sample.listed ["ns/"] (by decide) "ns/a"
  revert hsample
  decide

end S3mp.Governance
