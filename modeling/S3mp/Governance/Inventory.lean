import Mathlib.Data.List.Dedup
import Mathlib.Data.List.Perm.Basic
import Mathlib.Data.Nat.Notation

/-!
# Comparing an inventory

`compare_inventory` of `governance/application/quota_reconciliation.py`: file rows
against the objects a provider lists.  A dictionary keeps the order in which its keys
first appear and the value set last.
-/

namespace S3mp.Governance

inductive ReconciliationDifference where
  | matched | providerMissing | dbMissing | sizeMismatch | duplicateMapping | orphanObject
  | allocationDrift
  deriving DecidableEq, Repr

structure ReconciliationFile where
  physicalKey : String
  contentLength : ℕ
  active : Bool
  deriving DecidableEq, Repr

structure ReconciliationObject where
  physicalKey : String
  contentLength : ℕ
  deriving DecidableEq, Repr

structure ReconciliationResult where
  kind : ReconciliationDifference
  physicalKey : String
  recordedBytes : Option ℕ
  observedBytes : Option ℕ
  deriving DecidableEq, Repr

/-- The keys of a dictionary filled in this order. -/
def dictKeys (keys : List String) : List String :=
  keys.reverse.dedup.reverse

def fileRows (files : List ReconciliationFile) (key : String) : List ReconciliationFile :=
  files.filter (·.physicalKey = key)

def providerRow (objects : List ReconciliationObject) (key : String) :
    Option ReconciliationObject :=
  objects.reverse.find? (·.physicalKey = key)

def compareRow (row : ReconciliationFile) (key : String) :
    Option ReconciliationObject → ReconciliationResult
  | none => ⟨.providerMissing, key, some row.contentLength, none⟩
  | some provider =>
    if provider.contentLength ≠ row.contentLength then
      ⟨.sizeMismatch, key, some row.contentLength, some provider.contentLength⟩
    else ⟨.matched, key, some row.contentLength, some provider.contentLength⟩

/-- One turn of the loop over the file rows of one key. -/
def compareKey (files : List ReconciliationFile) (objects : List ReconciliationObject)
    (key : String) : Option ReconciliationResult :=
  match fileRows files key with
  | [row] => if row.active then some (compareRow row key (providerRow objects key)) else none
  | _ => some ⟨.duplicateMapping, key, none, none⟩

/-- The loop has taken the object under the key out of the dictionary.  It leaves the
objects behind duplicate rows in. -/
def popped (files : List ReconciliationFile) (key : String) : Bool :=
  (fileRows files key).length = 1

def startsWithAny (prefixes : List String) (key : String) : Bool :=
  prefixes.any fun p ↦ p.toList.isPrefixOf key.toList

def unmapped (prefixes : List String) (provider : ReconciliationObject) : ReconciliationResult where
  kind := if startsWithAny prefixes provider.physicalKey then .dbMissing else .orphanObject
  physicalKey := provider.physicalKey
  recordedBytes := none
  observedBytes := some provider.contentLength

def compareInventory (files : List ReconciliationFile) (objects : List ReconciliationObject)
    (knownNamespacePrefixes : List String) : List ReconciliationResult :=
  (dictKeys (files.map (·.physicalKey))).filterMap (compareKey files objects) ++
    (((dictKeys (objects.map (·.physicalKey))).filter fun key ↦ !popped files key).filterMap fun key ↦
      (providerRow objects key).map (unmapped knownNamespacePrefixes))

/-- The set comprehension over the results. -/
def matchedFiles (results : List ReconciliationResult) : List String :=
  ((results.filter (·.kind = .matched)).map (·.physicalKey)).dedup

/-! ## Dictionaries -/

theorem mem_dictKeys {keys : List String} {key : String} : key ∈ dictKeys keys ↔ key ∈ keys := by
  simp [dictKeys]

theorem nodup_dictKeys (keys : List String) : (dictKeys keys).Nodup :=
  List.nodup_reverse.mpr (List.nodup_dedup _)

theorem dictKeys_perm {keys keys' : List String} (h : keys.Perm keys') :
    (dictKeys keys).Perm (dictKeys keys') := by
  have hrev : keys.reverse.Perm keys'.reverse :=
    (List.reverse_perm keys).trans (h.trans (List.reverse_perm keys').symm)
  exact (List.reverse_perm _).trans (hrev.dedup.trans (List.reverse_perm _).symm)

section Provider

variable {files : List ReconciliationFile} {objects objects' : List ReconciliationObject}
  {key : String} {o : ReconciliationObject} {prefixes : List String}

theorem providerRow_mem (h : providerRow objects key = some o) :
    o ∈ objects ∧ o.physicalKey = key := by
  refine ⟨List.mem_reverse.mp (List.mem_of_find?_eq_some h), ?_⟩
  simpa using List.find?_some h

/-- A listing shows no key twice. -/
def DistinctKeys (objects : List ReconciliationObject) : Prop :=
  (objects.map (·.physicalKey)).Nodup

instance : Decidable (DistinctKeys objects) :=
  inferInstanceAs (Decidable (List.Nodup _))

theorem DistinctKeys.perm (hdistinct : DistinctKeys objects) (h : objects.Perm objects') :
    DistinctKeys objects' :=
  (h.map _).nodup_iff.mp hdistinct

theorem DistinctKeys.providerRow_eq_some (hdistinct : DistinctKeys objects) :
    providerRow objects key = some o ↔ o ∈ objects ∧ o.physicalKey = key := by
  constructor
  · exact providerRow_mem
  · rintro ⟨ho, hkey⟩
    cases hrow : providerRow objects key with
    | none =>
        rw [providerRow, List.find?_eq_none] at hrow
        exact absurd hkey (by simpa using hrow o (List.mem_reverse.mpr ho))
    | some o' =>
        obtain ⟨ho', hkey'⟩ := providerRow_mem hrow
        rw [List.inj_on_of_nodup_map hdistinct ho' ho (hkey'.trans hkey.symm)]

theorem DistinctKeys.providerRow_perm (hdistinct : DistinctKeys objects)
    (h : objects.Perm objects') (key : String) :
    providerRow objects' key = providerRow objects key := by
  ext o
  rw [hdistinct.providerRow_eq_some, (hdistinct.perm h).providerRow_eq_some, h.mem_iff]

/-- The order of the listing shows in the order of the results only. -/
theorem DistinctKeys.compareInventory_perm (hdistinct : DistinctKeys objects)
    (h : objects.Perm objects') :
    (compareInventory files objects prefixes).Perm (compareInventory files objects' prefixes) := by
  have hrow := hdistinct.providerRow_perm h
  have hkey : compareKey files objects' = compareKey files objects := by
    funext key
    simp only [compareKey, hrow]
  simp only [compareInventory, hkey, hrow]
  exact (((dictKeys_perm (h.map _)).filter _).filterMap _).append_left _

/-! ## What the results tell -/

/-- The object a result reports. -/
def ReconciliationResult.observed (r : ReconciliationResult) : Option ReconciliationObject :=
  r.observedBytes.map fun n ↦ ⟨r.physicalKey, n⟩

theorem observed_compareKey (hactive : ∀ row ∈ files, row.active) :
    (compareKey files objects key).bind ReconciliationResult.observed =
      if popped files key then (providerRow objects key) else none := by
  unfold compareKey
  split
  · rename_i row hrow
    have hmem : row ∈ fileRows files key := by rw [hrow]; exact List.mem_singleton_self row
    have hpopped : popped files key := by simp [popped, hrow]
    rw [if_pos (hactive row (List.mem_filter.mp hmem).1), if_pos hpopped, Option.bind_some]
    cases hprovider : providerRow objects key with
    | none => rfl
    | some o =>
        obtain ⟨-, rfl⟩ := providerRow_mem hprovider
        by_cases hlen : o.contentLength = row.contentLength
        · simp only [compareRow, hlen, ne_eq, not_true_eq_false, if_false,
            ReconciliationResult.observed, Option.map_some]
          rw [← hlen]
        · simp [compareRow, hlen, ReconciliationResult.observed]
  · rename_i hnone
    have hpopped : ¬ popped files key := by
      intro h
      obtain ⟨row, hrow⟩ := List.length_eq_one_iff.mp (by simpa [popped] using h)
      exact hnone row hrow
    rw [if_neg hpopped]
    rfl

theorem observed_unmapped (provider : ReconciliationObject) :
    (unmapped prefixes provider).observed = some provider := rfl

theorem mem_observed (hdistinct : DistinctKeys objects) (hactive : ∀ row ∈ files, row.active) :
    o ∈ (compareInventory files objects prefixes).filterMap ReconciliationResult.observed ↔
      o ∈ objects := by
  simp only [compareInventory, List.filterMap_append, List.filterMap_filterMap, List.mem_append,
    List.mem_filterMap, observed_compareKey hactive, Option.bind_map, Function.comp_def,
    observed_unmapped, List.mem_filter, mem_dictKeys, List.mem_map]
  constructor
  · rintro (⟨key, -, hrow⟩ | ⟨key, -, hrow⟩)
    · split at hrow
      · exact (providerRow_mem hrow).1
      · cases hrow
    · exact (providerRow_mem (by simpa using hrow)).1
  · intro ho
    have hrow := hdistinct.providerRow_eq_some.mpr ⟨ho, rfl⟩
    by_cases hpopped : popped files o.physicalKey
    · refine Or.inl ⟨o.physicalKey, ?_, by rw [if_pos hpopped, hrow]⟩
      obtain ⟨row, hfile⟩ := List.length_eq_one_iff.mp (by simpa [popped] using hpopped)
      have hmem : row ∈ fileRows files o.physicalKey := by
        rw [hfile]
        exact List.mem_singleton_self row
      obtain ⟨hrowMem, hkey⟩ := List.mem_filter.mp hmem
      exact ⟨row, hrowMem, by simpa using hkey⟩
    · exact Or.inr ⟨o.physicalKey, ⟨⟨o, ho, rfl⟩, by simpa using hpopped⟩, by rw [hrow]; rfl⟩

theorem mem_matchedFiles :
    key ∈ matchedFiles (compareInventory files objects prefixes) ↔
      ∃ row o, fileRows files key = [row] ∧ row.active ∧ providerRow objects key = some o ∧
        o.contentLength = row.contentLength := by
  rw [matchedFiles, List.mem_dedup, List.mem_map]
  constructor
  · rintro ⟨r, hr, rfl⟩
    obtain ⟨hr, hkind⟩ := List.mem_filter.mp hr
    rw [compareInventory, List.mem_append, List.mem_filterMap, List.mem_filterMap] at hr
    rcases hr with ⟨key, -, hcompare⟩ | ⟨key, -, hleft⟩
    · unfold compareKey at hcompare
      split at hcompare
      · rename_i row hrow
        split at hcompare
        · rename_i hact
          obtain rfl := Option.some.inj hcompare
          cases hprovider : providerRow objects key with
          | none => simp [hprovider, compareRow] at hkind
          | some o =>
              by_cases hlen : o.contentLength = row.contentLength
              · have hkey : (compareRow row key (some o)).physicalKey = key := by
                  simp [compareRow, hlen]
                exact ⟨row, o, by rwa [hkey], hact, by rw [hkey, hprovider], hlen⟩
              · simp [hprovider, compareRow, hlen] at hkind
        · cases hcompare
      · obtain rfl := Option.some.inj hcompare
        simp at hkind
    · obtain ⟨o, -, rfl⟩ := Option.map_eq_some_iff.mp hleft
      simp only [unmapped] at hkind
      split at hkind <;> simp at hkind
  · rintro ⟨row, o, hrow, hact, hprovider, hlen⟩
    have hmem : row ∈ fileRows files key := by rw [hrow]; exact List.mem_singleton_self row
    obtain ⟨hfile, hkey⟩ := List.mem_filter.mp hmem
    refine ⟨⟨.matched, key, some row.contentLength, some o.contentLength⟩, ?_, rfl⟩
    refine List.mem_filter.mpr ⟨List.mem_append_left _ (List.mem_filterMap.mpr ⟨key, ?_, ?_⟩), rfl⟩
    · exact mem_dictKeys.mpr (List.mem_map.mpr ⟨row, hfile, by simpa using hkey⟩)
    · simp [compareKey, hrow, hact, hprovider, compareRow, hlen]

end Provider

end S3mp.Governance
