import S3mp.Accounts.ImportAccounting

/-!
# What an import stores

The candidates are stored in one transaction.  An occupied candidate is passed over;
one whose values a column does not hold takes all the others down with it.
-/

namespace S3mp.AccountImport

open Relational Registry

section

variable {text : PyText} {columns : Columns} {e : ImportService} {r r' : Registry}
  {c d : ImportCandidate} {s s' : Imported} {candidates : List ImportCandidate}
  {upload : Upload} {outs : List Outcome}

/-! ## One transaction -/

/-- An occupied account is one which a unique index refuses. -/
theorem conflictsIn_of_not_occupied (h : r.occupied (userOf e c) = false) :
    (userOf e c).conflictsIn r.users = none := by
  have hrow := AList.anyRow_eq_false.mp h
  unfold User.conflictsIn
  rw [if_neg, if_neg]
  · simp only [Bool.and_eq_true, not_and, Bool.not_eq_true]
    intro _
    refine AList.anyRow_eq_false.mpr fun k v hv ↦ ?_
    have := hrow k v hv
    simp only [Bool.and_eq_false_iff, Bool.or_eq_false_iff] at this ⊢
    tauto
  · rw [Bool.not_eq_true]
    refine AList.anyRow_eq_false.mpr fun k v hv ↦ ?_
    have := hrow k v hv
    simp only [Bool.and_eq_false_iff, Bool.or_eq_false_iff] at this ⊢
    tauto

/-- The registry with the account of the candidate. -/
def stored (e : ImportService) (c : ImportCandidate) (r : Registry) : Registry :=
  { r with users := r.users.insert (e.uuid4 r.users).val (userOf e c) }

theorem flushUser_eq_ok (h : r.occupied (userOf e c) = false) :
    flushUser (e.uuid4 r.users).val (userOf e c) r = .ok r' ↔
      columnsHold (userOf e c) = true ∧ r' = stored e c r := by
  unfold flushUser
  by_cases hhold : columnsHold (userOf e c) = true
  · rw [if_pos hhold, insertUser_eq_ok, conflictsIn_of_not_occupied h]
    simp [hhold, stored, (e.uuid4 r.users).property]
  · rw [if_neg hhold]
    simp [hhold]

/-- A new account occupies no candidate which differs from it. -/
theorem occupied_stored (h : c.Differs d) :
    (stored e c r).occupied (userOf e d) = r.occupied (userOf e d) := by
  rw [Bool.eq_iff_iff, Registry.occupied, Registry.occupied, AList.anyRow_eq_true,
    AList.anyRow_eq_true]
  constructor
  · rintro ⟨k, v, hv, hmatch⟩
    rw [stored, AList.lookup_insert'] at hv
    split at hv
    · obtain rfl := Option.some.inj hv
      have hdiffers := And.intro h.1 h.2
      simp [userOf, newUser, hdiffers.1, hdiffers.2] at hmatch
    · exact ⟨k, v, hv, hmatch⟩
  · rintro ⟨k, v, hv, hmatch⟩
    refine ⟨k, v, ?_, hmatch⟩
    exact AList.lookup_insert_of_lookup hv (e.uuid4 r.users).property

/-- What the import says about a candidate. -/
def entryOf (e : ImportService) (r : Registry) (c : ImportCandidate) : ImportEntry :=
  if r.occupied (userOf e c) then existingEntry c else createdEntry c

/-- The candidates have been stored, as far as they were not occupied. -/
structure Stored (e : ImportService) (candidates : List ImportCandidate) (s s' : Imported) :
    Prop where
  results : s'.results = s.results ++ candidates.map (entryOf e s.registry)
  kept : ∀ k u, s.registry.users.lookup k = some u → s'.registry.users.lookup k = some u
  created : ∀ c ∈ candidates, s.registry.occupied (userOf e c) = false →
    ∃ id, id ∉ s.registry.users ∧ s'.registry.users.lookup id = some (userOf e c)

/-- Every candidate nobody occupies fits its columns. -/
def AllHeld (e : ImportService) (candidates : List ImportCandidate) (r : Registry) : Prop :=
  ∀ c ∈ candidates, r.occupied (userOf e c) = false → columnsHold (userOf e c) = true

theorem map_entryOf_stored (h : ∀ d ∈ candidates, c.Differs d) :
    candidates.map (entryOf e (stored e c r)) = candidates.map (entryOf e r) := by
  refine List.map_congr_left fun d hd ↦ ?_
  rw [entryOf, entryOf, occupied_stored (h d hd)]

theorem allHeld_stored (h : ∀ d ∈ candidates, c.Differs d) :
    AllHeld e candidates (stored e c r) ↔ AllHeld e candidates r := by
  refine forall₂_congr fun d hd ↦ ?_
  rw [occupied_stored (h d hd)]

/-- The candidate is passed over. -/
theorem Stored.occupied (hoccupied : s.registry.occupied (userOf e c) = true)
    (hrest : Stored e candidates { s with results := s.results ++ [existingEntry c] } s') :
    Stored e (c :: candidates) s s' := by
  refine ⟨?_, hrest.kept, fun d hd hfree ↦ ?_⟩
  · have hentry : entryOf e s.registry c = existingEntry c := if_pos hoccupied
    rw [hrest.results, List.map_cons, hentry, List.append_assoc]
    rfl
  · rcases List.mem_cons.mp hd with rfl | hd
    · rw [hoccupied] at hfree
      cases hfree
    · exact hrest.created d hd hfree

/-- The candidate gets its account. -/
theorem Stored.cons {audit : List ImportAudit} (hfree : s.registry.occupied (userOf e c) = false)
    (hdiffers : ∀ d ∈ candidates, c.Differs d)
    (hrest : Stored e candidates ⟨stored e c s.registry, audit, s.results ++ [createdEntry c]⟩ s') :
    Stored e (c :: candidates) s s' := by
  have hnew := (e.uuid4 s.registry.users).property
  refine ⟨?_, fun k u hu ↦ hrest.kept k u (AList.lookup_insert_of_lookup hu hnew), fun d hd hd' ↦ ?_⟩
  · have hentry : entryOf e s.registry c = createdEntry c := if_neg (by simp [hfree])
    rw [hrest.results, map_entryOf_stored hdiffers, List.map_cons, hentry, List.append_assoc]
    rfl
  · rcases List.mem_cons.mp hd with rfl | hd
    · exact ⟨_, hnew, hrest.kept _ _ (AList.lookup_insert _)⟩
    · rw [← occupied_stored (hdiffers d hd)] at hd'
      obtain ⟨id, hid, hlookup⟩ := hrest.created d hd hd'
      refine ⟨id, fun hmem ↦ hid ?_, hlookup⟩
      exact AList.mem_insert'.mpr (Or.inr hmem)

theorem importCandidates_iff (hdistinct : candidates.Pairwise ImportCandidate.Differs) :
    (∃ s', candidates.foldlM (importCandidate e) s = .ok s') ↔ AllHeld e candidates s.registry := by
  induction candidates generalizing s with
  | nil => exact iff_of_true ⟨s, rfl⟩ fun c hc ↦ by cases hc
  | cons c candidates ih =>
      obtain ⟨hdiffers, hdistinct⟩ := List.pairwise_cons.mp hdistinct
      simp only [List.foldlM_cons, Except.bind_eq_ok]
      rw [importCandidate, AllHeld, List.forall_mem_cons]
      by_cases hoccupied : s.registry.occupied (userOf e c) = true
      · rw [if_pos hoccupied]
        simp only [Except.ok.injEq, exists_eq_left', hoccupied, Bool.true_eq_false, false_implies,
          true_and]
        exact ih hdistinct
      · rw [if_neg hoccupied]
        rw [Bool.not_eq_true] at hoccupied
        simp only [Except.bind_eq_ok, flushUser_eq_ok hoccupied, Except.pure_eq_ok]
        constructor
        · rintro ⟨s', _, ⟨_, ⟨hheld, rfl⟩, rfl⟩, hrest⟩
          exact ⟨fun _ ↦ hheld, (allHeld_stored hdiffers).mp ((ih hdistinct).mp ⟨s', hrest⟩)⟩
        · rintro ⟨hheld, hrest⟩
          obtain ⟨s', hs'⟩ := (ih (s := ⟨stored e c s.registry,
            ⟨(e.uuid4 s.registry.users).val, c.row⟩ :: s.audit, s.results ++ [createdEntry c]⟩)
              hdistinct).mpr ((allHeld_stored hdiffers).mpr hrest)
          exact ⟨s', _, ⟨_, ⟨hheld hoccupied, rfl⟩, rfl⟩, hs'⟩

theorem importCandidates_stored (hdistinct : candidates.Pairwise ImportCandidate.Differs)
    (h : candidates.foldlM (importCandidate e) s = .ok s') : Stored e candidates s s' := by
  induction candidates generalizing s with
  | nil =>
      obtain rfl := Except.ok.inj h
      exact ⟨(List.append_nil _).symm, fun _ _ hu ↦ hu, fun c hc ↦ by cases hc⟩
  | cons c candidates ih =>
      obtain ⟨hdiffers, hdistinct⟩ := List.pairwise_cons.mp hdistinct
      rw [List.foldlM_cons, Except.bind_eq_ok] at h
      obtain ⟨s₁, hstep, hrest⟩ := h
      rw [importCandidate] at hstep
      split at hstep
      · rename_i hoccupied
        obtain rfl := Except.ok.inj hstep
        exact .occupied hoccupied (ih hdistinct hrest)
      · rename_i hfree
        rw [Bool.not_eq_true] at hfree
        simp only [Except.bind_eq_ok, flushUser_eq_ok hfree, Except.pure_eq_ok] at hstep
        obtain ⟨_, ⟨-, rfl⟩, rfl⟩ := hstep
        exact .cons hfree hdiffers (ih hdistinct hrest)

/-! ## The entries of the result -/

/-- The entry is the one of this row. -/
structure EntryFor (text : PyText) (columns : Columns) (row : SheetRow) (entry : ImportEntry) :
    Prop where
  number : entry.row = row.number
  email : entry.email.getD "" = raw columns row .email
  employeeNumber : entry.employeeNumber.getD "" = raw columns row .employeeNumber

/-- The result has one entry for each of the rows, and its counts are theirs. -/
structure Answers (text : PyText) (columns : Columns) (rows : List SheetRow) (result : ImportResult) :
    Prop where
  entries : ∃ entries, result.rows.Perm entries ∧ List.Forall₂ (EntryFor text columns) rows entries
  sorted : result.rows.Pairwise fun a b ↦ a.row ≤ b.row
  total : result.totalRows = rows.length
  created : result.createdCount = result.rows.countP (·.status = .created)
  rejected : result.rejectedCount = result.rows.countP (·.status = .rejected)
  sum : result.createdCount + result.rejectedCount = result.totalRows

def outcomeEntry (e : ImportService) (r : Registry) : Outcome → ImportEntry :=
  Sum.elim (entryOf e r) errorEntry

theorem perm_outcomeEntry (outs : List Outcome) :
    ((errorsOf outs).map errorEntry ++ (candidatesOf outs).map (entryOf e r)).Perm
      (outs.map (outcomeEntry e r)) := by
  induction outs with
  | nil => exact .nil
  | cons out outs ih =>
      cases out with
      | inl c => exact List.perm_middle.trans (ih.cons _)
      | inr error => exact ih.cons _

theorem entryOf_fields (c : ImportCandidate) : (entryOf e r c).row = c.row ∧
    (entryOf e r c).email = some c.email ∧ (entryOf e r c).employeeNumber = some c.employeeNumber := by
  unfold entryOf
  split
  · exact ⟨rfl, rfl, rfl⟩
  · exact ⟨rfl, rfl, rfl⟩

theorem Yields.entryFor {row : SheetRow} {out : Outcome} (h : Yields text columns row out) :
    EntryFor text columns row (outcomeEntry e r out) := by
  cases out with
  | inl c =>
      obtain ⟨hrow, hemail, hnumber⟩ := entryOf_fields (e := e) (r := r) c
      obtain rfl : c = candidateOf text columns row := h
      exact ⟨hrow, congrArg (·.getD "") hemail, congrArg (·.getD "") hnumber⟩
  | inr error => exact ⟨h.1, h.2.1, h.2.2⟩

theorem pairwise_importResult (errors : List ImportRowError) (results : List ImportEntry) :
    (importResult errors results).rows.Pairwise fun a b ↦ a.row ≤ b.row := by
  have htrans : ∀ a b c : ImportEntry, decide (a.row ≤ b.row) = true →
      decide (b.row ≤ c.row) = true → decide (a.row ≤ c.row) = true := by
    intro a b c hab hbc
    rw [decide_eq_true_eq] at hab hbc ⊢
    exact hab.trans hbc
  have htotal : ∀ a b : ImportEntry, (decide (a.row ≤ b.row) || decide (b.row ≤ a.row)) = true := by
    intro a b
    rw [Bool.or_eq_true, decide_eq_true_eq, decide_eq_true_eq]
    exact le_total _ _
  have hsorted := List.pairwise_mergeSort htrans htotal (errors.map errorEntry ++ results)
  exact hsorted.imp fun h ↦ decide_eq_true_eq.mp h

/-- Every entry is a created or a rejected one. -/
theorem countP_rejected (entries : List ImportEntry) :
    entries.countP (·.status = .created) + entries.countP (·.status = .rejected) = entries.length := by
  rw [List.length_eq_countP_add_countP fun entry : ImportEntry ↦ decide (entry.status = .created)]
  refine congrArg _ (List.countP_congr fun entry _ ↦ ?_)
  cases entry.status with
  | created => decide
  | rejected => decide

theorem answers_importResult {rows : List SheetRow}
    (hyields : List.Forall₂ (Yields text columns) rows outs) :
    Answers text columns rows
      (importResult (errorsOf outs) ((candidatesOf outs).map (entryOf e r))) := by
  have hperm := (List.mergeSort_perm ((errorsOf outs).map errorEntry ++
    (candidatesOf outs).map (entryOf e r)) fun a b ↦ a.row ≤ b.row).trans (perm_outcomeEntry outs)
  have hentries : List.Forall₂ (EntryFor text columns) rows (outs.map (outcomeEntry e r)) := by
    rw [List.forall₂_map_right_iff]
    exact hyields.imp fun _ _ h ↦ h.entryFor
  have hcount := countP_rejected
    (importResult (errorsOf outs) ((candidatesOf outs).map (entryOf e r))).rows
  refine ⟨⟨_, hperm, hentries⟩, pairwise_importResult _ _, ?_, rfl, ?_, ?_⟩
  · exact hperm.length_eq.trans hentries.length_eq.symm
  · exact Nat.sub_eq_of_eq_add' hcount.symm
  · exact Nat.add_sub_cancel' (List.countP_le_length)

/-! ## The law of the import -/

/-- The row has no text at all. -/
def SheetRow.blank (row : SheetRow) : Bool :=
  row.cells.all fun cell ↦ strip cell.2 = ""

theorem mem_setItem {key : ℤ} {value : String} {x : ℤ × String} {d : List (ℤ × String)}
    (h : x ∈ setItem key value d) : x = (key, value) ∨ x ∈ d := by
  induction d with
  | nil => exact Or.inl (List.mem_singleton.mp h)
  | cons y d ih =>
      rw [setItem] at h
      split at h
      · rename_i hkey
        rcases List.mem_cons.mp h with rfl | h
        · exact Or.inl (by rw [hkey])
        · exact Or.inr (List.mem_cons_of_mem _ h)
      · rcases List.mem_cons.mp h with rfl | h
        · exact Or.inr List.mem_cons_self
        · exact (ih h).imp_right (List.mem_cons_of_mem _)

theorem mem_foldl_setItem {x : ℤ × String} {cells d : List (ℤ × String)}
    (h : x ∈ cells.foldl (fun values cell ↦ setItem cell.1 cell.2 values) d) : x ∈ d ∨ x ∈ cells := by
  induction cells generalizing d with
  | nil => exact Or.inl h
  | cons cell cells ih =>
      rcases ih h with h | h
      · rcases mem_setItem h with rfl | h
        · exact Or.inr List.mem_cons_self
        · exact Or.inl h
      · exact Or.inr (List.mem_cons_of_mem _ h)

theorem SheetRow.skipped_of_blank {row : SheetRow} (h : row.blank = true) : row.skipped = true := by
  rw [blank, List.all_eq_true] at h
  refine List.all_eq_true.mpr fun x hx ↦ ?_
  rcases mem_foldl_setItem hx with hx | hx
  · cases hx
  · exact h x hx

/-- A worksheet the parser accepts, and what it has read of it. -/
structure AcceptedSheet (e : ImportService) (upload : Upload) where
  content : List ℕ
  archive : Archive
  header : SheetRow
  rows : List SheetRow
  columns : Columns
  candidates : List ImportCandidate
  errors : List ImportRowError
  decoded : decodeXlsx e.text upload = .ok content
  opened : e.openArchive content = some archive
  read : worksheetRows e.text archive = .ok (header :: rows)
  mapped : mapHeaders e.text header.values = .ok columns
  parsed : parseAccountImport e.text (some archive) = .ok (candidates, errors)

def AcceptedSheet.dataRows (sheet : AcceptedSheet e upload) : List SheetRow :=
  sheet.rows.filter fun row ↦ !row.blank

theorem AcceptedSheet.parsedTo (sheet : AcceptedSheet e upload) : ∃ s outs,
    ParsedTo e.text sheet.columns sheet.rows s outs ∧ s.candidates = sheet.candidates ∧
      s.errors = sheet.errors := by
  have hparsed := sheet.parsed
  unfold parseAccountImport at hparsed
  dsimp only at hparsed
  split at hparsed
  · cases hparsed
  rw [sheet.read] at hparsed
  change (mapHeaders e.text sheet.header.values >>= _) = _ at hparsed
  rw [sheet.mapped] at hparsed
  change (sheet.rows.foldlM (parseRow e.text sheet.columns) _ >>= _) = _ at hparsed
  obtain ⟨s, hloop, hs⟩ := Except.bind_eq_ok.mp hparsed
  obtain ⟨outs, houts⟩ := parsedTo_nil.run hloop
  obtain ⟨hcandidates, herrors⟩ := Prod.mk.inj (Except.ok.inj hs)
  exact ⟨s, outs, houts, hcandidates, herrors⟩

theorem AcceptedSheet.importAccounts_eq (sheet : AcceptedSheet e upload) (r : Registry) :
    importAccounts e upload r = (importPlatformAccounts e sheet.candidates r).bind fun s ↦
      .ok (importResult sheet.errors s.results, s.registry) := by
  unfold importAccounts
  rw [sheet.decoded]
  change (parseAccountImport e.text (e.openArchive sheet.content) >>= _) = _
  rw [sheet.opened, sheet.parsed]
  rfl

/-- Every row with text is accounted for by the parser and has its entry in the result, and
every candidate which could be stored is stored. -/
def AccountsForEveryRow (e : ImportService) (upload : Upload) (r : Registry) : Prop :=
  ∀ sheet : AcceptedSheet e upload,
    Accounted e.text sheet.columns sheet.dataRows sheet.candidates sheet.errors ∧
      ∃ result r', importAccounts e upload r = .ok (result, r') ∧
        Answers e.text sheet.columns sheet.dataRows result ∧
        ∀ c ∈ sheet.candidates, r.occupied (userOf e c) = false → columnsHold (userOf e c) = true →
          ∃ id, id ∉ r.users ∧ r'.users.lookup id = some (userOf e c)

/-- No cell with text gives way to a blank one in its column, if it is all the row has; and
every candidate nobody occupies fits its columns. -/
def Importable (e : ImportService) (upload : Upload) (r : Registry) : Prop :=
  ∀ sheet : AcceptedSheet e upload, (∀ row ∈ sheet.rows, row.skipped = true → row.blank = true) ∧
    AllHeld e sheet.candidates r

theorem filter_skipped_iff {rows : List SheetRow} :
    (rows.filter fun row ↦ !row.blank).length = (rows.filter fun row ↦ !row.skipped).length ↔
      ∀ row ∈ rows, row.skipped = true → row.blank = true := by
  constructor
  · intro hlength row hrow hskipped
    have hsub : (rows.filter fun row ↦ !row.skipped).Sublist (rows.filter fun row ↦ !row.blank) := by
      refine List.monotone_filter_right rows fun row hrow ↦ ?_
      rw [Bool.not_eq_true'] at hrow ⊢
      rw [← Bool.not_eq_true]
      intro hblank
      rw [SheetRow.skipped_of_blank hblank] at hrow
      cases hrow
    by_contra hblank
    have hmem : row ∈ rows.filter fun row ↦ !row.blank :=
      List.mem_filter.mpr ⟨hrow, (Bool.not_eq_true' _).mpr (Bool.not_eq_true _ ▸ hblank)⟩
    rw [← hsub.eq_of_length hlength.symm] at hmem
    simp [hskipped] at hmem
  · intro h
    refine congrArg List.length (List.filter_congr fun row hrow ↦ congrArg Bool.not ?_)
    exact Bool.eq_iff_iff.mpr ⟨SheetRow.skipped_of_blank, h row hrow⟩

theorem accounted_iff (sheet : AcceptedSheet e upload) :
    Accounted e.text sheet.columns sheet.dataRows sheet.candidates sheet.errors ↔
      ∀ row ∈ sheet.rows, row.skipped = true → row.blank = true := by
  obtain ⟨s, outs, hs, hcandidates, herrors⟩ := sheet.parsedTo
  have hlength : outs.length = sheet.candidates.length + sheet.errors.length := by
    have hperm := (perm_outcomeEntry (e := e) (r := Registry.empty) outs).length_eq
    rw [hs.candidates, hs.errors, hcandidates, herrors] at hperm
    simpa [add_comm] using hperm.symm
  rw [← filter_skipped_iff]
  constructor
  · intro h
    obtain ⟨outs', hyields, hcandidates', herrors', -⟩ := h.outcomes
    have hperm := (perm_outcomeEntry (e := e) (r := Registry.empty) outs').length_eq
    rw [hcandidates', herrors'] at hperm
    have hlength' : outs'.length = sheet.candidates.length + sheet.errors.length := by
      simpa [add_comm] using hperm.symm
    exact hyields.length_eq.trans (hlength'.trans (hlength.symm.trans hs.yields.length_eq.symm))
  · intro h
    rw [filter_skipped_iff] at h
    have hrows : sheet.dataRows = sheet.rows.filter fun row ↦ !row.skipped := by
      refine List.filter_congr fun row hrow ↦ congrArg Bool.not ?_
      exact Bool.eq_iff_iff.mpr ⟨SheetRow.skipped_of_blank, h row hrow⟩
    rw [hrows, ← hcandidates, ← herrors]
    exact ⟨⟨outs, hs.yields, hs.candidates, hs.errors, hs.justified⟩, hs.distinct, hs.valid⟩

theorem import_accounts_for_every_row_iff {e : ImportService} {upload : Upload} {r : Registry} :
    AccountsForEveryRow e upload r ↔ Importable e upload r := by
  refine forall_congr' fun sheet ↦ ?_
  rw [accounted_iff]
  refine and_congr_right fun hskipped ↦ ?_
  obtain ⟨⟨outs, hyields, hcandidates, herrors, -⟩, hdistinct, -⟩ := (accounted_iff sheet).mpr hskipped
  rw [sheet.importAccounts_eq]
  constructor
  · rintro ⟨result, r', himport, -⟩
    obtain ⟨s, hs, -⟩ := Except.bind_eq_ok.mp himport
    exact (importCandidates_iff (s := ⟨r, [], []⟩) hdistinct).mp ⟨s, hs⟩
  · intro hheld
    obtain ⟨s, hs⟩ := (importCandidates_iff (s := ⟨r, [], []⟩) hdistinct).mpr hheld
    have hstored := importCandidates_stored hdistinct hs
    refine ⟨importResult sheet.errors s.results, s.registry, ?_, ?_, fun c hc hfree _ ↦ ?_⟩
    · rw [importPlatformAccounts, hs]
      rfl
    · rw [hstored.results, List.nil_append, ← hcandidates, ← herrors]
      exact answers_importResult hyields
    · exact hstored.created c hc hfree

end

namespace Sample

theorem not_mem_users (users : Table Uuid User) : users.keys.foldr max 0 + 1 ∉ users := by
  intro hmem
  have hle : ∀ ids : List Uuid, ∀ id ∈ ids, id ≤ ids.foldr max 0 := by
    intro ids id hid
    induction ids with
    | nil => cases hid
    | cons k ids ih =>
        rcases List.mem_cons.mp hid with rfl | hid
        · exact le_max_left _ _
        · exact (ih hid).trans (le_max_right _ _)
  exact Nat.not_succ_le_self _ (hle _ _ (AList.mem_keys.mp hmem))

def text : PyText where
  lower := fun s ↦ s.map Char.toLower
  casefold := fun s ↦ s.map Char.toLower
  isalpha := Char.isAlpha
  upper := fun c ↦ [c.toUpper]
  int := fun s ↦ [("1", 1), ("2", 2), ("3", 3)].lookup s

def cell (reference : Option String) (value : String) : Cell :=
  ⟨reference, none, false, none, some value⟩

def header : RowElement :=
  ⟨some "1", [cell (some "A1") "email", cell (some "B1") "employee_number",
    cell (some "C1") "display_name", cell (some "D1") "password"]⟩

def ann : RowElement :=
  ⟨some "2", [cell (some "A2") "ann@example.com", cell (some "B2") "e1", cell (some "C2") "Ann",
    cell (some "D2") "password1"]⟩

/-- A display name of 201 characters. -/
def ben : RowElement :=
  ⟨some "3", [cell (some "A3") "ben@example.com", cell (some "B3") "e2",
    cell (some "C3") (String.ofList (List.replicate 201 'n')), cell (some "D3") "password2"]⟩

/-- The cells have no reference, and the last one is empty. -/
def unplaced : RowElement :=
  ⟨some "3", [cell none "ben@example.com", cell none "e2", cell none "Ben", cell none "password2",
    cell none ""]⟩

def service (row : RowElement) : ImportService where
  text := text
  openArchive := fun _ ↦ some ⟨[1000], none, some [header, ann, row]⟩
  hash := fun _ ↦ "hash"
  uuid4 := fun users ↦ ⟨_, not_mem_users users⟩

def upload : Upload := ⟨"accounts.xlsx", "UEsDBA=="⟩

def headerRow : SheetRow :=
  ⟨1, [(0, "email"), (1, "employee_number"), (2, "display_name"), (3, "password")]⟩

def annRow : SheetRow := ⟨2, [(0, "ann@example.com"), (1, "e1"), (2, "Ann"), (3, "password1")]⟩

def benRow : SheetRow :=
  ⟨3, [(0, "ben@example.com"), (1, "e2"), (2, String.ofList (List.replicate 201 'n')),
    (3, "password2")]⟩

def unplacedRow : SheetRow :=
  ⟨3, [(-1, "ben@example.com"), (-1, "e2"), (-1, "Ben"), (-1, "password2"), (-1, "")]⟩

def columns : Columns :=
  [(.email, 0), (.employeeNumber, 1), (.displayName, 2), (.password, 3)]

def annCandidate : ImportCandidate := candidateOf text columns annRow

def benCandidate : ImportCandidate := candidateOf text columns benRow

theorem decoded : decodeXlsx text upload = .ok [80, 75, 3, 4] := by decide +kernel

theorem mapped : mapHeaders text headerRow.values = .ok columns := by decide +kernel

theorem read_ben : worksheetRows text ⟨[1000], none, some [header, ann, ben]⟩ =
    .ok [headerRow, annRow, benRow] :=
  rfl

theorem read_unplaced : worksheetRows text ⟨[1000], none, some [header, ann, unplaced]⟩ =
    .ok [headerRow, annRow, unplacedRow] := by
  decide +kernel

/-- The display name has no spaces around it. -/
theorem displayName_ben : benCandidate.displayName = String.ofList (List.replicate 201 'n') := by
  have hkeep : (List.replicate 201 'n').dropWhile Storage.isPySpace = List.replicate 201 'n' :=
    List.dropWhile_cons_of_neg (by decide)
  change strip (String.ofList (List.replicate 201 'n')) = _
  rw [strip, String.toList_ofList, Storage.strip, hkeep, List.reverse_replicate, hkeep,
    List.reverse_replicate]

theorem check_ben : benCandidate.check = none := by
  rw [ImportCandidate.check, displayName_ben]
  decide +kernel

theorem parsed_ben : parseAccountImport text (some ⟨[1000], none, some [header, ann, ben]⟩) =
    .ok ([annCandidate, benCandidate], []) := by
  have hann : parseRow text columns ⟨[], [], [], []⟩ annRow = .ok ⟨[annCandidate], [],
      [annCandidate.normalizedEmail], [annCandidate.normalizedEmployeeNumber]⟩ := by
    refine parseRow_kept ?_ ?_ ?_ ?_ <;> decide +kernel
  have hben : parseRow text columns ⟨[annCandidate], [], [annCandidate.normalizedEmail],
      [annCandidate.normalizedEmployeeNumber]⟩ benRow = .ok ⟨[annCandidate, benCandidate], [],
        [benCandidate.normalizedEmail, annCandidate.normalizedEmail],
        [benCandidate.normalizedEmployeeNumber, annCandidate.normalizedEmployeeNumber]⟩ := by
    refine parseRow_kept ?_ ?_ check_ben ?_ <;> decide +kernel
  unfold parseAccountImport
  dsimp only
  rw [if_neg (by decide)]
  refine Except.bind_eq_ok.mpr ⟨_, read_ben, Except.bind_eq_ok.mpr ⟨_, mapped, ?_⟩⟩
  simp only [List.foldlM_cons, List.foldlM_nil]
  exact Except.bind_eq_ok.mpr ⟨_, Except.bind_eq_ok.mpr ⟨_, hann,
    Except.bind_eq_ok.mpr ⟨_, hben, rfl⟩⟩, rfl⟩

/-- The column of the display name does not hold the 201 characters. -/
theorem import_ben {s : Imported}
    (hfree : s.registry.occupied (userOf (service ben) benCandidate) = false) (s' : Imported) :
    importCandidate (service ben) s benCandidate ≠ .ok s' := by
  have hlong : columnsHold (userOf (service ben) benCandidate) = false := by
    have hname : (userOf (service ben) benCandidate).displayName.length = 201 := by
      change benCandidate.displayName.length = 201
      rw [displayName_ben, String.length_ofList, List.length_replicate]
    rw [columnsHold, hname, Bool.and_eq_false_iff, Bool.and_eq_false_iff]
    exact Or.inl (Or.inr rfl)
  intro h
  rw [importCandidate, hfree, if_neg Bool.false_ne_true] at h
  obtain ⟨r, hflush, -⟩ := Except.bind_eq_ok.mp h
  rw [flushUser, hlong, if_neg Bool.false_ne_true] at hflush
  cases hflush

theorem parsed_unplaced :
    parseAccountImport text (some ⟨[1000], none, some [header, ann, unplaced]⟩) =
      .ok ([annCandidate], []) := by
  decide +kernel

def benSheet : AcceptedSheet (service ben) upload :=
  ⟨_, _, headerRow, [annRow, benRow], columns, _, _, decoded, rfl, read_ben, mapped, parsed_ben⟩

def unplacedSheet : AcceptedSheet (service unplaced) upload :=
  ⟨_, _, headerRow, [annRow, unplacedRow], columns, _, _, decoded, rfl, read_unplaced, mapped,
    parsed_unplaced⟩

end Sample

/-- One row which a column does not hold, and one whose text is lost. -/
theorem import_loses_rows :
    ¬ AccountsForEveryRow (Sample.service Sample.ben) Sample.upload Registry.empty ∧
      ¬ AccountsForEveryRow (Sample.service Sample.unplaced) Sample.upload Registry.empty := by
  constructor
  · intro h
    obtain ⟨result, r', himport, -⟩ := (h Sample.benSheet).2
    obtain ⟨content, hcontent, himport⟩ := Except.bind_eq_ok.mp himport
    obtain rfl := Except.ok.inj (Sample.decoded.symm.trans hcontent)
    obtain ⟨parsed, hparsed, himport⟩ := Except.bind_eq_ok.mp himport
    obtain rfl := Except.ok.inj (Sample.parsed_ben.symm.trans hparsed)
    obtain ⟨s, himported, -⟩ := Except.bind_eq_ok.mp himport
    obtain ⟨s₁, hann, hben⟩ := Except.bind_eq_ok.mp himported
    obtain ⟨s₂, hben, -⟩ := Except.bind_eq_ok.mp hben
    have hfree : (importCandidate (Sample.service Sample.ben) ⟨Registry.empty, [], []⟩
        Sample.annCandidate).toOption.all (fun s ↦ !s.registry.occupied
          (userOf (Sample.service Sample.ben) Sample.benCandidate)) = true := by
      decide +kernel
    rw [hann, Except.toOption, Option.all_some] at hfree
    exact Sample.import_ben (by simpa using hfree) s₂ hben
  · intro h
    have hlost := (accounted_iff Sample.unplacedSheet).mp (h Sample.unplacedSheet).1
    have hrow : Sample.unplacedRow ∈ Sample.unplacedSheet.rows := by
      exact List.mem_cons_of_mem _ List.mem_cons_self
    have hblank := hlost _ hrow (by decide +kernel)
    revert hblank
    decide +kernel

end S3mp.AccountImport
