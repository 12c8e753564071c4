import S3mp.Accounts.AccountImport

/-!
# What an import says about the rows of its worksheet

Each row with text becomes one candidate or one error, in the order of the rows;
a candidate which no account occupies is stored.  The seen sets of the parser are
the addresses and numbers of the candidates so far.
-/

namespace S3mp.AccountImport

open Relational Registry

section

variable {text : PyText} {columns : Columns} {e : ImportService} {r r' : Registry}
  {c d : ImportCandidate} {row : SheetRow}

/-- What becomes of a row. -/
abbrev Outcome := ImportCandidate ⊕ ImportRowError

def candidatesOf (outs : List Outcome) : List ImportCandidate := outs.filterMap Sum.getLeft?

def errorsOf (outs : List Outcome) : List ImportRowError := outs.filterMap Sum.getRight?

/-- The outcome is one of this row. -/
def Yields (text : PyText) (columns : Columns) (row : SheetRow) : Outcome → Prop
  | .inl c => c = candidateOf text columns row
  | .inr error => error.row = row.number ∧ error.email.getD "" = raw columns row .email ∧
      error.employeeNumber.getD "" = raw columns row .employeeNumber

def ImportCandidate.Differs (c d : ImportCandidate) : Prop :=
  c.normalizedEmail ≠ d.normalizedEmail ∧ c.normalizedEmployeeNumber ≠ d.normalizedEmployeeNumber

structure ImportCandidate.Valid (c : ImportCandidate) : Prop where
  email : '@' ∈ c.email.toList
  employeeNumber : employeeNumberFormat c.normalizedEmployeeNumber = true
  displayName : c.displayName ≠ ""
  password : 8 ≤ c.password.length

/-- A row is called a duplicate for what an earlier candidate has. -/
def Justified (text : PyText) : List ImportCandidate → List Outcome → Prop
  | _, [] => True
  | earlier, .inl c :: outs => Justified text (earlier ++ [c]) outs
  | earlier, .inr error :: outs =>
    (error.code = "duplicate_in_file" → ∃ c ∈ earlier,
      c.normalizedEmail = text.casefold (error.email.getD "") ∨
        c.normalizedEmployeeNumber = text.casefold (error.employeeNumber.getD "")) ∧
      Justified text earlier outs

/-- The parser accounts for the rows. -/
structure Accounted (text : PyText) (columns : Columns) (rows : List SheetRow)
    (candidates : List ImportCandidate) (errors : List ImportRowError) : Prop where
  outcomes : ∃ outs, List.Forall₂ (Yields text columns) rows outs ∧ candidatesOf outs = candidates ∧
    errorsOf outs = errors ∧ Justified text [] outs
  distinct : candidates.Pairwise ImportCandidate.Differs
  valid : ∀ c ∈ candidates, c.Valid

/-! ## One row -/

theorem getD_orNone (s : String) : (orNone s).getD "" = s := by
  unfold orNone
  split
  · rename_i h
    exact h.symm
  · rfl

theorem check_eq_none : c.check = none ↔ c.Valid := by
  unfold ImportCandidate.check validateRow
  constructor
  · intro h
    split at h
    · cases h
    rename_i hemail
    split at h
    · cases h
    rename_i hnumber
    split at h
    · cases h
    rename_i hname
    split at h
    · cases h
    rename_i hpassword
    rw [not_or, not_not] at hemail
    exact ⟨hemail.2, by simpa using hnumber, hname, by omega⟩
  · rintro ⟨hemail, hnumber, hname, hpassword⟩
    have hne : c.email ≠ "" := by
      intro h
      rw [h] at hemail
      cases hemail
    rw [if_neg (by simp [hne, hemail]), if_neg (by simp [hnumber]), if_neg hname, if_neg (by omega)]

theorem check_eq_some {error : ImportRowError} (h : c.check = some error) :
    error.row = c.row ∧ error.email.getD "" = c.email ∧
      error.employeeNumber.getD "" = c.employeeNumber ∧ error.code ≠ "duplicate_in_file" := by
  unfold ImportCandidate.check validateRow at h
  split at h
  · obtain rfl := Option.some.inj h
    exact ⟨rfl, getD_orNone _, getD_orNone _, by simp⟩
  split at h
  · obtain rfl := Option.some.inj h
    exact ⟨rfl, rfl, getD_orNone _, by simp⟩
  split at h
  · obtain rfl := Option.some.inj h
    exact ⟨rfl, rfl, rfl, by simp⟩
  split at h
  · obtain rfl := Option.some.inj h
    exact ⟨rfl, rfl, rfl, by simp⟩
  · cases h

theorem justified_append {earlier : List ImportCandidate} {outs outs' : List Outcome} :
    Justified text earlier (outs ++ outs') ↔
      Justified text earlier outs ∧ Justified text (earlier ++ candidatesOf outs) outs' := by
  induction outs generalizing earlier with
  | nil => simp [Justified, candidatesOf]
  | cons out outs ih =>
      cases out with
      | inl c => simp [Justified, ih, candidatesOf, List.append_assoc]
      | inr error =>
          have hcons : candidatesOf (.inr error :: outs) = candidatesOf outs := rfl
          rw [List.cons_append, Justified, Justified, ih, hcons, and_assoc]

/-! ## The loop -/

/-- The parser has gone through the rows. -/
structure ParsedTo (text : PyText) (columns : Columns) (rows : List SheetRow) (s : Parsed)
    (outs : List Outcome) : Prop where
  yields : List.Forall₂ (Yields text columns) (rows.filter fun row ↦ !row.skipped) outs
  candidates : candidatesOf outs = s.candidates
  errors : errorsOf outs = s.errors
  justified : Justified text [] outs
  emails : ∀ email, email ∈ s.seenEmails ↔ ∃ c ∈ s.candidates, c.normalizedEmail = email
  numbers : ∀ number, number ∈ s.seenEmployeeNumbers ↔
    ∃ c ∈ s.candidates, c.normalizedEmployeeNumber = number
  distinct : s.candidates.Pairwise ImportCandidate.Differs
  valid : ∀ c ∈ s.candidates, c.Valid

variable {rows : List SheetRow} {s s' : Parsed} {outs : List Outcome}

/-- What one row does to the parser. -/
inductive RowParsed (text : PyText) (columns : Columns) (s : Parsed) (row : SheetRow) : Parsed → Prop
  | skipped (hskipped : row.skipped = true) : RowParsed text columns s row s
  | invalid (error : ImportRowError) (hskipped : row.skipped = false)
      (hcheck : (candidateOf text columns row).check = some error) :
      RowParsed text columns s row { s with errors := s.errors ++ [error] }
  | duplicate (hskipped : row.skipped = false)
      (hseen : (candidateOf text columns row).normalizedEmail ∈ s.seenEmails ∨
        (candidateOf text columns row).normalizedEmployeeNumber ∈ s.seenEmployeeNumbers) :
      RowParsed text columns s row
        { s with errors := s.errors ++ [duplicateError (candidateOf text columns row)] }
  | accepted (c : ImportCandidate) (hc : candidateOf text columns row = c)
      (hskipped : row.skipped = false) (hcheck : c.check = none)
      (hemail : c.normalizedEmail ∉ s.seenEmails)
      (hnumber : c.normalizedEmployeeNumber ∉ s.seenEmployeeNumbers) :
      RowParsed text columns s row
        { s with
          candidates := s.candidates ++ [c]
          seenEmails := c.normalizedEmail :: s.seenEmails
          seenEmployeeNumbers := c.normalizedEmployeeNumber :: s.seenEmployeeNumbers }

theorem parseRow_kept (hrow : row.skipped = false)
    (hroom : s.candidates.length + s.errors.length < maxImportRows)
    (hcheck : (candidateOf text columns row).check = none)
    (hfresh : ¬((candidateOf text columns row).normalizedEmail ∈ s.seenEmails ∨
      (candidateOf text columns row).normalizedEmployeeNumber ∈ s.seenEmployeeNumbers)) :
    parseRow text columns s row = .ok { s with
      candidates := s.candidates ++ [candidateOf text columns row]
      seenEmails := (candidateOf text columns row).normalizedEmail :: s.seenEmails
      seenEmployeeNumbers :=
        (candidateOf text columns row).normalizedEmployeeNumber :: s.seenEmployeeNumbers } := by
  have hkept : ¬ row.skipped = true := by rw [hrow]; decide
  rw [parseRow, if_neg hkept, if_neg (Nat.not_le.mpr hroom)]
  dsimp only
  rw [hcheck]
  exact if_neg hfresh

theorem parseRow_cases (h : parseRow text columns s row = .ok s') : RowParsed text columns s row s' := by
  unfold parseRow at h
  split at h
  · rename_i hskipped
    obtain rfl := Except.ok.inj h
    exact .skipped hskipped
  rename_i hskipped
  rw [Bool.not_eq_true] at hskipped
  split at h
  · cases h
  dsimp only at h
  split at h
  · rename_i error hcheck
    obtain rfl := Except.ok.inj h
    exact .invalid error hskipped hcheck
  rename_i hcheck
  split at h
  · rename_i hseen
    obtain rfl := Except.ok.inj h
    exact .duplicate hskipped hseen
  · rename_i hfresh
    rw [not_or] at hfresh
    obtain rfl := Except.ok.inj h
    exact .accepted _ rfl hskipped hcheck hfresh.1 hfresh.2

theorem filter_append_skipped (h : row.skipped = true) :
    (rows ++ [row]).filter (fun row ↦ !row.skipped) = rows.filter fun row ↦ !row.skipped := by
  simp [List.filter_append, h]

theorem filter_append_kept (h : row.skipped = false) :
    (rows ++ [row]).filter (fun row ↦ !row.skipped) =
      (rows.filter fun row ↦ !row.skipped) ++ [row] := by
  simp [List.filter_append, h]

/-- The row is an error. -/
theorem ParsedTo.rejected {error : ImportRowError} (hs : ParsedTo text columns rows s outs)
    (hskipped : row.skipped = false) (hyields : Yields text columns row (.inr error))
    (hjustified : Justified text s.candidates [.inr error]) :
    ParsedTo text columns (rows ++ [row]) { s with errors := s.errors ++ [error] }
      (outs ++ [.inr error]) := by
  refine { hs with yields := ?_, candidates := ?_, errors := ?_, justified := ?_ }
  · rw [filter_append_kept hskipped]
    exact List.rel_append hs.yields (.cons hyields .nil)
  · rw [candidatesOf, List.filterMap_append]
    exact (List.append_nil _).trans hs.candidates
  · rw [errorsOf, List.filterMap_append]
    exact congrArg (· ++ [error]) hs.errors
  · rw [justified_append, hs.candidates]
    exact ⟨hs.justified, hjustified⟩

theorem ParsedTo.step (hs : ParsedTo text columns rows s outs)
    (h : parseRow text columns s row = .ok s') :
    ∃ outs', ParsedTo text columns (rows ++ [row]) s' outs' := by
  cases parseRow_cases h with
  | skipped hskipped =>
      refine ⟨outs, { hs with yields := ?_ }⟩
      rw [filter_append_skipped hskipped]
      exact hs.yields
  | invalid error hskipped hcheck =>
      obtain ⟨hrow, hemail, hnumber, hcode⟩ := check_eq_some hcheck
      refine ⟨_, hs.rejected hskipped ⟨hrow, hemail, hnumber⟩ ⟨fun h ↦ absurd h hcode, trivial⟩⟩
  | duplicate hskipped hseen =>
      have hyields : Yields text columns row
          (.inr (duplicateError (candidateOf text columns row))) := by
        simp only [Yields, duplicateError, candidateOf, getD_orNone, true_and]
      refine ⟨_, hs.rejected hskipped hyields ⟨fun _ ↦ ?_, trivial⟩⟩
      rw [duplicateError, getD_orNone, getD_orNone]
      rcases hseen with hseen | hseen
      · obtain ⟨c, hc, heq⟩ := (hs.emails _).mp hseen
        exact ⟨c, hc, Or.inl heq⟩
      · obtain ⟨c, hc, heq⟩ := (hs.numbers _).mp hseen
        exact ⟨c, hc, Or.inr heq⟩
  | accepted c hc hskipped hcheck hemail hnumber =>
      refine ⟨outs ++ [.inl c], ?_, ?_, ?_, ?_, fun email ↦ ?_, fun number ↦ ?_, ?_, fun d hd ↦ ?_⟩
      · rw [filter_append_kept hskipped]
        exact List.rel_append hs.yields (.cons hc.symm .nil)
      · rw [candidatesOf, List.filterMap_append]
        exact congrArg (· ++ [c]) hs.candidates
      · rw [errorsOf, List.filterMap_append]
        exact (List.append_nil _).trans hs.errors
      · rw [justified_append]
        exact ⟨hs.justified, trivial⟩
      · rw [List.mem_cons, hs.emails]
        simp [or_and_right, exists_or, or_comm, eq_comm]
      · rw [List.mem_cons, hs.numbers]
        simp [or_and_right, exists_or, or_comm, eq_comm]
      · refine List.pairwise_append.mpr ⟨hs.distinct, List.pairwise_singleton _ _, fun d hd x hx ↦ ?_⟩
        obtain rfl := List.mem_singleton.mp hx
        refine ⟨fun heq ↦ hemail ((hs.emails _).mpr ⟨d, hd, heq⟩), fun heq ↦ ?_⟩
        exact hnumber ((hs.numbers _).mpr ⟨d, hd, heq⟩)
      · rcases List.mem_append.mp hd with hd | hd
        · exact hs.valid d hd
        · obtain rfl := List.mem_singleton.mp hd
          exact check_eq_none.mp hcheck

theorem ParsedTo.run {later : List SheetRow} (hs : ParsedTo text columns rows s outs)
    (h : later.foldlM (parseRow text columns) s = .ok s') :
    ∃ outs', ParsedTo text columns (rows ++ later) s' outs' := by
  induction later generalizing rows s outs with
  | nil =>
      obtain rfl := Except.ok.inj h
      exact ⟨outs, (List.append_nil rows).symm ▸ hs⟩
  | cons row later ih =>
      rw [List.foldlM_cons, Except.bind_eq_ok] at h
      obtain ⟨s₁, hrow, hlater⟩ := h
      obtain ⟨outs₁, hs₁⟩ := hs.step hrow
      rw [List.append_cons]
      exact ih hs₁ hlater

theorem parsedTo_nil : ParsedTo text columns [] ⟨[], [], [], []⟩ [] where
  yields := .nil
  candidates := rfl
  errors := rfl
  justified := trivial
  emails email := by simp
  numbers number := by simp
  distinct := .nil
  valid c hc := by cases hc

end

end S3mp.AccountImport
