import S3mp.Files.Rows
import S3mp.Relational.Keyset

/-!
# The trash of the platform

`list_platform_file_trash` reads one record more than a page has, pops it, and lets the
next page start behind the record it popped.
-/

namespace S3mp.Files

open Relational

/-- A deletion record with the columns which place it. -/
structure TrashRecord where
  tenantId : Uuid
  storageSpaceId : Uuid
  record : FileDeletionRecord
  deriving DecidableEq

/-- `some none` stands for a text which is the status of no record. -/
structure TrashFilter where
  tenantId : Option Uuid
  storageSpaceId : Option Uuid
  status : Option (Option DeletionRecordStatus)

def TrashFilter.admits (f : TrashFilter) (_ : Uuid) (r : TrashRecord) : Bool :=
  f.tenantId.all (r.tenantId = ·) && f.storageSpaceId.all (r.storageSpaceId = ·) &&
    f.status.all (some r.record.status = ·)

def listDeletionRecords (f : TrashFilter) (limit : ℕ) (afterId : Option Uuid)
    (t : Table Uuid TrashRecord) : List (Uuid × TrashRecord) :=
  (t.remaining f.admits afterId).take limit

def listPlatformFileTrash (f : TrashFilter) (limit : ℕ) (t : Table Uuid TrashRecord)
    (cursor : Option Uuid) : List (Uuid × TrashRecord) × Option Uuid :=
  let records := listDeletionRecords f (limit + 1) cursor t
  if limit < records.length then (records.dropLast, records.getLast?.map Prod.fst)
  else (records, none)

variable (f : TrashFilter) (limit : ℕ) (t : Table Uuid TrashRecord)

theorem trash_cases (cursor : Option Uuid) :
    ((t.remaining f.admits cursor).length ≤ limit ∧
      listPlatformFileTrash f limit t cursor = (t.remaining f.admits cursor, none)) ∨
      ∃ pre x post, pre.length = limit ∧ t.remaining f.admits cursor = pre ++ x :: post ∧
        listPlatformFileTrash f limit t cursor = (pre, some x.1) := by
  unfold listPlatformFileTrash listDeletionRecords
  generalize t.remaining f.admits cursor = l
  rcases AList.length_le_or_split limit l with hle | ⟨pre, x, post, hlength, rfl⟩
  · refine Or.inl ⟨hle, ?_⟩
    rw [List.take_of_length_le (hle.trans (Nat.le_succ _))]
    exact if_neg (not_lt.mpr hle)
  · refine Or.inr ⟨pre, x, post, hlength, rfl, ?_⟩
    rw [AList.take_succ_split hlength]
    dsimp only
    rw [if_pos (by simp [hlength]), List.dropLast_concat, List.getLast?_concat]
    rfl

/-- A client which goes through the trash is shown all of it but each `limit + 1`-st record. -/
theorem trash_left_out (cursor : Option Uuid) (shown : List (Uuid × TrashRecord)) :
    AList.Walk (listPlatformFileTrash f limit t) cursor shown ↔
      shown = AList.thinned limit (t.remaining f.admits cursor) := by
  constructor
  · intro h
    induction h with
    | last cursor rows h =>
        rcases trash_cases f limit t cursor with ⟨hle, hpage⟩ | ⟨_, _, _, -, -, hpage⟩
        · rw [AList.thinned_of_length_le hle]
          exact congrArg Prod.fst (h.symm.trans hpage)
        · cases congrArg Prod.snd (h.symm.trans hpage)
    | more cursor next rows rest h _ ih =>
        rcases trash_cases f limit t cursor with ⟨-, hpage⟩ | ⟨pre, x, post, hlength, hrem, hpage⟩
        · cases congrArg Prod.snd (h.symm.trans hpage)
        · cases h.symm.trans hpage
          rw [ih, AList.remaining_behind hrem, hrem, AList.thinned_split hlength]
  · rintro rfl
    -- by induction on how many records remain
    induction hn : (t.remaining f.admits cursor).length using Nat.strong_induction_on
      generalizing cursor with
    | _ n ih =>
        rcases trash_cases f limit t cursor with ⟨hle, hpage⟩ | ⟨pre, x, post, hlength, hrem, hpage⟩
        · rw [AList.thinned_of_length_le hle]
          exact .last cursor _ hpage
        · have hlater := AList.remaining_behind hrem
          rw [hrem, AList.thinned_split hlength, ← hlater]
          refine .more cursor x.1 pre _ hpage (ih _ ?_ _ rfl)
          rw [← hn, hlater, hrem, List.length_append, List.length_cons]
          omega

end S3mp.Files
