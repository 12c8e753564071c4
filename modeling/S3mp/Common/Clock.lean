import S3mp.Common.Basic
import Mathlib.Algebra.Group.Nat.Defs

/-!
# Clock arithmetic

Instants are microseconds since the epoch, in UTC.
-/

namespace S3mp

def seconds (n : ℤ) : Timestamp := 1000000 * n

/-- Year, month and day of a day number counted from 1970-01-01. -/
def civilFromDays (days : ℤ) : ℤ × ℤ × ℤ :=
  let z := days + 719468
  let era := z / 146097
  let doe := z - era * 146097
  let yoe := (doe - doe / 1460 + doe / 36524 - doe / 146096) / 365
  let doy := doe - (365 * yoe + yoe / 4 - yoe / 100)
  let mp := (5 * doy + 2) / 153
  let month := if mp < 10 then mp + 3 else mp - 9
  (yoe + era * 400 + (if month ≤ 2 then 1 else 0), month, doy - (153 * mp + 2) / 5 + 1)

/-- The day number of a date. -/
def daysFromCivil (year month day : ℤ) : ℤ :=
  let y := if month ≤ 2 then year - 1 else year
  let era := y / 400
  let yoe := y - era * 400
  let doy := (153 * (if month > 2 then month - 3 else month + 9) + 2) / 5 + day - 1
  era * 146097 + (yoe * 365 + yoe / 4 - yoe / 100 + doy) - 719468

/-- `calendar.monthrange(year, month)[1]` -/
def daysInMonth (year month : ℤ) : ℤ :=
  if month = 12 then 31 else daysFromCivil year (month + 1) 1 - daysFromCivil year month 1

def padded (width : ℕ) (n : ℤ) : String :=
  let digits := Nat.toDigits 10 n.toNat
  String.ofList (List.replicate (width - digits.length) '0' ++ digits)

/-- `strftime("%Y%m%dT%H%M%S.%fZ")`. -/
def stamp (t : Timestamp) : String :=
  let (year, month, day) := civilFromDays (t / 86400000000)
  let inDay := t % 86400000000
  padded 4 year ++ padded 2 month ++ padded 2 day ++ "T" ++ padded 2 (inDay / 3600000000) ++
    padded 2 (inDay / 60000000 % 60) ++ padded 2 (inDay / 1000000 % 60) ++ "." ++
    padded 6 (inDay % 1000000) ++ "Z"

/-- The local time of China is eight hours ahead of UTC all year. -/
def chinaOffset : Timestamp := seconds 28800

example : stamp 951782400123456 = "20000229T000000.123456Z" := by decide

/-! ## Lengths -/

theorem length_padded {width : ℕ} {n : ℤ} (hwidth : 0 < width) (hn : n < (10 ^ width : ℕ)) :
    (padded width n).length = width := by
  have hdigits : (Nat.toDigits 10 n.toNat).length ≤ width :=
    (Nat.length_toDigits_le_iff (by decide) hwidth).mpr
      ((Int.toNat_lt' (Nat.pow_pos (by decide))).mpr hn)
  rw [padded, String.length_ofList, List.length_append, List.length_replicate]
  omega

/-- The end of the year 9999, the last a clock shows. -/
def clockEnd : ℤ := 253402300800000000

theorem civilFromDays_lt {days : ℤ} (hlo : 0 ≤ days) (hhi : days < 2932897) :
    (civilFromDays days).1 < 10000 ∧ (civilFromDays days).2.1 < 100 ∧
      (civilFromDays days).2.2 < 100 := by
  unfold civilFromDays
  dsimp only
  refine ⟨?_, ?_, ?_⟩
  · have hera : (days + 719468) / 146097 ≤ 24 := by omega
    generalize hdoe : days + 719468 - (days + 719468) / 146097 * 146097 = doe
    generalize hyoe : (doe - doe / 1460 + doe / 36524 - doe / 146096) / 365 = yoe
    have hyear : yoe ≤ 399 := by omega
    split
    · split <;> omega
    · split <;> omega
  · split <;> omega
  · omega

theorem length_stamp {t : ℤ} (hlo : 0 ≤ t) (hhi : t < clockEnd) :
    (stamp t).length = 23 := by
  have hdays : t / 86400000000 < 2932897 := by
    have hend : clockEnd = 253402300800000000 := rfl
    omega
  have hdate := civilFromDays_lt (Int.ediv_nonneg hlo (by decide)) hdays
  unfold stamp
  dsimp only
  simp only [String.length_append]
  rw [length_padded (by decide) hdate.1, length_padded (by decide) hdate.2.1,
    length_padded (by decide) hdate.2.2, length_padded (by decide) (by omega),
    length_padded (by decide) (by omega), length_padded (by decide) (by omega),
    length_padded (by decide) (by omega)]
  rfl

end S3mp
