import S3mp.Transition.SlidingWindow
import Mathlib.Data.Nat.Cast.Order.Ring
import Mathlib.Logic.Function.Basic

/-!
# The Redis rate limiter

A sorted set is a list of members with their scores.  A key that has outlived its time to
live is a missing one, and a set that loses its last member goes with its key.
-/

namespace S3mp.Redis

structure SortedSet (M T : Type) where
  members : List (M × T)
  expiresAt : Option T

abbrev Keyspace (M T : Type) := String → Option (SortedSet M T)

section

variable {M T : Type} [DecidableEq M] [LinearOrder T]

def SortedSet.live (now : T) (z : SortedSet M T) : Bool :=
  z.expiresAt.all fun e ↦ decide (now ≤ e)

/-- The value of the key as a command at `now` finds it. -/
def lookup (now : T) (db : Keyspace M T) (key : String) : Option (SortedSet M T) :=
  (db key).filter (·.live now)

def zremrangebyscore (now : T) (key : String) (low high : T) (db : Keyspace M T) :
    Keyspace M T :=
  Function.update db key <| (lookup now db key).bind fun z ↦
    let left := z.members.filter fun m ↦ !decide (low ≤ m.2 ∧ m.2 ≤ high)
    if left = [] then none else some { z with members := left }

def zcard (now : T) (key : String) (db : Keyspace M T) : ℕ :=
  match lookup now db key with
  | none => 0
  | some z => z.members.length

def zadd (now : T) (key : String) (member : M) (score : T) (db : Keyspace M T) :
    Keyspace M T :=
  let z := (lookup now db key).getD ⟨[], none⟩
  Function.update db key
    (some { z with members := z.members.filter (fun m ↦ m.1 ≠ member) ++ [(member, score)] })

def expire [Zero T] [Add T] (now : T) (key : String) (seconds : T) (db : Keyspace M T) :
    Keyspace M T :=
  Function.update db key <| (lookup now db key).bind fun z ↦
    if seconds ≤ 0 then none else some { z with expiresAt := some (now + seconds) }

/-- The members a command at `now` finds. -/
def stored (now : T) (db : Keyspace M T) (key : String) : List (M × T) :=
  ((lookup now db key).map SortedSet.members).getD []

omit [DecidableEq M] in
theorem lookup_update (now : T) (db : Keyspace M T) (key : String)
    (z : Option (SortedSet M T)) :
    lookup now (Function.update db key z) key = z.filter (·.live now) := by
  rw [lookup, Function.update_self]

omit [DecidableEq M] in
theorem zcard_eq (now : T) (key : String) (db : Keyspace M T) :
    zcard now key db = (stored now db key).length := by
  unfold zcard stored
  cases lookup now db key <;> rfl

omit [DecidableEq M] in
theorem stored_zremrangebyscore (now : T) (key : String) (low high : T)
    (db : Keyspace M T) :
    stored now (zremrangebyscore now key low high db) key =
      (stored now db key).filter fun m ↦ !decide (low ≤ m.2 ∧ m.2 ≤ high) := by
  unfold stored zremrangebyscore
  rw [lookup_update]
  cases hz : lookup now db key with
  | none => rfl
  | some z =>
      have hlive : z.live now = true := (Option.filter_eq_some_iff.mp hz).2
      rw [Option.bind_some]
      dsimp only
      split
      · rename_i hleft
        exact hleft.symm
      · rw [Option.filter_some_pos (by exact hlive)]
        rfl

/-- What adding a member and renewing the time to live leave of the key. -/
theorem expire_zadd [Zero T] [Add T] (now : T) (key : String) (member : M) (score : T)
    {seconds : T} (hpos : 0 < seconds) (db : Keyspace M T) :
    expire now key seconds (zadd now key member score db) =
      Function.update db key (some ⟨(stored now db key).filter (fun m ↦ m.1 ≠ member) ++
        [(member, score)], some (now + seconds)⟩) := by
  unfold expire zadd
  rw [lookup_update, Function.update_idem]
  cases hz : lookup now db key with
  | none =>
      rw [Option.filter_some_pos rfl, Option.bind_some, if_neg (not_le.mpr hpos)]
      simp [stored, hz]
  | some z =>
      have hlive : z.live now = true := (Option.filter_eq_some_iff.mp hz).2
      rw [Option.filter_some_pos (by exact hlive), Option.bind_some, if_neg (not_le.mpr hpos)]
      simp [stored, hz]

end

/-! ## The limiter -/

structure RedisRateLimiter where
  limit : ℕ
  window : ℕ

namespace RedisRateLimiter

def key (scope identifier : String) : String :=
  "s3mp:rate:" ++ scope ++ ":" ++ identifier

theorem key_inj (scope : String) {i j : String} : key scope i = key scope j ↔ i = j :=
  String.append_right_inj _

variable {M T : Type} [DecidableEq M] [Ring T] [LinearOrder T] [IsStrictOrderedRing T]

/-- One pipeline; `member` is the text of `now`. -/
def allow (r : RedisRateLimiter) (scope identifier : String) (now : T) (member : M)
    (db : Keyspace M T) : Bool × Keyspace M T :=
  let k := key scope identifier
  let cutoff := now - (r.window : T)
  let db := zremrangebyscore now k 0 cutoff db
  let count := zcard now k db
  let db := zadd now k member now db
  let db := expire now k (r.window : T) db
  (decide (count < r.limit), db)

/-- The entries that a call at `now` counts. -/
def counted (r : RedisRateLimiter) (scope identifier : String) (now : T)
    (db : Keyspace M T) : List (M × T) :=
  (stored now db (key scope identifier)).filter fun m ↦
    !decide (0 ≤ m.2 ∧ m.2 ≤ now - (r.window : T))

theorem allow_spec (r : RedisRateLimiter) (hpos : 0 < r.window) (scope identifier : String)
    (now : T) (member : M) (db : Keyspace M T) :
    r.allow scope identifier now member db =
      (decide ((r.counted scope identifier now db).length < r.limit),
        Function.update db (key scope identifier)
          (some ⟨(r.counted scope identifier now db).filter (fun m ↦ m.1 ≠ member) ++
            [(member, now)], some (now + (r.window : T))⟩)) := by
  have hseconds : (0 : T) < r.window := Nat.cast_pos.mpr hpos
  unfold allow counted
  dsimp only
  rw [zcard_eq, expire_zadd now _ member now hseconds, stored_zremrangebyscore,
    zremrangebyscore, Function.update_idem]

end RedisRateLimiter

end S3mp.Redis
