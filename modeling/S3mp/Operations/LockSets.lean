import Mathlib.Data.List.Sort
import S3mp.Common.Uuids
import S3mp.Relational.Table
import S3mp.Transition.Run

/-!
# Lock sets

`FileOperationLockSet` takes a key for each file of an operation, one command at a time, and has
them prolonged in the background.  Keys run out by themselves, so that between two commands of a
set any of its keys may be gone and another set may have it.
-/

namespace S3mp.Operations

open Relational Transition

/-! ## Redis -/

/-- Instants and leases are milliseconds. -/
structure LockEntry where
  token : ℕ
  expiresAt : ℕ
  deriving DecidableEq, Repr

abbrev Redis := Table String LockEntry

namespace Redis

def get (clock : ℕ) (key : String) (redis : Redis) : Option ℕ :=
  ((redis.lookup key).filter (clock < ·.expiresAt)).map (·.token)

/-- `SET key token NX PX lease`. -/
def setNx (clock lease : ℕ) (key : String) (token : ℕ) (redis : Redis) : Bool × Redis :=
  if (redis.get clock key).isSome then (false, redis)
  else (true, redis.insert key ⟨token, clock + lease⟩)

/-- `_RELEASE`. -/
def release (clock : ℕ) (key : String) (token : ℕ) (redis : Redis) : Redis :=
  if redis.get clock key = some token then redis.erase key else redis

/-- `_RENEW`. -/
def renew (clock lease : ℕ) (key : String) (token : ℕ) (redis : Redis) : Bool × Redis :=
  if redis.get clock key = some token then (true, redis.insert key ⟨token, clock + lease⟩)
  else (false, redis)

end Redis

/-- The command is answered, or the caller gets an exception, with or without an effect. -/
inductive Reply where
  | answered
  | lost
  | failed
  deriving DecidableEq, Repr

def Reply.effect (reply : Reply) (before after : Redis) : Redis :=
  if reply = .failed then before else after

/-! ## Lock sets -/

def lockKey (fileId : Uuid) : String :=
  "s3mp:file-operation-lock:" ++ uuidText fileId

/-- Where `acquire` and `release` stand.  `refused` and `held` are the two answers of `acquire`;
`releaseRaised` tells whether a release command has failed. -/
inductive LockStage where
  | acquiring (acquired rest : List String)
  | rollingBack (rest : List String) (raises : Bool)
  | refused
  | raised
  | held
  | releasing (rest : List String)
  | released
  | releaseRaised (commandFailed : Bool)
  deriving DecidableEq, Repr

/-- The task `_renewal`, with the keys it still has to prolong in this round. -/
inductive Renewal where
  | none
  | running (round : List String)
  | refused
  | failed
  | cancelled
  deriving DecidableEq, Repr

structure LockSet where
  fileIds : List Uuid
  leaseSeconds : ℕ
  stage : LockStage
  renewal : Renewal
  deriving DecidableEq, Repr

namespace LockSet

/-- `_keys`. -/
def keys (s : LockSet) : List String :=
  (s.fileIds.insertionSort (· ≤ ·)).map lockKey

def lease (s : LockSet) : ℕ := s.leaseSeconds * 1000

end LockSet

/-- What the `finally` of `acquire` has still to do. -/
def LockStage.rollBack (rest : List String) (raises : Bool) : LockStage :=
  if rest = [] then if raises then .raised else .refused else .rollingBack rest raises

def LockStage.delete (rest : List String) : LockStage :=
  if rest = [] then .released else .releasing rest

/-- The token of a lock set is its number. -/
structure LockWorld where
  clock : ℕ
  redis : Redis
  sets : List LockSet

inductive LockStep where
  | tick (n : ℕ)
  | acquire (fileIds : List Uuid) (leaseSeconds : ℕ)
  | set (i : ℕ) (reply : Reply)
  | rollBack (i : ℕ) (reply : Reply)
  | renew (i : ℕ) (reply : Reply)
  | release (i : ℕ)
  | delete (i : ℕ) (reply : Reply)

namespace LockWorld

def start : LockWorld := ⟨0, ∅, []⟩

def get (w : LockWorld) (key : String) : Option ℕ := w.redis.get w.clock key

def notNext : Tx LockWorld :=
  .error (.value "not the next command of the lock set")

def enter (i : ℕ) (s : LockSet) (redis : Redis) (w : LockWorld) : LockWorld :=
  { w with redis, sets := w.sets.set i s }

/-- The set which `acquire` begins with. -/
def begun (fileIds : List Uuid) (leaseSeconds : ℕ) : LockSet :=
  let s : LockSet := ⟨fileIds, leaseSeconds, .held, .none⟩
  if s.keys = [] then s else { s with stage := .acquiring [] s.keys }

/-- The next turn of the loop of `acquire`. -/
def setNext (i : ℕ) (s : LockSet) (acquired : List String) (key : String) (rest : List String)
    (reply : Reply) (w : LockWorld) : LockWorld :=
  let (taken, redis) := w.redis.setNx w.clock s.lease key i
  match reply with
  | .answered =>
    if taken then
      if rest = [] then
        w.enter i { s with stage := .held, renewal := .running s.keys } redis
      else w.enter i { s with stage := .acquiring (acquired ++ [key]) rest } redis
    else w.enter i { s with stage := .rollBack acquired false } redis
  | _ => w.enter i { s with stage := .rollBack acquired true } (reply.effect w.redis redis)

/-- The next command of the `finally`: its exception takes the place of the answer. -/
def rollBackNext (i : ℕ) (s : LockSet) (key : String) (rest : List String) (raises : Bool)
    (reply : Reply) (w : LockWorld) : LockWorld :=
  let redis := reply.effect w.redis (w.redis.release w.clock key i)
  match reply with
  | .answered => w.enter i { s with stage := .rollBack rest raises } redis
  | _ => w.enter i { s with stage := .raised } redis

/-- The next command of `_renew`. -/
def renewNext (i : ℕ) (s : LockSet) (key : String) (rest : List String) (reply : Reply)
    (w : LockWorld) : LockWorld :=
  let (prolonged, redis) := w.redis.renew w.clock s.lease key i
  match reply with
  | .answered =>
    if prolonged then
      w.enter i { s with renewal := .running (if rest = [] then s.keys else rest) } redis
    else w.enter i { s with renewal := .refused } redis
  | _ => w.enter i { s with renewal := .failed } (reply.effect w.redis redis)

/-- The start of `release`: only a cancellation of the renewal is suppressed. -/
def startRelease (i : ℕ) (s : LockSet) (w : LockWorld) : LockWorld :=
  match s.renewal with
  | .failed => w.enter i { s with stage := .releaseRaised false } w.redis
  | .running _ =>
    w.enter i { s with stage := .delete s.keys, renewal := .cancelled } w.redis
  | _ => w.enter i { s with stage := .delete s.keys } w.redis

def deleteNext (i : ℕ) (s : LockSet) (key : String) (rest : List String) (reply : Reply)
    (w : LockWorld) : LockWorld :=
  let redis := reply.effect w.redis (w.redis.release w.clock key i)
  match reply with
  | .answered => w.enter i { s with stage := .delete rest } redis
  | _ => w.enter i { s with stage := .releaseRaised true } redis

def exec : LockStep → LockWorld → Tx LockWorld
  | .tick n, w => .ok { w with clock := w.clock + n }
  | .acquire fileIds leaseSeconds, w =>
    .ok { w with sets := w.sets ++ [begun fileIds leaseSeconds] }
  | .set i reply, w =>
    match w.sets[i]? with
    | none => notNext
    | some s =>
      match s.stage with
      | .acquiring acquired (key :: rest) => .ok (w.setNext i s acquired key rest reply)
      | _ => notNext
  | .rollBack i reply, w =>
    match w.sets[i]? with
    | none => notNext
    | some s =>
      match s.stage with
      | .rollingBack (key :: rest) raises => .ok (w.rollBackNext i s key rest raises reply)
      | _ => notNext
  | .renew i reply, w =>
    match w.sets[i]? with
    | none => notNext
    | some s =>
      match s.stage, s.renewal with
      | .held, .running (key :: rest) => .ok (w.renewNext i s key rest reply)
      | _, _ => notNext
  | .release i, w =>
    match w.sets[i]? with
    | none => notNext
    | some s => if s.stage = .held then .ok (w.startRelease i s) else notNext
  | .delete i reply, w =>
    match w.sets[i]? with
    | none => notNext
    | some s =>
      match s.stage with
      | .releasing (key :: rest) => .ok (w.deleteNext i s key rest reply)
      | _ => notNext

end LockWorld

/-! ## What is asked for -/

/-- `acquire` has returned `True`. -/
def LockStage.acquired : LockStage → Bool
  | .held | .releasing _ | .released | .releaseRaised _ => true
  | _ => false

/-- The set whose command the step is. -/
def LockStep.owner : LockStep → Option ℕ
  | .tick _ | .acquire .. => none
  | .set i _ | .rollBack i _ | .renew i _ | .release i | .delete i _ => some i

namespace LockWorld

/-- None of the leases of the set has run out. -/
def Intact (w : LockWorld) (i : ℕ) (s : LockSet) : Prop :=
  ∀ key ∈ s.keys, w.get key = some i

/-- A key which has not run out is deleted or prolonged only by the set whose token it holds. -/
def OwnKeysOnly (w : LockWorld) (c : LockStep) (w' : LockWorld) : Prop :=
  ∀ key entry, w.redis.lookup key = some entry → w.clock < entry.expiresAt →
    w'.redis.lookup key ≠ some entry →
    c.owner = some entry.token ∧
      ∀ entry', w'.redis.lookup key = some entry' → entry'.token = entry.token

/-- When `acquire` of a set returns `True`, no other set has acquired a common file whose leases
have not run out. -/
def Exclusive (w w' : LockWorld) : Prop :=
  ∀ i s, w'.sets[i]? = some s → s.stage.acquired →
    (∀ s₀, w.sets[i]? = some s₀ → s₀.stage.acquired = false) →
    ∀ j t, w'.sets[j]? = some t → j ≠ i → t.stage.acquired → w'.Intact j t →
      ∀ fileId ∈ s.fileIds, fileId ∉ t.fileIds

/-- A refused set and a released one hold no key, and `release` raises only when one of its own
commands has failed. -/
structure LetsGo (w : LockWorld) : Prop where
  refused : ∀ i s, w.sets[i]? = some s → s.stage = .refused → ∀ key, w.get key ≠ some i
  released : ∀ i s, w.sets[i]? = some s → s.stage = .released → ∀ key, w.get key ≠ some i
  returns : ∀ (i : ℕ) (s : LockSet), w.sets[i]? = some s → s.stage ≠ .releaseRaised false

/-- When `acquire` is about to return `True`, the keys it has set have not run out; when
`release` is called, the renewal has not ended with an exception. -/
def InTime (w : LockWorld) : LockStep → Prop
  | .set i .answered => ∀ s acquired key, w.sets[i]? = some s → s.stage = .acquiring acquired [key] →
      w.get key = none → ∀ key' ∈ acquired, w.get key' = some i
  | .release i => ∀ s, w.sets[i]? = some s → s.stage = .held → s.renewal ≠ .failed
  | _ => True

end LockWorld

/-! ## Commands on keys -/

namespace Redis

variable {redis : Redis} {clock lease token : ℕ} {key : String}

theorem get_eq_some {t : ℕ} : redis.get clock key = some t ↔
    ∃ entry, redis.lookup key = some entry ∧ clock < entry.expiresAt ∧ entry.token = t := by
  simp only [get, Option.map_eq_some_iff, Option.filter_eq_some_iff, decide_eq_true_eq, and_assoc]

theorem get_insert {entry : LockEntry} {k : String} (hk : k ≠ key) :
    Redis.get clock k (redis.insert key entry) = redis.get clock k := by
  unfold get
  rw [AList.lookup_insert_ne hk]

theorem get_erase {k : String} (hk : k ≠ key) :
    Redis.get clock k (redis.erase key) = redis.get clock k := by
  unfold get
  rw [AList.lookup_erase_ne hk]

/-- The command touches no key that has not run out, but those with the token, which stays. -/
def Respects (clock token : ℕ) (before after : Redis) : Prop :=
  ∀ k entry, before.lookup k = some entry → clock < entry.expiresAt →
    after.lookup k ≠ some entry → entry.token = token ∧
      ∀ entry', after.lookup k = some entry' → entry'.token = entry.token

theorem Respects.refl (redis : Redis) : Respects clock token redis redis :=
  fun _ _ hentry _ hchanged ↦ absurd hentry hchanged

theorem respects_setNx : Respects clock token redis (redis.setNx clock lease key token).2 := by
  unfold setNx
  split
  · exact .refl redis
  · rename_i hfree
    intro k entry hentry hlives hchanged
    by_cases hk : k = key
    · subst hk
      exact absurd (Option.isSome_iff_exists.mpr ⟨_, get_eq_some.mpr ⟨entry, hentry, hlives, rfl⟩⟩)
        hfree
    · exact absurd ((AList.lookup_insert_ne hk).trans hentry) hchanged

theorem respects_release : Respects clock token redis (redis.release clock key token) := by
  unfold release
  split
  · rename_i hown
    intro k entry hentry hlives hchanged
    by_cases hk : k = key
    · subst hk
      rw [get_eq_some.mpr ⟨entry, hentry, hlives, rfl⟩] at hown
      refine ⟨Option.some.inj hown, fun entry' hentry' ↦ ?_⟩
      rw [AList.lookup_erase] at hentry'
      cases hentry'
    · exact absurd ((AList.lookup_erase_ne hk).trans hentry) hchanged
  · exact .refl redis

theorem respects_renew : Respects clock token redis (redis.renew clock lease key token).2 := by
  unfold renew
  split
  · rename_i hown
    intro k entry hentry hlives hchanged
    by_cases hk : k = key
    · subst hk
      rw [get_eq_some.mpr ⟨entry, hentry, hlives, rfl⟩] at hown
      have htoken : entry.token = token := Option.some.inj hown
      refine ⟨htoken, fun entry' hentry' ↦ ?_⟩
      rw [AList.lookup_insert] at hentry'
      rw [← Option.some.inj hentry', htoken]
    · exact absurd ((AList.lookup_insert_ne hk).trans hentry) hchanged
  · exact .refl redis

theorem Respects.effect {before after : Redis} (h : Respects clock token before after)
    (reply : Reply) : Respects clock token before (reply.effect before after) := by
  unfold Reply.effect
  split
  · exact .refl before
  · exact h

/-- Only the key of the command may come to the token. -/
def Grants (clock token : ℕ) (key : String) (before after : Redis) : Prop :=
  ∀ k t, after.get clock k = some t → before.get clock k = some t ∨ t = token ∧ k = key

theorem Grants.refl (redis : Redis) : Grants clock token key redis redis :=
  fun _ _ h ↦ Or.inl h

theorem grants_setNx : Grants clock token key redis (redis.setNx clock lease key token).2 := by
  unfold setNx
  split
  · exact .refl redis
  · intro k t ht
    by_cases hk : k = key
    · subst hk
      obtain ⟨entry, hentry, -, rfl⟩ := get_eq_some.mp ht
      rw [AList.lookup_insert] at hentry
      rw [← Option.some.inj hentry]
      exact Or.inr ⟨rfl, rfl⟩
    · exact Or.inl ((get_insert hk).symm.trans ht)

/-- After the script the key is not the token's. -/
theorem get_release {k : String} {t : ℕ}
    (h : (redis.release clock key token).get clock k = some t) :
    redis.get clock k = some t ∧ ¬ (t = token ∧ k = key) := by
  unfold release at h
  split at h
  · by_cases hk : k = key
    · subst hk
      obtain ⟨entry, hentry, -⟩ := get_eq_some.mp h
      rw [AList.lookup_erase] at hentry
      cases hentry
    · exact ⟨(get_erase hk).symm.trans h, fun hsame ↦ hk hsame.2⟩
  · rename_i hother
    refine ⟨h, ?_⟩
    rintro ⟨rfl, rfl⟩
    exact hother h

theorem get_renew {k : String} {t : ℕ}
    (h : (redis.renew clock lease key token).2.get clock k = some t) :
    redis.get clock k = some t := by
  unfold renew at h
  split at h
  · rename_i hown
    by_cases hk : k = key
    · subst hk
      obtain ⟨entry, hentry, -, rfl⟩ := get_eq_some.mp h
      rw [AList.lookup_insert] at hentry
      rw [← Option.some.inj hentry]
      exact hown
    · exact (get_insert hk).symm.trans h
  · exact h

end Redis

end S3mp.Operations
