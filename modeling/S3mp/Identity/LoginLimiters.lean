import S3mp.Common.RedisAdapters
import Mathlib.Algebra.Order.Ring.Int

/-!
# The two login limiters

The in-memory limiter records the attempts it allows, the Redis one every attempt.  Both
bound the allowed attempts of a key in any window and keep the keys apart.  A refused
attempt that the Redis limiter counts can make it refuse a later one that fewer than
`limit` allowed attempts precede in its window.
-/

namespace S3mp.LoginLimiters

open SlidingWindow Redis

/-! ## The in-memory limiter -/

structure InMemoryLoginRateLimiter where
  limit : ℕ
  windowSeconds : ℕ
  limit_pos : 1 ≤ limit
  window_pos : 1 ≤ windowSeconds

namespace InMemoryLoginRateLimiter

def init (limit windowSeconds : ℤ) : Except String InMemoryLoginRateLimiter :=
  if h : limit < 1 ∨ windowSeconds < 1 then .error "rate limit and window must be positive"
  else .ok ⟨limit.toNat, windowSeconds.toNat, by omega, by omega⟩

variable {T : Type} [Ring T] [LinearOrder T]

/-- The deque of a key that has none yet is empty. -/
def allow (m : InMemoryLoginRateLimiter) (attempts : String → List T) (key : String)
    (current : T) : Bool × (String → List T) :=
  let cutoff := current - (m.windowSeconds : T)
  let left := (attempts key).dropWhile fun t ↦ decide (t ≤ cutoff)
  if left.length ≥ m.limit then (false, Function.update attempts key left)
  else (true, Function.update attempts key (left ++ [current]))

end InMemoryLoginRateLimiter

/-! ## The limiter of the deployment -/

namespace RedisAccountLoginRateLimiter

def limiter : RedisRateLimiter := ⟨5, 300⟩

variable {M T : Type} [DecidableEq M] [Ring T] [LinearOrder T]

def allow (key : String) (now : T) (member : M) (db : Keyspace M T) : Bool × Keyspace M T :=
  limiter.allow "account-login" key now member db

end RedisAccountLoginRateLimiter

/-! ## Attempts and their windows -/

/-- An attempt at what the clock reads, with the member Redis keeps it under. -/
structure Attempt (M T : Type) where
  key : String
  now : T
  member : M
  deriving DecidableEq

section

variable {M T : Type} [Ring T] [LinearOrder T]

/-- `e` is of the key of `a`, and the window ending at `a` has not left it behind. -/
def counts (window : ℕ) (a e : Attempt M T) : Bool :=
  decide (e.key = a.key ∧ a.now - (window : T) < e.now)

/-- The attempts of the key in the window ending at `t` that the log allows. -/
def allowedIn (window : ℕ) (key : String) (t : T) (log : List (Attempt M T × Bool)) : ℕ :=
  (SlidingWindow.granted log).countP fun e ↦
    decide (e.key = key ∧ t - (window : T) < e.now ∧ e.now ≤ t)

def memoryLog (m : InMemoryLoginRateLimiter) (run : List (Attempt M T)) :
    List (Attempt M T × Bool) :=
  play (fun s a ↦ m.allow s a.key a.now) (fun _ ↦ []) run

def redisLog [DecidableEq M] (r : RedisRateLimiter) (scope : String) (run : List (Attempt M T)) :
    List (Attempt M T × Bool) :=
  play (fun db a ↦ r.allow scope a.key a.now a.member db) (fun _ ↦ none) run

theorem redisLog_account [DecidableEq M] (run : List (Attempt M T)) :
    redisLog RedisAccountLoginRateLimiter.limiter "account-login" run =
      play (fun db a ↦ RedisAccountLoginRateLimiter.allow a.key a.now a.member db)
        (fun _ ↦ none) run :=
  rfl

/-- The clock has passed the epoch and never runs backwards, and no two attempts of a key
have one member. -/
structure Clocked (run : List (Attempt M T)) : Prop where
  epoch : ∀ a ∈ run, 0 ≤ a.now
  forward : run.Pairwise (·.now ≤ ·.now)
  members : run.Pairwise fun a e ↦ a.key = e.key → a.member ≠ e.member

/-- What a sliding window promises of a log. -/
structure WindowLaw (limit window : ℕ) (log : List (Attempt M T × Bool)) : Prop where
  atMost : ∀ key t, allowedIn window key t log ≤ limit
  refuses : ∀ before a after, log = before ++ (a, false) :: after →
    limit ≤ allowedIn window a.key a.now before

/-- The two limiters implement one law. -/
structure OneLaw [DecidableEq M] (m : InMemoryLoginRateLimiter) (scope : String)
    (run : List (Attempt M T)) : Prop where
  same : memoryLog m run = redisLog ⟨m.limit, m.windowSeconds⟩ scope run
  memory : WindowLaw m.limit m.windowSeconds (memoryLog m run)
  redis : WindowLaw m.limit m.windowSeconds (redisLog ⟨m.limit, m.windowSeconds⟩ scope run)
  memory_apart : ∀ key, (memoryLog m run).filter (fun e ↦ e.1.key = key) =
    memoryLog m (run.filter fun a ↦ a.key = key)
  redis_apart : ∀ key,
    (redisLog ⟨m.limit, m.windowSeconds⟩ scope run).filter (fun e ↦ e.1.key = key) =
      redisLog ⟨m.limit, m.windowSeconds⟩ scope (run.filter fun a ↦ a.key = key)

end

section

variable {M T : Type} [Ring T] [LinearOrder T]
  {window : ℕ} {run : List (Attempt M T)}

theorem counts_iff {a e : Attempt M T} :
    counts window a e = true ↔ e.key = a.key ∧ a.now - (window : T) < e.now :=
  decide_eq_true_iff

omit [Ring T] in
/-- Past the oldest attempts of a deque in order, the rest are in the window. -/
theorem dropWhile_le (c : T) {l : List T} (h : l.Pairwise (· ≤ ·)) :
    l.dropWhile (fun t ↦ decide (t ≤ c)) = l.filter fun t ↦ decide (c < t) := by
  induction l with
  | nil => rfl
  | cons t l ih =>
      obtain ⟨hle, htail⟩ := List.pairwise_cons.mp h
      by_cases ht : t ≤ c
      · rw [List.dropWhile_cons_of_pos (by simpa using ht), ih htail,
          List.filter_cons_of_neg (by simpa using ht)]
      · have hall : ∀ u ∈ t :: l, decide (c < u) = true := by
          intro u hu
          rcases List.mem_cons.mp hu with rfl | hu
          · exact decide_eq_true (not_le.mp ht)
          · exact decide_eq_true ((not_le.mp ht).trans_le (hle u hu))
        rw [List.dropWhile_cons_of_neg (by simpa using ht), List.filter_eq_self.mpr hall]

omit [Ring T] in
/-- Later windows count the same of what an earlier one has kept. -/
theorem countP_filter_lt {β : Type} (f : β → T) {c d : T} (hcd : c ≤ d) (l : List β) :
    (l.filter fun t ↦ decide (c < f t)).countP (fun t ↦ decide (d < f t)) =
      l.countP fun t ↦ decide (d < f t) := by
  rw [List.countP_filter]
  refine List.countP_congr fun t _ ↦ ?_
  simp only [Bool.and_eq_true, decide_eq_true_eq]
  exact ⟨And.left, fun h ↦ ⟨h, hcd.trans_lt h⟩⟩

theorem Clocked.sublist {as : List (Attempt M T)} (h : Clocked run)
    (hsub : List.Sublist as run) : Clocked as where
  epoch a ha := h.epoch a (hsub.subset ha)
  forward := h.forward.sublist hsub
  members := h.members.sublist hsub

/-! ## The in-memory limiter records what it allows -/

/-- The deques stand for the history, for the attempts still to come. -/
structure MemoryTracks (m : InMemoryLoginRateLimiter) (rest h : List (Attempt M T))
    (s : String → List T) : Prop where
  ordered : ∀ key, (s key ++ rest.map (·.now)).Pairwise (· ≤ ·)
  tally : ∀ a ∈ rest, (s a.key).countP (fun t ↦ decide (a.now - (m.windowSeconds : T) < t)) =
    weight (counts m.windowSeconds) h a

/-- The deque of the key after its front has been popped. -/
def remaining (m : InMemoryLoginRateLimiter) (s : String → List T) (key : String) (now : T) :
    List T :=
  (s key).filter fun t ↦ decide (now - (m.windowSeconds : T) < t)

theorem allow_eq {m : InMemoryLoginRateLimiter} {s : String → List T} {key : String}
    (hsorted : (s key).Pairwise (· ≤ ·)) (now : T) :
    m.allow s key now = (decide ((remaining m s key now).length < m.limit),
      Function.update s key (remaining m s key now ++
        if (remaining m s key now).length < m.limit then [now] else [])) := by
  unfold InMemoryLoginRateLimiter.allow
  dsimp only
  rw [dropWhile_le _ hsorted, ← remaining]
  by_cases hfull : (remaining m s key now).length < m.limit
  · rw [if_neg (not_le.mpr hfull), if_pos hfull, decide_eq_true hfull]
  · rw [if_pos (not_lt.mp hfull), if_neg hfull, decide_eq_false hfull, List.append_nil]

theorem counts_same {a b : Attempt M T} (hkey : b.key = a.key) :
    counts window b a = decide (b.now - (window : T) < a.now) := by
  simp [counts, hkey]

theorem counts_other {a b : Attempt M T} (hkey : b.key ≠ a.key) : counts window b a = false :=
  decide_eq_false fun h ↦ hkey h.1.symm

theorem decisions_key (limit : ℕ) (keep : Bool → Bool) (key : String) :
    (decisions (counts window) limit keep [] run).filter (fun e ↦ e.1.key = key) =
      decisions (counts window) limit keep [] (run.filter fun a ↦ a.key = key) := by
  apply decisions_filter (fun a : Attempt M T ↦ decide (a.key = key))
  intro a e h
  rw [(counts_iff.mp h).1]

variable [IsStrictOrderedRing T]

theorem MemoryTracks.step {m : InMemoryLoginRateLimiter} {a : Attempt M T}
    {rest h : List (Attempt M T)} {s : String → List T} (hs : MemoryTracks m (a :: rest) h s) :
    (m.allow s a.key a.now).1 = grants (counts m.windowSeconds) m.limit h a ∧
      MemoryTracks m rest (record (counts m.windowSeconds) m.limit id h a)
        (m.allow s a.key a.now).2 := by
  obtain ⟨hordered, htally⟩ := hs
  obtain ⟨hsorted, hrest, -⟩ := List.pairwise_append.mp (hordered a.key)
  have hlater := (List.pairwise_cons.mp hrest).1
  have hlength : (remaining m s a.key a.now).length = weight (counts m.windowSeconds) h a := by
    rw [remaining, ← List.countP_eq_length_filter, htally a (by simp)]
  rw [allow_eq hsorted]
  dsimp only
  refine ⟨by rw [hlength, grants], ?_, ?_⟩
  · intro key
    by_cases hkey : key = a.key
    · subst hkey
      rw [Function.update_self, List.append_assoc]
      refine (hordered a.key).sublist ?_
      apply List.Sublist.append List.filter_sublist
      split <;> simp
    · rw [Function.update_of_ne hkey]
      exact (hordered key).sublist ((List.sublist_cons_self _ _).append_left _)
  · intro b hb
    have hold := htally b (List.mem_cons_of_mem a hb)
    rw [record_eq, weight_append, ← hold, kept_singleton]
    simp only [id, grants_iff, ← hlength]
    by_cases hkey : b.key = a.key
    · have hkept : (remaining m s a.key a.now).countP
          (fun t ↦ decide (b.now - (m.windowSeconds : T) < t)) =
          (s a.key).countP fun t ↦ decide (b.now - (m.windowSeconds : T) < t) :=
        countP_filter_lt id (sub_le_sub_right (hlater b.now (List.mem_map_of_mem hb)) _) _
      rw [hkey, Function.update_self, List.countP_append, hkept]
      split
      · rw [weight_singleton, counts_same hkey, List.countP_singleton]
      · rfl
    · rw [Function.update_of_ne hkey]
      split
      · rw [weight_singleton, counts_other hkey]
        rfl
      · rfl

theorem memoryLog_eq (m : InMemoryLoginRateLimiter) (hforward : run.Pairwise (·.now ≤ ·.now)) :
    memoryLog m run = decisions (counts m.windowSeconds) m.limit id [] run :=
  play_eq_decisions (R := MemoryTracks m) (fun _ _ _ _ ↦ MemoryTracks.step) run [] _
    ⟨fun _ ↦ List.pairwise_map.mpr hforward, fun _ _ ↦ rfl⟩

/-! ## The Redis limiter records every attempt -/

/-- An entry of the key's sorted set that the attempts still to come may find. -/
structure Sound (window : ℕ) (rest : List (Attempt M T)) (key : String) (expiresAt : Option T)
    (e : M × T) : Prop where
  epoch : 0 ≤ e.2
  past : ∀ a ∈ rest, e.2 ≤ a.now
  lasting : ∀ x, expiresAt = some x → e.2 + (window : T) ≤ x
  fresh : ∀ a ∈ rest, a.key = key → e.1 ≠ a.member

omit [IsStrictOrderedRing T] in
theorem Sound.tail {rest : List (Attempt M T)} {a : Attempt M T} {key : String}
    {expiresAt : Option T} {e : M × T} (h : Sound window (a :: rest) key expiresAt e) :
    Sound window rest key expiresAt e where
  epoch := h.epoch
  past b hb := h.past b (List.mem_cons_of_mem a hb)
  lasting := h.lasting
  fresh b hb := h.fresh b (List.mem_cons_of_mem a hb)

/-- The members of a key, expired or not. -/
def membersOf (db : Keyspace M T) (key : String) : List (M × T) :=
  ((db key).map SortedSet.members).getD []

structure RedisTracks (r : RedisRateLimiter) (scope : String) (rest h : List (Attempt M T))
    (db : Keyspace M T) : Prop where
  clocked : Clocked rest
  sound : ∀ key z, db (RedisRateLimiter.key scope key) = some z →
    ∀ e ∈ z.members, Sound r.window rest key z.expiresAt e
  tally : ∀ a ∈ rest, (membersOf db (RedisRateLimiter.key scope a.key)).countP
    (fun e ↦ decide (a.now - (r.window : T) < e.2)) = weight (counts r.window) h a

/-- Expiry takes nothing that a call would count. -/
theorem counted_eq {r : RedisRateLimiter} {scope key : String} {rest : List (Attempt M T)}
    {db : Keyspace M T}
    (hsound : ∀ z, db (RedisRateLimiter.key scope key) = some z →
      ∀ e ∈ z.members, Sound r.window rest key z.expiresAt e)
    (now : T) : r.counted scope key now db =
      (membersOf db (RedisRateLimiter.key scope key)).filter
        fun e ↦ decide (now - (r.window : T) < e.2) := by
  unfold RedisRateLimiter.counted stored lookup membersOf
  cases hz : db (RedisRateLimiter.key scope key) with
  | none => rfl
  | some z =>
      have hs := hsound z hz
      cases hlive : z.live now with
      | true =>
          rw [Option.filter_some_pos hlive]
          refine List.filter_congr fun e he ↦ ?_
          have hzero := (hs e he).epoch
          by_cases hold : e.2 ≤ now - (r.window : T)
          · simp [hzero, hold, not_lt.mpr hold]
          · simp [hold, not_le.mp hold]
      | false =>
          rw [Option.filter_some_neg (by simp [hlive])]
          refine (List.filter_eq_nil_iff.mpr fun e he hin ↦ ?_).symm
          obtain ⟨x, hx, hpassed⟩ : ∃ x, z.expiresAt = some x ∧ x < now := by
            unfold SortedSet.live at hlive
            cases hx : z.expiresAt with
            | none => simp [hx] at hlive
            | some x =>
                rw [hx] at hlive
                exact ⟨x, rfl, not_le.mp (of_decide_eq_false hlive)⟩
          have hlast := (hs e he).lasting x hx
          have hwindow : e.2 < now - (r.window : T) := lt_sub_iff_add_lt.mpr (hlast.trans_lt hpassed)
          exact absurd (of_decide_eq_true hin) (not_lt.mpr hwindow.le)

section

variable [DecidableEq M]

theorem RedisTracks.step {r : RedisRateLimiter} (hpos : 0 < r.window) {scope : String}
    {a : Attempt M T} {rest h : List (Attempt M T)} {db : Keyspace M T}
    (hs : RedisTracks r scope (a :: rest) h db) :
    (r.allow scope a.key a.now a.member db).1 = grants (counts r.window) r.limit h a ∧
      RedisTracks r scope rest (record (counts r.window) r.limit (fun _ ↦ true) h a)
        (r.allow scope a.key a.now a.member db).2 := by
  obtain ⟨hclocked, hsound, htally⟩ := hs
  have hcounted := counted_eq (hsound a.key) a.now
  have hlater := (List.pairwise_cons.mp hclocked.forward).1
  have hmembers := (List.pairwise_cons.mp hclocked.members).1
  have hlength : (r.counted scope a.key a.now db).length = weight (counts r.window) h a := by
    rw [hcounted, ← List.countP_eq_length_filter, htally a (by simp)]
  have hpast : ∀ e ∈ r.counted scope a.key a.now db, ∃ expiresAt,
      Sound r.window (a :: rest) a.key expiresAt e := by
    intro e he
    rw [hcounted] at he
    have he := List.mem_of_mem_filter he
    unfold membersOf at he
    cases hz : db (RedisRateLimiter.key scope a.key) with
    | none => simp [hz] at he
    | some z => exact ⟨z.expiresAt, hsound a.key z hz e (by simpa [hz] using he)⟩
  have hnew : (r.counted scope a.key a.now db).filter (fun m ↦ m.1 ≠ a.member) =
      r.counted scope a.key a.now db := by
    refine List.filter_eq_self.mpr fun e he ↦ ?_
    obtain ⟨expiresAt, hs⟩ := hpast e he
    exact decide_eq_true (hs.fresh a (by simp) rfl)
  have hentry : ∀ e ∈ r.counted scope a.key a.now db ++ [(a.member, a.now)],
      Sound r.window rest a.key (some (a.now + (r.window : T))) e := by
    intro e he
    rcases List.mem_append.mp he with he | he
    · obtain ⟨expiresAt, hs⟩ := hpast e he
      refine ⟨hs.epoch, hs.tail.past, ?_, hs.tail.fresh⟩
      rintro x ⟨⟩
      exact add_le_add_left (hs.past a (by simp)) _
    · rw [List.mem_singleton.mp he]
      refine ⟨hclocked.epoch a (by simp), hlater, ?_, fun b hb hkey ↦ hmembers b hb hkey.symm⟩
      rintro x ⟨⟩
      exact le_rfl
  rw [r.allow_spec hpos, hnew]
  dsimp only
  refine ⟨by rw [hlength, grants], hclocked.sublist (List.sublist_cons_self a rest), ?_, ?_⟩
  · intro key y hy
    by_cases hkey : key = a.key
    · subst hkey
      rw [Function.update_self] at hy
      cases hy
      exact hentry
    · rw [Function.update_of_ne (mt (RedisRateLimiter.key_inj scope).mp hkey)] at hy
      exact fun e he ↦ (hsound key y hy e he).tail
  · intro b hb
    have hold := htally b (List.mem_cons_of_mem a hb)
    rw [record_eq, weight_append, ← hold, kept_singleton, if_pos rfl, weight_singleton]
    unfold membersOf
    by_cases hkey : b.key = a.key
    · have hkept : (r.counted scope a.key a.now db).countP
          (fun e ↦ decide (b.now - (r.window : T) < e.2)) =
          (membersOf db (RedisRateLimiter.key scope a.key)).countP
            fun e ↦ decide (b.now - (r.window : T) < e.2) := by
        rw [hcounted]
        exact countP_filter_lt Prod.snd (sub_le_sub_right (hlater b hb) _) _
      rw [hkey, Function.update_self, Option.map_some, Option.getD_some, List.countP_append,
        hkept, counts_same hkey, List.countP_singleton]
      rfl
    · rw [Function.update_of_ne (mt (RedisRateLimiter.key_inj scope).mp hkey), counts_other hkey]
      rfl

theorem redisLog_eq (r : RedisRateLimiter) (hpos : 0 < r.window) (scope : String)
    (hrun : Clocked run) :
    redisLog r scope run = decisions (counts r.window) r.limit (fun _ ↦ true) [] run :=
  play_eq_decisions (R := RedisTracks r scope) (fun _ _ _ _ ↦ RedisTracks.step hpos) run [] _
    ⟨hrun, fun _ _ h ↦ absurd h (by simp), fun _ _ ↦ rfl⟩

/-! ## The law -/

end

/-- Any two attempts of a key in one window count against each other. -/
theorem allowedIn_le {keep : Bool → Bool} (hkeep : keep true = true) (limit : ℕ) (key : String)
    (t : T) (run : List (Attempt M T)) :
    allowedIn window key t (decisions (counts window) limit keep [] run) ≤ limit := by
  apply granted_le hkeep
  intro a e ha he
  obtain ⟨hkeya, -, hle⟩ := of_decide_eq_true ha
  obtain ⟨hkeye, hlt, -⟩ := of_decide_eq_true he
  exact counts_iff.mpr ⟨hkeye.trans hkeya.symm, (sub_le_sub_right hle _).trans_lt hlt⟩

theorem windowLaw_memory (limit : ℕ) (hforward : run.Pairwise (·.now ≤ ·.now)) :
    WindowLaw limit window (decisions (counts window) limit id [] run) := by
  refine ⟨fun key t ↦ allowedIn_le rfl limit key t run, ?_⟩
  intro before a after hlog
  have hrun := congrArg (List.map Prod.fst) hlog
  rw [decisions_fst, List.map_append, List.map_cons] at hrun
  rw [hrun] at hforward
  have hbefore : ∀ e ∈ SlidingWindow.granted before, e.now ≤ a.now := by
    intro e he
    apply (List.pairwise_append.mp hforward).2.2 e _ a (by simp)
    exact (List.filter_sublist.map Prod.fst).subset he
  apply (refused_full hlog).trans
  refine List.countP_mono_left fun e he h ↦ decide_eq_true ?_
  obtain ⟨hkey, hlt⟩ := counts_iff.mp h
  exact ⟨hkey, hlt, hbefore e he⟩

theorem counts_window (hforward : run.Pairwise (·.now ≤ ·.now)) :
    run.Pairwise fun k i ↦ counts window i k = true →
      ∀ e, counts window i e = true → counts window k e = true := by
  refine hforward.imp fun hle hk e he ↦ ?_
  obtain ⟨hkey, -⟩ := counts_iff.mp hk
  obtain ⟨hkeye, hlt⟩ := counts_iff.mp he
  exact counts_iff.mpr ⟨hkeye.trans hkey.symm, (sub_le_sub_right hle _).trans_lt hlt⟩

theorem memoryLog_apart (m : InMemoryLoginRateLimiter)
    (hforward : run.Pairwise (·.now ≤ ·.now)) (key : String) :
    (memoryLog m run).filter (fun e ↦ e.1.key = key) =
      memoryLog m (run.filter fun a ↦ a.key = key) := by
  rw [memoryLog_eq m hforward, decisions_key, memoryLog_eq m (hforward.filter _)]

variable [DecidableEq M]

theorem redisLog_apart (r : RedisRateLimiter) (hpos : 0 < r.window) (scope : String)
    (hrun : Clocked run) (key : String) :
    (redisLog r scope run).filter (fun e ↦ e.1.key = key) =
      redisLog r scope (run.filter fun a ↦ a.key = key) := by
  rw [redisLog_eq r hpos scope hrun, decisions_key,
    redisLog_eq r hpos scope (hrun.sublist List.filter_sublist)]

/-- The refused attempts that it counts never make the Redis limiter allow too many. -/
theorem redisLog_atMost (r : RedisRateLimiter) (hpos : 0 < r.window) (scope : String)
    (hrun : Clocked run) (key : String) (t : T) :
    allowedIn r.window key t (redisLog r scope run) ≤ r.limit := by
  rw [redisLog_eq r hpos scope hrun]
  exact allowedIn_le rfl r.limit key t run

theorem redisLog_eq_memoryLog_iff (m : InMemoryLoginRateLimiter) (scope : String)
    (hrun : Clocked run) : memoryLog m run = redisLog ⟨m.limit, m.windowSeconds⟩ scope run ↔
      SlidingWindow.Undisturbed (counts m.windowSeconds) m.limit run := by
  rw [memoryLog_eq m hrun.forward,
    redisLog_eq ⟨m.limit, m.windowSeconds⟩ m.window_pos scope hrun]
  exact decisions_eq_iff (counts_window hrun.forward)

/-- The two limiters implement one law on exactly the runs in which no attempt that found
`limit` others of its key in its window makes up the number for a later one. -/
theorem oneLaw_iff (m : InMemoryLoginRateLimiter) (scope : String) (hrun : Clocked run) :
    OneLaw m scope run ↔ SlidingWindow.Undisturbed (counts m.windowSeconds) m.limit run := by
  rw [← redisLog_eq_memoryLog_iff m scope hrun]
  constructor
  · exact OneLaw.same
  · intro heq
    have hlaw : WindowLaw m.limit m.windowSeconds (memoryLog m run) := by
      rw [memoryLog_eq m hrun.forward]
      exact windowLaw_memory m.limit hrun.forward
    exact ⟨heq, hlaw, heq ▸ hlaw, memoryLog_apart m hrun.forward,
      redisLog_apart ⟨m.limit, m.windowSeconds⟩ m.window_pos scope hrun⟩

end

/-! ## A sixth attempt within the window -/

namespace Sample

def memory : InMemoryLoginRateLimiter := ⟨5, 300, by decide, by decide⟩

example : InMemoryLoginRateLimiter.init 5 300 = .ok memory := rfl

def login (now : ℤ) : Attempt ℤ ℤ := ⟨"alice@example.com", now, now⟩

/-- The sixth attempt is refused, and has left the window of the seventh. -/
def late : List (Attempt ℤ ℤ) := [1000, 1001, 1002, 1003, 1004, 1005, 1305].map login

theorem clocked_late : Clocked late := ⟨by decide, by decide, by decide⟩

theorem oneLaw_late : OneLaw memory "account-login" late := by
  apply (oneLaw_iff memory "account-login" clocked_late).mpr
  apply (decisions_eq_iff (counts_window clocked_late.forward)).mp
  decide +kernel

/-- The sixth attempt is refused, and is still in the window of the seventh, which the first
has left. -/
def early : List (Attempt ℤ ℤ) := [1000, 1001, 1002, 1003, 1004, 1005, 1300].map login

theorem clocked_early : Clocked early := ⟨by decide, by decide, by decide⟩

theorem early_answers :
    (memoryLog memory early).map Prod.snd = [true, true, true, true, true, false, true] ∧
      (redisLog RedisAccountLoginRateLimiter.limiter "account-login" early).map Prod.snd =
        [true, true, true, true, true, false, false] := by
  decide +kernel

theorem redisLog_atMost_early : allowedIn 300 "alice@example.com" 1300
    (redisLog RedisAccountLoginRateLimiter.limiter "account-login" early) ≤ 5 :=
  redisLog_atMost RedisAccountLoginRateLimiter.limiter (by decide) _ clocked_early _ _

theorem limiters_disagree : Clocked early ∧ ¬ OneLaw memory "account-login" early := by
  refine ⟨clocked_early, fun h ↦ ?_⟩
  have hanswers : (memoryLog memory early).map Prod.snd =
      (redisLog RedisAccountLoginRateLimiter.limiter "account-login" early).map Prod.snd :=
    congrArg (List.map Prod.snd) h.same
  rw [early_answers.1, early_answers.2] at hanswers
  exact absurd hanswers (by decide)

end Sample

end S3mp.LoginLimiters
