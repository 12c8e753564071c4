import S3mp.Operations.LockSets

/-!
# Lock sets exclude each other

A key which has not run out is in the hands of one set.  What a set may hold is known in every
stage of its loops, and an acquisition which ends while its keys live leaves no key to others.
-/

namespace S3mp.Operations

open Relational Transition

/-! ## Steps -/

namespace LockWorld

variable {w w' : LockWorld} {c : LockStep}

/-- Everything a step can do. -/
inductive Moves (w : LockWorld) : LockStep → LockWorld → Prop where
  | tick (n : ℕ) : Moves w (.tick n) { w with clock := w.clock + n }
  | acquire (fileIds : List Uuid) (leaseSeconds : ℕ) :
      Moves w (.acquire fileIds leaseSeconds)
        { w with sets := w.sets ++ [begun fileIds leaseSeconds] }
  | set (i : ℕ) (reply : Reply) (s : LockSet) (acquired : List String) (key : String)
      (rest : List String) (hs : w.sets[i]? = some s)
      (hstage : s.stage = .acquiring acquired (key :: rest)) :
      Moves w (.set i reply) (w.setNext i s acquired key rest reply)
  | rollBack (i : ℕ) (reply : Reply) (s : LockSet) (key : String) (rest : List String)
      (raises : Bool) (hs : w.sets[i]? = some s)
      (hstage : s.stage = .rollingBack (key :: rest) raises) :
      Moves w (.rollBack i reply) (w.rollBackNext i s key rest raises reply)
  | renew (i : ℕ) (reply : Reply) (s : LockSet) (key : String) (rest : List String)
      (hs : w.sets[i]? = some s) (hstage : s.stage = .held)
      (hrenewal : s.renewal = .running (key :: rest)) :
      Moves w (.renew i reply) (w.renewNext i s key rest reply)
  | release (i : ℕ) (s : LockSet) (hs : w.sets[i]? = some s) (hstage : s.stage = .held) :
      Moves w (.release i) (w.startRelease i s)
  | delete (i : ℕ) (reply : Reply) (s : LockSet) (key : String) (rest : List String)
      (hs : w.sets[i]? = some s) (hstage : s.stage = .releasing (key :: rest)) :
      Moves w (.delete i reply) (w.deleteNext i s key rest reply)

theorem exec_moves (hok : exec c w = .ok w') : w.Moves c w' := by
  cases c with
  | tick n =>
      rw [← Except.ok.inj hok]
      exact .tick n
  | acquire fileIds leaseSeconds =>
      rw [← Except.ok.inj hok]
      exact .acquire fileIds leaseSeconds
  | set i reply =>
      simp only [exec] at hok
      split at hok
      · cases hok
      rename_i s hs
      split at hok
      · rw [← Except.ok.inj hok]
        exact .set i reply s _ _ _ hs ‹_›
      · cases hok
  | rollBack i reply =>
      simp only [exec] at hok
      split at hok
      · cases hok
      rename_i s hs
      split at hok
      · rw [← Except.ok.inj hok]
        exact .rollBack i reply s _ _ _ hs ‹_›
      · cases hok
  | renew i reply =>
      simp only [exec] at hok
      split at hok
      · cases hok
      rename_i s hs
      split at hok
      · rw [← Except.ok.inj hok]
        exact .renew i reply s _ _ hs ‹_› ‹_›
      · cases hok
  | release i =>
      simp only [exec] at hok
      split at hok
      · cases hok
      rename_i s hs
      split at hok
      · rw [← Except.ok.inj hok]
        exact .release i s hs ‹_›
      · cases hok
  | delete i reply =>
      simp only [exec] at hok
      split at hok
      · cases hok
      rename_i s hs
      split at hok
      · rw [← Except.ok.inj hok]
        exact .delete i reply s _ _ hs ‹_›
      · cases hok

/-! ## What a command does to the keys -/

@[simp] theorem enter_sets (i : ℕ) (s : LockSet) (redis : Redis) :
    (w.enter i s redis).sets = w.sets.set i s := rfl

theorem setNext_redis (i : ℕ) (s : LockSet) (acquired : List String) (key : String)
    (rest : List String) (reply : Reply) :
    (w.setNext i s acquired key rest reply).redis =
      reply.effect w.redis (w.redis.setNx w.clock s.lease key i).2 := by
  unfold setNext
  cases reply with
  | answered =>
      dsimp only
      split
      · split <;> rfl
      · rfl
  | lost => rfl
  | failed => rfl

theorem rollBackNext_redis (i : ℕ) (s : LockSet) (key : String) (rest : List String)
    (raises : Bool) (reply : Reply) :
    (w.rollBackNext i s key rest raises reply).redis =
      reply.effect w.redis (w.redis.release w.clock key i) := by
  cases reply <;> rfl

theorem renewNext_redis (i : ℕ) (s : LockSet) (key : String) (rest : List String)
    (reply : Reply) :
    (w.renewNext i s key rest reply).redis =
      reply.effect w.redis (w.redis.renew w.clock s.lease key i).2 := by
  unfold renewNext
  cases reply with
  | answered =>
      dsimp only
      split <;> rfl
  | lost => rfl
  | failed => rfl

theorem startRelease_redis (i : ℕ) (s : LockSet) : (w.startRelease i s).redis = w.redis := by
  unfold startRelease
  split <;> rfl

theorem deleteNext_redis (i : ℕ) (s : LockSet) (key : String) (rest : List String)
    (reply : Reply) :
    (w.deleteNext i s key rest reply).redis =
      reply.effect w.redis (w.redis.release w.clock key i) := by
  cases reply <;> rfl

/-- A command respects the keys of the other sets. -/
theorem Moves.ownKeysOnly (h : w.Moves c w') : w.OwnKeysOnly c w' := by
  have hcommand : ∀ i, c.owner = some i → Redis.Respects w.clock i w.redis w'.redis →
      w.OwnKeysOnly c w' := by
    intro i howner hrespects key entry hentry hlives hchanged
    obtain ⟨htoken, hkept⟩ := hrespects key entry hentry hlives hchanged
    exact ⟨howner.trans (congrArg some htoken.symm), hkept⟩
  cases h with
  | tick n => exact fun key entry hentry _ hchanged ↦ absurd hentry hchanged
  | acquire fileIds leaseSeconds => exact fun key entry hentry _ hchanged ↦ absurd hentry hchanged
  | set i reply s acquired key rest hs hstage =>
      refine hcommand i rfl ?_
      rw [setNext_redis]
      exact Redis.respects_setNx.effect reply
  | rollBack i reply s key rest raises hs hstage =>
      refine hcommand i rfl ?_
      rw [rollBackNext_redis]
      exact Redis.respects_release.effect reply
  | renew i reply s key rest hs hstage hrenewal =>
      refine hcommand i rfl ?_
      rw [renewNext_redis]
      exact Redis.respects_renew.effect reply
  | release i s hs hstage =>
      refine hcommand i rfl ?_
      rw [startRelease_redis]
      exact .refl _
  | delete i reply s key rest hs hstage =>
      refine hcommand i rfl ?_
      rw [deleteNext_redis]
      exact Redis.respects_release.effect reply

/-! ## The invariant -/

end LockWorld

/-- The keys a set in this stage may hold, when that is known. -/
def LockStage.mayHold (keys : List String) : LockStage → Option (List String)
  | .acquiring acquired _ => some acquired
  | .rollingBack rest false | .releasing rest => some rest
  | .refused | .released => some []
  | .held => some keys
  | .rollingBack _ true | .raised | .releaseRaised _ => none

namespace LockWorld

variable {w w' : LockWorld} {c : LockStep}

structure Sound (w : LockWorld) : Prop where
  tokens : ∀ key i, w.get key = some i → i < w.sets.length
  holds : ∀ (i : ℕ) (s : LockSet) (l : List String), w.sets[i]? = some s →
    s.stage.mayHold s.keys = some l → ∀ key, w.get key = some i → key ∈ l
  loops : ∀ (i : ℕ) (s : LockSet) (acquired rest : List String), w.sets[i]? = some s →
    s.stage = .acquiring acquired rest → acquired ++ rest = s.keys
  returns : ∀ (i : ℕ) (s : LockSet), w.sets[i]? = some s → s.stage ≠ .releaseRaised false

theorem Sound.letsGo (hw : w.Sound) : w.LetsGo := by
  refine ⟨fun i s hs hstage key hkey ↦ ?_, fun i s hs hstage key hkey ↦ ?_, hw.returns⟩
  · have hnone := hw.holds i s [] hs (by rw [hstage]; rfl) key hkey
    cases hnone
  · have hnone := hw.holds i s [] hs (by rw [hstage]; rfl) key hkey
    cases hnone

/-- One set goes on, and at most one key comes to it. -/
theorem Sound.enter {i : ℕ} {s s' : LockSet} {redis : Redis} {key : String} (hw : w.Sound)
    (hs : w.sets[i]? = some s) (hgrants : Redis.Grants w.clock i key w.redis redis)
    (hholds : ∀ l, s'.stage.mayHold s'.keys = some l → ∀ k, redis.get w.clock k = some i → k ∈ l)
    (hloops : ∀ acquired rest, s'.stage = .acquiring acquired rest → acquired ++ rest = s'.keys)
    (hreturns : s'.stage ≠ .releaseRaised false) : (w.enter i s' redis).Sound := by
  have hi : i < w.sets.length := (List.getElem?_eq_some_iff.mp hs).1
  have hset : ∀ j t, (w.sets.set i s')[j]? = some t → j = i ∧ t = s' ∨ j ≠ i ∧ w.sets[j]? = some t := by
    intro j t ht
    by_cases hj : j = i
    · subst hj
      rw [List.getElem?_set_self hi] at ht
      exact Or.inl ⟨rfl, (Option.some.inj ht).symm⟩
    · rw [List.getElem?_set_ne (Ne.symm hj)] at ht
      exact Or.inr ⟨hj, ht⟩
  refine ⟨fun k j hk ↦ ?_, fun j t l ht hl k hk ↦ ?_, fun j t acquired rest ht hstage ↦ ?_,
    fun j t ht ↦ ?_⟩
  · rw [enter_sets, List.length_set]
    rcases hgrants k j hk with hold | ⟨rfl, -⟩
    · exact hw.tokens k j hold
    · exact hi
  · rcases hset j t ht with ⟨rfl, rfl⟩ | ⟨hj, ht⟩
    · exact hholds l hl k hk
    · rcases hgrants k j hk with hold | ⟨hsame, -⟩
      · exact hw.holds j t l ht hl k hold
      · exact absurd hsame hj
  · rcases hset j t ht with ⟨rfl, rfl⟩ | ⟨hj, ht⟩
    · exact hloops acquired rest hstage
    · exact hw.loops j t acquired rest ht hstage
  · rcases hset j t ht with ⟨rfl, rfl⟩ | ⟨hj, ht⟩
    · exact hreturns
    · exact hw.returns j t ht

/-- The set goes on without a key coming to it. -/
theorem Sound.goOn {i : ℕ} {s s' : LockSet} {redis : Redis} (hw : w.Sound)
    (hs : w.sets[i]? = some s)
    (hget : ∀ k t, redis.get w.clock k = some t → w.get k = some t)
    (hholds : ∀ l, s'.stage.mayHold s'.keys = some l → ∀ k, redis.get w.clock k = some i → k ∈ l)
    (hloops : ∀ acquired rest, s'.stage ≠ .acquiring acquired rest)
    (hreturns : s'.stage ≠ .releaseRaised false) : (w.enter i s' redis).Sound :=
  have hgrants : Redis.Grants w.clock i "" w.redis redis := fun k t hk ↦ Or.inl (hget k t hk)
  hw.enter hs hgrants hholds (fun acquired rest h ↦ absurd h (hloops acquired rest)) hreturns

end LockWorld

namespace LockStage

variable {rest keys l : List String} {raises : Bool}

theorem mayHold_rollBack (h : (rollBack rest raises).mayHold keys = some l) :
    raises = false ∧ l = rest := by
  unfold rollBack at h
  cases raises with
  | true =>
      split at h <;> cases h
  | false =>
      split at h
      · rename_i hrest
        exact ⟨rfl, (Option.some.inj h).symm.trans hrest.symm⟩
      · exact ⟨rfl, (Option.some.inj h).symm⟩

theorem rollBack_ne : (∀ acquired rest', rollBack rest raises ≠ .acquiring acquired rest') ∧
    rollBack rest raises ≠ .releaseRaised false := by
  unfold rollBack
  cases raises <;> by_cases hrest : rest = [] <;> simp [hrest]

theorem mayHold_delete (h : (delete rest).mayHold keys = some l) : l = rest := by
  unfold delete at h
  split at h
  · rename_i hrest
    exact (Option.some.inj h).symm.trans hrest.symm
  · exact (Option.some.inj h).symm

theorem delete_ne : (∀ acquired rest', delete rest ≠ .acquiring acquired rest') ∧
    delete rest ≠ .releaseRaised false := by
  unfold delete
  by_cases hrest : rest = [] <;> simp [hrest]

end LockStage

theorem Redis.get_effect {before after : Redis} {reply : Reply} {clock t : ℕ} {k : String}
    (hget : after.get clock k = some t → before.get clock k = some t)
    (h : (reply.effect before after).get clock k = some t) : before.get clock k = some t := by
  unfold Reply.effect at h
  split at h
  · exact h
  · exact hget h

namespace LockWorld

variable {w w' : LockWorld} {c : LockStep} {i : ℕ} {s : LockSet}

theorem Sound.setNext {acquired rest : List String} {key : String} (hw : w.Sound)
    (hs : w.sets[i]? = some s) (hstage : s.stage = .acquiring acquired (key :: rest))
    (reply : Reply) : (w.setNext i s acquired key rest reply).Sound := by
  have hkeys : acquired ++ key :: rest = s.keys := hw.loops i s _ _ hs hstage
  have hacquired : ∀ k, w.get k = some i → k ∈ acquired :=
    hw.holds i s acquired hs (by rw [hstage]; rfl)
  have hgrants : Redis.Grants w.clock i key w.redis (w.redis.setNx w.clock s.lease key i).2 :=
    Redis.grants_setNx
  have hmine : ∀ k, (w.redis.setNx w.clock s.lease key i).2.get w.clock k = some i →
      k ∈ acquired ++ [key] := by
    intro k hk
    rcases hgrants k i hk with hold | ⟨-, rfl⟩
    · exact List.mem_append_left _ (hacquired k hold)
    · exact List.mem_append_right _ List.mem_cons_self
  unfold LockWorld.setNext
  cases reply with
  | answered =>
      dsimp only
      split
      · split
        · rename_i htaken hrest
          refine hw.enter hs hgrants (fun l hl k hk ↦ ?_) nofun nofun
          rw [← Option.some.inj hl]
          change k ∈ s.keys
          rw [← hkeys, hrest]
          exact hmine k hk
        · refine hw.enter hs hgrants (fun l hl k hk ↦ ?_) (fun acquired' rest' h ↦ ?_) nofun
          · rw [← Option.some.inj hl]
            exact hmine k hk
          · obtain ⟨rfl, rfl⟩ := LockStage.acquiring.inj h
            exact (List.append_assoc acquired [key] rest).trans hkeys
      · rename_i htaken
        have hsame : (w.redis.setNx w.clock s.lease key i).2 = w.redis := by
          unfold Redis.setNx at htaken ⊢
          split
          · rfl
          · rename_i hfree
            rw [if_neg hfree] at htaken
            exact absurd rfl htaken
        rw [hsame]
        refine hw.goOn hs (fun _ _ h ↦ h) (fun l hl k hk ↦ ?_) LockStage.rollBack_ne.1
          LockStage.rollBack_ne.2
        rw [(LockStage.mayHold_rollBack hl).2]
        exact hacquired k hk
  | lost =>
      refine hw.enter hs hgrants (fun l hl k hk ↦ ?_)
        (fun acquired' rest' h ↦ absurd h (LockStage.rollBack_ne.1 acquired' rest'))
        LockStage.rollBack_ne.2
      cases (LockStage.mayHold_rollBack hl).1
  | failed =>
      refine hw.goOn hs (fun _ _ h ↦ h) (fun l hl k hk ↦ ?_) LockStage.rollBack_ne.1
        LockStage.rollBack_ne.2
      cases (LockStage.mayHold_rollBack hl).1

theorem Sound.rollBackNext {rest : List String} {key : String} {raises : Bool} (hw : w.Sound)
    (hs : w.sets[i]? = some s) (hstage : s.stage = .rollingBack (key :: rest) raises)
    (reply : Reply) : (w.rollBackNext i s key rest raises reply).Sound := by
  have hget : ∀ k t, (reply.effect w.redis (w.redis.release w.clock key i)).get w.clock k = some t →
      w.get k = some t := fun _ _ hk ↦ Redis.get_effect (fun h ↦ (Redis.get_release h).1) hk
  cases reply with
  | answered =>
      refine hw.goOn hs hget (fun l hl k hk ↦ ?_) LockStage.rollBack_ne.1 LockStage.rollBack_ne.2
      obtain ⟨rfl, rfl⟩ := LockStage.mayHold_rollBack hl
      obtain ⟨hold, hother⟩ := Redis.get_release hk
      have hmem := hw.holds i s (key :: l) hs (by rw [hstage]; rfl) k hold
      exact (List.mem_cons.mp hmem).resolve_left fun hk ↦ hother ⟨rfl, hk⟩
  | lost => exact hw.goOn hs hget nofun nofun nofun
  | failed => exact hw.goOn hs hget nofun nofun nofun

theorem Sound.renewNext {rest : List String} {key : String} (hw : w.Sound)
    (hs : w.sets[i]? = some s) (hstage : s.stage = .held)
    (reply : Reply) : (w.renewNext i s key rest reply).Sound := by
  have hget : ∀ k t, (w.redis.renew w.clock s.lease key i).2.get w.clock k = some t →
      w.get k = some t := fun _ _ hk ↦ Redis.get_renew hk
  have hheld : ∀ (redis : Redis), (∀ k t, redis.get w.clock k = some t → w.get k = some t) →
      ∀ renewal, (w.enter i { s with renewal } redis).Sound := by
    intro redis hredis renewal
    refine hw.goOn hs hredis (fun l hl k hk ↦ hw.holds i s l hs hl k (hredis k i hk)) ?_ ?_
    · change ∀ acquired rest, s.stage ≠ .acquiring acquired rest
      rw [hstage]
      nofun
    · change s.stage ≠ .releaseRaised false
      rw [hstage]
      nofun
  unfold LockWorld.renewNext
  cases reply with
  | answered =>
      dsimp only
      split
      · exact hheld _ hget _
      · exact hheld _ hget _
  | lost => exact hheld _ hget _
  | failed => exact hheld _ (fun _ _ h ↦ h) _

theorem Sound.startRelease (hw : w.Sound) (hs : w.sets[i]? = some s) (hstage : s.stage = .held)
    (hrenewal : s.renewal ≠ .failed) : (w.startRelease i s).Sound := by
  have hheld : ∀ k, w.get k = some i → k ∈ s.keys := hw.holds i s s.keys hs (by rw [hstage]; rfl)
  have hdelete : ∀ renewal, (w.enter i { s with stage := .delete s.keys, renewal } w.redis).Sound := by
    intro renewal
    refine hw.goOn hs (fun _ _ h ↦ h) (fun l hl k hk ↦ ?_) LockStage.delete_ne.1
      LockStage.delete_ne.2
    rw [LockStage.mayHold_delete hl]
    exact hheld k hk
  unfold LockWorld.startRelease
  split
  · rename_i hfailed
    exact absurd hfailed hrenewal
  · exact hdelete _
  · exact hdelete _

theorem Sound.deleteNext {rest : List String} {key : String} (hw : w.Sound)
    (hs : w.sets[i]? = some s) (hstage : s.stage = .releasing (key :: rest))
    (reply : Reply) : (w.deleteNext i s key rest reply).Sound := by
  have hget : ∀ k t, (reply.effect w.redis (w.redis.release w.clock key i)).get w.clock k = some t →
      w.get k = some t := fun _ _ hk ↦ Redis.get_effect (fun h ↦ (Redis.get_release h).1) hk
  cases reply with
  | answered =>
      refine hw.goOn hs hget (fun l hl k hk ↦ ?_) LockStage.delete_ne.1 LockStage.delete_ne.2
      obtain rfl := LockStage.mayHold_delete hl
      obtain ⟨hold, hother⟩ := Redis.get_release hk
      have hmem := hw.holds i s (key :: l) hs (by rw [hstage]; rfl) k hold
      exact (List.mem_cons.mp hmem).resolve_left fun hk ↦ hother ⟨rfl, hk⟩
  | lost => exact hw.goOn hs hget nofun nofun nofun
  | failed => exact hw.goOn hs hget nofun nofun nofun

theorem begun_cases (fileIds : List Uuid) (leaseSeconds : ℕ) :
    (fileIds = [] ∧ (begun fileIds leaseSeconds).stage = .held) ∨
      (begun fileIds leaseSeconds).stage = .acquiring [] (begun fileIds leaseSeconds).keys := by
  unfold begun
  dsimp only
  split
  · rename_i hkeys
    refine Or.inl ⟨?_, rfl⟩
    have hnone : fileIds.insertionSort (· ≤ ·) = [] := List.map_eq_nil_iff.mp hkeys
    exact List.eq_nil_of_length_eq_zero (by rw [← List.length_insertionSort (· ≤ ·), hnone]; rfl)
  · exact Or.inr rfl

theorem Sound.acquire (hw : w.Sound) (fileIds : List Uuid) (leaseSeconds : ℕ) :
    Sound { w with sets := w.sets ++ [begun fileIds leaseSeconds] } := by
  have hset : ∀ j t, (w.sets ++ [begun fileIds leaseSeconds])[j]? = some t →
      w.sets[j]? = some t ∨ j = w.sets.length ∧ t = begun fileIds leaseSeconds := by
    intro j t ht
    rcases lt_trichotomy j w.sets.length with hj | hj | hj
    · exact Or.inl ((List.getElem?_append_left hj).symm.trans ht)
    · subst hj
      rw [List.getElem?_concat_length] at ht
      exact Or.inr ⟨rfl, (Option.some.inj ht).symm⟩
    · rw [List.getElem?_eq_none (by rw [List.length_append]; exact hj)] at ht
      cases ht
  -- Nobody holds the token of the new set yet.
  have hfresh : ∀ k, w.get k ≠ some w.sets.length := fun k hk ↦ Nat.lt_irrefl _ (hw.tokens k _ hk)
  refine ⟨fun k j hk ↦ ?_, fun j t l ht hl k hk ↦ ?_, fun j t acquired rest ht hstage ↦ ?_,
    fun j t ht ↦ ?_⟩
  · rw [List.length_append]
    exact Nat.lt_add_right _ (hw.tokens k j hk)
  · rcases hset j t ht with hold | ⟨rfl, -⟩
    · exact hw.holds j t l hold hl k hk
    · exact absurd hk (hfresh k)
  · rcases hset j t ht with hold | ⟨-, rfl⟩
    · exact hw.loops j t acquired rest hold hstage
    · rcases begun_cases fileIds leaseSeconds with ⟨-, hheld⟩ | hacquiring
      · rw [hheld] at hstage
        cases hstage
      · obtain ⟨rfl, rfl⟩ := LockStage.acquiring.inj (hacquiring.symm.trans hstage)
        rfl
  · rcases hset j t ht with hold | ⟨-, rfl⟩
    · exact hw.returns j t hold
    · rcases begun_cases fileIds leaseSeconds with ⟨-, hheld⟩ | hacquiring
      · rw [hheld]
        nofun
      · rw [hacquiring]
        nofun

theorem Sound.tick (hw : w.Sound) (n : ℕ) : Sound { w with clock := w.clock + n } := by
  have hget : ∀ k t, w.redis.get (w.clock + n) k = some t → w.get k = some t := by
    intro k t hk
    obtain ⟨entry, hentry, hlives, htoken⟩ := Redis.get_eq_some.mp hk
    exact Redis.get_eq_some.mpr ⟨entry, hentry, Nat.lt_of_add_right_lt hlives, htoken⟩
  exact ⟨fun k j hk ↦ hw.tokens k j (hget k j hk),
    fun j t l ht hl k hk ↦ hw.holds j t l ht hl k (hget k j hk), hw.loops, hw.returns⟩

theorem Sound.moves (hw : w.Sound) (hc : w.InTime c) (h : w.Moves c w') : w'.Sound := by
  cases h with
  | tick n => exact hw.tick n
  | acquire fileIds leaseSeconds => exact hw.acquire fileIds leaseSeconds
  | set i reply s acquired key rest hs hstage => exact hw.setNext hs hstage reply
  | rollBack i reply s key rest raises hs hstage => exact hw.rollBackNext hs hstage reply
  | renew i reply s key rest hs hstage hrenewal => exact hw.renewNext hs hstage reply
  | release i s hs hstage => exact hw.startRelease hs hstage (hc s hs hstage)
  | delete i reply s key rest hs hstage => exact hw.deleteNext hs hstage reply

/-! ## Exclusion -/

theorem lockKey_mem {f : Uuid} (hf : f ∈ s.fileIds) : lockKey f ∈ s.keys :=
  List.mem_map_of_mem ((List.mem_insertionSort _).mpr hf)

/-- Only the set which moves can have acquired its files in this step. -/
theorem exclusive_enter {s s' : LockSet} {redis : Redis} (hs : w.sets[i]? = some s)
    (h : s'.stage.acquired → s.stage.acquired = false →
      ∀ j t, w.sets[j]? = some t → j ≠ i → t.stage.acquired →
        (∀ k ∈ t.keys, redis.get w.clock k = some j) →
        ∀ f ∈ s'.fileIds, f ∉ t.fileIds) : w.Exclusive (w.enter i s' redis) := by
  intro i₁ s₁ hs₁ hacquired hnew j t ht hj htacquired hintact
  have hi : i < w.sets.length := (List.getElem?_eq_some_iff.mp hs).1
  by_cases hi₁ : i₁ = i
  · subst hi₁
    rw [enter_sets, List.getElem?_set_self hi] at hs₁
    obtain rfl := Option.some.inj hs₁
    rw [enter_sets, List.getElem?_set_ne (Ne.symm hj)] at ht
    exact h hacquired (hnew s hs) j t ht hj htacquired hintact
  · rw [enter_sets, List.getElem?_set_ne (Ne.symm hi₁)] at hs₁
    have hbefore := hnew s₁ hs₁
    rw [hacquired] at hbefore
    cases hbefore

theorem exclusive_goOn {s s' : LockSet} {redis : Redis} (hs : w.sets[i]? = some s)
    (h : s'.stage.acquired = false ∨ s.stage.acquired) : w.Exclusive (w.enter i s' redis) := by
  refine exclusive_enter hs fun hacquired hnew ↦ ?_
  rcases h with hnot | halready
  · rw [hacquired] at hnot
    cases hnot
  · rw [hnew] at halready
    cases halready

theorem acquired_rollBack (rest : List String) (raises : Bool) :
    (LockStage.rollBack rest raises).acquired = false := by
  unfold LockStage.rollBack
  split
  · split <;> rfl
  · rfl

/-- The last key was free, and the others have not run out. -/
theorem exclusive_setNext {acquired rest : List String} {key : String} {reply : Reply}
    (hw : w.Sound) (hs : w.sets[i]? = some s)
    (hstage : s.stage = .acquiring acquired (key :: rest)) (hc : w.InTime (.set i reply)) :
    w.Exclusive (w.setNext i s acquired key rest reply) := by
  have hkeys : acquired ++ key :: rest = s.keys := hw.loops i s _ _ hs hstage
  unfold LockWorld.setNext
  cases reply with
  | lost => exact exclusive_goOn hs (Or.inl (acquired_rollBack _ _))
  | failed => exact exclusive_goOn hs (Or.inl (acquired_rollBack _ _))
  | answered =>
      dsimp only
      split
      · split
        · rename_i htaken hrest
          subst hrest
          have hfree : w.get key = none := by
            unfold Redis.setNx at htaken
            split at htaken
            · cases htaken
            · rename_i hnone
              exact Option.not_isSome_iff_eq_none.mp hnone
          have hheld := hc s acquired key hs hstage hfree
          refine exclusive_enter hs fun _ _ j t ht hj _ hintact f hf hft ↦ hj ?_
          rcases Redis.grants_setNx _ _ (hintact _ (lockKey_mem hft)) with hold | ⟨hmine, -⟩
          · have hmem : lockKey f ∈ acquired ++ [key] := hkeys ▸ lockKey_mem hf
            rcases List.mem_append.mp hmem with hbefore | hlast
            · exact Option.some.inj (hold.symm.trans (hheld _ hbefore))
            · rw [List.mem_singleton.mp hlast] at hold
              exact nomatch hold.symm.trans hfree
          · exact hmine
        · exact exclusive_goOn hs (Or.inl rfl)
      · exact exclusive_goOn hs (Or.inl (acquired_rollBack _ _))

/-- Where the sets stay as they are, none acquires anything. -/
theorem exclusive_of_sets (h : w'.sets = w.sets) : w.Exclusive w' := by
  intro i s hs hacquired hnew
  have hbefore := hnew s (h ▸ hs)
  rw [hacquired] at hbefore
  cases hbefore

theorem Moves.exclusive (h : w.Moves c w') (hw : w.Sound) (hc : w.InTime c) : w.Exclusive w' := by
  cases h with
  | tick n => exact exclusive_of_sets rfl
  | acquire fileIds leaseSeconds =>
      intro i s hs hacquired hnew j t ht hj _ _ f hf
      rcases lt_or_ge i w.sets.length with hi | hi
      · have hs' := (List.getElem?_append_left hi).symm.trans hs
        have hbefore := hnew s hs'
        rw [hacquired] at hbefore
        cases hbefore
      · rw [List.getElem?_append_right hi] at hs
        obtain rfl : begun fileIds leaseSeconds = s := by
          have hmem := List.mem_of_getElem? hs
          exact (List.mem_singleton.mp hmem).symm
        rcases begun_cases fileIds leaseSeconds with ⟨rfl, -⟩ | hacquiring
        · cases hf
        · rw [hacquiring] at hacquired
          cases hacquired
  | set i reply s acquired key rest hs hstage => exact exclusive_setNext hw hs hstage hc
  | rollBack i reply s key rest raises hs hstage =>
      unfold LockWorld.rollBackNext
      cases reply with
      | answered => exact exclusive_goOn hs (Or.inl (acquired_rollBack _ _))
      | lost => exact exclusive_goOn hs (Or.inl rfl)
      | failed => exact exclusive_goOn hs (Or.inl rfl)
  | renew i reply s key rest hs hstage hrenewal =>
      have hheld : s.stage.acquired := by rw [hstage]; rfl
      unfold LockWorld.renewNext
      cases reply with
      | answered =>
          dsimp only
          split
          · exact exclusive_goOn hs (Or.inr hheld)
          · exact exclusive_goOn hs (Or.inr hheld)
      | lost => exact exclusive_goOn hs (Or.inr hheld)
      | failed => exact exclusive_goOn hs (Or.inr hheld)
  | release i s hs hstage =>
      have hheld : s.stage.acquired := by rw [hstage]; rfl
      unfold LockWorld.startRelease
      split
      · exact exclusive_goOn hs (Or.inr hheld)
      · exact exclusive_goOn hs (Or.inr hheld)
      · exact exclusive_goOn hs (Or.inr hheld)
  | delete i reply s key rest hs hstage =>
      have hreleasing : s.stage.acquired := by rw [hstage]; rfl
      unfold LockWorld.deleteNext
      cases reply with
      | answered => exact exclusive_goOn hs (Or.inr hreleasing)
      | lost => exact exclusive_goOn hs (Or.inr hreleasing)
      | failed => exact exclusive_goOn hs (Or.inr hreleasing)

/-! ## The way through `release` -/

theorem run_deletes {keys : List String} (hs : w.sets[i]? = some s)
    (hstage : s.stage = .delete keys) :
    ((run exec w (List.replicate keys.length (.delete i .answered))).sets[i]?).map (·.stage) =
      some .released := by
  induction keys generalizing w s with
  | nil =>
      rw [List.length_nil, List.replicate_zero, run_nil, hs, Option.map_some, hstage]
      rfl
  | cons key rest ih =>
      have hi : i < w.sets.length := (List.getElem?_eq_some_iff.mp hs).1
      have hreleasing : s.stage = .releasing (key :: rest) := hstage
      have hstep : advance exec w (.delete i .answered) = w.deleteNext i s key rest .answered :=
        advance_of_ok (by simp only [exec, hs, hreleasing])
      rw [List.length_cons, List.replicate_succ, run_cons, hstep]
      exact ih (List.getElem?_set_self hi) rfl

/-- Once the renewal is done with, `release` returns when its commands are answered. -/
theorem release_returns (hs : w.sets[i]? = some s) (hstage : s.stage = .held)
    (hrenewal : s.renewal ≠ .failed) :
    ((run exec w (.release i :: List.replicate s.keys.length (.delete i .answered))).sets[i]?).map
      (·.stage) = some .released := by
  have hi : i < w.sets.length := (List.getElem?_eq_some_iff.mp hs).1
  have hstep : advance exec w (.release i) = w.startRelease i s :=
    advance_of_ok (by simp only [exec, hs, hstage, if_true])
  have hdelete : ∃ s', (w.startRelease i s).sets[i]? = some s' ∧ s'.stage = .delete s.keys := by
    unfold startRelease
    split
    · rename_i hfailed
      exact absurd hfailed hrenewal
    · exact ⟨_, List.getElem?_set_self hi, rfl⟩
    · exact ⟨_, List.getElem?_set_self hi, rfl⟩
  obtain ⟨s', hs', hstage'⟩ := hdelete
  rw [run_cons, hstep]
  exact run_deletes hs' hstage'

/-! ## Runs -/

theorem sound_start : start.Sound :=
  ⟨nofun, nofun, nofun, nofun⟩

theorem sound_run {steps : List LockStep} (hmeets : Meets exec InTime start steps) :
    (run exec start steps).Sound :=
  run_invariant (fun _ _ _ hw hc hok ↦ hw.moves hc (exec_moves hok)) sound_start hmeets

end LockWorld

open LockWorld in
/-- In every interleaving in which acquisitions end in time and no renewal has ended with an
exception before `release`: the keys of a set are its own, sets which have acquired their files
exclude others, refused and released sets hold nothing, and `release` returns. -/
theorem lock_sets_exclude (steps : List LockStep)
    (hmeets : Meets LockWorld.exec InTime start steps) :
    (∀ pre c post, steps = pre ++ c :: post →
      (run LockWorld.exec start pre).OwnKeysOnly c (run LockWorld.exec start (pre ++ [c])) ∧
      (run LockWorld.exec start pre).Exclusive (run LockWorld.exec start (pre ++ [c]))) ∧
    (run LockWorld.exec start steps).LetsGo ∧
    ∀ w i s, w.sets[i]? = some s → s.stage = .held → s.renewal ≠ .failed →
      ((run LockWorld.exec w
        (.release i :: List.replicate s.keys.length (.delete i .answered))).sets[i]?).map
        (·.stage) = some .released := by
  refine ⟨fun pre c post hsplit ↦ ?_, (sound_run hmeets).letsGo,
    fun _ _ _ hs hstage hrenewal ↦ release_returns hs hstage hrenewal⟩
  subst hsplit
  obtain ⟨hpre, hc, -⟩ := (meets_append LockWorld.exec).mp hmeets
  rw [run_append]
  cases hok : LockWorld.exec c (run LockWorld.exec start pre) with
  | error e =>
      rw [run_cons, run_nil, advance_of_error hok]
      exact ⟨fun _ _ hentry _ hchanged ↦ absurd hentry hchanged, exclusive_of_sets rfl⟩
  | ok w' =>
      rw [run_cons, run_nil, advance_of_ok hok]
      exact ⟨(exec_moves hok).ownKeysOnly, (exec_moves hok).exclusive (sound_run hpre) hc⟩

namespace Sample

/-- While the first set holds the file, the second one is refused. -/
def oneAfterTheOther : List LockStep :=
  [.acquire [1] 60, .set 0 .answered, .acquire [1] 60, .set 1 .answered, .release 0,
    .delete 0 .answered]

/-- A renewal meets a lost connection, and then the operation is done. -/
def renewalFailed : List LockStep :=
  [.acquire [1] 60, .set 0 .answered, .tick 20000, .renew 0 .failed, .release 0]

/-- The key of the first file runs out before the first set takes the key of the second. -/
def runOut : List LockStep :=
  [.acquire [1, 2] 60, .set 0 .answered, .tick 60000, .acquire [1] 60, .set 1 .answered]

theorem inTime_of_first {w : LockWorld} {i : ℕ} {s : LockSet} {rest : List String}
    (hs : w.sets[i]? = some s) (hstage : s.stage = .acquiring [] rest) :
    w.InTime (.set i .answered) := by
  intro s' acquired key hs' hstage' _ key' hkey'
  obtain rfl := Option.some.inj (hs.symm.trans hs')
  obtain ⟨rfl, -⟩ := LockStage.acquiring.inj (hstage.symm.trans hstage')
  cases hkey'

theorem inTime_oneAfterTheOther :
    Meets LockWorld.exec LockWorld.InTime .start oneAfterTheOther := by
  have hfirst : (run LockWorld.exec .start (oneAfterTheOther.take 1)).sets[0]? =
      some ⟨[1], 60, .acquiring [] [lockKey 1], .none⟩ := by decide +kernel
  have hsecond : (run LockWorld.exec .start (oneAfterTheOther.take 3)).sets[1]? =
      some ⟨[1], 60, .acquiring [] [lockKey 1], .none⟩ := by decide +kernel
  have hheld : (run LockWorld.exec .start (oneAfterTheOther.take 4)).sets[0]? =
      some ⟨[1], 60, .held, .running [lockKey 1]⟩ := by decide +kernel
  refine ⟨trivial, inTime_of_first hfirst rfl, trivial, inTime_of_first hsecond rfl,
    fun s hs _ ↦ ?_, trivial, trivial⟩
  obtain rfl := Option.some.inj (hheld.symm.trans hs)
  nofun

end Sample

open LockWorld in
/-- The first set lets go of its file. -/
theorem lock_sets_exclude_sample : (run LockWorld.exec start Sample.oneAfterTheOther).LetsGo :=
  (lock_sets_exclude Sample.oneAfterTheOther Sample.inTime_oneAfterTheOther).2.1

open LockWorld in
/-- `release` raises the exception of the renewal, and two sets acquire a file when a key runs
out in the middle of an acquisition. -/
theorem lock_sets_overlap :
    (¬ ∀ steps, (run LockWorld.exec start steps).LetsGo) ∧
    ¬ ∀ steps c, (run LockWorld.exec start steps).Exclusive
      (run LockWorld.exec start (steps ++ [c])) := by
  constructor
  · intro h
    have hraised : (run LockWorld.exec start Sample.renewalFailed).sets[0]? =
        some ⟨[1], 60, .releaseRaised false, .failed⟩ := by decide +kernel
    exact (h Sample.renewalFailed).returns 0 _ hraised rfl
  · intro h
    have hbefore : (run LockWorld.exec start Sample.runOut).sets[0]? =
        some ⟨[1, 2], 60, .acquiring [lockKey 1] [lockKey 2], .none⟩ := by decide +kernel
    have hafter : (run LockWorld.exec start (Sample.runOut ++ [.set 0 .answered])).sets =
        [⟨[1, 2], 60, .held, .running [lockKey 1, lockKey 2]⟩,
          ⟨[1], 60, .held, .running [lockKey 1]⟩] := by decide +kernel
    have hintact : ∀ key ∈ LockSet.keys ⟨[1], 60, .held, .running [lockKey 1]⟩,
        (run LockWorld.exec start (Sample.runOut ++ [.set 0 .answered])).get key = some 1 := by
      decide +kernel
    refine h Sample.runOut (.set 0 .answered) 0 _ (by rw [hafter]; rfl) rfl (fun s hs ↦ ?_) 1 _
      (by rw [hafter]; rfl) (by decide) rfl hintact 1 (by decide) (by decide)
    obtain rfl := Option.some.inj (hbefore.symm.trans hs)
    rfl

end S3mp.Operations
