import S3mp.Applications.KeyLifecycle

/-!
# What a rotation promises

The laws of the life of an API key, over every run of issuing, revoking and
rotating: the overlap, the end of a key, rotations which fail, and successors.
The code keeps them in the runs in which no overlap is asked for, a rotation of a
usable key comes to its end, and a rotation of any other key does not.
-/

namespace S3mp.Applications

open Relational Transition

/-! ## The laws -/

section

variable (digest : String → List UInt8) (pepperVersion : ℕ)

def KeyWorld.Authenticates (credential : String) (id : Uuid) (w : KeyWorld) : Prop :=
  w.store.Authenticates digest w.clock credential id

/-- The command may write the key. -/
def Touches (key : Uuid) (w : KeyWorld) : KeyCommand → Prop
  | .revoke id => id = key
  | .revokeOld i => ∃ r, w.rotations.lookup i = some r ∧ r.key = key
  | _ => False

/-- The rotation under way as `i` is about to revoke its key. -/
def Revokes (w : KeyWorld) (i : ℕ) (r : Rotation) : Prop :=
  w.rotations.lookup i = some r ∧ r.stage = .reading

/-- What holds of the command `c` in `w` and of the commands after it; `w'` is where they lead. -/
structure KeyLaws (w : KeyWorld) (c : KeyCommand) (later : List KeyCommand) (w' : KeyWorld) :
    Prop where
  /-- The old key authenticates up to the end of the overlap, unless it is revoked by another
  call or expires. -/
  overlap : ∀ i r credential, c = .revokeOld i → Revokes w i r →
    Meets (KeyWorld.exec digest pepperVersion) (fun w c ↦ ¬ Touches r.key w c)
      (advance (KeyWorld.exec digest pepperVersion) w c) later →
    w'.clock < w.clock + seconds r.overlapSeconds →
    (∀ k, w.store.keys.lookup r.key = some k → w'.clock < k.expiresAt) →
      w.Authenticates digest credential r.key → w'.Authenticates digest credential r.key
  lapsed : ∀ i r credential, c = .revokeOld i → Revokes w i r →
    w.clock + seconds r.overlapSeconds ≤ w'.clock → ¬ w'.Authenticates digest credential r.key
  ended : ∀ id k credential, w.store.keys.lookup id = some k → ¬ k.usable w.clock →
    ¬ w'.Authenticates digest credential id
  revival : ∀ i r r' id, c = .revokeOld i → Revokes w i r →
    (∀ k, w.store.keys.lookup r.key = some k → ¬ k.usable w.clock) →
      w'.rotations.lookup i = some r' → r'.stage ≠ .replaced id
  /-- A rotation which has failed has not changed when its key authenticates. -/
  failure : ∀ i r r' credential t, c = .revokeOld i → Revokes w i r →
    Meets (KeyWorld.exec digest pepperVersion) (fun w c ↦ ¬ Touches r.key w c)
      (advance (KeyWorld.exec digest pepperVersion) w c) later →
    w'.rotations.lookup i = some r' → r'.stage = .failed → w.clock ≤ t →
      (w.store.Authenticates digest t credential r.key ↔
        w'.store.Authenticates digest t credential r.key)
  successor : ∀ i j r r' a b k k', w'.rotations.lookup i = some r → w'.rotations.lookup j = some r' →
    r.key = r'.key → r.stage = .replaced a → r'.stage = .replaced b →
      w'.store.keys.lookup a = some k → w'.store.keys.lookup b = some k' →
        k.usable w'.clock → k'.usable w'.clock → a = b

end

/-- No overlap is asked for, a rotation of a usable key is finished, and a rotation of a key which
is not usable is not. -/
def KeyCondition (w : KeyWorld) : KeyCommand → Prop
  | .revokeOld i => ∀ r k, Revokes w i r → w.store.keys.lookup r.key = some k →
      k.usable w.clock → r.overlapSeconds = 0
  | .createReplacement i _ => ∀ r found since, w.rotations.lookup i = some r →
      r.stage = .revoked found since → found.any (·.usable since)
  | .fail i => ∀ r found since, w.rotations.lookup i = some r →
      r.stage = .revoked found since → ¬ found.any (·.usable since)
  | _ => True

/-! ## The invariant -/

/-- The rotation has revoked a usable key, and its replacement is on the way or there. -/
def Rotation.Engaged (r : Rotation) : Prop :=
  (∃ found since, r.stage = .revoked found since ∧ found.any (·.usable since)) ∨
    ∃ id, r.stage = .replaced id

/-- A key has one engaged rotation at most, and is revoked if it has one. -/
structure OneSuccessor (w : KeyWorld) : Prop where
  known : ∀ i r, w.rotations.lookup i = some r → r.key ∈ w.store.keys
  revoked : ∀ i r k, w.rotations.lookup i = some r → r.Engaged →
    w.store.keys.lookup r.key = some k → k.status = .revoked
  unique : ∀ i j r r', w.rotations.lookup i = some r → w.rotations.lookup j = some r' →
    r.Engaged → r'.Engaged → r.key = r'.key → i = j

theorem oneSuccessor_of_empty {w : KeyWorld} (h : w.rotations = ∅) : OneSuccessor w where
  known := by simp [h]
  revoked := by simp [h]
  unique := by simp [h]

section

variable {digest : String → List UInt8} {pepperVersion : ℕ} {w w' : KeyWorld} {c : KeyCommand}
  {i : ℕ} {r : Rotation}

theorem Moves.engaged {stage : RotationStage} (hc : KeyCondition w c)
    (hr : w.rotations.lookup i = some r) (h : KeyWorld.Moves w i r c stage)
    (hengaged : ({ r with stage } : Rotation).Engaged) :
    r.Engaged ∨ c = .revokeOld i ∧ Revokes w i r ∧
      ∃ k, w.store.keys.lookup r.key = some k ∧ k.usable w.clock := by
  cases h with
  | stays => exact Or.inl hengaged
  | revokes hreading =>
      right
      refine ⟨rfl, ⟨hr, hreading⟩, ?_⟩
      rcases hengaged with ⟨found, since, hstage, husable⟩ | ⟨id, hstage⟩
      · cases hstage
        exact (Option.any_eq_true _ _).mp husable
      · cases hstage
  | replaces hhalfway id =>
      left
      cases hstage : r.stage with
      | revoked found since => exact Or.inl ⟨found, since, hstage, hc r found since hr hstage⟩
      | reading | replaced | failed =>
          rw [hstage] at hhalfway
          cases hhalfway
  | fails =>
      rcases hengaged with ⟨found, since, hstage, -⟩ | ⟨id, hstage⟩
      · cases hstage
      · cases hstage

/-- An engaged rotation was engaged before, or has just revoked a usable key. -/
theorem engaged_before {r' : Rotation} (hc : KeyCondition w c)
    (h : KeyWorld.exec digest pepperVersion c w = .ok w') (hr' : w'.rotations.lookup i = some r')
    (hengaged : r'.Engaged) :
    ∃ r, w.rotations.lookup i = some r ∧ r'.key = r.key ∧
      (r.Engaged ∨ c = .revokeOld i ∧ Revokes w i r ∧
        ∃ k, w.store.keys.lookup r.key = some k ∧ k.usable w.clock) := by
  cases hr : w.rotations.lookup i with
  | none =>
      have hreading := (KeyWorld.exec_begins h hr hr').1
      rcases hengaged with ⟨found, since, hstage, -⟩ | ⟨id, hstage⟩
      · rw [hreading] at hstage
        cases hstage
      · rw [hreading] at hstage
        cases hstage
  | some r =>
      obtain ⟨stage, hstage, hmoves⟩ := KeyWorld.exec_moves h hr
      obtain rfl := Option.some.inj (hr'.symm.trans hstage)
      exact ⟨r, rfl, rfl, Moves.engaged hc hr hmoves hengaged⟩

theorem revoked_of_revokeOld {k : ApiKey} (hr : Revokes w i r)
    (h : KeyWorld.exec digest pepperVersion (.revokeOld i) w = .ok w')
    (hk : w'.store.keys.lookup r.key = some k) : k.status = .revoked := by
  rw [KeyWorld.exec_revokeOld hr.1 hr.2] at h
  cases h
  rw [KeyStore.lookup_updateKey, if_pos rfl] at hk
  obtain ⟨k₀, -, rfl⟩ := Option.map_eq_some_iff.mp hk
  rfl

theorem OneSuccessor.step (hw : OneSuccessor w) (hc : KeyCondition w c)
    (h : KeyWorld.exec digest pepperVersion c w = .ok w') : OneSuccessor w' := by
  obtain ⟨-, hkeeps⟩ := KeyWorld.exec_keeps h
  have hkeys : ∀ id ∈ w.store.keys, id ∈ w'.store.keys := by
    intro id hid
    obtain ⟨k, hk⟩ := AList.exists_lookup_of_mem hid
    obtain ⟨k', hk', -⟩ := hkeeps id k hk
    exact AList.mem_of_lookup hk'
  refine ⟨fun i r' hr' ↦ ?_, fun i r' k' hr' hengaged hk' ↦ ?_,
    fun i j r' s' hr' hs' hengaged hengaged' hkey ↦ ?_⟩
  · cases hr : w.rotations.lookup i with
    | none => exact hkeys _ (KeyWorld.exec_begins h hr hr').2
    | some r =>
        obtain ⟨stage, hstage, -⟩ := KeyWorld.exec_moves h hr
        obtain rfl := Option.some.inj (hr'.symm.trans hstage)
        exact hkeys _ (hw.known i r hr)
  · obtain ⟨r, hr, hkey, hbefore⟩ := engaged_before hc h hr' hengaged
    rw [hkey] at hk'
    rcases hbefore with hbefore | ⟨rfl, hrevokes, -⟩
    · obtain ⟨k, hk⟩ := AList.exists_lookup_of_mem (hw.known i r hr)
      obtain ⟨k'', hk'', hbecomes⟩ := hkeeps _ k hk
      obtain rfl := Option.some.inj (hk'.symm.trans hk'')
      rcases hbecomes.2 with hsame | hrevoked
      · exact hsame.trans (hw.revoked i r k hr hbefore hk)
      · exact hrevoked
    · exact revoked_of_revokeOld hrevokes h hk'
  · obtain ⟨r, hr, hkeyr, hbefore⟩ := engaged_before hc h hr' hengaged
    obtain ⟨s, hs, hkeys, hbefore'⟩ := engaged_before hc h hs' hengaged'
    have hsame : r.key = s.key := hkeyr ▸ hkeys ▸ hkey
    -- a key with an engaged rotation is not usable
    have hclash : ∀ {i r k}, w.rotations.lookup i = some r → r.Engaged →
        w.store.keys.lookup r.key = some k → ¬ k.usable w.clock := by
      intro i r k hr hengaged hk husable
      rw [ApiKey.usable_iff, hw.revoked i r k hr hengaged hk] at husable
      cases husable.1
    rcases hbefore with hbefore | ⟨rfl, -, k, hk, husable⟩
    · rcases hbefore' with hbefore' | ⟨-, -, k, hk, husable⟩
      · exact hw.unique i j r s hr hs hbefore hbefore' hsame
      · exact absurd husable (hclash hr hbefore (hsame ▸ hk))
    · rcases hbefore' with hbefore' | ⟨heq, -, -⟩
      · exact absurd husable (hclash hs hbefore' (hsame ▸ hk))
      · cases heq
        rfl

/-! ## From one command on -/

/-- The rotation has revoked its key, and it goes on only if that was usable. -/
def Settled (i : ℕ) (found : Option ApiKey) (since : Timestamp) (w : KeyWorld) : Prop :=
  ∃ r, w.rotations.lookup i = some r ∧ (r.stage = .revoked found since ∨
    (r.stage = .failed ∧ ¬ found.any (·.usable since)) ∨
      ∃ id, r.stage = .replaced id ∧ found.any (·.usable since))

theorem Settled.step {found : Option ApiKey} {since : Timestamp} (hw : Settled i found since w)
    (hc : KeyCondition w c) (h : KeyWorld.exec digest pepperVersion c w = .ok w') :
    Settled i found since w' := by
  obtain ⟨r, hr, hsettled⟩ := hw
  obtain ⟨stage, hstage, hmoves⟩ := KeyWorld.exec_moves h hr
  refine ⟨_, hstage, ?_⟩
  cases hmoves with
  | stays => exact hsettled
  | revokes hreading =>
      rw [hreading] at hsettled
      rcases hsettled with hrevoked | ⟨hfailed, -⟩ | ⟨id, hreplaced, -⟩
      · cases hrevoked
      · cases hfailed
      · cases hreplaced
  | replaces hhalfway id =>
      rcases hsettled with hrevoked | ⟨hfailed, -⟩ | ⟨id, hreplaced, -⟩
      · exact Or.inr (Or.inr ⟨_, rfl, hc r found since hr hrevoked⟩)
      · rw [hfailed] at hhalfway
        cases hhalfway
      · rw [hreplaced] at hhalfway
        cases hhalfway
  | fails hready =>
      rcases hsettled with hrevoked | ⟨hfailed, hunusable⟩ | ⟨id, hreplaced, -⟩
      · exact Or.inr (Or.inl ⟨rfl, hc r found since hr hrevoked⟩)
      · exact Or.inr (Or.inl ⟨rfl, hunusable⟩)
      · rw [hreplaced] at hready
        rcases hready with hreading | hhalfway
        · cases hreading
        · cases hhalfway

theorem run_keeps (w : KeyWorld) (cs : List KeyCommand) :
    w.clock ≤ (run (KeyWorld.exec digest pepperVersion) w cs).clock ∧
      KeepsKeys w.store (run (KeyWorld.exec digest pepperVersion) w cs).store := by
  refine run_preserves (I := fun w' : KeyWorld ↦ w.clock ≤ w'.clock ∧ KeepsKeys w.store w'.store) ?_
    ⟨le_rfl, fun id k hk ↦ ⟨k, hk, .refl k⟩⟩ cs
  intro s c s' hs h
  obtain ⟨hclock, hkeeps⟩ := KeyWorld.exec_keeps h
  exact ⟨hs.1.trans hclock, hs.2.trans hkeeps⟩

/-- A key which is not usable does not become usable. -/
theorem not_usable_run {id : Uuid} {k k' : ApiKey} {cs : List KeyCommand} {t t' : Timestamp}
    (hk : w.store.keys.lookup id = some k) (hunusable : ¬ k.usable t) (ht : t ≤ t')
    (hk' : (run (KeyWorld.exec digest pepperVersion) w cs).store.keys.lookup id = some k') :
    ¬ k'.usable t' := by
  obtain ⟨k'', hk'', hbecomes⟩ := (run_keeps w cs).2 id k hk
  obtain rfl := Option.some.inj (hk'.symm.trans hk'')
  exact fun husable ↦ hunusable (hbecomes.usable ht husable)

variable {later : List KeyCommand}

theorem settled_after (hr : Revokes w i r)
    (hmeets : Meets (KeyWorld.exec digest pepperVersion) KeyCondition w (.revokeOld i :: later)) :
    Settled i (w.store.keys.lookup r.key) w.clock
      (run (KeyWorld.exec digest pepperVersion) w (.revokeOld i :: later)) := by
  rw [run_cons]
  refine run_invariant (I := Settled i (w.store.keys.lookup r.key) w.clock)
    (fun s c s' hs hc h ↦ Settled.step hs hc h) ?_ hmeets.2
  rw [advance_of_ok (KeyWorld.exec_revokeOld hr.1 hr.2)]
  refine ⟨{ r with stage := .revoked (w.store.keys.lookup r.key) w.clock }, ?_, Or.inl rfl⟩
  change (w.advanced i _).rotations.lookup i = some _
  rw [KeyWorld.lookup_advanced, if_pos rfl, hr.1]
  rfl

/-- The key is revoked for good once its rotation has written it. -/
theorem not_usable_after {k : ApiKey} {t : Timestamp} (hw : OneSuccessor w) (hr : Revokes w i r)
    (hk : (run (KeyWorld.exec digest pepperVersion) w (.revokeOld i :: later)).store.keys.lookup
      r.key = some k) : ¬ k.usable t := by
  have hexec : KeyWorld.exec digest pepperVersion (.revokeOld i) w = .ok _ :=
    KeyWorld.exec_revokeOld hr.1 hr.2
  rw [run_cons] at hk
  obtain ⟨k₀, hk₀⟩ := AList.exists_lookup_of_mem (hw.known i r hr.1)
  obtain ⟨k₁, hk₁, -⟩ := (KeyWorld.exec_keeps hexec).2 r.key k₀ hk₀
  have hrevoked := revoked_of_revokeOld hr hexec hk₁
  rw [← advance_of_ok hexec] at hk₁
  obtain ⟨k₂, hk₂, hbecomes⟩ := (run_keeps _ later).2 r.key k₁ hk₁
  obtain rfl := Option.some.inj (hk.symm.trans hk₂)
  intro husable
  have hactive := (ApiKey.usable_iff.mp husable).1
  rcases hbecomes.2 with hsame | hrevoked'
  · rw [hsame, hrevoked] at hactive
    cases hactive
  · rw [hrevoked'] at hactive
    cases hactive

/-- The laws hold of a command and what comes after it, as long as the condition does. -/
theorem keyLaws_of_meets (hw : OneSuccessor w)
    (hmeets : Meets (KeyWorld.exec digest pepperVersion) KeyCondition w (c :: later)) :
    KeyLaws digest pepperVersion w c later
      (run (KeyWorld.exec digest pepperVersion) w (c :: later)) := by
  have hclock : w.clock ≤ (run (KeyWorld.exec digest pepperVersion) w (c :: later)).clock :=
    (run_keeps w (c :: later)).1
  have hone : OneSuccessor (run (KeyWorld.exec digest pepperVersion) w (c :: later)) :=
    run_invariant (fun s c s' hs hc h ↦ hs.step hc h) hw hmeets
  refine ⟨?_, ?_, ?_, ?_, ?_, ?_⟩
  · rintro i r credential rfl hr - hopen - hauth
    obtain ⟨k, hk, husable⟩ := hauth.usable
    rw [hmeets.1 r k hr hk husable] at hopen
    have hzero : seconds ((0 : ℕ) : ℤ) = 0 := by simp [seconds]
    rw [hzero, add_zero] at hopen
    exact absurd hopen (not_lt.mpr hclock)
  · rintro i r credential rfl hr - hauth
    obtain ⟨k, hk, husable⟩ := hauth.usable
    exact not_usable_after hw hr hk husable
  · rintro id k credential hk hunusable hauth
    obtain ⟨k', hk', husable⟩ := hauth.usable
    exact not_usable_run hk hunusable hclock hk' husable
  · rintro i r r' id rfl hr hunusable hr' hreplaced
    obtain ⟨r'', hr'', hsettled⟩ := settled_after hr hmeets
    obtain rfl := Option.some.inj (hr'.symm.trans hr'')
    rw [hreplaced] at hsettled
    rcases hsettled with hrevoked | ⟨hfailed, -⟩ | ⟨-, -, husable⟩
    · cases hrevoked
    · cases hfailed
    · obtain ⟨k, hk, husable⟩ := (Option.any_eq_true _ _).mp husable
      exact hunusable k hk husable
  · rintro i r r' credential t rfl hr - hr' hfailed ht
    obtain ⟨r'', hr'', hsettled⟩ := settled_after hr hmeets
    obtain rfl := Option.some.inj (hr'.symm.trans hr'')
    rw [hfailed] at hsettled
    have hunusable : ¬ (w.store.keys.lookup r.key).any (·.usable w.clock) := by
      rcases hsettled with hrevoked | ⟨-, hunusable⟩ | hreplaced
      · cases hrevoked
      · exact hunusable
      · obtain ⟨id, hreplaced, -⟩ := hreplaced
        cases hreplaced
    constructor
    · intro hauth
      obtain ⟨k, hk, husable⟩ := hauth.usable
      refine absurd ?_ hunusable
      rw [hk]
      exact (ApiKey.Becomes.refl k).usable ht husable
    · intro hauth
      obtain ⟨k, hk, husable⟩ := hauth.usable
      exact absurd husable (not_usable_after hw hr hk)
  · rintro i j r r' a b k k' hr hr' hkey ha hb - - - -
    have hij := hone.unique i j r r' hr hr' (Or.inr ⟨a, ha⟩) (Or.inr ⟨b, hb⟩) hkey
    subst hij
    obtain rfl := Option.some.inj (hr.symm.trans hr')
    rw [ha] at hb
    cases hb
    rfl

end

/-! ## Every run -/

/-- In every run whose commands meet the condition, each command and what follows it obey the
laws. -/
theorem keys_lawful {digest : String → List UInt8} {pepperVersion : ℕ} {w : KeyWorld}
    {cs : List KeyCommand} {c : KeyCommand} (hw : w.rotations = ∅)
    (hmeets : Meets (KeyWorld.exec digest pepperVersion) KeyCondition w cs)
    (pre later post : List KeyCommand) (hsplit : cs = pre ++ c :: (later ++ post)) :
    KeyLaws digest pepperVersion (run (KeyWorld.exec digest pepperVersion) w pre) c later
      (run (KeyWorld.exec digest pepperVersion) w (pre ++ c :: later)) := by
  rw [hsplit, meets_append] at hmeets
  obtain ⟨hpre, hrest⟩ := hmeets
  have hreached : OneSuccessor (run (KeyWorld.exec digest pepperVersion) w pre) :=
    run_invariant (fun s c s' hs hc h ↦ hs.step hc h) (oneSuccessor_of_empty hw) hpre
  rw [← List.cons_append, meets_append] at hrest
  rw [run_append]
  exact keyLaws_of_meets hreached hrest.1

namespace KeySample

def digest (secret : String) : List UInt8 :=
  secret.toList.map fun c ↦ UInt8.ofNat c.toNat

def key : ApiKey where
  applicationId := 1
  keyId := "sk_a"
  secretDigest := digest "b"
  pepperVersion := 1
  scopes := []
  directoryPrefix := none
  status := .active
  expiresAt := days 90
  lastUsedAt := none
  revokedAt := none

/-- An application with one key. -/
def world : KeyWorld where
  clock := 0
  store :=
    { directory :=
        { tenantActive := true, permissions := [],
          principals := (∅ : Table Uuid Directory.Principal).insert 2 ⟨.application, true⟩,
          users := ∅, memberships := ∅, groups := ∅, groupMembers := ∅, roles := ∅,
          roleBindings := ∅,
          applications := (∅ : Table Uuid Directory.Application).insert 1 ⟨2, .active, 1⟩,
          owners := ∅, representatives := ∅, sessions := ∅, platformBindings := ∅ }
      keys := (∅ : Table Uuid ApiKey).insert 7 key }
  rotations := ∅

def rotate (overlapSeconds : ℕ) : KeyCommand :=
  .rotate 0 7 overlapSeconds ⟨"sk_c", "d"⟩

end KeySample

/-- A rotation without an overlap replaces the key for good. -/
theorem keys_lawful_sample :
    KeyLaws KeySample.digest 1
      (run (KeyWorld.exec KeySample.digest 1) KeySample.world [KeySample.rotate 0]) (.revokeOld 0)
      [.createReplacement 0 8]
      (run (KeyWorld.exec KeySample.digest 1) KeySample.world
        [KeySample.rotate 0, .revokeOld 0, .createReplacement 0 8]) := by
  have hmeets : Meets (KeyWorld.exec KeySample.digest 1) KeyCondition KeySample.world
      [KeySample.rotate 0, .revokeOld 0, .createReplacement 0 8] := by
    refine ⟨trivial, ?_, ?_, trivial⟩
    · rintro r k ⟨hr, -⟩ - -
      cases hr
      rfl
    · rintro r found since hr hstage
      cases hr
      cases hstage
      rfl
  exact keys_lawful rfl hmeets [KeySample.rotate 0] [.createReplacement 0 8] [] rfl

/-- With an overlap of five minutes the old key is refused at once. -/
theorem overlap_refused : ¬ KeyLaws KeySample.digest 1
    (run (KeyWorld.exec KeySample.digest 1) KeySample.world [KeySample.rotate 300]) (.revokeOld 0) []
    (run (KeyWorld.exec KeySample.digest 1) KeySample.world
      [KeySample.rotate 300, .revokeOld 0]) := by
  intro h
  have hbefore : (run (KeyWorld.exec KeySample.digest 1) KeySample.world
      [KeySample.rotate 300]).Authenticates KeySample.digest "S3MP-Key sk_a.b" 7 := ⟨_, rfl⟩
  have hexpiry : ∀ k, (run (KeyWorld.exec KeySample.digest 1) KeySample.world
      [KeySample.rotate 300]).store.keys.lookup 7 = some k → 0 < k.expiresAt := by
    rintro k hk
    cases hk
    decide
  have hafter := h.overlap 0 _ "S3MP-Key sk_a.b" rfl ⟨rfl, rfl⟩ trivial (by decide) hexpiry hbefore
  obtain ⟨k, hk, husable⟩ := hafter.usable
  cases hk
  exact absurd husable (by decide)

end S3mp.Applications
