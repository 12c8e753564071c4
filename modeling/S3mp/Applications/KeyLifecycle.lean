import S3mp.Applications.ApiKeys
import S3mp.Transition.Run

/-!
# The life of an API key

Keys are issued, revoked and rotated while time passes.  A rotation reads the key,
revokes it and creates the replacement, each in a transaction of its own, so that
anything may happen in between.  A call which has returned or failed stays on
record.
-/

namespace S3mp.Applications

open Relational Storage Transition

/-! ## The world -/

/-- How far a rotation has come, with the key as its update has found it, and when. -/
inductive RotationStage where
  | reading
  | revoked (found : Option ApiKey) (since : Timestamp)
  | replaced (id : Uuid)
  | failed
  deriving DecidableEq, Repr

/-- The old key has been revoked, the replacement has not been created. -/
def RotationStage.halfway : RotationStage → Bool
  | .revoked .. => true
  | _ => false

/-- A call of `rotate`; the key as `get_key` returned it, and the expiry of the replacement. -/
structure Rotation where
  key : Uuid
  overlapSeconds : ℕ
  existing : ApiKey
  issued : IssuedApiKey
  expiresAt : Timestamp
  stage : RotationStage
  deriving DecidableEq, Repr

structure KeyWorld where
  clock : Timestamp
  store : KeyStore
  rotations : Table ℕ Rotation

/-- The service has checked the caller before each of the commands. -/
inductive KeyCommand where
  | wait (duration : ℕ)
  | issue (id applicationId : Uuid) (issued : IssuedApiKey) (scopes : List String) (ttlDays : ℤ)
      (directoryPrefix : Option String)
  | revoke (key : Uuid)
  | rotate (call : ℕ) (key : Uuid) (overlapSeconds : ℕ) (issued : IssuedApiKey)
  | revokeOld (call : ℕ)
  | createReplacement (call : ℕ) (id : Uuid)
  | fail (call : ℕ)
  deriving DecidableEq, Repr

def days (n : ℤ) : Timestamp := seconds (86400 * n)

def keyNotFound {α : Type} : Tx α :=
  raise "resource_not_found" "API key not found" 404

/-- `issue` takes a directory which is canonical. -/
def checkDirectory (directoryPrefix : Option String) : Tx Unit :=
  if directoryPrefix.any fun directory ↦ (canonicalObjectKey directory false).isNone then
    raise "validation_failed" "API key directory is not canonical" 422
  else .ok ()

section

variable (digest : String → List UInt8) (pepperVersion : ℕ)

def Rotation.replacement (r : Rotation) : KeyData where
  applicationId := r.existing.applicationId
  keyId := r.issued.keyId
  secretDigest := digest r.issued.secret
  pepperVersion := pepperVersion
  scopes := r.existing.scopes
  expiresAt := r.expiresAt
  directoryPrefix := r.existing.directoryPrefix

namespace KeyWorld

def advanced (call : ℕ) (stage : RotationStage) (w : KeyWorld) : KeyWorld :=
  { w with rotations := w.rotations.update call fun r ↦ { r with stage } }

/-- The call is not at this point. -/
def noCall {α : Type} : Tx α :=
  .error (.value "call")

def exec : KeyCommand → KeyWorld → Tx KeyWorld
  | .wait duration, w => .ok { w with clock := w.clock + duration }
  | .issue id applicationId issued scopes ttlDays directoryPrefix, w => do
    checkDirectory directoryPrefix
    let (_, store) ← w.store.createKey id ⟨applicationId, issued.keyId, digest issued.secret,
      pepperVersion, scopes, w.clock + days ttlDays, directoryPrefix⟩
    return { w with store }
  | .revoke key, w =>
    match w.store.getKey key with
    | none => keyNotFound
    | some _ => .ok { w with store := (w.store.updateKey key .revoked (some w.clock) none).2 }
  | .rotate call key overlapSeconds issued, w =>
    match w.store.getKey key with
    | none => keyNotFound
    | some existing =>
      if call ∈ w.rotations then noCall
      else
        let r := ⟨key, overlapSeconds, existing, issued, w.clock + days 90, .reading⟩
        .ok { w with rotations := w.rotations.insert call r }
  | .revokeOld call, w =>
    match w.rotations.lookup call with
    | none => noCall
    | some r =>
      if r.stage ≠ .reading then noCall
      else .ok { w.advanced call (.revoked (w.store.keys.lookup r.key) w.clock) with
        store := (w.store.updateKey r.key .revoked (some (w.clock + seconds r.overlapSeconds))
          none).2 }
  | .createReplacement call id, w =>
    match w.rotations.lookup call with
    | none => noCall
    | some r =>
      if !r.stage.halfway then noCall
      else do
        let (_, store) ← w.store.createKey id (r.replacement digest pepperVersion)
        return { w.advanced call (.replaced id) with store }
  | .fail call, w =>
    match w.rotations.lookup call with
    | none => noCall
    | some r =>
      if r.stage = .reading ∨ r.stage.halfway then .ok (w.advanced call .failed) else noCall

end KeyWorld

end

/-! ## What one command does -/

/-- What becomes of a key: it stays as it is, or it has been revoked. -/
def ApiKey.Becomes (k k' : ApiKey) : Prop :=
  k'.expiresAt = k.expiresAt ∧ (k'.status = k.status ∨ k'.status = .revoked)

theorem ApiKey.Becomes.refl (k : ApiKey) : k.Becomes k :=
  ⟨rfl, Or.inl rfl⟩

theorem ApiKey.Becomes.trans {k k' k'' : ApiKey} (h : k.Becomes k') (h' : k'.Becomes k'') :
    k.Becomes k'' := by
  refine ⟨h'.1.trans h.1, ?_⟩
  rcases h'.2 with hsame | hrevoked
  · rw [hsame]
    exact h.2
  · exact Or.inr hrevoked

theorem ApiKey.usable_iff {k : ApiKey} {now : Timestamp} :
    k.usable now ↔ k.status = .active ∧ now < k.expiresAt := by
  simp [ApiKey.usable, keyIsUsable]

/-- A key which can be used has been usable ever since. -/
theorem ApiKey.Becomes.usable {k k' : ApiKey} {t t' : Timestamp} (h : k.Becomes k') (ht : t ≤ t')
    (hk : k'.usable t') : k.usable t := by
  obtain ⟨hactive, hexpires⟩ := ApiKey.usable_iff.mp hk
  rw [h.1] at hexpires
  refine ApiKey.usable_iff.mpr ⟨?_, lt_of_le_of_lt ht hexpires⟩
  rcases h.2 with hsame | hrevoked
  · rw [← hsame, hactive]
  · rw [hrevoked] at hactive
    cases hactive

namespace KeyStore

variable {s s' : KeyStore} {id : Uuid} {k : ApiKey}

theorem createKey_eq_ok {data : KeyData} {out : ApiKey × KeyStore}
    (h : s.createKey id data = .ok out) :
    id ∉ s.keys ∧ out.2.keys = s.keys.insert id data.row := by
  unfold createKey at h
  split at h
  · exact absurd h (integrityError_ne_ok _ _)
  split at h
  · exact absurd h (integrityError_ne_ok _ _)
  obtain ⟨keys, hkeys, h⟩ := Except.bind_eq_ok.mp h
  obtain ⟨hid, rfl⟩ := insertRow_eq_ok.mp hkeys
  cases Except.pure_eq_ok.mp h
  exact ⟨hid, rfl⟩

theorem lookup_updateKey {status : ApiKeyStatus} {revokedAt lastUsedAt : Option Timestamp}
    (j : Uuid) :
    (s.updateKey id status revokedAt lastUsedAt).2.keys.lookup j =
      if j = id then (s.keys.lookup id).map (ApiKey.updated status revokedAt lastUsedAt)
      else s.keys.lookup j := by
  unfold updateKey
  split
  · rename_i hnone
    split
    · rename_i hj
      rw [hj, hnone]
      rfl
    · rfl
  · exact AList.lookup_update _ _ _ _

end KeyStore

/-- Every key is still there. -/
def KeepsKeys (s s' : KeyStore) : Prop :=
  ∀ id k, s.keys.lookup id = some k → ∃ k', s'.keys.lookup id = some k' ∧ k.Becomes k'

theorem KeepsKeys.trans {s s' s'' : KeyStore} (h : KeepsKeys s s') (h' : KeepsKeys s' s'') :
    KeepsKeys s s'' := by
  intro id k hk
  obtain ⟨k', hk', hbecomes⟩ := h id k hk
  obtain ⟨k'', hk'', hbecomes'⟩ := h' id k' hk'
  exact ⟨k'', hk'', hbecomes.trans hbecomes'⟩

theorem keepsKeys_create {s s' : KeyStore} {id : Uuid} {row : ApiKey} (hid : id ∉ s.keys)
    (hkeys : s'.keys = s.keys.insert id row) : KeepsKeys s s' := by
  intro j k hk
  refine ⟨k, ?_, .refl k⟩
  rw [hkeys, AList.lookup_insert_ne]
  · exact hk
  · rintro rfl
    exact hid (AList.mem_of_lookup hk)

theorem keepsKeys_revoke {s : KeyStore} {id : Uuid} {revokedAt lastUsedAt : Option Timestamp} :
    KeepsKeys s (s.updateKey id .revoked revokedAt lastUsedAt).2 := by
  intro j k hk
  rw [KeyStore.lookup_updateKey]
  split
  · rename_i hj
    subst hj
    rw [hk]
    exact ⟨_, rfl, rfl, Or.inr rfl⟩
  · exact ⟨k, hk, .refl k⟩

namespace KeyWorld

variable {digest : String → List UInt8} {pepperVersion : ℕ} {w w' : KeyWorld} {c : KeyCommand}

/-- What a command can do to the rotation `r` under way as `i`. -/
inductive Moves (w : KeyWorld) (i : ℕ) (r : Rotation) : KeyCommand → RotationStage → Prop
  | stays (c : KeyCommand) : Moves w i r c r.stage
  | revokes (h : r.stage = .reading) :
      Moves w i r (.revokeOld i) (.revoked (w.store.keys.lookup r.key) w.clock)
  | replaces (h : r.stage.halfway) (id : Uuid) : Moves w i r (.createReplacement i id) (.replaced id)
  | fails (h : r.stage = .reading ∨ r.stage.halfway) : Moves w i r (.fail i) .failed

theorem lookup_advanced (i j : ℕ) (stage : RotationStage) :
    (w.advanced j stage).rotations.lookup i =
      if i = j then (w.rotations.lookup j).map (fun r ↦ { r with stage })
      else w.rotations.lookup i :=
  AList.lookup_update _ _ _ _

/-- What a command leaves: the rotations as they are, one more, or one at its next stage. -/
inductive Effect (w : KeyWorld) : KeyCommand → KeyWorld → Prop
  | keys {c : KeyCommand} {w' : KeyWorld} (clock : w.clock ≤ w'.clock)
      (keeps : KeepsKeys w.store w'.store) (rotations : w'.rotations = w.rotations) : Effect w c w'
  | begins {c : KeyCommand} {i : ℕ} {r : Rotation} (new : i ∉ w.rotations)
      (reading : r.stage = .reading) (known : r.key ∈ w.store.keys) :
      Effect w c { w with rotations := w.rotations.insert i r }
  | advances {c : KeyCommand} {i : ℕ} {r : Rotation} {stage : RotationStage} {store : KeyStore}
      (found : w.rotations.lookup i = some r) (moves : Moves w i r c stage) (keeps : KeepsKeys w.store store) :
      Effect w c { w.advanced i stage with store }

theorem exec_effect (h : exec digest pepperVersion c w = .ok w') : Effect w c w' := by
  have hsame : KeepsKeys w.store w.store := fun id k hk ↦ ⟨k, hk, .refl k⟩
  cases c with
  | wait duration =>
      cases h
      exact .keys (Int.le_add_of_nonneg_right (Int.natCast_nonneg duration)) hsame rfl
  | issue id applicationId issued scopes ttlDays directoryPrefix =>
      obtain ⟨⟨⟩, -, h⟩ := Except.bind_eq_ok.mp h
      obtain ⟨⟨k, store⟩, hcreate, h⟩ := Except.bind_eq_ok.mp h
      cases Except.pure_eq_ok.mp h
      obtain ⟨hid, hkeys⟩ := KeyStore.createKey_eq_ok hcreate
      exact .keys le_rfl (keepsKeys_create hid hkeys) rfl
  | revoke key =>
      rw [exec] at h
      split at h
      · exact absurd h (raise_ne_ok _ _ _ _)
      cases h
      exact .keys le_rfl keepsKeys_revoke rfl
  | rotate call key overlapSeconds issued =>
      rw [exec] at h
      split at h
      · exact absurd h (raise_ne_ok _ _ _ _)
      rename_i existing hexisting
      split at h
      · cases h
      rename_i hcall
      cases h
      exact .begins hcall rfl (AList.mem_of_lookup (Option.filter_eq_some_iff.mp hexisting).1)
  | revokeOld call =>
      rw [exec] at h
      split at h
      · cases h
      rename_i r hr
      split at h
      · cases h
      rename_i hreading
      cases h
      exact .advances hr (.revokes (not_not.mp hreading)) keepsKeys_revoke
  | createReplacement call id =>
      rw [exec] at h
      split at h
      · cases h
      rename_i r hr
      split at h
      · cases h
      rename_i hhalfway
      obtain ⟨⟨k, store⟩, hcreate, h⟩ := Except.bind_eq_ok.mp h
      cases Except.pure_eq_ok.mp h
      obtain ⟨hid, hkeys⟩ := KeyStore.createKey_eq_ok hcreate
      exact .advances hr (.replaces (by simpa using hhalfway) id) (keepsKeys_create hid hkeys)
  | fail call =>
      rw [exec] at h
      split at h
      · cases h
      rename_i r hr
      split at h
      · rename_i hstage
        cases h
        exact .advances hr (.fails hstage) hsame
      · cases h

/-- A rotation stays on record, and only its stage changes. -/
theorem exec_moves (h : exec digest pepperVersion c w = .ok w') {i : ℕ} {r : Rotation}
    (hr : w.rotations.lookup i = some r) :
    ∃ stage, w'.rotations.lookup i = some { r with stage } ∧ Moves w i r c stage := by
  cases exec_effect h with
  | keys _ _ rotations => exact ⟨r.stage, by rw [rotations]; exact hr, .stays c⟩
  | begins new =>
      refine ⟨r.stage, ?_, .stays c⟩
      rw [AList.lookup_insert_ne]
      · exact hr
      · rintro rfl
        exact new (AList.mem_of_lookup hr)
  | @advances j s stage store found moves =>
      change ∃ stage', (w.advanced j stage).rotations.lookup i = _ ∧ _
      rw [lookup_advanced]
      by_cases hij : i = j
      · subst hij
        obtain rfl := Option.some.inj (hr.symm.trans found)
        rw [if_pos rfl, hr]
        exact ⟨stage, rfl, moves⟩
      · rw [if_neg hij]
        exact ⟨r.stage, hr, .stays c⟩

/-- A rotation which was not on record has just begun. -/
theorem exec_begins (h : exec digest pepperVersion c w = .ok w') {i : ℕ} {r : Rotation}
    (hnone : w.rotations.lookup i = none) (hr : w'.rotations.lookup i = some r) :
    r.stage = .reading ∧ r.key ∈ w.store.keys := by
  have habsurd : w.rotations.lookup i ≠ some r := by simp [hnone]
  cases exec_effect h with
  | keys _ _ rotations =>
      rw [rotations] at hr
      exact absurd hr habsurd
  | begins _ reading known =>
      rw [AList.lookup_insert'] at hr
      split at hr
      · cases hr
        exact ⟨reading, known⟩
      · exact absurd hr habsurd
  | @advances j s stage store found =>
      change (w.advanced j stage).rotations.lookup i = some r at hr
      rw [lookup_advanced] at hr
      split at hr
      · rename_i hij
        rw [hij, found] at hnone
        cases hnone
      · exact absurd hr habsurd

/-- Time goes on, and every key stays or is revoked. -/
theorem exec_keeps (h : exec digest pepperVersion c w = .ok w') :
    w.clock ≤ w'.clock ∧ KeepsKeys w.store w'.store := by
  cases exec_effect h with
  | keys clock keeps => exact ⟨clock, keeps⟩
  | begins => exact ⟨le_rfl, fun id k hk ↦ ⟨k, hk, .refl k⟩⟩
  | advances _ _ keeps => exact ⟨le_rfl, keeps⟩

/-- The first write of a rotation which has read its key. -/
theorem exec_revokeOld {i : ℕ} {r : Rotation} (hr : w.rotations.lookup i = some r)
    (hreading : r.stage = .reading) :
    exec digest pepperVersion (.revokeOld i) w =
      .ok { w.advanced i (.revoked (w.store.keys.lookup r.key) w.clock) with
        store := (w.store.updateKey r.key .revoked (some (w.clock + seconds r.overlapSeconds))
          none).2 } := by
  rw [exec, hr]
  exact if_neg (not_not.mpr hreading)

end KeyWorld

end S3mp.Applications
