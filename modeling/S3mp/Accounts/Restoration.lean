import S3mp.Accounts.Identities

/-!
# Restoring a deleted account

Deleted accounts hold neither their address nor their number, so by the time one is
restored another account may have taken either.  The conflict which is looked for
first is not quite that one.
-/

namespace S3mp.Registry

open Relational

/-- Another account which is not deleted has the address of this one, or its number if it has
one. -/
def IdentityTaken (userId : Uuid) (u : User) (r : Registry) : Prop :=
  ∃ k v, k ≠ userId ∧ r.users.lookup k = some v ∧ v.status ≠ .deleted ∧
    (v.normalizedEmail = u.normalizedEmail ∨
      ∃ n, u.normalizedEmployeeNumber = some n ∧ v.normalizedEmployeeNumber = some n)

/-- The two partial unique indexes. -/
def IdentitiesUnique (r : Registry) : Prop :=
  ∀ k u k' u', r.users.lookup k = some u → r.users.lookup k' = some u' →
    u.status ≠ .deleted → u'.status ≠ .deleted → k ≠ k' → Apart u u'

/-- The transaction, which leaves the accounts as they are when it raises. -/
def afterRestore (userId : Uuid) (r : Registry) : Registry :=
  match r.restorePlatformAccount userId with
  | .ok (_, r') => r'
  | .error _ => r

def Restored (userId : Uuid) (r : Registry) : Prop :=
  ∃ r', r.restorePlatformAccount userId = .ok (true, r')

/-- A restoration is refused exactly when the identity is taken, a refused one changes nothing,
and one which goes through keeps identities unique. -/
structure RefusedOnConflict (userId : Uuid) (u : User) (r : Registry) : Prop where
  exact : Restored userId r ↔ ¬ IdentityTaken userId u r
  refused : ¬ Restored userId r → afterRestore userId r = r
  unique : Restored userId r → IdentitiesUnique r → IdentitiesUnique (afterRestore userId r)

variable {userId : Uuid} {u : User} {r : Registry}

theorem restore_cases (hu : r.users.lookup userId = some u) (hstatus : u.status = .deleted) :
    (r.restoreConflict userId u = true ∧ ¬ Restored userId r ∧ afterRestore userId r = r) ∨
      r.restoreConflict userId u = false ∧ Restored userId r ∧ afterRestore userId r =
        { r with users := r.users.update userId fun u ↦ { u with status := .active } } := by
  have hrestore : r.restorePlatformAccount userId = if r.restoreConflict userId u then
      .error (.value "account identity is already used by an active account")
      else .ok (true, { r with
        users := r.users.update userId fun u ↦ { u with status := .active } }) := by
    unfold restorePlatformAccount
    rw [hu]
    exact if_neg (not_not.mpr hstatus)
  cases hconflict : r.restoreConflict userId u with
  | true =>
      rw [hconflict, if_pos rfl] at hrestore
      refine Or.inl ⟨rfl, ?_, ?_⟩
      · rintro ⟨r', h⟩
        rw [hrestore] at h
        cases h
      · rw [afterRestore, hrestore]
  | false =>
      rw [hconflict, if_neg Bool.false_ne_true] at hrestore
      refine Or.inr ⟨rfl, ⟨_, hrestore⟩, ?_⟩
      rw [afterRestore, hrestore]

theorem restored_iff (hu : r.users.lookup userId = some u) (hstatus : u.status = .deleted) :
    Restored userId r ↔ r.restoreConflict userId u = false := by
  rcases restore_cases hu hstatus with ⟨hconflict, hnot, -⟩ | ⟨hconflict, hrestored, -⟩
  · exact iff_of_false hnot (by rw [hconflict]; decide)
  · exact iff_of_true hrestored hconflict

/-- What is looked for: a taken identity, or for an account without a number any other account. -/
theorem restoreConflict_iff : r.restoreConflict userId u = true ↔ IdentityTaken userId u r ∨
    u.normalizedEmployeeNumber = none ∧
      ∃ k v, k ≠ userId ∧ r.users.lookup k = some v ∧ v.status ≠ .deleted := by
  unfold restoreConflict IdentityTaken
  rw [AList.anyRow_eq_true]
  cases hnumber : u.normalizedEmployeeNumber with
  | none =>
      simp only [Option.all_none, Bool.or_true, Bool.and_true, Bool.and_eq_true,
        decide_eq_true_eq, reduceCtorEq, false_and, exists_false, or_false, true_and]
      constructor
      · rintro ⟨k, v, hk, hne, hv⟩
        exact Or.inr ⟨k, v, hne, hk, hv⟩
      · rintro (⟨k, v, hne, hk, hv, -⟩ | ⟨k, v, hne, hk, hv⟩)
        · exact ⟨k, v, hk, hne, hv⟩
        · exact ⟨k, v, hk, hne, hv⟩
  | some n =>
      simp only [Option.all_some, Bool.and_eq_true, Bool.or_eq_true, decide_eq_true_eq,
        Option.some.injEq, exists_eq_left', reduceCtorEq, false_and, or_false]
      constructor
      · rintro ⟨k, v, hk, ⟨hne, hv⟩, hsame⟩
        exact ⟨k, v, hne, hk, hv, hsame⟩
      · rintro ⟨k, v, hne, hk, hv, hsame⟩
        exact ⟨k, v, hk, ⟨hne, hv⟩, hsame⟩

theorem identitiesUnique_restored (hu : r.users.lookup userId = some u)
    (hconflict : r.restoreConflict userId u = false) (h : IdentitiesUnique r) :
    IdentitiesUnique
      { r with users := r.users.update userId fun u ↦ { u with status := .active } } := by
  have hself : ∀ {v : User}, (r.users.update userId fun u ↦ { u with status := .active }).lookup
      userId = some v → v = { u with status := .active } := by
    intro v hv
    rw [AList.lookup_update_self, hu, Option.map_some] at hv
    exact (Option.some.inj hv).symm
  have hother : ∀ {k : Uuid} {v : User}, k ≠ userId →
      (r.users.update userId fun u ↦ { u with status := .active }).lookup k = some v →
      r.users.lookup k = some v := by
    intro k v hne hv
    rwa [AList.lookup_update_of_ne hne] at hv
  intro k v k' v' hk hk' hv hv' hne
  by_cases hkself : k = userId
  · subst hkself
    obtain rfl := hself hk
    exact apart_of_restoreConflict hconflict (hother hne.symm hk') hne.symm hv'
  · by_cases hkself' : k' = userId
    · subst hkself'
      obtain rfl := hself hk'
      have hapart := apart_of_restoreConflict hconflict (hother hkself hk) hkself hv
      exact ⟨hapart.1.symm, fun n hn hn' ↦ hapart.2 n hn' hn⟩
    · exact h k v k' v' (hother hkself hk) (hother hkself' hk') hv hv' hne

theorem refusedOnConflict_iff_conflict (hu : r.users.lookup userId = some u)
    (hstatus : u.status = .deleted) :
    RefusedOnConflict userId u r ↔ (r.restoreConflict userId u = true → IdentityTaken userId u r) := by
  constructor
  · intro h hconflict
    by_contra hfree
    have hrestored := h.exact.mpr hfree
    rw [restored_iff hu hstatus, hconflict] at hrestored
    cases hrestored
  · intro h
    refine ⟨?_, fun hnot ↦ ?_, fun hrestored hunique ↦ ?_⟩
    · rw [restored_iff hu hstatus, ← Bool.not_eq_true, not_iff_not]
      exact ⟨h, fun htaken ↦ restoreConflict_iff.mpr (Or.inl htaken)⟩
    · rcases restore_cases hu hstatus with ⟨-, -, hsame⟩ | ⟨-, hrestored, -⟩
      · exact hsame
      · exact absurd hrestored hnot
    · rcases restore_cases hu hstatus with ⟨-, hnot, -⟩ | ⟨hconflict, -, hafter⟩
      · exact absurd hrestored hnot
      · rw [hafter]
        exact identitiesUnique_restored hu hconflict hunique

/-- A restoration does what it should exactly if the account has a number, or no other account is
left, or one of those has its address. -/
theorem refused_on_conflict_iff (r : Registry) (userId : Uuid) (u : User)
    (hu : r.users.lookup userId = some u) (hstatus : u.status = .deleted) :
    RefusedOnConflict userId u r ↔
      (u.normalizedEmployeeNumber.isSome ∨
        (∀ k v, k ≠ userId → r.users.lookup k = some v → v.status = .deleted) ∨
        ∃ k v, k ≠ userId ∧ r.users.lookup k = some v ∧ v.status ≠ .deleted ∧
          v.normalizedEmail = u.normalizedEmail) := by
  rw [refusedOnConflict_iff_conflict hu hstatus, restoreConflict_iff]
  constructor
  · intro h
    by_contra hnone
    obtain ⟨hnumber, hothers, haddress⟩ :
        u.normalizedEmployeeNumber = none ∧
          (∃ k v, k ≠ userId ∧ r.users.lookup k = some v ∧ v.status ≠ .deleted) ∧
          ∀ k v, k ≠ userId → r.users.lookup k = some v → v.status ≠ .deleted →
            v.normalizedEmail ≠ u.normalizedEmail := by
      push Not at hnone
      exact ⟨by simpa using hnone.1, hnone.2.1, hnone.2.2⟩
    obtain ⟨k, v, hne, hk, hv, hemail | ⟨n, hn, -⟩⟩ := h (Or.inr ⟨hnumber, hothers⟩)
    · exact haddress k v hne hk hv hemail
    · rw [hnumber] at hn
      cases hn
  · rintro hcondition (htaken | ⟨hnumber, k, v, hne, hk, hv⟩)
    · exact htaken
    · rcases hcondition with hsome | hnobody | ⟨k', v', hne', hk', hv', hemail⟩
      · rw [hnumber] at hsome
        cases hsome
      · exact absurd (hnobody k v hne hk) hv
      · exact ⟨k', v', hne', hk', hv', Or.inl hemail⟩

namespace Sample

def bob : User :=
  ⟨"bob@example.com", "bob@example.com", some "B01", some "b01", "Bob", .active, none⟩

/-- Sue, without a number, has been deleted; Bob works there. -/
def withoutSue : Registry :=
  { deserted with users := deserted.users.insert 21 bob }

def sue : User :=
  ⟨"sue@example.com", "sue@example.com", none, none, "Sue", .deleted, none⟩

end Sample

theorem refused_on_conflict_iff_sample : RefusedOnConflict 20 Sample.sue Sample.deserted := by
  refine (refused_on_conflict_iff Sample.deserted 20 Sample.sue rfl rfl).mpr
    (Or.inr (Or.inl fun k v hne hk ↦ ?_))
  change ((∅ : Table Uuid User).insert 20 _).lookup k = some v at hk
  rw [AList.lookup_insert_ne hne] at hk
  cases hk

/-- Without a number an account conflicts with everybody. -/
theorem restore_refused_for_nothing : ¬ ∀ (r : Registry) (userId : Uuid) (u : User),
    r.users.lookup userId = some u → u.status = .deleted → RefusedOnConflict userId u r := by
  intro h
  have hfree : ¬ IdentityTaken 20 Sample.sue Sample.withoutSue := by
    rintro ⟨k, v, hne, hk, -, hsame⟩
    change (((∅ : Table Uuid User).insert 20 _).insert 21 _).lookup k = some v at hk
    rw [AList.lookup_insert'] at hk
    split at hk
    · obtain rfl := Option.some.inj hk
      rcases hsame with hemail | ⟨n, hn, -⟩
      · exact absurd hemail (by decide)
      · cases hn
    · rw [AList.lookup_insert_ne hne] at hk
      cases hk
  have hrestored := (h Sample.withoutSue 20 Sample.sue rfl rfl).exact.mpr hfree
  rw [restored_iff rfl rfl] at hrestored
  revert hrestored
  decide

end S3mp.Registry
