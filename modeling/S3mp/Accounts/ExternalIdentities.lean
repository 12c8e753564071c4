import S3mp.Accounts.Identities

/-!
# Whose account an external identity is

A link decides.  Without one the employee number decides, and the address decides
where no active account has the number.  What the account says of the other of the
two is not looked at.
-/

namespace S3mp.Registry

open Relational

variable {text : CaseMaps} {r r' : Registry} {issuer : String} {identity : CasIdentity} {k : Uuid}
  {u : User}

def LinkedTo (issuer subject : String) (k : Uuid) (r : Registry) : Prop :=
  ∃ id l, r.externalIdentities.lookup id = some l ∧ l.issuer = issuer ∧ l.subject = subject ∧
    l.userId = k

def Unlinked (issuer subject : String) (r : Registry) : Prop :=
  ∀ k, ¬ LinkedTo issuer subject k r

/-- The active account has the asserted employee number. -/
def HasNumber (text : CaseMaps) (identity : CasIdentity) (u : User) : Prop :=
  u.status = .active ∧ ∃ n, truthy identity.employeeNumber = some n ∧
    u.normalizedEmployeeNumber = some (text.casefold n)

def HasAddress (text : CaseMaps) (identity : CasIdentity) (u : User) : Prop :=
  u.status = .active ∧ ∃ e, truthy identity.email = some e ∧
    u.normalizedEmail = text.casefold e

/-- Why an account is taken for that of the identity. -/
inductive Resolved (text : CaseMaps) (issuer : String) (identity : CasIdentity) (r : Registry)
    (k : Uuid) (u : User) : Prop where
  | linked (hlinked : LinkedTo issuer identity.subject k r) (hactive : u.status = .active)
  | number (hunlinked : Unlinked issuer identity.subject r) (hnumber : HasNumber text identity u)
  | address (hunlinked : Unlinked issuer identity.subject r) (haddress : HasAddress text identity u)
      (hnobody : ∀ k' u', r.users.lookup k' = some u' → ¬ HasNumber text identity u')

/-- Neither what the account says of its number nor its address is other than asserted. -/
def AsAsserted (text : CaseMaps) (identity : CasIdentity) (u : User) : Prop :=
  (∀ n, truthy identity.employeeNumber = some n →
    ∀ m, u.normalizedEmployeeNumber = some m → m = text.casefold n) ∧
  ∀ e, truthy identity.email = some e → u.normalizedEmail = text.casefold e

theorem activeByEmployeeNumber_eq_some {normalized : String}
    (h : r.activeByEmployeeNumber normalized = some k) :
    ∃ u, r.users.lookup k = some u ∧ u.status = .active ∧
      u.normalizedEmployeeNumber = some normalized := by
  obtain ⟨⟨k', u⟩, hfirst, rfl⟩ := Option.map_eq_some_iff.mp h
  obtain ⟨hu, hp⟩ := AList.lookup_of_selectFirst hfirst
  rw [Bool.and_eq_true, decide_eq_true_eq, decide_eq_true_eq] at hp
  exact ⟨u, hu, hp.2, hp.1⟩

theorem activeByEmail_eq_some {normalized : String} (h : r.activeByEmail normalized = some k) :
    ∃ u, r.users.lookup k = some u ∧ u.status = .active ∧ u.normalizedEmail = normalized := by
  obtain ⟨⟨k', u⟩, hfirst, rfl⟩ := Option.map_eq_some_iff.mp h
  obtain ⟨hu, hp⟩ := AList.lookup_of_selectFirst hfirst
  rw [Bool.and_eq_true, decide_eq_true_eq, decide_eq_true_eq] at hp
  exact ⟨u, hu, hp.2, hp.1⟩

theorem not_hasNumber_of_none
    (h : ((truthy identity.employeeNumber).bind fun n ↦
      r.activeByEmployeeNumber (text.casefold n)) = none) (hu : r.users.lookup k = some u) :
    ¬ HasNumber text identity u := by
  rintro ⟨hactive, n, hn, hnumber⟩
  rw [hn, Option.bind_some, activeByEmployeeNumber, Option.map_eq_none_iff] at h
  have hrow := AList.selectFirst_eq_none.mp h k u hu
  rw [hnumber, hactive] at hrow
  simp at hrow

/-- The account found without a link: by the number, or by the address where no active account
has the number. -/
theorem externalUser_eq_some (h : externalUser text identity r = some k) :
    ∃ u, r.users.lookup k = some u ∧ (HasNumber text identity u ∨ HasAddress text identity u ∧
      ∀ k' u', r.users.lookup k' = some u' → ¬ HasNumber text identity u') := by
  unfold externalUser at h
  cases hnumber : (truthy identity.employeeNumber).bind fun n ↦
      r.activeByEmployeeNumber (text.casefold n) with
  | some k' =>
      rw [hnumber] at h
      obtain rfl := Option.some.inj h
      obtain ⟨n, hn, hfound⟩ := Option.bind_eq_some_iff.mp hnumber
      obtain ⟨u, hu, hactive, hmatch⟩ := activeByEmployeeNumber_eq_some hfound
      exact ⟨u, hu, Or.inl ⟨hactive, n, hn, hmatch⟩⟩
  | none =>
      rw [hnumber] at h
      obtain ⟨e, he, hfound⟩ := Option.bind_eq_some_iff.mp h
      obtain ⟨u, hu, hactive, hmatch⟩ := activeByEmail_eq_some hfound
      exact ⟨u, hu, Or.inr ⟨⟨hactive, e, he, hmatch⟩, fun _ _ ↦ not_hasNumber_of_none hnumber⟩⟩

theorem unlinked_of_selectFirst {subject : String}
    (h : (r.externalIdentities.selectFirst fun _ l ↦ l.issuer = issuer && l.subject = subject) =
      none) : Unlinked issuer subject r := by
  rintro k ⟨id, l, hl, hissuer, hsubject, -⟩
  have hrow := AList.selectFirst_eq_none.mp h id l hl
  rw [hissuer, hsubject] at hrow
  simp at hrow

theorem linkExternalIdentity_eq_ok {linkId userId : Uuid} {subject : String}
    (h : linkExternalIdentity linkId issuer subject userId r = .ok (some k, r')) : k = userId := by
  obtain ⟨rows, -, h⟩ := Except.bind_eq_ok.mp h
  exact (Option.some.inj (Prod.mk.inj (Except.ok.inj h)).1).symm

theorem not_mem_of_insertUser {id : Uuid} (h : insertUser id u r = .ok r') : id ∉ r.users := by
  unfold insertUser at h
  split at h
  · cases h
  · obtain ⟨rows, hrows, -⟩ := Except.bind_eq_ok.mp h
    exact (insertRow_eq_ok.mp hrows).1

/-- An account there was before is returned for an identity only if it is active and linked to
the identity, or nothing is linked to it and the account has its number, or no active account
has its number and the account has its address. -/
theorem external_identity_resolves (text : CaseMaps) (ids : ExternalIds)
    (passwordHash issuer : String) (identity : CasIdentity) (r r' : Registry) (k : Uuid) (u : User)
    (h : resolveOrLinkExternalIdentity text ids passwordHash issuer identity r = .ok (some k, r'))
    (hu : r.users.lookup k = some u) : Resolved text issuer identity r k u := by
  unfold resolveOrLinkExternalIdentity at h
  split at h
  · rename_i id link hlink
    obtain ⟨hlookup, hp⟩ := AList.lookup_of_selectFirst hlink
    rw [Bool.and_eq_true, decide_eq_true_eq, decide_eq_true_eq] at hp
    have hanswer := (Prod.mk.inj (Except.ok.inj h)).1
    obtain ⟨hactive, hk⟩ := Option.ite_none_right_eq_some.mp hanswer
    obtain rfl := Option.some.inj hk
    rw [hu, Option.any_some, decide_eq_true_eq] at hactive
    exact .linked ⟨id, link, hlookup, hp.1, hp.2, rfl⟩ hactive
  · rename_i hunlinked
    have hunlinked := unlinked_of_selectFirst hunlinked
    split at h
    · rename_i userId hfound
      obtain rfl := linkExternalIdentity_eq_ok h
      obtain ⟨u', hu', hnumber | ⟨haddress, hnobody⟩⟩ := externalUser_eq_some hfound
      · obtain rfl := Option.some.inj (hu.symm.trans hu')
        exact .number hunlinked hnumber
      · obtain rfl := Option.some.inj (hu.symm.trans hu')
        exact .address hunlinked haddress hnobody
    · split at h
      · obtain ⟨r₁, hinsert, h⟩ := Except.bind_eq_ok.mp h
        obtain rfl := linkExternalIdentity_eq_ok h
        have hfresh := not_mem_of_insertUser hinsert
        rw [← AList.lookup_isSome, hu] at hfresh
        exact absurd rfl hfresh
      · cases h

namespace Sample

/-- The employee `s99`, asserted with the address of the account of `s01`. -/
def stranger : CasIdentity :=
  ⟨"s99", some "s99", some "sue@example.com", none⟩

def suesAccount : User :=
  newUser "sue@example.com" "sue@example.com" (some "s01") (some "s01") "Sue" none

def employing : Registry := { empty with users := (∅ : Table Uuid User).insert 20 suesAccount }

end Sample

theorem external_identity_resolves_sample :
    Resolved ⟨id, id⟩ "cas" ⟨"s01", some "s01", none, none⟩ Sample.employing 20
      Sample.suesAccount :=
  external_identity_resolves ⟨id, id⟩ ⟨30, 31⟩ "hash" "cas" ⟨"s01", some "s01", none, none⟩
    Sample.employing _ 20 _ rfl rfl

/-- Through the address an identity gets the account of another employee. -/
theorem account_of_another_employee : ¬ ∀ (text : CaseMaps) (ids : ExternalIds)
    (passwordHash issuer : String) (identity : CasIdentity) (r r' : Registry) (k : Uuid) (u : User),
    resolveOrLinkExternalIdentity text ids passwordHash issuer identity r = .ok (some k, r') →
      r.users.lookup k = some u →
        LinkedTo issuer identity.subject k r ∨ AsAsserted text identity u := by
  intro h
  rcases h ⟨id, id⟩ ⟨30, 31⟩ "hash" "cas" Sample.stranger Sample.employing _ 20 _ rfl rfl with
    ⟨_, _, hl, -⟩ | ⟨hnumber, -⟩
  · cases hl
  · exact absurd (hnumber "s99" rfl "s01" rfl) (by decide)

end S3mp.Registry
