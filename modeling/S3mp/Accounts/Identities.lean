import S3mp.Accounts.SessionFrames
import S3mp.Storage.Stripping

/-!
# The identity of an account

An address and an employee number stand for an account in their normalised form,
stripped and case-folded.  Every path which creates accounts stores this form and
every lookup asks for it, except the invitation, which lowers the address and also
finds deleted accounts.
-/

namespace S3mp.Registry

open Relational Transition
open Directory (MembershipStatus)

variable {text : CaseMaps} {r r' : Registry} {c : RegistryCmd}

/-! ## Stripping -/

theorem strip_idempotent (s : String) : strip (strip s) = strip s := by
  rw [strip, strip, String.toList_ofList, Storage.strip_strip]

/-- The one normalised form. -/
def canon (text : CaseMaps) (s : String) : String :=
  text.casefold (strip s)

theorem canon_strip (text : CaseMaps) (s : String) : canon text (strip s) = canon text s := by
  rw [canon, strip_idempotent, canon]

theorem canon_of_stripped {s : String} (h : strip s = s) : canon text s = text.casefold s := by
  rw [canon, h]

/-! ## What holds of every account -/

/-- The account is stored under the normalised forms of its address and its number. -/
structure Normalized (text : CaseMaps) (u : User) : Prop where
  email : u.normalizedEmail = canon text u.email
  number : u.normalizedEmployeeNumber = u.employeeNumber.map (canon text)

/-- A login can tell the address from the number. -/
def Sorted (u : User) : Prop :=
  '@' ∈ u.normalizedEmail.toList ∧ ∀ n, u.normalizedEmployeeNumber = some n → '@' ∉ n.toList

/-- Neither the address nor the number of one account stands for the other. -/
def Apart (u v : User) : Prop :=
  u.normalizedEmail ≠ v.normalizedEmail ∧
    ∀ n, u.normalizedEmployeeNumber = some n → v.normalizedEmployeeNumber ≠ some n

theorem Apart.symm {u v : User} (h : Apart u v) : Apart v u :=
  ⟨h.1.symm, fun n hv hu ↦ h.2 n hu hv⟩

structure Uniform (text : CaseMaps) (r : Registry) : Prop where
  stored : ∀ k u, r.users.lookup k = some u → Normalized text u
  sorted : ∀ k u, r.users.lookup k = some u → Sorted u
  standing : ∀ k u, r.users.lookup k = some u → u.status = .active ∨ u.status = .deleted
  apart : ∀ k u k' u', r.users.lookup k = some u → r.users.lookup k' = some u' →
    u.status ≠ .deleted → u'.status ≠ .deleted → k ≠ k' → Apart u u'

/-- The first account which meets a condition only one account meets. -/
theorem selectFirst_unique {p : Uuid → User → Bool} {users : Table Uuid User} {k : Uuid} {u : User}
    (hk : users.lookup k = some u) (hp : p k u)
    (hunique : ∀ k' u', users.lookup k' = some u' → p k' u' → k' = k) :
    (users.selectFirst p).map Prod.fst = some k := by
  cases hfirst : users.selectFirst p with
  | none =>
      have := AList.selectFirst_eq_none.mp hfirst k u hk
      rw [hp] at this
      cases this
  | some found =>
      obtain ⟨k', u'⟩ := found
      obtain ⟨hk', hp'⟩ := AList.lookup_of_selectFirst hfirst
      rw [Option.map_some, hunique k' u' hk' hp']

theorem Uniform.active (h : Uniform text r) {k : Uuid} {u : User}
    (hk : r.users.lookup k = some u) (hstatus : u.status ≠ .deleted) : u.status = .active :=
  (h.standing k u hk).resolve_right hstatus

theorem Uniform.activeByEmail (h : Uniform text r) {k : Uuid} {u : User} {key : String}
    (hk : r.users.lookup k = some u) (hstatus : u.status ≠ .deleted)
    (hkey : key = u.normalizedEmail) : r.activeByEmail key = some k := by
  refine selectFirst_unique hk ?_ fun k' u' hk' hp ↦ ?_
  · rw [Bool.and_eq_true, decide_eq_true_eq, decide_eq_true_eq]
    exact ⟨hkey.symm, h.active hk hstatus⟩
  · rw [Bool.and_eq_true, decide_eq_true_eq, decide_eq_true_eq] at hp
    by_contra hne
    have hactive : u'.status ≠ .deleted := by
      rw [hp.2]
      decide
    exact (h.apart k' u' k u hk' hk hactive hstatus hne).1 (hp.1.trans hkey)

theorem Uniform.activeByEmployeeNumber (h : Uniform text r) {k : Uuid} {u : User} {key : String}
    (hk : r.users.lookup k = some u) (hstatus : u.status ≠ .deleted)
    (hkey : u.normalizedEmployeeNumber = some key) : r.activeByEmployeeNumber key = some k := by
  refine selectFirst_unique hk ?_ fun k' u' hk' hp ↦ ?_
  · rw [Bool.and_eq_true, decide_eq_true_eq, decide_eq_true_eq]
    exact ⟨hkey, h.active hk hstatus⟩
  · rw [Bool.and_eq_true, decide_eq_true_eq, decide_eq_true_eq] at hp
    by_contra hne
    have hactive : u'.status ≠ .deleted := by
      rw [hp.2]
      decide
    exact (h.apart k' u' k u hk' hk hactive hstatus hne).2 key hp.1 hkey

def undeleted (userId : Uuid) (r : Registry) : Bool :=
  (r.users.lookup userId).any (·.status ≠ .deleted)

/-- The new memberships, account sessions and external identities belong to accounts which are not
deleted. -/
structure Attaching (r r' : Registry) : Prop where
  memberships : ∀ {k m}, r'.memberships.lookup k = some m → k ∉ r.memberships →
    r'.undeleted m.userId
  accountSessions : ∀ {k s}, r'.accountSessions.lookup k = some s → k ∉ r.accountSessions →
    r'.undeleted s.userId
  links : ∀ {k l}, r'.externalIdentities.lookup k = some l → k ∉ r.externalIdentities →
    r'.undeleted l.userId

structure NoNewRows (r r' : Registry) : Prop where
  memberships : ∀ {k}, k ∈ r'.memberships → k ∈ r.memberships
  accountSessions : ∀ {k}, k ∈ r'.accountSessions → k ∈ r.accountSessions
  links : ∀ {k}, k ∈ r'.externalIdentities → k ∈ r.externalIdentities

theorem NoNewRows.attaching (h : NoNewRows r r') : Attaching r r' :=
  ⟨fun hk hnew ↦ absurd (h.memberships (AList.mem_of_lookup hk)) hnew,
    fun hk hnew ↦ absurd (h.accountSessions (AList.mem_of_lookup hk)) hnew,
    fun hk hnew ↦ absurd (h.links (AList.mem_of_lookup hk)) hnew⟩

theorem NoNewRows.trans {r'' : Registry} (h : NoNewRows r r') (h' : NoNewRows r' r'') :
    NoNewRows r r'' :=
  ⟨fun hk ↦ h.memberships (h'.memberships hk), fun hk ↦ h.accountSessions (h'.accountSessions hk),
    fun hk ↦ h.links (h'.links hk)⟩

theorem NoNewRows.attaching_trans {r'' : Registry} (h : NoNewRows r r') (h' : Attaching r' r'') :
    Attaching r r'' :=
  ⟨fun hk hnew ↦ h'.memberships hk fun hmem ↦ hnew (h.memberships hmem),
    fun hk hnew ↦ h'.accountSessions hk fun hmem ↦ hnew (h.accountSessions hmem),
    fun hk hnew ↦ h'.links hk fun hmem ↦ hnew (h.links hmem)⟩

/-- The tables which say which accounts there are and what belongs to them. -/
def accountRows (r : Registry) :=
  (r.users, r.memberships, r.accountSessions, r.externalIdentities)

theorem noNewRows_of_eq (h : r'.accountRows = r.accountRows) : NoNewRows r r' := by
  simp only [accountRows, Prod.mk.injEq] at h
  obtain ⟨-, hm, ha, hl⟩ := h
  exact ⟨fun hk ↦ hm ▸ hk, fun hk ↦ ha ▸ hk, fun hk ↦ hl ▸ hk⟩

theorem Attaching.congr {r'' : Registry} (h : Attaching r r')
    (hsame : r''.accountRows = r'.accountRows) : Attaching r r'' := by
  simp only [accountRows, Prod.mk.injEq] at hsame
  obtain ⟨hu, hm, ha, hl⟩ := hsame
  refine ⟨fun hk hnew ↦ ?_, fun hk hnew ↦ ?_, fun hk hnew ↦ ?_⟩
  · rw [undeleted, hu]
    exact h.memberships (hm ▸ hk) hnew
  · rw [undeleted, hu]
    exact h.accountSessions (ha ▸ hk) hnew
  · rw [undeleted, hu]
    exact h.links (hl ▸ hk) hnew

/-- What a committed transaction leaves. -/
structure Sound (text : CaseMaps) (r r' : Registry) : Prop where
  uniform : Uniform text r'
  attaching : Attaching r r'

theorem Uniform.congr (h : Uniform text r) (hu : r'.users = r.users) : Uniform text r' := by
  refine ⟨?_, ?_, ?_, ?_⟩
  · rw [hu]
    exact h.stored
  · rw [hu]
    exact h.sorted
  · rw [hu]
    exact h.standing
  · rw [hu]
    exact h.apart

theorem Uniform.sound_of_eq (h : Uniform text r) (hsame : r'.accountRows = r.accountRows) :
    Sound text r r' := by
  refine ⟨h.congr ?_, (noNewRows_of_eq hsame).attaching⟩
  simp only [accountRows, Prod.mk.injEq] at hsame
  exact hsame.1

/-! ### New accounts -/

theorem conflictsIn_eq_none {u : User} {users : Table Uuid User} (h : u.conflictsIn users = none)
    {k : Uuid} {v : User} (hk : users.lookup k = some v) (hstatus : v.status ≠ .deleted) :
    Apart u v := by
  unfold User.conflictsIn at h
  split_ifs at h with hemail hnumber
  have hrow := AList.anyRow_eq_false.mp (Bool.not_eq_true _ ▸ hemail) k v hk
  refine ⟨fun heq ↦ ?_, fun n hu hv ↦ hnumber ?_⟩
  · rw [decide_eq_true hstatus, decide_eq_true heq.symm] at hrow
    cases hrow
  · rw [hu, Option.isSome_some, Bool.true_and, AList.anyRow_eq_true]
    refine ⟨k, v, hk, ?_⟩
    rw [decide_eq_true hstatus, decide_eq_true hv, Bool.and_self]

theorem noNewRows_insertUser {id : Uuid} {u : User} (h : insertUser id u r = .ok r') :
    NoNewRows r r' := by
  obtain ⟨-, -, rfl⟩ := insertUser_eq_ok.mp h
  exact ⟨fun hk ↦ hk, fun hk ↦ hk, fun hk ↦ hk⟩

theorem Uniform.inserted (h : Uniform text r) {id : Uuid} {u : User} (hn : Normalized text u)
    (hsorted : Sorted u) (hactive : u.status = .active) (hinsert : insertUser id u r = .ok r') :
    Uniform text r' := by
  obtain ⟨hconflict, hfresh, rfl⟩ := insertUser_eq_ok.mp hinsert
  have hcases : ∀ {k v}, (r.users.insert id u).lookup k = some v →
      k = id ∧ v = u ∨ k ≠ id ∧ r.users.lookup k = some v := by
    intro k v hk
    rw [AList.lookup_insert'] at hk
    split at hk
    · exact Or.inl ⟨‹_›, (Option.some.inj hk).symm⟩
    · exact Or.inr ⟨‹_›, hk⟩
  refine ⟨fun k v hk ↦ ?_, fun k v hk ↦ ?_, fun k v hk ↦ ?_, fun k v k' v' hk hk' hv hv' hne ↦ ?_⟩
  · rcases hcases hk with ⟨-, rfl⟩ | ⟨-, hold⟩
    · exact hn
    · exact h.stored k v hold
  · rcases hcases hk with ⟨-, rfl⟩ | ⟨-, hold⟩
    · exact hsorted
    · exact h.sorted k v hold
  · rcases hcases hk with ⟨-, rfl⟩ | ⟨-, hold⟩
    · exact Or.inl hactive
    · exact h.standing k v hold
  · rcases hcases hk with ⟨rfl, rfl⟩ | ⟨-, hold⟩ <;> rcases hcases hk' with ⟨rfl, rfl⟩ | ⟨-, hold'⟩
    · exact absurd rfl hne
    · exact conflictsIn_eq_none hconflict hold' hv'
    · exact (conflictsIn_eq_none hconflict hold hv).symm
    · exact h.apart k v k' v' hold hold' hv hv' hne

theorem employeeNumberFormat_noAt {s : String} (h : employeeNumberFormat s) :
    '@' ∉ s.toList := by
  unfold employeeNumberFormat at h
  split at h
  · cases h
  · rename_i c cs heq
    simp only [Bool.and_eq_true, List.all_eq_true, Bool.or_eq_true, decide_eq_true_eq] at h
    obtain ⟨⟨⟨hc, -⟩, -⟩, hcs⟩ := h
    rw [heq, List.mem_cons, not_or]
    refine ⟨fun hat ↦ ?_, fun hat ↦ ?_⟩
    · rw [← hat] at hc
      exact absurd hc (by decide)
    · exact absurd (hcs '@' hat) (by decide)

/-! ### Changed accounts -/

/-- A change of one account which keeps what it is stored under. -/
theorem Uniform.update (h : Uniform text r) {userId : Uuid} {f : User → User}
    (hemail : ∀ u, (f u).email = u.email ∧ (f u).normalizedEmail = u.normalizedEmail)
    (hnumber : ∀ u, (f u).employeeNumber = u.employeeNumber ∧
      (f u).normalizedEmployeeNumber = u.normalizedEmployeeNumber)
    (hstanding : ∀ u, u.status = .active ∨ u.status = .deleted →
      (f u).status = .active ∨ (f u).status = .deleted)
    (hapart : ∀ u k v, r.users.lookup userId = some u → r.users.lookup k = some v → k ≠ userId →
      (f u).status ≠ .deleted → v.status ≠ .deleted → Apart u v)
    (hu : r'.users = r.users.update userId f) : Uniform text r' := by
  have hcases : ∀ {k v}, r'.users.lookup k = some v →
      (k = userId ∧ ∃ u, r.users.lookup userId = some u ∧ v = f u) ∨
        k ≠ userId ∧ r.users.lookup k = some v := by
    intro k v hk
    rw [hu, AList.lookup_update] at hk
    split at hk
    · obtain ⟨u, hu, rfl⟩ := Option.map_eq_some_iff.mp hk
      exact Or.inl ⟨‹_›, u, hu, rfl⟩
    · exact Or.inr ⟨‹_›, hk⟩
  have hsame : ∀ {u v}, Apart u v → Apart (f u) v := by
    intro u v hapart
    rw [Apart, (hemail u).2, (hnumber u).2]
    exact hapart
  refine ⟨fun k v hk ↦ ?_, fun k v hk ↦ ?_, fun k v hk ↦ ?_, fun k v k' v' hk hk' hv hv' hne ↦ ?_⟩
  · rcases hcases hk with ⟨-, u, hold, rfl⟩ | ⟨-, hold⟩
    · obtain ⟨he, hn⟩ := h.stored userId u hold
      exact ⟨by rw [(hemail u).1, (hemail u).2, he], by rw [(hnumber u).1, (hnumber u).2, hn]⟩
    · exact h.stored k v hold
  · rcases hcases hk with ⟨-, u, hold, rfl⟩ | ⟨-, hold⟩
    · rw [Sorted, (hemail u).2, (hnumber u).2]
      exact h.sorted userId u hold
    · exact h.sorted k v hold
  · rcases hcases hk with ⟨-, u, hold, rfl⟩ | ⟨-, hold⟩
    · exact hstanding u (h.standing userId u hold)
    · exact h.standing k v hold
  · rcases hcases hk with ⟨rfl, u, hold, rfl⟩ | ⟨hother, hold⟩
    · rcases hcases hk' with ⟨rfl, -⟩ | ⟨hother', hold'⟩
      · exact absurd rfl hne
      · exact hsame (hapart u k' v' hold hold' hother' hv hv')
    · rcases hcases hk' with ⟨rfl, u', hold', rfl⟩ | ⟨-, hold'⟩
      · exact (hsame (hapart u' k v hold' hold hother hv' hv)).symm
      · exact h.apart k v k' v' hold hold' hv hv' hne

/-! ## Commands -/

/-- The command names its account in the one form: the address it writes has an `@` and the number
has none, an invitation uses the folded address and finds no deleted account, and an account session
is written for no deleted account. -/
def InOneForm (text : CaseMaps) (r : Registry) : RegistryCmd → Prop
  | .register _ email _ _ _ => '@' ∈ (canon text email).toList
  | .importAccounts rows =>
      ∀ row ∈ rows, validRow text row → '@' ∈ (canon text row.email).toList
  | .resolveExternal _ _ _ identity => externalUser text (casIdentity identity) r = none →
      (∀ e, truthy (casIdentity identity).email = some e → '@' ∈ (canon text e).toList) ∧
        ∀ n, truthy (casIdentity identity).employeeNumber = some n → '@' ∉ (canon text n).toList
  | .createInitialPlatformAdmin _ email employeeNumber _ _
  | .ensurePlatformAdmin _ email employeeNumber _ _ =>
      '@' ∈ (canon text email).toList ∧ '@' ∉ (canon text employeeNumber).toList
  | .createMember _ _ _ _ email _ _ _ _ => text.lower (strip email) = canon text email ∧
      '@' ∈ (canon text email).toList ∧
        ∀ k, r.anyByEmail (canon text email) = some k → r.undeleted k
  | .createAccountSession _ userId _ => r.undeleted userId
  | _ => True

theorem Uniform.sound_insertUser (h : Uniform text r) {id : Uuid} {u : User}
    (hn : Normalized text u) (hsorted : Sorted u) (hactive : u.status = .active)
    (hinsert : insertUser id u r = .ok r') : Sound text r r' :=
  ⟨h.inserted hn hsorted hactive hinsert, (noNewRows_insertUser hinsert).attaching⟩

theorem Uniform.sound_register (h : Uniform text r) {id : Uuid}
    {email employeeNumber displayName passwordHash : String}
    (haddress : '@' ∈ (canon text email).toList)
    (hexec : register text id email employeeNumber displayName passwordHash r = .ok r') :
    Sound text r r' := by
  unfold register at hexec
  dsimp only at hexec
  split at hexec
  · simp at hexec
  · rename_i hformat
    split at hexec
    · simp at hexec
    · unfold createAccount at hexec
      split at hexec
      · simp at hexec
      · refine h.sound_insertUser ⟨?_, ?_⟩ ⟨haddress, fun n hn ↦ ?_⟩ rfl hexec
        · exact (canon_strip text email).symm
        · exact congrArg some (canon_strip text employeeNumber).symm
        · obtain rfl := Option.some.inj hn
          exact employeeNumberFormat_noAt (by simpa using hformat)

theorem mem_parseAccountImport {rows : List ImportRow} {candidate : ImportCandidate}
    (h : candidate ∈ parseAccountImport text rows) :
    ∃ row ∈ rows, validRow text row ∧ candidate = importCandidate text row := by
  induction rows using List.reverseRecOn with
  | nil => cases h
  | append_singleton rows row ih =>
      have hold : candidate ∈ parseAccountImport text rows → ∃ row' ∈ rows ++ [row],
          validRow text row' ∧ candidate = importCandidate text row' := by
        intro hmem
        obtain ⟨row', hrow, hrest⟩ := ih hmem
        exact ⟨row', List.mem_append_left _ hrow, hrest⟩
      rw [parseAccountImport, List.foldl_append, List.foldl_cons, List.foldl_nil] at h
      dsimp only at h
      split at h
      · rename_i hvalid
        rcases List.mem_append.mp h with hmem | hnew
        · exact hold hmem
        · rw [Bool.and_eq_true] at hvalid
          exact ⟨row, List.mem_append_right _ List.mem_cons_self, hvalid.1,
            List.mem_singleton.mp hnew⟩
      · exact hold h

theorem Uniform.sound_import (h : Uniform text r) {rows : List ImportRow}
    (haddress : ∀ row ∈ rows, validRow text row → '@' ∈ (canon text row.email).toList)
    (hexec : importAccounts text rows r = .ok r') : Sound text r r' := by
  have hloop : ∀ {candidates : List ImportCandidate} {s s' : Registry},
      (∀ c ∈ candidates, ∃ row ∈ rows, validRow text row ∧ c = importCandidate text row) →
        Uniform text s → candidates.foldlM importCandidateRow s = .ok s' →
          Uniform text s' ∧ NoNewRows s s' := by
    intro candidates
    induction candidates with
    | nil =>
        intro s s' _ hs hfold
        cases hfold
        exact ⟨hs, noNewRows_of_eq rfl⟩
    | cons c candidates ih =>
        intro s s' hrows hs hfold
        rw [List.foldlM_cons] at hfold
        obtain ⟨s₁, hturn, hrest⟩ := Except.bind_eq_ok.mp hfold
        have hfirst : Uniform text s₁ ∧ NoNewRows s s₁ := by
          unfold importCandidateRow at hturn
          split at hturn
          · cases hturn
            exact ⟨hs, noNewRows_of_eq rfl⟩
          · obtain ⟨row, hrow, hvalid, rfl⟩ := hrows c List.mem_cons_self
            refine ⟨hs.inserted ⟨?_, ?_⟩ ⟨haddress row hrow hvalid, fun n hn ↦ ?_⟩ rfl hturn,
              noNewRows_insertUser hturn⟩
            · exact (canon_strip text row.email).symm
            · exact congrArg some (canon_strip text row.employeeNumber).symm
            · obtain rfl := Option.some.inj hn
              simp only [validRow, Bool.and_eq_true] at hvalid
              exact employeeNumberFormat_noAt hvalid.1.1.2
        have hlast := ih (fun c hc ↦ hrows c (List.mem_cons_of_mem _ hc)) hfirst.1 hrest
        exact ⟨hlast.1, hfirst.2.trans hlast.2⟩
  unfold importAccounts at hexec
  split at hexec
  · simp at hexec
  · obtain ⟨huniform, hrows⟩ := hloop (fun _ ↦ mem_parseAccountImport) h hexec
    exact ⟨huniform, hrows.attaching⟩

theorem attaching_link {linkId userId : Uuid} {issuer subject : String} {answer : Option Uuid}
    (huser : r.undeleted userId)
    (h : linkExternalIdentity linkId issuer subject userId r = .ok (answer, r')) :
    Attaching r r' ∧ r'.users = r.users := by
  obtain ⟨links, hinsert, hr⟩ := Except.bind_eq_ok.mp h
  obtain ⟨-, rfl⟩ := insertRow_eq_ok.mp hinsert
  cases hr
  refine ⟨⟨fun hk hnew ↦ absurd (AList.mem_of_lookup hk) hnew,
    fun hk hnew ↦ absurd (AList.mem_of_lookup hk) hnew, fun {k l} hk hnew ↦ ?_⟩, rfl⟩
  change (r.externalIdentities.insert linkId _).lookup k = some l at hk
  rw [AList.lookup_insert'] at hk
  split at hk
  · obtain rfl := Option.some.inj hk
    exact huser
  · exact absurd (AList.mem_of_lookup hk) hnew

theorem undeleted_of_active {userId : Uuid} {u : User} (h : r.users.lookup userId = some u)
    (hactive : u.status = .active) : r.undeleted userId := by
  rw [undeleted, h, Option.any_some, hactive]
  rfl

theorem undeleted_of_selectFirst {p : Uuid → User → Bool} {userId : Uuid}
    (h : (r.users.selectFirst p).map Prod.fst = some userId)
    (hp : ∀ k u, p k u → u.status = .active) : r.undeleted userId := by
  obtain ⟨⟨k, u⟩, hfirst, rfl⟩ := Option.map_eq_some_iff.mp h
  obtain ⟨hk, hpk⟩ := AList.lookup_of_selectFirst hfirst
  exact undeleted_of_active hk (hp k u hpk)

theorem undeleted_externalUser {identity : CasIdentity} {userId : Uuid}
    (h : externalUser text identity r = some userId) : r.undeleted userId := by
  rw [externalUser, Option.orElse_eq_orElse, Option.orElse_eq_or, Option.or_eq_some_iff] at h
  rcases h with hnumber | ⟨-, haddress⟩
  · obtain ⟨n, -, hn⟩ := Option.bind_eq_some_iff.mp hnumber
    exact undeleted_of_selectFirst hn fun k u hp ↦ by
      rw [Bool.and_eq_true] at hp
      exact of_decide_eq_true hp.2
  · obtain ⟨e, -, he⟩ := Option.bind_eq_some_iff.mp haddress
    exact undeleted_of_selectFirst he fun k u hp ↦ by
      rw [Bool.and_eq_true] at hp
      exact of_decide_eq_true hp.2

/-- What `_session_identity` has stripped is stripped. -/
theorem strip_of_truthy {value : Option String} {s : String}
    (h : truthy ((truthy value).map strip) = some s) : strip s = s := by
  obtain ⟨hs, -⟩ := Option.filter_eq_some_iff.mp h
  obtain ⟨t, -, rfl⟩ := Option.map_eq_some_iff.mp hs
  exact strip_idempotent t

theorem Uniform.sound_resolveExternal (h : Uniform text r) {ids : ExternalIds}
    {passwordHash issuer : String} {identity : CasIdentity} {answer : Option Uuid}
    (hform : externalUser text (casIdentity identity) r = none →
      (∀ e, truthy (casIdentity identity).email = some e → '@' ∈ (canon text e).toList) ∧
        ∀ n, truthy (casIdentity identity).employeeNumber = some n → '@' ∉ (canon text n).toList)
    (hexec : resolveOrLinkExternalIdentity text ids passwordHash issuer (casIdentity identity) r =
      .ok (answer, r')) : Sound text r r' := by
  unfold resolveOrLinkExternalIdentity at hexec
  split at hexec
  · cases hexec
    exact h.sound_of_eq rfl
  · split at hexec
    · rename_i userId huser
      obtain ⟨hattach, hu⟩ := attaching_link (undeleted_externalUser huser) hexec
      exact ⟨h.congr hu, hattach⟩
    · rename_i hnone
      obtain ⟨haddress, hnumber⟩ := hform hnone
      split at hexec
      · rename_i n e name hn he hname
        obtain ⟨r₁, hinsert, hlink⟩ := Except.bind_eq_ok.mp hexec
        have he' : canon text e = text.casefold e := canon_of_stripped (strip_of_truthy he)
        have hn' : canon text n = text.casefold n := canon_of_stripped (strip_of_truthy hn)
        have huniform : Uniform text r₁ := by
          refine h.inserted ⟨he'.symm, congrArg some hn'.symm⟩ ⟨he' ▸ haddress e he,
            fun m hm ↦ ?_⟩ rfl hinsert
          obtain rfl := Option.some.inj hm
          exact hn' ▸ hnumber n hn
        have hundeleted : r₁.undeleted ids.userId := by
          obtain ⟨-, -, rfl⟩ := insertUser_eq_ok.mp hinsert
          exact undeleted_of_active (AList.lookup_insert _) rfl
        obtain ⟨hattach, hu⟩ := attaching_link hundeleted hlink
        exact ⟨huniform.congr hu, (noNewRows_insertUser hinsert).attaching_trans hattach⟩
      · cases hexec
        exact h.sound_of_eq rfl

theorem Uniform.sound_createPlatformAdmin (h : Uniform text r) {ids : BootstrapIds}
    {email employeeNumber displayName passwordHash : String}
    (hform : '@' ∈ (canon text email).toList ∧ '@' ∉ (canon text employeeNumber).toList)
    (hexec : createPlatformAdmin text ids email employeeNumber displayName passwordHash r =
      .ok r') : Sound text r r' := by
  unfold createPlatformAdmin at hexec
  split at hexec
  · cases hexec
  · obtain ⟨r₁, hinsert, hrest⟩ := Except.bind_eq_ok.mp hexec
    obtain ⟨bindings, -, hr⟩ := Except.bind_eq_ok.mp hrest
    cases hr
    have huniform : Uniform text r₁ := by
      refine h.inserted ⟨rfl, rfl⟩ ⟨hform.1, fun n hn ↦ ?_⟩ rfl hinsert
      obtain rfl := Option.some.inj hn
      exact hform.2
    refine ⟨huniform.congr rfl, ((noNewRows_insertUser hinsert).trans ?_).attaching⟩
    exact noNewRows_of_eq rfl

theorem attaching_insertMember {ids : MemberIds} {tenantId userId : Uuid}
    {status : MembershipStatus} {expiresAt : Option Timestamp} (huser : r.undeleted userId)
    (h : insertMember ids tenantId userId status expiresAt r = .ok r') :
    Attaching r r' ∧ r'.users = r.users := by
  obtain ⟨-, -, -, rfl⟩ := insertMember_eq_ok.mp h
  refine ⟨⟨fun {k m} hk hnew ↦ ?_, fun hk hnew ↦ absurd (AList.mem_of_lookup hk) hnew,
    fun hk hnew ↦ absurd (AList.mem_of_lookup hk) hnew⟩, rfl⟩
  change (r.memberships.insert ids.membershipId _).lookup k = some m at hk
  rw [AList.lookup_insert'] at hk
  split at hk
  · obtain rfl := Option.some.inj hk
    exact huser
  · exact absurd (AList.mem_of_lookup hk) hnew

theorem accountRows_insertBinding {id : Uuid} {b : RoleBinding}
    (h : insertBinding id b r = .ok r') : r'.accountRows = r.accountRows := by
  obtain ⟨-, rfl⟩ := insertBinding_eq_ok.mp h
  rfl

theorem accountRows_ensureRole {id tenantId roleId : Uuid} {name : String}
    {permissions : List String} (h : ensureRole id tenantId name permissions r = .ok (roleId, r')) :
    r'.accountRows = r.accountRows := by
  unfold ensureRole at h
  split at h
  · cases h
    rfl
  · obtain ⟨roles, -, hr⟩ := Except.bind_eq_ok.mp h
    cases hr
    rfl

theorem Uniform.sound_createMember (h : Uniform text r) {userId : Uuid} {ids : MemberIds}
    {now : Timestamp} {tenantId : Uuid} {email : String} {displayName : Option String}
    {roleId createdBy : Uuid} {expiresAt : Timestamp}
    (hlower : text.lower (strip email) = canon text email)
    (haddress : '@' ∈ (canon text email).toList)
    (hundeleted : ∀ k, r.anyByEmail (canon text email) = some k → r.undeleted k)
    (hexec : createMember text userId ids now tenantId email displayName roleId createdBy expiresAt
      r = .ok r') : Sound text r r' := by
  obtain ⟨⟨invitedId, r₁⟩, hinvited, hrest⟩ := Except.bind_eq_ok.mp hexec
  have hfirst : Uniform text r₁ ∧ NoNewRows r r₁ ∧ r₁.undeleted invitedId := by
    unfold invitedUser at hinvited
    dsimp only at hinvited
    rw [hlower] at hinvited
    split at hinvited
    · rename_i k hk
      cases hinvited
      exact ⟨h, noNewRows_of_eq rfl, hundeleted _ hk⟩
    · obtain ⟨r₂, hinsert, hr⟩ := Except.bind_eq_ok.mp hinvited
      cases hr
      refine ⟨h.inserted ⟨(canon_strip text email).symm, rfl⟩ ⟨haddress, fun n hn ↦ ?_⟩ rfl hinsert,
        noNewRows_insertUser hinsert, ?_⟩
      · cases hn
      · obtain ⟨-, -, rfl⟩ := insertUser_eq_ok.mp hinsert
        exact undeleted_of_active (AList.lookup_insert _) rfl
  obtain ⟨huniform, hrows, huser⟩ := hfirst
  dsimp only at hrest
  split at hrest
  · cases hrest
  · obtain ⟨r₂, hmember, hbinding⟩ := Except.bind_eq_ok.mp hrest
    split at hbinding
    · cases hbinding
    · obtain ⟨hattach, hu⟩ := attaching_insertMember huser hmember
      have hsame := accountRows_insertBinding hbinding
      refine ⟨(huniform.congr hu).congr ?_, (hrows.attaching_trans hattach).congr hsame⟩
      simp only [accountRows, Prod.mk.injEq] at hsame
      exact hsame.1

theorem Uniform.sound_createPlatformTenant (h : Uniform text r) {ids : TenantIds}
    {slug name : String} {adminId : Uuid}
    (hexec : createPlatformTenant ids slug name adminId r = .ok r') : Sound text r r' := by
  unfold createPlatformTenant at hexec
  split at hexec
  · cases hexec
  · rename_i hactive
    split at hexec
    · cases hexec
    · obtain ⟨tenants, -, hrest⟩ := Except.bind_eq_ok.mp hexec
      obtain ⟨r₁, hmember, hrole⟩ := Except.bind_eq_ok.mp hrest
      obtain ⟨⟨roleId, r₂⟩, hensure, hr⟩ := Except.bind_eq_ok.mp hrole
      cases hr
      obtain ⟨u, hu, hstatus⟩ := (Option.any_eq_true _ _).mp (by simpa using hactive)
      obtain ⟨hattach, husers⟩ := attaching_insertMember
        (undeleted_of_active (r := { r with tenants := tenants }) hu (of_decide_eq_true hstatus))
        hmember
      have hsame := accountRows_ensureRole hensure
      have hrows : NoNewRows r { r with tenants := tenants } := noNewRows_of_eq rfl
      refine ⟨(h.congr husers).congr ?_, (hrows.attaching_trans hattach).congr hsame⟩
      simp only [accountRows, Prod.mk.injEq] at hsame
      exact hsame.1

theorem Uniform.sound_approveSupportAccess (h : Uniform text r) {ids : SupportIds}
    {now : Timestamp} {approverId requestId : Uuid} {found : Bool}
    (hexec : approveSupportAccess ids now approverId requestId r = .ok (found, r')) :
    Sound text r r' := by
  unfold approveSupportAccess at hexec
  split at hexec
  · cases hexec
    exact h.sound_of_eq rfl
  · rename_i request hrequest
    split_ifs at hexec with hother hopen hactive hmember
    obtain ⟨r₄, hgrant, hr⟩ := Except.bind_eq_ok.mp hexec
    cases hr
    obtain ⟨r₁, hm, hrest⟩ := Except.bind_eq_ok.mp hgrant
    obtain ⟨⟨roleId, r₂⟩, hrole, hrest⟩ := Except.bind_eq_ok.mp hrest
    obtain ⟨r₃, hb, hr⟩ := Except.bind_eq_ok.mp hrest
    cases hr
    obtain ⟨u, hu, hstatus⟩ := (Option.any_eq_true _ _).mp (by simpa using hactive)
    obtain ⟨hattach, husers⟩ := attaching_insertMember
      (undeleted_of_active hu (of_decide_eq_true hstatus)) hm
    have hsame := (accountRows_insertBinding hb).trans (accountRows_ensureRole hrole)
    refine ⟨(h.congr husers).congr ?_, hattach.congr hsame⟩
    simp only [accountRows, Prod.mk.injEq] at hsame
    exact hsame.1

theorem Uniform.sound_createAccountSession (h : Uniform text r) {token : SessionToken}
    {userId : Uuid} {ticket : Option String} (huser : r.undeleted userId)
    (hexec : createAccountSession token userId ticket r = .ok r') : Sound text r r' := by
  obtain ⟨-, haccounts, -, hmemberships, husers, hlinks⟩ := createAccountSession_ok hexec
  refine ⟨h.congr husers, fun hk hnew ↦ ?_, fun {k s} hk hnew ↦ ?_, fun hk hnew ↦ ?_⟩
  · rw [hmemberships] at hk
    exact absurd (AList.mem_of_lookup hk) hnew
  · rw [haccounts, AList.lookup_insert'] at hk
    split at hk
    · obtain rfl := Option.some.inj hk
      rw [undeleted, husers]
      exact huser
    · exact absurd (AList.mem_of_lookup hk) hnew
  · rw [hlinks] at hk
    exact absurd (AList.mem_of_lookup hk) hnew

theorem Uniform.sound_deleted (h : Uniform text r) (now : Timestamp) (userId : Uuid) :
    Sound text r (r.deletedAccount now userId) := by
  refine ⟨?_, NoNewRows.attaching ⟨fun hk ↦ AList.mem_updateWhere.mp hk,
    fun hk ↦ AList.mem_updateWhere.mp hk, fun hk ↦ hk⟩⟩
  exact h.update (f := fun u ↦ { u with status := .deleted }) (fun _ ↦ ⟨rfl, rfl⟩)
    (fun _ ↦ ⟨rfl, rfl⟩) (fun _ _ ↦ Or.inr rfl) (fun _ _ _ _ _ _ hne ↦ absurd rfl hne) rfl

theorem apart_of_restoreConflict {userId k : Uuid} {u v : User}
    (h : r.restoreConflict userId u = false) (hk : r.users.lookup k = some v) (hne : k ≠ userId)
    (hstatus : v.status ≠ .deleted) : Apart u v := by
  have hrow := AList.anyRow_eq_false.mp h k v hk
  rw [decide_eq_true hne, decide_eq_true hstatus, Bool.true_and, Bool.true_and, Bool.or_eq_false_iff,
    decide_eq_false_iff_not] at hrow
  refine ⟨fun heq ↦ hrow.1 heq.symm, fun n hu hv ↦ ?_⟩
  have hnumber := hrow.2
  rw [hu, Option.all_some, decide_eq_false_iff_not] at hnumber
  exact hnumber hv

theorem Uniform.sound_restore (h : Uniform text r) {userId : Uuid} {found : Bool}
    (hexec : restorePlatformAccount userId r = .ok (found, r')) : Sound text r r' := by
  unfold restorePlatformAccount at hexec
  split at hexec
  · cases hexec
    exact h.sound_of_eq rfl
  · rename_i u hu
    split_ifs at hexec with hstatus hconflict
    · cases hexec
      exact h.sound_of_eq rfl
    · cases hexec
      refine ⟨?_, NoNewRows.attaching ⟨fun hk ↦ hk, fun hk ↦ hk, fun hk ↦ hk⟩⟩
      refine h.update (f := fun u ↦ { u with status := .active }) (fun _ ↦ ⟨rfl, rfl⟩)
        (fun _ ↦ ⟨rfl, rfl⟩) (fun _ _ ↦ Or.inl rfl) (fun u' k v hu' hk hne _ hv ↦ ?_) rfl
      obtain rfl : u = u' := Option.some.inj (hu.symm.trans hu')
      exact apart_of_restoreConflict (Bool.not_eq_true _ ▸ hconflict) hk hne hv

theorem Uniform.sound_reset (h : Uniform text r) (now : Timestamp) (userId : Uuid)
    (passwordHash : String) :
    Sound text r (resetPlatformAccountPassword now userId passwordHash r).2 := by
  unfold resetPlatformAccountPassword
  split
  · exact h.sound_of_eq rfl
  · split
    · exact h.sound_of_eq rfl
    · refine ⟨?_, NoNewRows.attaching ⟨fun hk ↦ hk, fun hk ↦ AList.mem_updateWhere.mp hk,
        fun hk ↦ hk⟩⟩
      exact h.update (f := fun u ↦ { u with passwordHash := some passwordHash })
        (fun _ ↦ ⟨rfl, rfl⟩) (fun _ ↦ ⟨rfl, rfl⟩) (fun _ hs ↦ hs)
        (fun u k v hu hk hne hs hv ↦ h.apart userId u k v hu hk hs hv hne.symm) rfl

/-- The command neither creates an account nor attaches anything to one. -/
def LeavesAccounts : RegistryCmd → Prop
  | .revokeAccountSession .. | .revokeTenantSessions .. | .revokeCasServiceTicketSession ..
  | .insertTenantSession .. | .acceptTenantInvitation .. | .updateMember ..
  | .updatePlatformTenant .. | .deletePlatformTenant .. | .restorePlatformTenant ..
  | .requestSupportAccess .. | .revokeSupportAccess .. => True
  | _ => False

structure AccountsLeft (r r' : Registry) : Prop extends NoNewRows r r' where
  users : r'.users = r.users

theorem accountsLeft_of_eq (h : r'.accountRows = r.accountRows) : AccountsLeft r r' := by
  refine ⟨noNewRows_of_eq h, ?_⟩
  simp only [accountRows, Prod.mk.injEq] at h
  exact h.1

theorem accountsLeft_of_memberships {p : Uuid → Membership → Bool} {f : Membership → Membership}
    (hm : r'.memberships = r.memberships.updateWhere p f) (hu : r'.users = r.users)
    (ha : r'.accountSessions = r.accountSessions)
    (hl : r'.externalIdentities = r.externalIdentities) : AccountsLeft r r' :=
  ⟨⟨fun hk ↦ AList.mem_updateWhere.mp (hm ▸ hk), fun hk ↦ ha ▸ hk, fun hk ↦ hl ▸ hk⟩, hu⟩

theorem accountsLeft_of_exec (hc : LeavesAccounts c) (h : exec text c r = .ok r') :
    AccountsLeft r r' := by
  cases c with
  | revokeAccountSession now sessionId =>
      cases h
      exact ⟨⟨fun hk ↦ hk, fun hk ↦ AList.mem_updateWhere.mp hk, fun hk ↦ hk⟩, rfl⟩
  | revokeTenantSessions =>
      cases h
      exact accountsLeft_of_eq rfl
  | revokeCasServiceTicketSession now digest =>
      cases h
      unfold revokeCasServiceTicketSession
      split
      · exact accountsLeft_of_eq rfl
      · dsimp only
        split
        · exact accountsLeft_of_eq rfl
        · exact ⟨⟨fun hk ↦ hk, fun hk ↦ AList.mem_updateWhere.mp hk, fun hk ↦ hk⟩, rfl⟩
  | insertTenantSession =>
      obtain ⟨-, rfl⟩ := insertTenantSession_ok h
      exact accountsLeft_of_eq rfl
  | acceptTenantInvitation now userId membershipId =>
      cases h
      unfold acceptTenantInvitation
      split
      · exact accountsLeft_of_eq rfl
      · split_ifs
        · exact accountsLeft_of_eq rfl
        · exact accountsLeft_of_eq rfl
        · exact accountsLeft_of_eq rfl
        · exact accountsLeft_of_eq rfl
        · exact accountsLeft_of_memberships (p := fun k _ ↦ k = membershipId) rfl rfl rfl rfl
  | updateMember now tenantId membershipId status reason changedBy =>
      cases h
      unfold updateMember
      split
      · exact accountsLeft_of_eq rfl
      · split
        · exact accountsLeft_of_eq rfl
        · dsimp only
          split
          · exact accountsLeft_of_memberships (p := fun k _ ↦ k = membershipId) rfl rfl rfl rfl
          · exact accountsLeft_of_memberships (p := fun k _ ↦ k = membershipId) rfl rfl rfl rfl
  | updatePlatformTenant tenantId name status =>
      cases h
      unfold updatePlatformTenant
      split
      · exact accountsLeft_of_eq rfl
      · split
        · exact accountsLeft_of_eq rfl
        · exact accountsLeft_of_eq rfl
  | deletePlatformTenant now tenantId =>
      cases h
      rw [deletePlatformTenant_eq]
      split
      · exact accountsLeft_of_memberships (deletedTenant_memberships now tenantId r) rfl rfl rfl
      · exact accountsLeft_of_eq rfl
  | restorePlatformTenant tenantId =>
      cases h
      unfold restorePlatformTenant
      split
      · exact accountsLeft_of_eq rfl
      · split
        · exact accountsLeft_of_eq rfl
        · exact accountsLeft_of_eq rfl
  | requestSupportAccess =>
      obtain ⟨-, -, -, rfl⟩ := requestSupportAccess_eq_ok.mp h
      exact accountsLeft_of_eq rfl
  | revokeSupportAccess now requestId =>
      cases h
      unfold revokeSupportAccess
      split
      · exact accountsLeft_of_eq rfl
      · split
        · exact accountsLeft_of_eq rfl
        · exact accountsLeft_of_memberships (revokedSupport_memberships now requestId _ r) rfl rfl rfl
  | _ => exact hc.elim

theorem Uniform.sound (h : Uniform text r) (hform : InOneForm text r c)
    (hexec : exec text c r = .ok r') : Sound text r r' := by
  by_cases hc : LeavesAccounts c
  · have hleft := accountsLeft_of_exec hc hexec
    exact ⟨h.congr hleft.users, hleft.toNoNewRows.attaching⟩
  · cases c with
    | register => exact h.sound_register hform hexec
    | importAccounts => exact h.sound_import hform hexec
    | resolveExternal =>
        obtain ⟨⟨answer, r₁⟩, hresolve, rfl⟩ := Except.map_eq_ok.mp hexec
        exact h.sound_resolveExternal hform hresolve
    | createInitialPlatformAdmin =>
        rw [exec, createInitialPlatformAdmin] at hexec
        split at hexec
        · cases hexec
        · exact h.sound_createPlatformAdmin hform hexec
    | ensurePlatformAdmin =>
        rw [exec, ensurePlatformAdmin] at hexec
        split at hexec
        · cases hexec
          exact h.sound_of_eq rfl
        · exact h.sound_createPlatformAdmin hform hexec
    | createAccountSession => exact h.sound_createAccountSession hform hexec
    | deletePlatformAccount now userId =>
        cases hexec
        rw [deletePlatformAccount_eq]
        split
        · exact h.sound_deleted now userId
        · exact h.sound_of_eq rfl
    | restorePlatformAccount =>
        obtain ⟨⟨found, r₁⟩, hrestore, rfl⟩ := Except.map_eq_ok.mp hexec
        exact h.sound_restore hrestore
    | resetPlatformAccountPassword now userId passwordHash =>
        cases hexec
        exact h.sound_reset now userId passwordHash
    | createMember => exact h.sound_createMember hform.1 hform.2.1 hform.2.2 hexec
    | createPlatformTenant => exact h.sound_createPlatformTenant hexec
    | approveSupportAccess =>
        obtain ⟨⟨found, r₁⟩, happrove, rfl⟩ := Except.map_eq_ok.mp hexec
        exact h.sound_approveSupportAccess happrove
    | _ => exact absurd trivial hc

namespace Sample

/-- A tenant with a role, and an account which has been deleted. -/
def deserted : Registry :=
  { empty with
    tenants := (∅ : Table Uuid Tenant).insert 1 ⟨"acme", "Acme", .active⟩
    roles := (∅ : Table Uuid Role).insert 300 ⟨1, "member", true, []⟩
    users := (∅ : Table Uuid User).insert 20
      ⟨"sue@example.com", "sue@example.com", none, none, "Sue", .deleted, none⟩ }

end Sample

end S3mp.Registry
