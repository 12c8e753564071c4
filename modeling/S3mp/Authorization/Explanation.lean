import S3mp.Authorization.SupportPermissions

/-!
# Explanations and decisions

`simulate_authorization` and `get_effective_permissions` answer for any principal
of the tenant.  They take the bindings of the management query; a request is
decided over the same rows with other additions, and a file command over the rows
of a query of its own.
-/

namespace S3mp.Directory

open Relational Authorization Files

variable {t : Timestamp} {d : Directory} {i : Holder} {p q s : Uuid} {b : Binding}

/-! ## The query of the file plane -/

/-- The enabled groups of an enabled member. -/
def fileGroupPrincipals (principalId : Uuid) (d : Directory) : List Uuid :=
  if (d.principals.lookup principalId).any (·.enabled) then d.groupPrincipals [principalId] else []

def fileSubjectPrincipals (now : Timestamp) (principalId : Uuid) (d : Directory) :
    SubjectKind → List Uuid
  | .human => principalId :: d.fileGroupPrincipals principalId
  | .application => (d.representativePrincipal now principalId).elim [] fun representative ↦
      representative :: d.fileGroupPrincipals representative

/-- `bindings_for`: the roles are not looked at by their names. -/
def bindingsFor (now : Timestamp) (principalId storageSpaceId : Uuid) (kind : SubjectKind)
    (d : Directory) : List Binding :=
  (d.roleBindings.select fun _ b ↦
    b.principalId ∈ d.fileSubjectPrincipals now principalId kind && b.current now &&
      b.storageSpaceId.all (· = storageSpaceId)).flatMap fun (id, b) ↦
        ((d.roles.lookup b.roleId).elim [] (·.permissions)).map (b.binding id)

def kind : Holder → SubjectKind
  | .member _ => .human
  | .application _ => .application

/-! ## What the two queries share -/

def Enabled (p : Uuid) (d : Directory) : Prop :=
  (d.principals.lookup p).any (·.enabled)

/-- The principal itself or, when it is enabled, an enabled group it belongs to. -/
def FileReaches (p q : Uuid) (d : Directory) : Prop :=
  q = p ∨ d.Enabled p ∧ d.Reaches p q

/-- A row of the principal which gives the binding, under a role of any name. -/
def Rowed (t : Timestamp) (q : Uuid) (role : Role) (b : Binding) (d : Directory) : Prop :=
  ∃ id row permission, d.roleBindings.lookup id = some row ∧ row.principalId = q ∧
    row.current t ∧ d.roles.lookup row.roleId = some role ∧ permission ∈ role.permissions ∧
      b = row.binding id permission

/-- The bindings which both queries read. -/
def shared (t : Timestamp) (i : Holder) (d : Directory) : Set Binding :=
  {b | ∃ p q, d.Acts t i p ∧ d.FileReaches p q ∧ d.Attached t q b}

/-- Those of the groups of a disabled member. -/
def lapsed (t : Timestamp) (i : Holder) (d : Directory) : Set Binding :=
  {b | ∃ p q, d.Acts t i p ∧ ¬ d.Enabled p ∧ d.Reaches p q ∧ d.Attached t q b}

/-- Those of a role named `tenant-admin`, and those with a space or a prefix. -/
def fileOnly (t : Timestamp) (i : Holder) (d : Directory) : Set Binding :=
  {b | ∃ p q role, d.Acts t i p ∧ d.FileReaches p q ∧ d.Rowed t q role b ∧
    (role.name = "tenant-admin" ∨ b.storageSpaceId.isSome ∨ (truthy b.canonicalPrefix).isSome)}

theorem attached_iff_rowed :
    d.Attached t q b ↔ ∃ role, d.Rowed t q role b ∧ role.name ≠ "tenant-admin" := by
  constructor
  · rintro ⟨id, row, role, permission, hrow, hq, hcurrent, hrole, hgrant, rfl⟩
    unfold Role.grants at hgrant
    split at hgrant
    · cases hgrant
    · rename_i hname
      exact ⟨role, ⟨id, row, permission, hrow, hq, hcurrent, hrole, hgrant, rfl⟩, hname⟩
  · rintro ⟨role, ⟨id, row, permission, hrow, hq, hcurrent, hrole, hpermission, rfl⟩, hname⟩
    refine ⟨id, row, role, permission, hrow, hq, hcurrent, hrole, ?_, rfl⟩
    rw [Role.grants, if_neg hname]
    exact hpermission

theorem mem_bindingsFor {k : SubjectKind} :
    b ∈ d.bindingsFor t p s k ↔ (∃ q role, q ∈ d.fileSubjectPrincipals t p k ∧
      d.Rowed t q role b) ∧ b.storageSpaceId.all (· = s) := by
  rw [bindingsFor, List.mem_flatMap]
  constructor
  · rintro ⟨⟨id, row⟩, hselected, hb⟩
    obtain ⟨hrow, hcond⟩ := AList.mem_select_iff.mp hselected
    rw [Bool.and_eq_true, Bool.and_eq_true, decide_eq_true_eq] at hcond
    obtain ⟨permission, hpermission, rfl⟩ := List.mem_map.mp hb
    cases hrole : d.roles.lookup row.roleId with
    | none =>
        rw [hrole] at hpermission
        cases hpermission
    | some role =>
        rw [hrole] at hpermission
        exact ⟨⟨row.principalId, role, hcond.1.1, id, row, permission, hrow, rfl, hcond.1.2, hrole,
          hpermission, rfl⟩, hcond.2⟩
  · rintro ⟨⟨q, role, hq, id, row, permission, hrow, rfl, hcurrent, hrole, hpermission, rfl⟩,
      hspace⟩
    refine ⟨(id, row), AList.mem_select_iff.mpr ⟨hrow, ?_⟩, List.mem_map.mpr ⟨permission, ?_, rfl⟩⟩
    · rw [Bool.and_eq_true, Bool.and_eq_true, decide_eq_true_eq]
      exact ⟨⟨hq, hcurrent⟩, hspace⟩
    · rw [hrole]
      exact hpermission

theorem mem_cons_fileGroupPrincipals :
    q ∈ p :: d.fileGroupPrincipals p ↔ d.FileReaches p q := by
  rw [List.mem_cons, fileGroupPrincipals, FileReaches, Enabled]
  refine or_congr_right' fun hne ↦ ?_
  by_cases henabled : (d.principals.lookup p).any (·.enabled)
  · rw [if_pos henabled, mem_groupPrincipals, and_iff_right henabled, Reaches, or_iff_right hne]
    constructor
    · rintro ⟨id, g, hg, hgroup, ⟨p', hp', hmember⟩, hq⟩
      rw [List.mem_singleton] at hp'
      exact ⟨id, g, hg, hgroup, hp' ▸ hmember, hq⟩
    · rintro ⟨id, g, hg, hgroup, hmember, hq⟩
      exact ⟨id, g, hg, hgroup, ⟨p, List.mem_singleton_self p, hmember⟩, hq⟩
  · rw [if_neg henabled]
    exact iff_of_false List.not_mem_nil fun h ↦ henabled h.1

/-- The file plane reads the rows of the principals which the subject acts as. -/
theorem Consistent.mem_fileSubjects (hd : d.Consistent) (hi : d.principal i = some p) :
    q ∈ d.fileSubjectPrincipals t p (kind i) ↔ ∃ r, d.Acts t i r ∧ d.FileReaches r q := by
  cases i with
  | member k =>
      rw [kind, fileSubjectPrincipals, mem_cons_fileGroupPrincipals]
      constructor
      · exact fun h ↦ ⟨p, hi, h⟩
      · rintro ⟨r, hr, h⟩
        obtain rfl : p = r := Option.some.inj (hi.symm.trans hr)
        exact h
  | application a =>
      obtain ⟨app, happ, rfl⟩ := Option.map_eq_some_iff.mp hi
      have hrepresents : ∀ r, d.Acts t (.application a) r ↔
          d.representativePrincipal t app.principalId = some r :=
        fun r ↦ (hd.representative_iff happ).symm
      simp only [hrepresents, kind, fileSubjectPrincipals]
      cases d.representativePrincipal t app.principalId with
      | none =>
          refine iff_of_false List.not_mem_nil ?_
          rintro ⟨r, hr, -⟩
          cases hr
      | some r =>
          rw [Option.elim_some, mem_cons_fileGroupPrincipals]
          constructor
          · exact fun h ↦ ⟨r, rfl, h⟩
          · rintro ⟨r', hr', h⟩
            cases hr'
            exact h

theorem Consistent.mem_effective_shared (hd : d.Consistent) :
    b ∈ d.effective t i ↔ b ∈ d.shared t i ∨ b ∈ d.lapsed t i := by
  rw [hd.mem_effective]
  constructor
  · rintro ⟨p, q, hp, hreaches, hattached⟩
    by_cases henabled : d.Enabled p
    · exact Or.inl ⟨p, q, hp, Or.inr ⟨henabled, hreaches⟩, hattached⟩
    · exact Or.inr ⟨p, q, hp, henabled, hreaches, hattached⟩
  · rintro (⟨p, q, hp, rfl | ⟨-, hreaches⟩, hattached⟩ | ⟨p, q, hp, -, hreaches, hattached⟩)
    · exact ⟨q, q, hp, Or.inl rfl, hattached⟩
    · exact ⟨p, q, hp, hreaches, hattached⟩
    · exact ⟨p, q, hp, hreaches, hattached⟩

/-- An application has the bindings of no platform grant: the grants are those of members. -/
theorem Consistent.platformBindings_application (hd : d.Consistent) {a : Uuid}
    (ha : d.principal (.application a) = some p) (S : ManagementService) :
    S.platformBindings t p d = [] := by
  obtain ⟨app, happ, rfl⟩ := Option.map_eq_some_iff.mp ha
  obtain ⟨e, he⟩ := hd.application happ
  have hmember : ∀ k m, d.memberships.lookup k = some m → m.principalId ≠ app.principalId := by
    intro k m hm hp
    obtain ⟨e', he'⟩ := hd.member hm
    rw [hp, he] at he'
    cases he'
  have hnone : Unprivileged t app.principalId d :=
    fun k m id g hm hp ↦ absurd hp (hmember k m hm)
  exact hnone.platformBindings le_rfl

end S3mp.Directory

namespace S3mp.Authorization

open Relational Directory Identity

/-! ## The explanations -/

/-- A source of a decision, as it is shown. -/
structure Source where
  sourceType : String
  sourceId : Option Uuid
  effect : Decision
  reasonCode : String
  deriving DecidableEq, Repr

structure EffectivePermission where
  permission : String
  decision : AuthorizationDecision
  sources : List Source
  deriving DecidableEq, Repr

structure EffectivePermissions where
  principalId : Uuid
  authorizationVersion : ℕ
  evaluatedAt : Timestamp
  permissions : List EffectivePermission
  deriving DecidableEq, Repr

structure Simulation extends EffectivePermission where
  authorizationVersion : ℕ
  evaluatedAt : Timestamp
  deriving DecidableEq, Repr

/-- The source of a binding which matches. -/
def source (b : Binding) : Source :=
  if "platform tenant-admin".toList.isPrefixOf b.reason.toList then
    ⟨"platform_role", some b.id, b.effect, "platform_tenant_admin"⟩
  else ⟨"role_binding", some b.id, b.effect, "binding_match"⟩

def sources (permission : String) (bindings : List Binding) (now : Timestamp) : List Source :=
  match bindings.filter (Binding.covers permission none "" now) with
  | [] => [⟨"default", none, .deny, "default_deny"⟩]
  | found => found.map source

/-- The permission of the tenant as a whole. -/
def explained (bindings : List Binding) (now : Timestamp) (permission : String) :
    Tx EffectivePermission :=
  match evaluateAt permission bindings none "" now with
  | none => .error (.value (prefixError ""))
  | some decision => .ok ⟨permission, decision, sources permission bindings now⟩

namespace ManagementService

variable (S : ManagementService) (ctx : PrincipalContext) (now : Timestamp)

def requireSameTenant (principalId : Uuid) (d : Directory) : Tx Unit :=
  if principalId ∈ d.principals then .ok ()
  else raise "resource_not_found" "Principal not found" 404

/-- The baseline is added only when a member asks about itself. -/
def explainedBindings (principalId : Uuid) (d : Directory) : List Binding :=
  S.bindings now principalId true
    (principalId = ctx.principalId && ctx.subjectKind = .human) d

def getEffectivePermissions (principalId : Uuid) (d : Directory) : Tx EffectivePermissions := do
  requireSameTenant principalId d
  let permissions ← (S.knownPermissions.dedup.mergeSort fun a b ↦ decide (a ≤ b)).mapM
    (explained (S.explainedBindings ctx now principalId d) now)
  return ⟨principalId, ctx.authorizationVersion, now, permissions⟩

def simulateAuthorization (principalId : Uuid) (permission : String) (d : Directory) :
    Tx Simulation := do
  requireSameTenant principalId d
  S.validatePermissions [permission]
  let result ← explained (S.explainedBindings ctx now principalId d) now permission
  return ⟨result, ctx.authorizationVersion, now⟩

end ManagementService

/-! ## The claim of an explanation -/

section

variable (S : ManagementService) (ctx subject : PrincipalContext) (t : Timestamp) (d : Directory)
  (permission : String)

def SimulatedAllowed : Prop :=
  ∃ r, S.simulateAuthorization ctx t subject.principalId permission d = .ok r ∧
    r.decision.decision = .allow

def ListedAllowed : Prop :=
  ∃ r, S.getEffectivePermissions ctx t subject.principalId d = .ok r ∧
    ∃ e ∈ r.permissions, e.permission = permission ∧ e.decision.decision = .allow

/-- What the caller is told about the subject is what the subject is granted. -/
structure Explains (storageSpaceId : Uuid) (objectKey : String) : Prop where
  simulated : SimulatedAllowed S ctx subject t d permission ↔
    S.requirePermission subject t permission d = .ok ()
  simulatedFiles : SimulatedAllowed S ctx subject t d permission ↔
    Allowed (d.bindingsFor t subject.principalId storageSpaceId subject.subjectKind) permission
      (some storageSpaceId) objectKey t
  listed : ListedAllowed S ctx subject t d permission ↔
    S.requirePermission subject t permission d = .ok ()
  listedFiles : ListedAllowed S ctx subject t d permission ↔
    Allowed (d.bindingsFor t subject.principalId storageSpaceId subject.subjectKind) permission
      (some storageSpaceId) objectKey t

end

/-- The context is one of the subject. -/
structure Authenticates (i : Holder) (subject : PrincipalContext) (d : Directory) : Prop where
  principal : d.principal i = some subject.principalId
  kind : subject.subjectKind = kind i

/-! ## When the explanations hold -/

section

variable (S : ManagementService) (ctx : PrincipalContext) (t : Timestamp) (i : Holder) (p : Uuid)

/-- The member asks about itself. -/
def AsksItself (ctx : PrincipalContext) (p : Uuid) : Prop :=
  p = ctx.principalId ∧ ctx.subjectKind = .human

/-- What a request of the subject and an explanation of it have in common. -/
def common (d : Directory) : Set Binding :=
  d.shared t i ∪ d.lapsed t i ∪ {b | b ∈ S.platformBindings t p d}

/-- What an explanation adds to the bindings which both queries read. -/
def explainedOnly (d : Directory) : Set Binding :=
  d.lapsed t i ∪ {b | b ∈ S.platformBindings t p d} ∪
    {b | AsksItself ctx p ∧ b ∈ S.baselineBindings}

/-- The baseline is added for both, or it decides nothing. -/
inductive BaselineAgrees (d : Directory) (x : Place) : Prop where
  | same (h : AsksItself ctx p ↔ isMember i)
  | other (h : ¬ ∃ b ∈ S.baselineBindings, b.speaks x t)
  | decided (effect : Decision) (h : Says (common S t i p d) effect x t)

/-- What one of the two queries reads alone leaves the decision as it is: a shared binding
denies, both sides refuse, or both give. -/
inductive PlanesAgree (d : Directory) (x y : Place) : Prop where
  | denied (h : Says (d.shared t i) .deny x t)
  | refused
      (hx : Says (explainedOnly S ctx t i p d) .deny x t ∨
        ¬ Says (d.shared t i) .allow x t ∧ ¬ Says (explainedOnly S ctx t i p d) .allow x t)
      (hy : Says (d.fileOnly t i) .deny y t ∨
        ¬ Says (d.shared t i) .allow x t ∧ ¬ Says (d.fileOnly t i) .allow y t)
  | given
      (hx : ¬ Says (explainedOnly S ctx t i p d) .deny x t)
      (hy : ¬ Says (d.fileOnly t i) .deny y t)
      (h : Says (d.shared t i) .allow x t ∨
        Says (explainedOnly S ctx t i p d) .allow x t ∧ Says (d.fileOnly t i) .allow y t)

end

variable {S : ManagementService} {ctx subject : PrincipalContext} {t : Timestamp} {d : Directory}
  {i : Holder} {p s : Uuid} {permission key : String} {x y : Place} {A B : Set Binding}
  {effect : Decision}

/-- The verdict over a list of bindings, by what the set of its members says. -/
theorem allowedAt_iff_verdict {bindings : List Binding} (hmem : ∀ b, b ∈ bindings ↔ b ∈ A) :
    AllowedAt bindings x t ↔ ¬ Says A .deny x t ∧ Says A .allow x t := by
  rw [allowedAt_iff_set (E := A) (R := []) (fun b ↦ by rw [hmem b]; simp) (by simp)]
  simp

theorem explained_eq_ok {bindings : List Binding} :
    explained bindings t permission = .ok ⟨permission,
      resolve (bindings.filter (Binding.covers permission none "" t)),
      sources permission bindings t⟩ := by
  have hempty : isCanonicalPrefix "" := rfl
  rw [explained, evaluateAt, if_pos hempty]

theorem resolve_allow_iff_allowedAt {bindings : List Binding} :
    (resolve (bindings.filter (Binding.covers permission none "" t))).decision = .allow ↔
      AllowedAt bindings (tenantWide permission) t := by
  have hempty : isCanonicalPrefix "" := rfl
  rw [AllowedAt, Allowed, evaluateAt, tenantWide, if_pos hempty, Option.map_some, Option.some_inj]

section

variable (hsubject : Authenticates i subject d)

include hsubject

theorem Authenticates.requireSameTenant (hd : d.Consistent) :
    ManagementService.requireSameTenant subject.principalId d = .ok () := by
  have hrow : ∃ row, d.principals.lookup subject.principalId = some row := by
    cases i with
    | member k =>
        obtain ⟨m, hm, hp⟩ := Option.map_eq_some_iff.mp hsubject.principal
        obtain ⟨e, he⟩ := hd.member hm
        exact ⟨_, hp ▸ he⟩
    | application a =>
        obtain ⟨app, happ, hp⟩ := Option.map_eq_some_iff.mp hsubject.principal
        obtain ⟨e, he⟩ := hd.application happ
        exact ⟨_, hp ▸ he⟩
  obtain ⟨row, hrow⟩ := hrow
  exact if_pos (AList.mem_of_lookup hrow)

theorem simulatedAllowed_iff (hd : d.Consistent) (hknown : permission ∈ S.knownPermissions) :
    SimulatedAllowed S ctx subject t d permission ↔
      AllowedAt (S.explainedBindings ctx t subject.principalId d) (tenantWide permission) t := by
  have hvalid : S.validatePermissions [permission] = .ok () := by
    simp [ManagementService.validatePermissions, hknown]
  rw [SimulatedAllowed, ManagementService.simulateAuthorization, hsubject.requireSameTenant hd,
    hvalid, explained_eq_ok, ← resolve_allow_iff_allowedAt]
  constructor
  · rintro ⟨r, hr, hallow⟩
    cases hr
    exact hallow
  · exact fun hallow ↦ ⟨_, rfl, hallow⟩

theorem listedAllowed_iff (hd : d.Consistent) (hknown : permission ∈ S.knownPermissions) :
    ListedAllowed S ctx subject t d permission ↔
      AllowedAt (S.explainedBindings ctx t subject.principalId d) (tenantWide permission) t := by
  have hlist : ∀ names : List String,
      names.mapM (explained (S.explainedBindings ctx t subject.principalId d) t) =
        (.ok (names.map fun q ↦ ⟨q, resolve
          ((S.explainedBindings ctx t subject.principalId d).filter (Binding.covers q none "" t)),
          sources q (S.explainedBindings ctx t subject.principalId d) t⟩) :
            Tx (List EffectivePermission)) := by
    intro names
    refine Eq.trans ?_ List.mapM_pure
    exact congrArg (fun f ↦ names.mapM f) (funext fun q ↦ explained_eq_ok)
  rw [ListedAllowed, ManagementService.getEffectivePermissions, hsubject.requireSameTenant hd, hlist,
    ← resolve_allow_iff_allowedAt]
  constructor
  · rintro ⟨r, hr, e, he, rfl, hallow⟩
    cases hr
    obtain ⟨q, -, rfl⟩ := List.mem_map.mp he
    exact hallow
  · intro hallow
    refine ⟨_, rfl, _, List.mem_map.mpr ⟨permission, ?_, rfl⟩, rfl, hallow⟩
    rw [(List.mergeSort_perm _ _).mem_iff, List.mem_dedup]
    exact hknown

end

/-! ## What each side reads -/

theorem allow_of_mem_baseline {b : Binding} (hb : b ∈ S.baselineBindings) : b.effect = .allow := by
  obtain ⟨q, -, rfl⟩ := List.mem_map.mp hb
  rfl

theorem mem_bindings (hd : d.Consistent) (hp : d.principal i = some p) {platform baseline : Bool}
    {b : Binding} :
    b ∈ S.bindings t p platform baseline d ↔ (b ∈ d.shared t i ∨ b ∈ d.lapsed t i) ∨
      (baseline ∧ b ∈ S.baselineBindings) ∨ (platform ∧ b ∈ S.platformBindings t p d) := by
  have heffective : b ∈ d.bindingsForPrincipal t p ↔ b ∈ d.effective t i := by
    constructor
    · exact fun hb ↦ ⟨p, hp, hb⟩
    · rintro ⟨p', hp', hb⟩
      obtain rfl : p = p' := Option.some.inj (hp.symm.trans hp')
      exact hb
  rw [ManagementService.bindings, List.mem_append, List.mem_append, heffective,
    hd.mem_effective_shared, or_assoc]
  cases baseline <;> cases platform <;> simp

theorem mem_explainedBindings (hd : d.Consistent) (hp : d.principal i = some p) {b : Binding} :
    b ∈ S.explainedBindings ctx t p d ↔ b ∈ d.shared t i ∪ explainedOnly S ctx t i p d := by
  rw [ManagementService.explainedBindings, mem_bindings hd hp]
  simp only [explainedOnly, AsksItself, Set.mem_union, Set.mem_ofPred_eq, Bool.and_eq_true,
    decide_eq_true_eq]
  tauto

section

variable (hd : d.Consistent) (hsubject : Authenticates i subject d)

include hd hsubject

/-- An application asks for no platform grant and has none. -/
theorem mem_requestBindings {b : Binding} :
    b ∈ S.bindings t subject.principalId (subject.subjectKind = .human)
        (subject.subjectKind = .human) d ↔
      b ∈ common S t i subject.principalId d ∪ {b | isMember i ∧ b ∈ S.baselineBindings} := by
  rw [mem_bindings hd hsubject.principal, hsubject.kind]
  cases i with
  | member k =>
      simp only [kind, isMember, common, Set.mem_union, Set.mem_ofPred_eq, decide_true, true_and]
      tauto
  | application a =>
      rw [hd.platformBindings_application hsubject.principal]
      simp [kind, isMember, common, hd.platformBindings_application hsubject.principal]

theorem requirePermission_eq_ok :
    S.requirePermission subject t permission d = .ok () ↔
      ¬ Says (common S t i subject.principalId d) .deny (tenantWide permission) t ∧
        (Says (common S t i subject.principalId d) .allow (tenantWide permission) t ∨
          isMember i ∧ ∃ b ∈ S.baselineBindings, b.speaks (tenantWide permission) t) := by
  have hallowed : S.requirePermission subject t permission d = .ok () ↔
      AllowedAt (S.bindings t subject.principalId (subject.subjectKind = .human)
        (subject.subjectKind = .human) d) (tenantWide permission) t := by
    rw [ManagementService.requirePermission]
    split
    · rename_i h
      exact iff_of_true rfl h
    · rename_i h
      refine iff_of_false ?_ h
      rintro ⟨⟩
  rw [hallowed, allowedAt_iff_set (E := common S t i subject.principalId d)
    (R := if isMember i then S.baselineBindings else [])]
  · refine and_congr_right fun _ ↦ or_congr_right ?_
    cases isMember i <;> simp
  · intro b
    rw [mem_requestBindings hd hsubject, Set.mem_union]
    refine or_congr_right ?_
    cases isMember i <;> simp
  · intro b hb
    split at hb
    · exact allow_of_mem_baseline hb
    · cases hb

end

theorem explained_verdict (hd : d.Consistent) (hp : d.principal i = some p) :
    AllowedAt (S.explainedBindings ctx t p d) x t ↔
      ¬ (Says (d.shared t i) .deny x t ∨ Says (explainedOnly S ctx t i p d) .deny x t) ∧
        (Says (d.shared t i) .allow x t ∨ Says (explainedOnly S ctx t i p d) .allow x t) := by
  rw [allowedAt_iff_verdict fun b ↦ mem_explainedBindings hd hp, says_union, says_union]

theorem explained_verdict_common (hd : d.Consistent) (hp : d.principal i = some p) :
    AllowedAt (S.explainedBindings ctx t p d) x t ↔
      ¬ Says (common S t i p d) .deny x t ∧ (Says (common S t i p d) .allow x t ∨
        AsksItself ctx p ∧ ∃ b ∈ S.baselineBindings, b.speaks x t) := by
  rw [allowedAt_iff_set (E := common S t i p d)
    (R := if p = ctx.principalId && ctx.subjectKind = .human then S.baselineBindings else [])]
  · refine and_congr_right fun _ ↦ or_congr_right ?_
    split
    · rename_i h
      simp only [Bool.and_eq_true, decide_eq_true_eq] at h
      exact (and_iff_right h).symm
    · rename_i h
      simp only [Bool.and_eq_true, decide_eq_true_eq] at h
      exact iff_of_false (by simp) fun hself ↦ h hself.1
  · intro b
    rw [mem_explainedBindings hd hp]
    simp only [explainedOnly, common, Set.mem_union, Set.mem_ofPred_eq]
    split
    · rename_i h
      simp only [Bool.and_eq_true, decide_eq_true_eq] at h
      rw [← or_assoc, ← or_assoc, AsksItself, and_iff_right h]
    · rename_i h
      simp only [Bool.and_eq_true, decide_eq_true_eq] at h
      simp only [AsksItself, h, false_and, or_false, or_assoc, List.not_mem_nil]
  · intro b hb
    split at hb
    · exact allow_of_mem_baseline hb
    · cases hb

/-! ## The file plane -/

/-- A place of the space. -/
def placeIn (permission : String) (storageSpaceId : Uuid) (key : String)
    (hkey : isCanonicalPrefix key) : Place :=
  ⟨permission, some storageSpaceId, key, hkey⟩

theorem unscoped_of_speaks {b : Binding} (h : b.speaks (tenantWide permission) t) :
    b.storageSpaceId = none ∧ truthy b.canonicalPrefix = none := by
  simp only [Binding.speaks, Binding.covers, tenantWide, Bool.and_eq_true, decide_eq_true_eq,
    Bool.or_eq_true] at h
  obtain ⟨⟨-, hspace⟩, hscope⟩ := h
  refine ⟨hspace.elim id of_decide_eq_true, ?_⟩
  unfold scopeMatches at hscope
  cases hdirectory : truthy b.canonicalPrefix with
  | none => rfl
  | some directory =>
      have hne : directory ≠ "" := of_decide_eq_true (Option.filter_eq_some_iff.mp hdirectory).2
      rw [hdirectory] at hscope
      exact absurd (by simpa [within, String.toList_append] using hscope) hne

theorem speaks_of_unscoped {b : Binding} {hkey : isCanonicalPrefix key}
    (h : b.speaks (placeIn permission s key hkey) t) (hspace : b.storageSpaceId = none)
    (hunscoped : truthy b.canonicalPrefix = none) : b.speaks (tenantWide permission) t := by
  obtain ⟨hpermission, hstarts, hends⟩ := permission_of_speaks h
  simp only [Binding.speaks, Binding.covers, tenantWide, scopeMatches, hspace, hunscoped,
    Bool.and_eq_true, Bool.or_eq_true, decide_eq_true_eq]
  exact ⟨⟨⟨⟨decide_eq_true hpermission, hstarts⟩, hends⟩, Or.inl trivial⟩, rfl⟩

theorem says_bindingsFor (hd : d.Consistent) (hp : d.principal i = some p)
    {hkey : isCanonicalPrefix key} :
    Says {b | b ∈ d.bindingsFor t p s (kind i)} effect (placeIn permission s key hkey) t ↔
      Says (d.shared t i) effect (tenantWide permission) t ∨
        Says (d.fileOnly t i) effect (placeIn permission s key hkey) t := by
  constructor
  · rintro ⟨b, hb, hspeaks, heffect⟩
    obtain ⟨⟨q, role, hq, hrow⟩, -⟩ := mem_bindingsFor.mp hb
    obtain ⟨r, hr, hreaches⟩ := (hd.mem_fileSubjects hp).mp hq
    by_cases honly : role.name = "tenant-admin" ∨ b.storageSpaceId.isSome ∨
        (truthy b.canonicalPrefix).isSome
    · exact Or.inr ⟨b, ⟨r, q, role, hr, hreaches, hrow, honly⟩, hspeaks, heffect⟩
    · simp only [not_or, Bool.not_eq_true, Option.isSome_eq_false_iff, Option.isNone_iff_eq_none]
        at honly
      obtain ⟨hname, hspace, hunscoped⟩ := honly
      exact Or.inl ⟨b, ⟨r, q, hr, hreaches, attached_iff_rowed.mpr ⟨role, hrow, hname⟩⟩,
        speaks_of_unscoped hspeaks hspace hunscoped, heffect⟩
  · rintro (⟨b, ⟨r, q, hr, hreaches, hattached⟩, hspeaks, heffect⟩ |
      ⟨b, ⟨r, q, role, hr, hreaches, hrow, -⟩, hspeaks, heffect⟩)
    · obtain ⟨role, hrow, -⟩ := attached_iff_rowed.mp hattached
      refine ⟨b, mem_bindingsFor.mpr ⟨⟨q, role, (hd.mem_fileSubjects hp).mpr ⟨r, hr, hreaches⟩,
        hrow⟩, ?_⟩, covers_of_tenantWide hspeaks, heffect⟩
      rw [(unscoped_of_speaks hspeaks).1]
      rfl
    · refine ⟨b, mem_bindingsFor.mpr ⟨⟨q, role, (hd.mem_fileSubjects hp).mpr ⟨r, hr, hreaches⟩,
        hrow⟩, ?_⟩, hspeaks, heffect⟩
      simp only [Binding.speaks, placeIn, Binding.covers_some, Binding.matches, Bool.and_eq_true]
        at hspeaks
      exact hspeaks.1.2

theorem bindingsFor_verdict (hd : d.Consistent) (hsubject : Authenticates i subject d)
    (hkey : isCanonicalPrefix key) :
    Allowed (d.bindingsFor t subject.principalId s subject.subjectKind) permission (some s) key t ↔
      ¬ (Says (d.shared t i) .deny (tenantWide permission) t ∨
          Says (d.fileOnly t i) .deny (placeIn permission s key hkey) t) ∧
        (Says (d.shared t i) .allow (tenantWide permission) t ∨
          Says (d.fileOnly t i) .allow (placeIn permission s key hkey) t) := by
  change AllowedAt _ (placeIn permission s key hkey) t ↔ _
  rw [allowedAt_iff_verdict (A := {b | b ∈ d.bindingsFor t subject.principalId s
      subject.subjectKind}) fun b ↦ Iff.rfl, hsubject.kind, says_bindingsFor hd hsubject.principal,
    says_bindingsFor hd hsubject.principal]

/-! ## Agreement -/

theorem baselineAgrees_iff (hd : d.Consistent) (hsubject : Authenticates i subject d) :
    (AllowedAt (S.explainedBindings ctx t subject.principalId d) (tenantWide permission) t ↔
        S.requirePermission subject t permission d = .ok ()) ↔
      BaselineAgrees S ctx t i subject.principalId d (tenantWide permission) := by
  rw [explained_verdict_common hd hsubject.principal, requirePermission_eq_ok hd hsubject]
  constructor
  · intro h
    by_cases hdeny : Says (common S t i subject.principalId d) .deny (tenantWide permission) t
    · exact .decided .deny hdeny
    · by_cases hallow : Says (common S t i subject.principalId d) .allow (tenantWide permission) t
      · exact .decided .allow hallow
      · by_cases hbaseline : ∃ b ∈ S.baselineBindings, b.speaks (tenantWide permission) t
        · simp only [hdeny, hallow, hbaseline, not_false_eq_true, false_or, and_true,
            true_and] at h
          exact .same h
        · exact .other hbaseline
  · rintro (hsame | hother | ⟨effect, hsays⟩)
    · rw [hsame]
    · simp only [hother, and_false]
    · cases effect with
      | deny => exact iff_of_false (fun h ↦ h.1 hsays) fun h ↦ h.1 hsays
      | allow => exact and_congr_right fun _ ↦ iff_of_true (Or.inl hsays) (Or.inl hsays)

theorem planesAgree_iff (hd : d.Consistent) (hsubject : Authenticates i subject d)
    (hkey : isCanonicalPrefix key) :
    (AllowedAt (S.explainedBindings ctx t subject.principalId d) (tenantWide permission) t ↔
        Allowed (d.bindingsFor t subject.principalId s subject.subjectKind) permission (some s) key
          t) ↔
      PlanesAgree S ctx t i subject.principalId d (tenantWide permission)
        (placeIn permission s key hkey) := by
  rw [explained_verdict hd hsubject.principal, bindingsFor_verdict hd hsubject hkey]
  constructor
  · intro h
    by_cases hdenied : Says (d.shared t i) .deny (tenantWide permission) t
    · exact .denied hdenied
    · simp only [hdenied, false_or] at h
      by_cases hgiven : ¬ Says (d.fileOnly t i) .deny (placeIn permission s key hkey) t ∧
          (Says (d.shared t i) .allow (tenantWide permission) t ∨
            Says (d.fileOnly t i) .allow (placeIn permission s key hkey) t)
      · refine .given (h.mpr hgiven).1 hgiven.1 ?_
        rw [or_and_left]
        exact ⟨(h.mpr hgiven).2, hgiven.2⟩
      · have hexplained := fun hx ↦ hgiven (h.mp hx)
        rw [not_and_or, not_not, not_or] at hgiven
        refine .refused ?_ hgiven
        by_contra hnone
        obtain ⟨hundenied, hallow⟩ := not_or.mp hnone
        refine hexplained ⟨hundenied, ?_⟩
        rwa [← not_or, not_not] at hallow
  · rintro (hdenied | ⟨hx, hy⟩ | ⟨hx, hy, hboth⟩)
    · exact iff_of_false (fun h ↦ h.1 (Or.inl hdenied)) fun h ↦ h.1 (Or.inl hdenied)
    · refine iff_of_false ?_ ?_
      · rintro ⟨hundenied, hallow⟩
        rcases hx with hdeny | ⟨hshared, honly⟩
        · exact hundenied (Or.inr hdeny)
        · exact hallow.elim hshared honly
      · rintro ⟨hundenied, hallow⟩
        rcases hy with hdeny | ⟨hshared, honly⟩
        · exact hundenied (Or.inr hdeny)
        · exact hallow.elim hshared honly
    · rw [or_and_left] at hboth
      rw [or_iff_left hx, or_iff_left hy]
      exact and_congr_right fun _ ↦ iff_of_true hboth.1 hboth.2

/-- What a caller is told about a subject is what the subject is granted exactly when the baseline
is added for both and what only one of the queries reads leaves the decision as it is. -/
theorem explains_iff (hd : d.Consistent) (hsubject : Authenticates i subject d)
    (hknown : permission ∈ S.knownPermissions) (hkey : isCanonicalPrefix key) :
    Explains S ctx subject t d permission s key ↔
      BaselineAgrees S ctx t i subject.principalId d (tenantWide permission) ∧
        PlanesAgree S ctx t i subject.principalId d (tenantWide permission)
          (placeIn permission s key hkey) := by
  rw [← baselineAgrees_iff hd hsubject, ← planesAgree_iff hd hsubject hkey]
  have hsimulated : SimulatedAllowed S ctx subject t d permission ↔ _ :=
    simulatedAllowed_iff hsubject hd hknown
  have hlisted : ListedAllowed S ctx subject t d permission ↔ _ :=
    listedAllowed_iff hsubject hd hknown
  constructor
  · rintro ⟨hrequest, hfiles, -, -⟩
    rw [hsimulated] at hrequest hfiles
    exact ⟨hrequest, hfiles⟩
  · rintro ⟨hrequest, hfiles⟩
    exact ⟨hsimulated.trans hrequest, hsimulated.trans hfiles, hlisted.trans hrequest,
      hlisted.trans hfiles⟩

namespace ExplanationSample

def service : ManagementService where
  knownPermissions := ["applications.read", "files.read"]
  delegablePermissions := none
  tenantAdminPermissions := none
  baselineId := fun _ ↦ 0

/-- Two members, the second with a role of its own. -/
def tenant : Directory where
  tenantActive := true
  permissions := ["applications.read", "files.read"]
  principals := ((∅ : Table Uuid Principal).insert 8 ⟨.user, true⟩).insert 9 ⟨.user, true⟩
  users := ((∅ : Table Uuid User).insert 20 ⟨"ann@example.com", .active⟩).insert 21
    ⟨"ben@example.com", .active⟩
  memberships := ((∅ : Table Uuid Membership).insert 110 ⟨20, 8, .active, 1, none⟩).insert 111
    ⟨21, 9, .active, 1, none⟩
  groups := ∅
  groupMembers := ∅
  roles := (∅ : Table Uuid Role).insert 300 ⟨"reader", false, ["files.read"]⟩
  roleBindings := (∅ : Table Uuid RoleBinding).insert 400
    ⟨9, 300, .allow, none, none, "reader", 1, 100, 8, none⟩
  applications := ∅
  owners := ∅
  representatives := ∅
  sessions := ∅
  platformBindings := ∅

def ann : PrincipalContext := ⟨forMember 8 110 1, by decide⟩

def ben : PrincipalContext := ⟨forMember 9 111 1, by decide⟩

theorem lookup_membership {k : Uuid} {m : Membership} (h : tenant.memberships.lookup k = some m) :
    k = 110 ∧ m = ⟨20, 8, .active, 1, none⟩ ∨ k = 111 ∧ m = ⟨21, 9, .active, 1, none⟩ := by
  change (((∅ : Table Uuid Membership).insert 110 _).insert 111 _).lookup k = some m at h
  rw [AList.lookup_insert'] at h
  split at h
  · exact Or.inr ⟨‹_›, (Option.some.inj h).symm⟩
  · exact Or.inl (AList.lookup_single.mp h)

theorem consistent : tenant.Consistent := by
  refine ⟨fun h ↦ ?_, fun h h' hp ↦ ?_, fun h ↦ (by cases h), fun h ↦ (by cases h),
    fun h ↦ (by cases h), fun h ↦ (by cases h), fun h ↦ (by cases h), fun h ↦ (by cases h),
    fun h ↦ (by cases h)⟩
  · rcases lookup_membership h with ⟨-, rfl⟩ | ⟨-, rfl⟩
    · exact ⟨true, rfl⟩
    · exact ⟨true, rfl⟩
  · rcases lookup_membership h with ⟨rfl, rfl⟩ | ⟨rfl, rfl⟩ <;>
      rcases lookup_membership h' with ⟨rfl, rfl⟩ | ⟨rfl, rfl⟩
    · rfl
    · cases hp
    · cases hp
    · rfl

theorem authenticates : Authenticates (.member 111) ben tenant :=
  ⟨rfl, rfl⟩

theorem permission_of_attached {q : Uuid} {b : Binding} (h : tenant.Attached 5 q b) :
    b.permission = "files.read" ∧ b.effect = .allow := by
  obtain ⟨id, row, role, permission, hrow, -, -, hrole, hgrant, rfl⟩ := h
  obtain ⟨-, rfl⟩ := AList.lookup_single.mp hrow
  obtain ⟨-, rfl⟩ := AList.lookup_single.mp hrole
  exact ⟨List.mem_singleton.mp hgrant, rfl⟩

/-- The rows of the tenant speak about nothing else, and there is no platform grant. -/
theorem permission_of_says {effect : Decision} {x : Place}
    (h : Says (common service 5 (.member 111) 9 tenant) effect x 5) :
    x.permission = "files.read" ∧ effect = .allow := by
  obtain ⟨b, hb, hspeaks, rfl⟩ := h
  rw [← (permission_of_speaks hspeaks).1]
  rcases hb with (⟨_, q, -, -, hattached⟩ | ⟨_, q, -, -, -, hattached⟩) | hplatform
  · exact permission_of_attached hattached
  · exact permission_of_attached hattached
  · cases hplatform

end ExplanationSample

theorem explains_sample : Explains ExplanationSample.service ExplanationSample.ann
    ExplanationSample.ben 5 ExplanationSample.tenant "files.read" 70 "" := by
  refine (explains_iff ExplanationSample.consistent ExplanationSample.authenticates (by decide)
    rfl).mpr ⟨.other ?_, .given ?_ ?_ (Or.inl ?_)⟩
  · rintro ⟨b, hb, hspeaks⟩
    obtain ⟨q, hq, rfl⟩ := List.mem_map.mp hb
    obtain rfl : q = "files.read" := (permission_of_speaks hspeaks).1
    exact absurd hq (by decide)
  · rintro ⟨b, (hb | hb) | hb, hspeaks, hdeny⟩
    · have hallow := (ExplanationSample.permission_of_says ⟨b, Or.inl (Or.inr hb), hspeaks, rfl⟩).2
      rw [hallow] at hdeny
      cases hdeny
    · cases hb
    · rw [allow_of_mem_baseline hb.2] at hdeny
      cases hdeny
  · rintro ⟨b, ⟨p, q, role, -, -, ⟨id, row, permission, hrow, -, -, -, -, rfl⟩, -⟩, -, hdeny⟩
    obtain ⟨-, rfl⟩ := AList.lookup_single.mp hrow
    cases hdeny
  · refine ⟨_, ⟨9, 9, rfl, Or.inl rfl, 400, _, _, "files.read", AList.lookup_insert _, rfl, ?_,
      AList.lookup_insert _, ?_, rfl⟩, ?_, rfl⟩
    · decide
    · decide
    · decide

/-- A member who asks about another is told that it may not read the applications. -/
theorem explanation_differs : ¬ Explains ExplanationSample.service ExplanationSample.ann
    ExplanationSample.ben 5 ExplanationSample.tenant "applications.read" 70 "" := by
  intro h
  have hsimulated : SimulatedAllowed ExplanationSample.service ExplanationSample.ann
      ExplanationSample.ben 5 ExplanationSample.tenant "applications.read" ↔ _ :=
    simulatedAllowed_iff ExplanationSample.authenticates ExplanationSample.consistent (by decide)
  have hagree := (baselineAgrees_iff ExplanationSample.consistent
    ExplanationSample.authenticates).mp (hsimulated.symm.trans h.simulated)
  rcases hagree with hsame | hother | ⟨effect, hsays⟩
  · exact absurd (hsame.mpr rfl).1 (by decide)
  · exact hother ⟨_, List.mem_cons_self, by decide⟩
  · exact absurd (ExplanationSample.permission_of_says hsays).1 (by decide)

end S3mp.Authorization
