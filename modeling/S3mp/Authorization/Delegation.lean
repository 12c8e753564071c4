import S3mp.Authorization.ManagementService
import S3mp.Common.Sequencing
import S3mp.Identity.Bumps

/-!
# What a delegation may give away

A grant or a later edit of its role gives permissions at places and instants.
Measured by the bindings of the actor at the time of the call, each of them has
to be allowed to the actor there, by an authority which lasts as long.  The
services compare with the actor's authority over the tenant as a whole, so what
decides is where a deny binding of the actor speaks.
-/

namespace S3mp.Authorization

open Relational Directory Identity

inductive DelegationCmd where
  | createRoleBinding (id principalId : Uuid) (data : GrantData)
  | updateRoleBinding (id : Uuid) (data : GrantData)
  | createMember (ids : MemberIds) (normalizedEmail : String) (roleId : Uuid)
  | updateRole (roleId : Uuid) (name : Option String) (permissions : Option (List String))

namespace ManagementService

variable (S : ManagementService) (ctx : PrincipalContext) (now : Timestamp)

def delegate : DelegationCmd → Directory → Tx Directory
  | .createRoleBinding id principalId data, d => S.createRoleBinding ctx now id principalId data d
  | .updateRoleBinding id data, d => S.updateRoleBinding ctx now id data d
  | .createMember ids normalizedEmail roleId, d => S.createMember ctx now ids normalizedEmail roleId d
  | .updateRole roleId name permissions, d => S.updateRole ctx now roleId name permissions d

end ManagementService

/-- A permission in a space or in the tenant as a whole, at a canonical key. -/
structure Place where
  permission : String
  storageSpaceId : Option Uuid
  objectKey : String
  canonical : isCanonicalPrefix objectKey

def Binding.speaks (x : Place) (t : Timestamp) (b : Binding) : Bool :=
  b.covers x.permission x.storageSpaceId x.objectKey t

def AllowedAt (bindings : List Binding) (x : Place) (t : Timestamp) : Prop :=
  Allowed bindings x.permission x.storageSpaceId x.objectKey t

def DeniedAt (bindings : List Binding) (x : Place) (t : Timestamp) : Prop :=
  ∃ b ∈ bindings, b.speaks x t ∧ b.effect = .deny

/-- An allow binding which speaks at `now` lasts beyond `t`. -/
def Lasts (bindings : List Binding) (x : Place) (now t : Timestamp) : Prop :=
  ∃ b ∈ bindings, b.speaks x now ∧ b.effect = .allow ∧ t < b.expiresAt

/-- The row, with this role, is an allow binding in force which speaks about the place. -/
def RowGives (id : Uuid) (b : RoleBinding) (role : Role) (x : Place) (t : Timestamp) : Prop :=
  b.revokedAt = none ∧ b.effect = .allow ∧ x.permission ∈ role.grants ∧
    (b.binding id x.permission).speaks x t

def Gives (id : Uuid) (x : Place) (t : Timestamp) (d : Directory) : Prop :=
  ∃ b role, d.roleBindings.lookup id = some b ∧ d.roles.lookup b.roleId = some role ∧
    RowGives id b role x t

section

variable (S : ManagementService) (ctx : PrincipalContext) (now : Timestamp)

/-- Whatever a binding newly gives from now on is allowed to the actor, whose authority lasts
until then. -/
def WithinAuthority (d d' : Directory) : Prop :=
  ∀ id x t, now ≤ t → Gives id x t d' → ¬ Gives id x t d →
    AllowedAt (S.actorBindings ctx now d) x now ∧ Lasts (S.actorBindings ctx now d) x now t

/-- The role after an edit. -/
def editedRole (name : Option String) (permissions : Option (List String)) (role : Role) : Role :=
  { role with name := name.getD role.name, permissions := permissions.getD role.permissions }

/-- The request gives something where a deny binding of the actor speaks; an edit of a role also
when no allow binding of the actor lasts as long as a binding of the role. -/
def Exceeds (d : Directory) : DelegationCmd → Prop
  | .createRoleBinding _ _ data => data.effect = .allow ∧ data.startsAt.getD now < data.expiresAt ∧
      ∃ role x, d.roles.lookup data.roleId = some role ∧ x.permission ∈ role.permissions ∧
        DeniedAt (S.actorBindings ctx now d) x now
  | .createMember _ _ roleId => ∃ role x, d.roles.lookup roleId = some role ∧
      x.permission ∈ role.permissions ∧ DeniedAt (S.actorBindings ctx now d) x now
  | .updateRoleBinding id data => ∃ row role x t, d.roleBindings.lookup id = some row ∧
      d.roles.lookup data.roleId = some role ∧ now ≤ t ∧
      RowGives id (row.rewritten now data) role x t ∧ ¬ Gives id x t d ∧
      DeniedAt (S.actorBindings ctx now d) x now
  | .updateRole roleId name permissions => ∃ role id b x t, d.roles.lookup roleId = some role ∧
      x.permission ∉ role.grants ∧ d.roleBindings.lookup id = some b ∧ b.roleId = roleId ∧
      now ≤ t ∧ RowGives id b (editedRole name permissions role) x t ∧
      (DeniedAt (S.actorBindings ctx now d) x now ∨ ¬ Lasts (S.actorBindings ctx now d) x now t)

end

variable {S : ManagementService} {ctx : PrincipalContext} {now t : Timestamp} {d d' : Directory}
  {bindings : List Binding} {x : Place}

theorem allowedAt_iff :
    AllowedAt bindings x now ↔ ¬ DeniedAt bindings x now ∧
      ∃ b ∈ bindings, b.speaks x now ∧ b.effect = .allow := by
  rw [AllowedAt, allowed_iff x.canonical]
  refine and_congr_left fun _ ↦ ?_
  constructor
  · rintro h ⟨b, hb, hspeaks, hdeny⟩
    exact h b hb hspeaks hdeny
  · intro h b hb hspeaks hdeny
    exact h ⟨b, hb, hspeaks, hdeny⟩

/-- An authority which lasts is an authority where nothing is denied. -/
theorem allowedAt_and_lasts_iff :
    AllowedAt bindings x now ∧ Lasts bindings x now t ↔
      ¬ DeniedAt bindings x now ∧ Lasts bindings x now t := by
  rw [allowedAt_iff, and_assoc]
  refine and_congr_right fun _ ↦ and_iff_right_of_imp ?_
  rintro ⟨b, hb, hspeaks, hallow, -⟩
  exact ⟨b, hb, hspeaks, hallow⟩

/-! ## What acceptance says of the actor -/

/-- Each permission is allowed to the actor for the tenant as a whole until `expiresAt`. -/
def Backed (bindings : List Binding) (now expiresAt : Timestamp) (permissions : List String) :
    Prop :=
  ∀ p ∈ permissions, ∃ b ∈ bindings, ManagementService.authorizes now p b ∧ expiresAt ≤ b.expiresAt

theorem authorizes_iff {p : String} {b : Binding} :
    ManagementService.authorizes now p b ↔ b.effect = .allow ∧ b.covers p none "" now := by
  have hkey : isCanonicalPrefix "" := by decide
  rw [ManagementService.authorizes, Bool.and_eq_true, Bool.and_eq_true, decide_eq_true_eq,
    decide_eq_true_eq, decide_eq_true_eq, allowed_iff hkey]
  constructor
  · rintro ⟨⟨-, hallow⟩, -, b', hb', hcovers, -⟩
    rw [List.mem_singleton.mp hb'] at hcovers
    exact ⟨hallow, hcovers⟩
  · rintro ⟨hallow, hcovers⟩
    refine ⟨⟨?_, hallow⟩, fun b' hb' _ hdeny ↦ ?_, b, List.mem_singleton_self b, hcovers, hallow⟩
    · simp only [Binding.covers, Bool.and_eq_true, decide_eq_true_eq] at hcovers
      exact hcovers.1.1.1.1
    · rw [List.mem_singleton.mp hb', hallow] at hdeny
      cases hdeny

theorem Backed.lasts {expiresAt : Timestamp} {permissions : List String}
    (h : Backed bindings now expiresAt permissions) (hx : x.permission ∈ permissions)
    (ht : t < expiresAt) : Lasts bindings x now t := by
  obtain ⟨b, hb, hauthorizes, hexpires⟩ := h _ hx
  obtain ⟨hallow, hcovers⟩ := authorizes_iff.mp hauthorizes
  exact ⟨b, hb, covers_of_tenantWide hcovers, hallow, ht.trans_le hexpires⟩

theorem requireDelegationExpiryBound_eq_ok {permissions : List String} {expiresAt : Timestamp} :
    S.requireDelegationExpiryBound ctx now permissions expiresAt d = .ok () ↔
      Backed (S.actorBindings ctx now d) now expiresAt permissions := by
  unfold ManagementService.requireDelegationExpiryBound
  rw [forM_eq_ok]
  refine forall₂_congr fun p _ ↦ ?_
  split
  · rename_i hany
    refine iff_of_true rfl ?_
    simpa using hany
  · rename_i hnone
    refine iff_of_false (fun h ↦ by cases h) ?_
    simpa using hnone

theorem delegableRole_eq_ok {roleId : Uuid} {role : Role}
    (h : S.delegableRole ctx now roleId d = .ok role) :
    d.roles.lookup roleId = some role ∧ role.grants = role.permissions := by
  unfold ManagementService.delegableRole at h
  split at h
  · cases h
  rename_i role' hrole
  obtain ⟨hlookup, hname⟩ := Option.filter_eq_some_iff.mp hrole
  have hname : role'.name ≠ "tenant-admin" := of_decide_eq_true hname
  split at h
  · cases h
  obtain ⟨-, -, h⟩ := Except.bind_eq_ok.mp h
  obtain ⟨-, -, h⟩ := Except.bind_eq_ok.mp h
  cases h
  exact ⟨hlookup, if_neg hname⟩

/-- An accepted grant of a role: the actor's authority over every permission of the role lasts as
long as the grant. -/
theorem validateRoleGrant_eq_ok {roleId : Uuid} {expiresAt : Timestamp}
    (h : S.validateRoleGrant ctx now roleId expiresAt d = .ok ()) :
    ∃ role, d.roles.lookup roleId = some role ∧ role.grants = role.permissions ∧
      now < expiresAt ∧ Backed (S.actorBindings ctx now d) now expiresAt role.permissions := by
  unfold ManagementService.validateRoleGrant at h
  obtain ⟨role, hrole, h⟩ := Except.bind_eq_ok.mp h
  obtain ⟨hlookup, hgrants⟩ := delegableRole_eq_ok hrole
  split at h
  · cases h
  · rename_i hlater
    exact ⟨role, hlookup, hgrants, not_le.mp hlater, requireDelegationExpiryBound_eq_ok.mp h⟩

theorem latestExpiry_eq_ok {p : String} {e : Timestamp}
    (h : S.latestExpiry ctx now p d = .ok e) :
    ∃ b ∈ S.actorBindings ctx now d, ManagementService.authorizes now p b ∧ b.expiresAt = e := by
  unfold ManagementService.latestExpiry at h
  split at h
  · cases h
  · rename_i e' hmax
    cases h
    obtain ⟨b, hb, rfl⟩ := List.mem_map.mp (List.max?_mem hmax)
    obtain ⟨hmem, hauthorizes⟩ := List.mem_filter.mp hb
    exact ⟨b, hmem, hauthorizes, rfl⟩

/-- An invitation expires with the first authority of the inviter that ends, and not before it is
made. -/
theorem maximumRoleGrantExpiry_eq_ok {roleId : Uuid} {expiresAt : Timestamp}
    (h : S.maximumRoleGrantExpiry ctx now roleId d = .ok expiresAt) :
    ∃ role, d.roles.lookup roleId = some role ∧ role.grants = role.permissions ∧
      now < expiresAt ∧ Backed (S.actorBindings ctx now d) now expiresAt role.permissions := by
  unfold ManagementService.maximumRoleGrantExpiry at h
  obtain ⟨role, hrole, h⟩ := Except.bind_eq_ok.mp h
  obtain ⟨hlookup, hgrants⟩ := delegableRole_eq_ok hrole
  obtain ⟨expiries, hexpiries, h⟩ := Except.bind_eq_ok.mp h
  split at h
  · cases h
  rename_i e hmin
  cases h
  refine ⟨role, hlookup, hgrants, ?_, fun p hp ↦ ?_⟩
  · obtain ⟨p, -, hlatest⟩ := (mem_iff_of_mapM hexpiries).mp (List.min?_mem hmin)
    obtain ⟨b, -, hauthorizes, rfl⟩ := latestExpiry_eq_ok hlatest
    have hcovers := (authorizes_iff.mp hauthorizes).2
    simp only [Binding.covers, Bool.and_eq_true, decide_eq_true_eq] at hcovers
    exact hcovers.1.1.2
  · obtain ⟨e, he, hlatest⟩ := exists_of_mapM hexpiries hp
    obtain ⟨b, hb, hauthorizes, rfl⟩ := latestExpiry_eq_ok hlatest
    exact ⟨b, hb, hauthorizes, (List.min?_eq_some_iff.mp hmin).2 _ he⟩

/-! ## Requests which write one binding -/

theorem found_eq_ok {label : String} {result : Tx (Bool × Directory)}
    (h : found label result = .ok d') : result = .ok (true, d') := by
  unfold found at h
  split at h
  · cases h
    rfl
  · cases h
  · cases h

/-- One row is written, and its role is known. -/
structure Writes (id : Uuid) (row : RoleBinding) (role : Role) (d d' : Directory) : Prop where
  roles : d'.roles = d.roles
  role : d.roles.lookup row.roleId = some role
  row : d'.roleBindings.lookup id = some row
  other : ∀ k, k ≠ id → d'.roleBindings.lookup k = d.roleBindings.lookup k

section Writes

variable {id : Uuid} {row : RoleBinding} {role : Role}

theorem Writes.gives_self (h : Writes id row role d d') :
    Gives id x t d' ↔ RowGives id row role x t := by
  rw [Gives, h.row, h.roles]
  constructor
  · rintro ⟨b, role', hb, hrole, hgives⟩
    obtain rfl := Option.some.inj hb
    obtain rfl := Option.some.inj (h.role.symm.trans hrole)
    exact hgives
  · intro hgives
    exact ⟨row, role, rfl, h.role, hgives⟩

theorem Writes.gives_other (h : Writes id row role d d') {k : Uuid} (hk : k ≠ id) :
    Gives k x t d' ↔ Gives k x t d := by
  rw [Gives, Gives, h.roles, h.other k hk]

/-- A binding backed by the actor exceeds only where the actor is denied. -/
theorem Writes.within_iff (h : Writes id row role d d') (hgrants : role.grants = role.permissions)
    (hbacked : Backed (S.actorBindings ctx now d) now row.expiresAt role.permissions) :
    WithinAuthority S ctx now d d' ↔
      ¬ ∃ x t, now ≤ t ∧ RowGives id row role x t ∧ ¬ Gives id x t d ∧
        DeniedAt (S.actorBindings ctx now d) x now := by
  have hlasts : ∀ {x t}, RowGives id row role x t →
      Lasts (S.actorBindings ctx now d) x now t := by
    rintro x t ⟨-, -, hpermission, hspeaks⟩
    simp only [Binding.speaks, Binding.covers, Bool.and_eq_true, decide_eq_true_eq] at hspeaks
    exact hbacked.lasts (hgrants ▸ hpermission) hspeaks.1.1.2
  constructor
  · rintro hwithin ⟨x, t, ht, hgives, hnew, hdenied⟩
    have hauthority := hwithin id x t ht (h.gives_self.mpr hgives) hnew
    exact (allowedAt_and_lasts_iff.mp hauthority).1 hdenied
  · intro hnot k x t ht hgives hnew
    by_cases hk : k = id
    · subst hk
      have hgives := h.gives_self.mp hgives
      refine allowedAt_and_lasts_iff.mpr ⟨fun hdenied ↦ ?_, hlasts hgives⟩
      exact hnot ⟨x, t, ht, hgives, hnew, hdenied⟩
    · exact absurd ((h.gives_other hk).mp hgives) hnew

end Writes

theorem createRoleBinding_writes {id principalId createdBy : Uuid} {data : GrantData} {role : Role}
    (hrole : d.roles.lookup data.roleId = some role)
    (h : d.createRoleBinding id now principalId data createdBy = .ok (true, d')) :
    id ∉ d.roleBindings ∧ Writes id (grantedBinding principalId createdBy now data) role d d' := by
  unfold Directory.createRoleBinding at h
  split at h
  · cases h
  split at h
  · cases h
  split at h
  · cases h
  obtain ⟨rows, hrows, h⟩ := Except.bind_eq_ok.mp h
  obtain ⟨hfresh, rfl⟩ := insertRow_eq_ok.mp hrows
  cases h
  have hbumps := bumps_affectedPrincipals now ({ d with
    roleBindings := d.roleBindings.insert id (grantedBinding principalId createdBy now data) } :
      Directory) principalId
  refine ⟨hfresh, hbumps.roles_eq, hrole, ?_, fun k hk ↦ ?_⟩
  · rw [hbumps.roleBindings_eq, AList.lookup_insert]
  · rw [hbumps.roleBindings_eq, AList.lookup_insert_ne hk]

theorem updateRoleBinding_writes {id : Uuid} {data : GrantData} {role : Role}
    (hrole : d.roles.lookup data.roleId = some role)
    (h : d.updateRoleBinding now id data = .ok (true, d')) :
    ∃ row, d.roleBindings.lookup id = some row ∧
      Writes id (row.rewritten now data) role d d' := by
  unfold Directory.updateRoleBinding at h
  split at h
  · cases h
  rename_i row hrow
  split at h
  · cases h
  split at h
  · cases h
  cases h
  have hrow := (Option.filter_eq_some_iff.mp hrow).1
  have hbumps := bumps_affectedPrincipals now ({ d with
    roleBindings := d.roleBindings.update id (RoleBinding.rewritten now data) } : Directory)
      row.principalId
  refine ⟨row, hrow, hbumps.roles_eq, hrole, ?_, fun k hk ↦ ?_⟩
  · rw [hbumps.roleBindings_eq, AList.lookup_update_self, hrow, Option.map_some]
  · rw [hbumps.roleBindings_eq, AList.lookup_update_of_ne hk]

theorem createMember_writes {ids : MemberIds} {normalizedEmail : String} {roleId createdBy : Uuid}
    {expiresAt : Timestamp} {role : Role} (hrole : d.roles.lookup roleId = some role)
    (h : d.createMember ids now normalizedEmail roleId createdBy expiresAt = .ok d') :
    ids.bindingId ∉ d.roleBindings ∧
      Writes ids.bindingId (invitation ids.principalId roleId createdBy now expiresAt) role d d' := by
  unfold Directory.createMember at h
  obtain ⟨⟨userId, users⟩, -, h⟩ := Except.bind_eq_ok.mp h
  simp only at h
  split at h
  · cases h
  obtain ⟨_, -, h⟩ := Except.bind_eq_ok.mp h
  obtain ⟨_, -, h⟩ := Except.bind_eq_ok.mp h
  split at h
  · cases h
  obtain ⟨rows, hrows, h⟩ := Except.bind_eq_ok.mp h
  obtain ⟨hfresh, rfl⟩ := insertRow_eq_ok.mp hrows
  cases h
  refine ⟨hfresh, rfl, hrole, AList.lookup_insert _, fun k hk ↦ AList.lookup_insert_ne hk⟩

theorem not_gives_of_fresh {id : Uuid} (h : id ∉ d.roleBindings) : ¬ Gives id x t d := by
  rintro ⟨b, -, hb, -⟩
  rw [AList.lookup_eq_none.mpr h] at hb
  cases hb

/-- A binding without a scope gives every permission of its role everywhere, while it is in
force. -/
theorem rowGives_unscoped {id : Uuid} {row : RoleBinding} {role : Role}
    (hrevoked : row.revokedAt = none) (hspace : row.storageSpaceId = none)
    (hunprefixed : row.canonicalPrefix = none) :
    RowGives id row role x t ↔ row.effect = .allow ∧ x.permission ∈ role.grants ∧
      row.startsAt ≤ t ∧ t < row.expiresAt := by
  simp [RowGives, Binding.speaks, Binding.covers, RoleBinding.binding, hrevoked, hspace, hunprefixed,
    scopeMatches, truthy]

/-- A request which writes an unscoped allow binding exceeds exactly when the actor is denied a
permission of the role anywhere. -/
theorem within_unscoped_iff {id : Uuid} {row : RoleBinding} {role : Role}
    (h : Writes id row role d d') (hfresh : id ∉ d.roleBindings)
    (hgrants : role.grants = role.permissions) (hlater : now < row.expiresAt)
    (hbacked : Backed (S.actorBindings ctx now d) now row.expiresAt role.permissions)
    (hrevoked : row.revokedAt = none) (hspace : row.storageSpaceId = none)
    (hunprefixed : row.canonicalPrefix = none) :
    WithinAuthority S ctx now d d' ↔ ¬ (row.effect = .allow ∧ row.startsAt < row.expiresAt ∧
      ∃ x : Place, x.permission ∈ role.permissions ∧
        DeniedAt (S.actorBindings ctx now d) x now) := by
  rw [h.within_iff hgrants hbacked]
  refine not_congr ?_
  simp only [rowGives_unscoped hrevoked hspace hunprefixed, hgrants]
  constructor
  · rintro ⟨x, t, ht, ⟨hallow, hpermission, hstarts, hends⟩, -, hdenied⟩
    exact ⟨hallow, hstarts.trans_lt hends, x, hpermission, hdenied⟩
  · rintro ⟨hallow, hwindow, x, hpermission, hdenied⟩
    exact ⟨x, max now row.startsAt, le_max_left _ _, ⟨hallow, hpermission, le_max_right _ _,
      max_lt hlater hwindow⟩, not_gives_of_fresh hfresh, hdenied⟩

theorem createRoleBinding_within_iff {id principalId : Uuid} {data : GrantData}
    (h : S.createRoleBinding ctx now id principalId data d = .ok d') :
    WithinAuthority S ctx now d d' ↔
      ¬ Exceeds S ctx now d (.createRoleBinding id principalId data) := by
  unfold ManagementService.createRoleBinding at h
  obtain ⟨_, hvalid, h⟩ := Except.bind_eq_ok.mp h
  obtain ⟨role, hrole, hgrants, hlater, hbacked⟩ := validateRoleGrant_eq_ok hvalid
  split at h
  · cases h
  split at h
  · cases h
  split at h
  · cases h
  split at h
  · cases h
  obtain ⟨hfresh, hwrites⟩ := createRoleBinding_writes hrole (found_eq_ok h)
  rw [within_unscoped_iff hwrites hfresh hgrants hlater hbacked rfl rfl rfl]
  refine not_congr (and_congr_right fun _ ↦ and_congr_right fun _ ↦ ?_)
  constructor
  · rintro ⟨x, hx⟩
    exact ⟨role, x, hrole, hx⟩
  · rintro ⟨role', x, hrole', hx⟩
    obtain rfl := Option.some.inj (hrole.symm.trans hrole')
    exact ⟨x, hx⟩

theorem createMember_within_iff {ids : MemberIds} {normalizedEmail : String} {roleId : Uuid}
    (h : S.createMember ctx now ids normalizedEmail roleId d = .ok d') :
    WithinAuthority S ctx now d d' ↔
      ¬ Exceeds S ctx now d (.createMember ids normalizedEmail roleId) := by
  unfold ManagementService.createMember at h
  obtain ⟨expiresAt, hexpiry, h⟩ := Except.bind_eq_ok.mp h
  obtain ⟨role, hrole, hgrants, hlater, hbacked⟩ := maximumRoleGrantExpiry_eq_ok hexpiry
  split at h
  · split at h
    · cases h
    · cases h
  obtain ⟨hfresh, hwrites⟩ := createMember_writes hrole h
  rw [within_unscoped_iff hwrites hfresh hgrants hlater hbacked rfl rfl rfl]
  refine not_congr ?_
  constructor
  · rintro ⟨-, -, x, hx⟩
    exact ⟨role, x, hrole, hx⟩
  · rintro ⟨role', x, hrole', hx⟩
    obtain rfl := Option.some.inj (hrole.symm.trans hrole')
    exact ⟨rfl, hlater, x, hx⟩

theorem updateRoleBinding_within_iff {id : Uuid} {data : GrantData}
    (h : S.updateRoleBinding ctx now id data d = .ok d') :
    WithinAuthority S ctx now d d' ↔ ¬ Exceeds S ctx now d (.updateRoleBinding id data) := by
  unfold ManagementService.updateRoleBinding at h
  split at h
  · cases h
  obtain ⟨_, hvalid, h⟩ := Except.bind_eq_ok.mp h
  obtain ⟨role, hrole, hgrants, -, hbacked⟩ := validateRoleGrant_eq_ok hvalid
  obtain ⟨row, hrow, hwrites⟩ := updateRoleBinding_writes hrole (found_eq_ok h)
  rw [hwrites.within_iff hgrants hbacked]
  refine not_congr ?_
  constructor
  · rintro ⟨x, t, ht, hgives, hnew, hdenied⟩
    exact ⟨row, role, x, t, hrow, hrole, ht, hgives, hnew, hdenied⟩
  · rintro ⟨row', role', x, t, hrow', hrole', ht, hgives, hnew, hdenied⟩
    obtain rfl := Option.some.inj (hrow.symm.trans hrow')
    obtain rfl := Option.some.inj (hrole.symm.trans hrole')
    exact ⟨x, t, ht, hgives, hnew, hdenied⟩

/-! ## Edits of a role -/

/-- One role is edited, and nothing else about bindings. -/
structure Edits (roleId : Uuid) (role role' : Role) (d d' : Directory) : Prop where
  before : d.roles.lookup roleId = some role
  after : d'.roles.lookup roleId = some role'
  other : ∀ k, k ≠ roleId → d'.roles.lookup k = d.roles.lookup k
  roleBindings : d'.roleBindings = d.roleBindings

/-- What an edit newly gives comes from the permissions the role gains. -/
theorem Edits.gains_iff {roleId id : Uuid} {role role' : Role} (h : Edits roleId role role' d d') :
    Gives id x t d' ∧ ¬ Gives id x t d ↔
      ∃ b, d.roleBindings.lookup id = some b ∧ b.roleId = roleId ∧
        x.permission ∉ role.grants ∧ RowGives id b role' x t := by
  constructor
  · rintro ⟨⟨b, r, hb, hr, hgives⟩, hnew⟩
    rw [h.roleBindings] at hb
    by_cases hrole : b.roleId = roleId
    · rw [hrole, h.after] at hr
      obtain rfl := Option.some.inj hr
      refine ⟨b, hb, hrole, fun hold ↦ hnew ?_, hgives⟩
      exact ⟨b, role, hb, hrole ▸ h.before, hgives.1, hgives.2.1, hold, hgives.2.2.2⟩
    · rw [h.other _ hrole] at hr
      exact absurd ⟨b, r, hb, hr, hgives⟩ hnew
  · rintro ⟨b, hb, hrole, hnew, hgives⟩
    refine ⟨⟨b, role', h.roleBindings ▸ hb, hrole ▸ h.after, hgives⟩, ?_⟩
    rintro ⟨b', r, hb', hr, -, -, hold, -⟩
    obtain rfl := Option.some.inj (hb.symm.trans hb')
    rw [hrole, h.before] at hr
    obtain rfl := Option.some.inj hr
    exact hnew hold

theorem newPermissions_eq_ok {role : Role} {permissions : Option (List String)}
    {names : List String} (h : d.newPermissions role permissions = .ok names) {p : String} :
    p ∈ names ↔ p ∈ permissions.getD role.permissions := by
  cases permissions with
  | none =>
      cases h
      rfl
  | some requested =>
      change d.replacePermissions requested = .ok names at h
      unfold replacePermissions at h
      simp only at h
      split at h
      · cases h
        exact List.mem_dedup
      · cases h

theorem updateRole_edits {roleId : Uuid} {name : Option String}
    {permissions : Option (List String)}
    (h : d.updateRole now roleId name permissions = .ok (true, d')) :
    ∃ role role', Edits roleId role role' d d' ∧
      ∀ p, p ∈ role'.grants ↔ p ∈ (editedRole name permissions role).grants := by
  unfold Directory.updateRole at h
  split at h
  · cases h
  rename_i role hrole
  split at h
  · cases h
  obtain ⟨names, hnames, h⟩ := Except.bind_eq_ok.mp h
  cases h
  have hbumps := bumps_boundPrincipals now ({ d with
    roles := d.roles.update roleId fun r ↦
      { r with name := name.getD role.name, permissions := names } } : Directory) roleId
  refine ⟨role, { role with name := name.getD role.name, permissions := names },
    ⟨hrole, ?_, fun k hk ↦ ?_, hbumps.roleBindings_eq⟩, fun p ↦ ?_⟩
  · rw [hbumps.roles_eq, AList.lookup_update_self, hrole, Option.map_some]
  · rw [hbumps.roles_eq, AList.lookup_update_of_ne hk]
  · unfold Role.grants editedRole
    simp only
    split
    · rfl
    · exact newPermissions_eq_ok hnames

theorem updateRole_within_iff {roleId : Uuid} {name : Option String}
    {permissions : Option (List String)}
    (h : S.updateRole ctx now roleId name permissions d = .ok d') :
    WithinAuthority S ctx now d d' ↔ ¬ Exceeds S ctx now d (.updateRole roleId name permissions) := by
  unfold ManagementService.updateRole at h
  split at h
  · cases h
  split at h
  · cases h
  obtain ⟨_, -, h⟩ := Except.bind_eq_ok.mp h
  split at h
  · cases h
  obtain ⟨role, role', hedits, hgrants⟩ := updateRole_edits (found_eq_ok h)
  have hrow : ∀ {id b x t}, RowGives id b role' x t ↔
      RowGives id b (editedRole name permissions role) x t := by
    intro id b x t
    rw [RowGives, RowGives, hgrants]
  constructor
  · rintro hwithin ⟨r, id, b, x, t, hr, hnew, hb, hrole, ht, hgives, hbeyond⟩
    obtain rfl := Option.some.inj (hedits.before.symm.trans hr)
    obtain ⟨hafter, hbefore⟩ := hedits.gains_iff.mpr ⟨b, hb, hrole, hnew, hrow.mpr hgives⟩
    obtain ⟨hundenied, hlasts⟩ := allowedAt_and_lasts_iff.mp (hwithin id x t ht hafter hbefore)
    exact hbeyond.elim hundenied (fun h ↦ h hlasts)
  · intro hnot id x t ht hafter hbefore
    obtain ⟨b, hb, hrole, hnew, hgives⟩ := hedits.gains_iff.mp ⟨hafter, hbefore⟩
    refine allowedAt_and_lasts_iff.mpr ?_
    by_contra hbeyond
    exact hnot ⟨role, id, b, x, t, hedits.before, hnew, hb, hrole, ht, hrow.mp hgives,
      not_and_or.mp hbeyond |>.imp_left not_not.mp⟩

/-- An accepted delegation stays within the authority of the actor exactly when it does not reach
a denied place and, for an edit of a role, does not outlast the actor. -/
theorem delegation_within_iff {c : DelegationCmd} (h : S.delegate ctx now c d = .ok d') :
    WithinAuthority S ctx now d d' ↔ ¬ Exceeds S ctx now d c := by
  cases c with
  | createRoleBinding id principalId data => exact createRoleBinding_within_iff h
  | updateRoleBinding id data => exact updateRoleBinding_within_iff h
  | createMember ids normalizedEmail roleId => exact createMember_within_iff h
  | updateRole roleId name permissions => exact updateRole_within_iff h

namespace Sample

def service : ManagementService where
  knownPermissions := ["files.read"]
  delegablePermissions := some ["files.read"]
  tenantAdminPermissions := none
  baselineId := fun _ ↦ 0

theorem forMember_wellFormed : (forMember 1 100 1).WellFormed := by decide

def grantor : PrincipalContext where
  toPrincipalFields := forMember 1 100 1
  wellFormed := forMember_wellFormed

def readerRow : RoleBinding := ⟨1, 300, .allow, none, none, "reader", 0, 1000, 1, none⟩

/-- A grantor who may read everything, and somebody to whom the role can be given. -/
def granting : Directory where
  tenantActive := true
  permissions := ["files.read"]
  principals := (∅ : Table Uuid Principal).insert 1 ⟨.user, true⟩ |>.insert 2 ⟨.user, true⟩
  users := (∅ : Table Uuid User).insert 10 ⟨"grantor@example.com", .active⟩
  memberships := (∅ : Table Uuid Membership).insert 100 ⟨10, 1, .active, 1, none⟩
  groups := ∅
  groupMembers := ∅
  roles := (∅ : Table Uuid Role).insert 300 ⟨"reader", false, ["files.read"]⟩
    |>.insert 301 ⟨"kept out", false, ["files.read"]⟩
  roleBindings := (∅ : Table Uuid RoleBinding).insert 400 readerRow
  applications := ∅
  owners := ∅
  representatives := ∅
  sessions := ∅
  platformBindings := ∅

def keptOutRow : RoleBinding :=
  ⟨1, 301, .deny, some 2, some "secret", "kept out", 0, 1000, 1, none⟩

/-- The grantor is denied one directory of one space. -/
def keptOut : Directory :=
  { granting with roleBindings := granting.roleBindings.insert 401 keptOutRow }

/-- The role of the grantor for somebody else. -/
def grant : DelegationCmd := .createRoleBinding 402 2 ⟨300, .allow, "delegated", none, 900⟩

def granted (d : Directory) : Directory :=
  match service.delegate grantor 5 grant d with
  | .ok d' => d'
  | .error _ => d

def secret : Place := ⟨"files.read", some 2, "secret", by decide⟩

end Sample

theorem delegation_within_sample :
    WithinAuthority Sample.service Sample.grantor 5 Sample.granting
      (Sample.granted Sample.granting) := by
  refine (delegation_within_iff (c := Sample.grant) rfl).mpr ?_
  rintro ⟨-, -, role, x, -, -, b, hb, -, hdeny⟩
  have hallow : ∀ b ∈ Sample.service.actorBindings Sample.grantor 5 Sample.granting,
      b.effect = .allow := by decide
  rw [hallow b hb] at hdeny
  cases hdeny

/-- A grantor gives away what a deny binding keeps from the grantor. -/
theorem granted_beyond_authority : ¬ ∀ (S : ManagementService) (ctx : PrincipalContext)
    (now : Timestamp) (c : DelegationCmd) (d d' : Directory), S.delegate ctx now c d = .ok d' →
      WithinAuthority S ctx now d d' := by
  intro h
  have hgives : Gives 402 Sample.secret 5 (Sample.granted Sample.keptOut) :=
    ⟨grantedBinding 2 1 5 ⟨300, .allow, "delegated", none, 900⟩,
      ⟨"reader", false, ["files.read"]⟩, rfl, rfl, rfl, rfl, by decide, by decide⟩
  have hallowed := (h Sample.service Sample.grantor 5 Sample.grant Sample.keptOut _ rfl 402
    Sample.secret 5 le_rfl hgives (not_gives_of_fresh (by decide))).1
  have hdenied : DeniedAt (Sample.service.actorBindings Sample.grantor 5 Sample.keptOut)
      Sample.secret 5 := ⟨Sample.keptOutRow.binding 401 "files.read", by decide, by decide, rfl⟩
  exact (allowedAt_iff.mp hallowed).1 hdenied

end S3mp.Authorization
