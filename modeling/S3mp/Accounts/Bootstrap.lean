import S3mp.Accounts.AccountStore

/-!
# The bootstrap of the administrator

The start-up bootstrap looks for a binding of the administrator's role which is not
revoked.  Whether the binding has expired, and whether some other role grants the
same permissions, makes no difference to it.
-/

namespace S3mp.Registry

open Relational

/-- The active account has the permissions of the administrator's role at the time. -/
def EffectiveAdmin (now : Timestamp) (r : Registry) (k : Uuid) : Prop :=
  (∃ u, r.users.lookup k = some u ∧ u.status = .active) ∧
    ∃ roleId role, r.platformRoles.lookup roleId = some role ∧ role.name = "platform_admin" ∧
      ∀ permission ∈ role.permissions, permission ∈ r.platformPermissions now k

/-- A binding of an active account to the administrator's role, not revoked. -/
structure AdminBinding (r : Registry) (b : PlatformRoleBinding) : Prop where
  stored : ∃ id, r.platformBindings.lookup id = some b
  role : ∃ role, r.platformRoles.lookup b.roleId = some role ∧ role.name = "platform_admin"
  user : ∃ u, r.users.lookup b.userId = some u ∧ u.status = .active
  unrevoked : b.revokedAt = none

def PlatformRoleBinding.unexpired (now : Timestamp) (b : PlatformRoleBinding) : Bool :=
  b.expiresAt.all (now < ·)

def AdminGranted (now : Timestamp) (r : Registry) : Prop :=
  ∃ b, AdminBinding r b ∧ b.unexpired now = true

def AdminLapsed (now : Timestamp) (r : Registry) : Prop :=
  ∃ b, AdminBinding r b ∧ b.unexpired now = false

/-- Other roles give an active account all the permissions of the administrator's role. -/
def AdminCovered (now : Timestamp) (r : Registry) : Prop :=
  ∃ k u roleId role, r.users.lookup k = some u ∧ u.status = .active ∧
    r.platformRoles.lookup roleId = some role ∧ role.name = "platform_admin" ∧
    ∀ permission ∈ role.permissions, ∃ id b other, r.platformBindings.lookup id = some b ∧
      b.userId = k ∧ b.revokedAt = none ∧ b.unexpired now = true ∧
      r.platformRoles.lookup b.roleId = some other ∧ other.name ≠ "platform_admin" ∧
      permission ∈ other.permissions

variable {r r' : Registry} {now : Timestamp} {k : Uuid}

theorem mem_platformPermissions {permission : String} :
    permission ∈ r.platformPermissions now k ↔
      ∃ id b role, r.platformBindings.lookup id = some b ∧ b.userId = k ∧ b.revokedAt = none ∧
        b.unexpired now = true ∧ r.platformRoles.lookup b.roleId = some role ∧
        permission ∈ role.permissions := by
  unfold platformPermissions
  rw [List.mem_flatMap]
  constructor
  · rintro ⟨⟨id, b⟩, hb, hpermission⟩
    obtain ⟨hlookup, hp⟩ := AList.mem_select_iff.mp hb
    simp only [Bool.and_eq_true, decide_eq_true_eq, Option.isNone_iff_eq_none] at hp
    dsimp only at hpermission
    cases hrole : r.platformRoles.lookup b.roleId with
    | none =>
        rw [hrole] at hpermission
        cases hpermission
    | some role =>
        rw [hrole] at hpermission
        exact ⟨id, b, role, hlookup, hp.1.1, hp.1.2, hp.2, hrole, hpermission⟩
  · rintro ⟨id, b, role, hlookup, huser, hrevoked, hexpiry, hrole, hpermission⟩
    refine ⟨(id, b), AList.mem_select_iff.mpr ⟨hlookup, ?_⟩, ?_⟩
    · simp only [Bool.and_eq_true, decide_eq_true_eq, Option.isNone_iff_eq_none]
      exact ⟨⟨huser, hrevoked⟩, hexpiry⟩
    · dsimp only
      rw [hrole]
      exact hpermission

theorem activePlatformAdmin_iff :
    r.activePlatformAdmin = true ↔ AdminGranted now r ∨ AdminLapsed now r := by
  unfold activePlatformAdmin
  rw [AList.anyRow_eq_true]
  constructor
  · rintro ⟨id, b, hb, hp⟩
    simp only [Bool.and_eq_true, Option.isNone_iff_eq_none, Option.any_eq_true,
      decide_eq_true_eq] at hp
    obtain ⟨⟨hrevoked, hrole⟩, huser⟩ := hp
    have hadmin : AdminBinding r b := ⟨⟨id, hb⟩, hrole, huser, hrevoked⟩
    cases hexpiry : b.unexpired now with
    | true => exact Or.inl ⟨b, hadmin, hexpiry⟩
    | false => exact Or.inr ⟨b, hadmin, hexpiry⟩
  · have hrow : ∀ b, AdminBinding r b → ∃ id b, r.platformBindings.lookup id = some b ∧
        (b.revokedAt.isNone && (r.platformRoles.lookup b.roleId).any (·.name = "platform_admin") &&
          (r.users.lookup b.userId).any (·.status = .active)) = true := by
      rintro b ⟨⟨id, hb⟩, hrole, huser, hrevoked⟩
      refine ⟨id, b, hb, ?_⟩
      simp only [Bool.and_eq_true, Option.isNone_iff_eq_none, Option.any_eq_true,
        decide_eq_true_eq]
      exact ⟨⟨hrevoked, hrole⟩, huser⟩
    rintro (⟨b, hadmin, -⟩ | ⟨b, hadmin, -⟩)
    · exact hrow b hadmin
    · exact hrow b hadmin

theorem exists_effectiveAdmin_iff :
    (∃ k, EffectiveAdmin now r k) ↔ AdminGranted now r ∨ AdminCovered now r := by
  constructor
  · rintro ⟨k, ⟨u, hu, hactive⟩, roleId, role, hrole, hname, hall⟩
    by_cases hgranted : AdminGranted now r
    · exact Or.inl hgranted
    · refine Or.inr ⟨k, u, roleId, role, hu, hactive, hrole, hname, fun permission hpermission ↦ ?_⟩
      obtain ⟨id, b, other, hb, rfl, hrevoked, hexpiry, hother, hmem⟩ :=
        mem_platformPermissions.mp (hall permission hpermission)
      refine ⟨id, b, other, hb, rfl, hrevoked, hexpiry, hother, fun hadmin ↦ hgranted ?_, hmem⟩
      exact ⟨b, ⟨⟨id, hb⟩, ⟨other, hother, hadmin⟩, ⟨u, hu, hactive⟩, hrevoked⟩, hexpiry⟩
  · rintro (⟨b, ⟨⟨id, hb⟩, ⟨role, hrole, hname⟩, huser, hrevoked⟩, hexpiry⟩ |
      ⟨k, u, roleId, role, hu, hactive, hrole, hname, hall⟩)
    · exact ⟨b.userId, huser, b.roleId, role, hrole, hname, fun permission hpermission ↦
        mem_platformPermissions.mpr ⟨id, b, role, hb, rfl, hrevoked, hexpiry, hrole, hpermission⟩⟩
    · refine ⟨k, ⟨u, hu, hactive⟩, roleId, role, hrole, hname, fun permission hpermission ↦ ?_⟩
      obtain ⟨id, b, other, hb, huser, hrevoked, hexpiry, hother, -, hmem⟩ :=
        hall permission hpermission
      exact mem_platformPermissions.mpr
        ⟨id, b, other, hb, huser, hrevoked, hexpiry, hother, hmem⟩

theorem createPlatformAdmin_granted {text : CaseMaps} {ids : BootstrapIds}
    {email employeeNumber displayName passwordHash : String} (now : Timestamp)
    (h : createPlatformAdmin text ids email employeeNumber displayName passwordHash r = .ok r') :
    AdminGranted now r' := by
  unfold createPlatformAdmin at h
  split at h
  · cases h
  rename_i roleId hrole
  obtain ⟨⟨roleId', role⟩, hfirst, rfl⟩ := Option.map_eq_some_iff.mp hrole
  obtain ⟨hlookup, hname⟩ := AList.lookup_of_selectFirst hfirst
  obtain ⟨r₁, hinsert, h⟩ := Except.bind_eq_ok.mp h
  obtain ⟨-, -, rfl⟩ := insertUser_eq_ok.mp hinsert
  obtain ⟨bindings, hbindings, h⟩ := Except.bind_eq_ok.mp h
  obtain ⟨-, rfl⟩ := insertRow_eq_ok.mp hbindings
  obtain rfl := Except.pure_eq_ok.mp h
  exact ⟨⟨ids.userId, roleId', none, none⟩, ⟨⟨ids.bindingId, AList.lookup_insert _⟩,
    ⟨role, hlookup, of_decide_eq_true hname⟩, ⟨_, AList.lookup_insert _, rfl⟩, rfl⟩, rfl⟩

/-- The bootstrap leaves an effective administrator, recognizes one and creates none beside one,
exactly if the administrator's role is granted unexpired, or else is granted expired just where
other roles give its permissions. -/
theorem bootstrap_restores_iff (text : CaseMaps) (ids : BootstrapIds)
    (email employeeNumber displayName passwordHash : String) (now : Timestamp) (r : Registry) :
    ((r.activePlatformAdmin = true ↔ ∃ k, EffectiveAdmin now r k) ∧
      ∀ r', ensurePlatformAdmin text ids email employeeNumber displayName passwordHash r = .ok r' →
        (∃ k, EffectiveAdmin now r' k) ∧
          (r'.activePlatformAdmin = true ↔ ∃ k, EffectiveAdmin now r' k) ∧
          ((∃ k, EffectiveAdmin now r k) →
            r'.users = r.users ∧ r'.platformBindings = r.platformBindings)) ↔
      (AdminGranted now r ∨ (AdminLapsed now r ↔ AdminCovered now r)) := by
  have hexists : r.activePlatformAdmin = true ↔ AdminGranted now r ∨ AdminLapsed now r :=
    activePlatformAdmin_iff
  constructor
  · rintro ⟨hagree, -⟩
    rw [hexists, exists_effectiveAdmin_iff] at hagree
    by_cases hgranted : AdminGranted now r
    · exact Or.inl hgranted
    · simp only [hgranted, false_or] at hagree
      exact Or.inr hagree
  · intro hcondition
    have hagree : r.activePlatformAdmin = true ↔ ∃ k, EffectiveAdmin now r k := by
      rw [hexists, exists_effectiveAdmin_iff]
      rcases hcondition with hgranted | hiff
      · simp only [hgranted, true_or]
      · rw [hiff]
    refine ⟨hagree, fun r' hr' ↦ ?_⟩
    unfold ensurePlatformAdmin at hr'
    split at hr'
    · rename_i hactive
      obtain rfl := Except.ok.inj hr'
      exact ⟨hagree.mp hactive, hagree, fun _ ↦ ⟨rfl, rfl⟩⟩
    · rename_i hnone
      have hgranted := createPlatformAdmin_granted now hr'
      refine ⟨exists_effectiveAdmin_iff.mpr (Or.inl hgranted),
        iff_of_true (activePlatformAdmin_iff.mpr (Or.inl hgranted))
          (exists_effectiveAdmin_iff.mpr (Or.inl hgranted)), fun heffective ↦ ?_⟩
      exact absurd (hagree.mpr heffective) hnone

namespace Sample

/-- The only administrator, whose binding expires at 10. -/
def administered : Registry :=
  { empty with
    users := (∅ : Table Uuid User).insert 20
      ⟨"sue@example.com", "sue@example.com", some "s01", some "s01", "Sue", .active, some "scrypt"⟩
    platformRoles := (∅ : Table Uuid PlatformRole).insert 40
      ⟨"platform_admin", ["platform.accounts.manage"]⟩
    platformBindings := (∅ : Table Uuid PlatformRoleBinding).insert 50 ⟨20, 40, some 10, none⟩
    bootstrapped := true }

end Sample

/-- After the binding has expired the bootstrap changes nothing, and nobody is administrator. -/
theorem expired_admin_not_restored : ¬ ∀ (text : CaseMaps) (ids : BootstrapIds)
    (email employeeNumber displayName passwordHash : String) (now : Timestamp) (r r' : Registry),
    ensurePlatformAdmin text ids email employeeNumber displayName passwordHash r = .ok r' →
      ∃ k, EffectiveAdmin now r' k := by
  intro h
  obtain ⟨k, -, roleId, role, hrole, -, hall⟩ := h ⟨id, id⟩ ⟨21, 51⟩ "admin@example.com" "a01"
    "Admin" "scrypt" 20 Sample.administered Sample.administered rfl
  have hpermission : "platform.accounts.manage" ∈ role.permissions := by
    rw [Sample.administered, AList.lookup_insert'] at hrole
    split at hrole
    · obtain rfl := Option.some.inj hrole
      exact List.mem_singleton.mpr rfl
    · cases hrole
  obtain ⟨bindingId, b, -, hb, -, -, hexpiry, -⟩ :=
    mem_platformPermissions.mp (hall _ hpermission)
  rw [Sample.administered, AList.lookup_insert'] at hb
  split at hb
  · obtain rfl := Option.some.inj hb
    exact absurd hexpiry (by decide)
  · cases hb

end S3mp.Registry
