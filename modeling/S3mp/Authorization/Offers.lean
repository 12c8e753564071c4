import S3mp.Authorization.Delegation

/-!
# The expiry offered to an invitation

One computation takes, for each permission of the role, the last expiry of an
authority over it, and offers the first of these.  Another asks for each permission
whether some authority lasts long enough.  They say the same.
-/

namespace S3mp.Authorization

open Relational Directory Identity

variable {S : ManagementService} {ctx : PrincipalContext} {now expiresAt : Timestamp}
  {d : Directory} {permission : String} {permissions : List String} {roleId : Uuid} {role : Role}

/-- The latest expiry of a permission lies at or after `expiresAt` when some authority does. -/
theorem le_latestExpiry_iff :
    (∃ latest, S.latestExpiry ctx now permission d = .ok latest ∧ expiresAt ≤ latest) ↔
      ∃ b ∈ S.actorBindings ctx now d,
        ManagementService.authorizes now permission b ∧ expiresAt ≤ b.expiresAt := by
  constructor
  · rintro ⟨latest, hlatest, hle⟩
    obtain ⟨b, hb, hauthorizes, rfl⟩ := latestExpiry_eq_ok hlatest
    exact ⟨b, hb, hauthorizes, hle⟩
  · rintro ⟨b, hb, hauthorizes, hle⟩
    have hmem : b.expiresAt ∈ ((S.actorBindings ctx now d).filter
        (ManagementService.authorizes now permission)).map (·.expiresAt) :=
      List.mem_map_of_mem (List.mem_filter.mpr ⟨hb, hauthorizes⟩)
    unfold ManagementService.latestExpiry
    cases hmax : (((S.actorBindings ctx now d).filter
        (ManagementService.authorizes now permission)).map (·.expiresAt)).max? with
    | none =>
        rw [List.max?_eq_none_iff] at hmax
        rw [hmax] at hmem
        cases hmem
    | some latest => exact ⟨latest, rfl, hle.trans ((List.max?_eq_some_iff.mp hmax).2 _ hmem)⟩

/-- The expiries of all permissions lie at or after `expiresAt` when the actor backs them. -/
theorem backed_iff_latestExpiries :
    Backed (S.actorBindings ctx now d) now expiresAt permissions ↔
      ∃ expiries, permissions.mapM (fun permission ↦ S.latestExpiry ctx now permission d) =
        .ok expiries ∧ ∀ latest ∈ expiries, expiresAt ≤ latest := by
  constructor
  · intro h
    have hlatest : ∀ p ∈ permissions, ∃ latest, S.latestExpiry ctx now p d = .ok latest ∧
        expiresAt ≤ latest := fun p hp ↦ le_latestExpiry_iff.mpr (h p hp)
    obtain ⟨expiries, hexpiries⟩ := exists_mapM_eq_ok fun p hp ↦
      (hlatest p hp).imp fun _ h ↦ h.1
    refine ⟨expiries, hexpiries, fun latest hmem ↦ ?_⟩
    obtain ⟨p, hp, hok⟩ := (mem_iff_of_mapM hexpiries).mp hmem
    obtain ⟨latest', hok', hle⟩ := hlatest p hp
    obtain rfl := Except.ok.inj (hok.symm.trans hok')
    exact hle
  · rintro ⟨expiries, hexpiries, hle⟩ p hp
    obtain ⟨latest, hmem, hok⟩ := exists_of_mapM hexpiries hp
    exact le_latestExpiry_iff.mp ⟨latest, hok, hle latest hmem⟩

theorem le_maximumRoleGrantExpiry_iff (hrole : d.roles.lookup roleId = some role)
    (hpermissions : role.permissions ≠ []) :
    (∃ latest, S.maximumRoleGrantExpiry ctx now roleId d = .ok latest ∧ expiresAt ≤ latest) ↔
      S.delegableRole ctx now roleId d = .ok role ∧
        Backed (S.actorBindings ctx now d) now expiresAt role.permissions := by
  unfold ManagementService.maximumRoleGrantExpiry
  constructor
  · rintro ⟨latest, h, hle⟩
    obtain ⟨role', hdelegable, h⟩ := Except.bind_eq_ok.mp h
    obtain rfl := Option.some.inj (hrole.symm.trans (delegableRole_eq_ok hdelegable).1)
    obtain ⟨expiries, hexpiries, h⟩ := Except.bind_eq_ok.mp h
    refine ⟨hdelegable, backed_iff_latestExpiries.mpr ⟨expiries, hexpiries, ?_⟩⟩
    cases hmin : expiries.min? with
    | none =>
        rw [hmin] at h
        cases h
    | some first =>
        rw [hmin] at h
        obtain rfl := Except.ok.inj h
        exact fun latest' hmem ↦ hle.trans ((List.min?_eq_some_iff.mp hmin).2 _ hmem)
  · rintro ⟨hdelegable, hbacked⟩
    obtain ⟨expiries, hexpiries, hle⟩ := backed_iff_latestExpiries.mp hbacked
    cases hmin : expiries.min? with
    | none =>
        rw [List.min?_eq_none_iff] at hmin
        subst hmin
        exact absurd (List.forall₂_nil_right_iff.mp (mapM_eq_ok_iff.mp hexpiries)) hpermissions
    | some first =>
        refine ⟨first, ?_, hle first (List.min?_mem hmin)⟩
        refine Except.bind_eq_ok.mpr ⟨role, hdelegable, Except.bind_eq_ok.mpr ⟨expiries, hexpiries, ?_⟩⟩
        rw [hmin]

theorem validateRoleGrant_eq_ok_iff (hrole : d.roles.lookup roleId = some role) :
    S.validateRoleGrant ctx now roleId expiresAt d = .ok () ↔
      now < expiresAt ∧ S.delegableRole ctx now roleId d = .ok role ∧
        Backed (S.actorBindings ctx now d) now expiresAt role.permissions := by
  unfold ManagementService.validateRoleGrant
  constructor
  · intro h
    obtain ⟨role', hdelegable, h⟩ := Except.bind_eq_ok.mp h
    obtain rfl := Option.some.inj (hrole.symm.trans (delegableRole_eq_ok hdelegable).1)
    split at h
    · cases h
    · rename_i hlater
      exact ⟨not_le.mp hlater, hdelegable, requireDelegationExpiryBound_eq_ok.mp h⟩
  · rintro ⟨hlater, hdelegable, hbacked⟩
    refine Except.bind_eq_ok.mpr ⟨role, hdelegable, ?_⟩
    rw [if_neg (not_le.mpr hlater)]
    exact requireDelegationExpiryBound_eq_ok.mpr hbacked

/-- A future expiry is accepted exactly up to the one that is offered, and none where no expiry
is offered. -/
theorem accepted_expiry_iff (S : ManagementService) (ctx : PrincipalContext) (now : Timestamp)
    (d : Directory) (roleId : Uuid) (role : Role) (hrole : d.roles.lookup roleId = some role)
    (hpermissions : role.permissions ≠ []) :
    (∀ expiresAt, now < expiresAt →
      (S.validateRoleGrant ctx now roleId expiresAt d = .ok () ↔
        ∃ latest, S.maximumRoleGrantExpiry ctx now roleId d = .ok latest ∧ expiresAt ≤ latest)) ∧
      ((∀ latest, S.maximumRoleGrantExpiry ctx now roleId d ≠ .ok latest) →
        ∀ expiresAt, S.validateRoleGrant ctx now roleId expiresAt d ≠ .ok ()) := by
  constructor
  · intro expiresAt hlater
    rw [validateRoleGrant_eq_ok_iff hrole, le_maximumRoleGrantExpiry_iff hrole hpermissions]
    exact and_iff_right hlater
  · intro hraises expiresAt h
    have haccepted := ((validateRoleGrant_eq_ok_iff hrole).mp h).2
    obtain ⟨latest, hok, -⟩ := (le_maximumRoleGrantExpiry_iff hrole hpermissions).mpr haccepted
    exact hraises latest hok

theorem accepted_expiry_iff_sample :
    Sample.service.validateRoleGrant Sample.grantor 5 300 900 Sample.granting = .ok () ∧
      Sample.service.validateRoleGrant Sample.grantor 5 300 1001 Sample.granting ≠ .ok () := by
  have hiff := (accepted_expiry_iff Sample.service Sample.grantor 5 Sample.granting 300
    ⟨"reader", false, ["files.read"]⟩ rfl (by decide)).1
  have hoffered : Sample.service.maximumRoleGrantExpiry Sample.grantor 5 300 Sample.granting =
      .ok 1000 := by decide
  constructor
  · exact (hiff 900 (by decide)).mpr ⟨1000, hoffered, by decide⟩
  · intro h
    obtain ⟨latest, hok, hle⟩ := (hiff 1001 (by decide)).mp h
    obtain rfl := Except.ok.inj (hoffered.symm.trans hok)
    exact absurd hle (by decide)

end S3mp.Authorization
