import S3mp.Authorization.Delegation
import S3mp.Identity.EffectiveBindings

/-!
# The effective permissions of a subject

Members and applications are the subjects which authenticate.  What one may do
at a place is decided by the bindings of the directory and, for a member, by the
baseline of the tenant and a platform grant of its account.
-/

namespace S3mp.Authorization

open Relational Directory Identity

/-- Some binding of the set speaks about the place with this effect. -/
def Says (B : Set Binding) (effect : Decision) (x : Place) (t : Timestamp) : Prop :=
  ∃ b ∈ B, b.speaks x t ∧ b.effect = effect

def isMember : Holder → Bool
  | .member _ => true
  | .application _ => false

section

variable (S : ManagementService) (x : Place) (t : Timestamp)

/-- The evaluator allows the permission to the subject. -/
def Permits (d : Directory) (i : Holder) : Prop :=
  ∃ p, d.principal i = some p ∧ AllowedAt (S.bindings t p (isMember i) (isMember i) d) x t

/-- A binding of a member which no row of the tenant attaches to it gives the permission. -/
def Innate (d : Directory) (i : Holder) : Prop :=
  ∃ k m, i = .member k ∧ d.memberships.lookup k = some m ∧
    ∃ b ∈ S.baselineBindings ++ S.platformBindings t m.principalId d, b.speaks x t

/-- What the subject would be permitted with these bindings. -/
def Permitted (d : Directory) (i : Holder) (B : Set Binding) : Prop :=
  ¬ Says B .deny x t ∧ (Says B .allow x t ∨ Innate S x t d i)

end

variable {S : ManagementService} {x : Place} {now t : Timestamp} {d d' : Directory} {i : Holder}

theorem says_union {A B : Set Binding} {effect : Decision} :
    Says (A ∪ B) effect x t ↔ Says A effect x t ∨ Says B effect x t := by
  constructor
  · rintro ⟨b, hb | hb, h⟩
    · exact Or.inl ⟨b, hb, h⟩
    · exact Or.inr ⟨b, hb, h⟩
  · rintro (⟨b, hb, h⟩ | ⟨b, hb, h⟩)
    · exact ⟨b, Or.inl hb, h⟩
    · exact ⟨b, Or.inr hb, h⟩

theorem allow_of_mem_innate {p : Uuid} {b : Binding}
    (hb : b ∈ S.baselineBindings ++ S.platformBindings t p d) : b.effect = .allow := by
  rcases List.mem_append.mp hb with hb | hb
  · obtain ⟨permission, -, rfl⟩ := List.mem_map.mp hb
    rfl
  · unfold ManagementService.platformBindings at hb
    split at hb
    · obtain ⟨permission, -, rfl⟩ := List.mem_map.mp hb
      rfl
    · cases hb

theorem mem_bindings_member {k : Uuid} {m : Membership} (hm : d.memberships.lookup k = some m)
    {b : Binding} :
    b ∈ S.bindings t m.principalId true true d ↔ b ∈ d.effective t (.member k) ∨
      b ∈ S.baselineBindings ++ S.platformBindings t m.principalId d := by
  have heffective : b ∈ d.effective t (.member k) ↔ b ∈ d.bindingsForPrincipal t m.principalId := by
    constructor
    · rintro ⟨p, hp, hb⟩
      rw [principal, hm, Option.map_some, Option.some_inj] at hp
      exact hp ▸ hb
    · intro hb
      exact ⟨m.principalId, by rw [principal, hm, Option.map_some], hb⟩
  rw [heffective, ManagementService.bindings, if_pos rfl, if_pos rfl, List.append_assoc,
    List.mem_append]

theorem allowedAt_iff_set {bindings R : List Binding} {E : Set Binding}
    (hmem : ∀ b, b ∈ bindings ↔ b ∈ E ∨ b ∈ R) (hallow : ∀ b ∈ R, b.effect = .allow) :
    AllowedAt bindings x t ↔
      ¬ Says E .deny x t ∧ (Says E .allow x t ∨ ∃ b ∈ R, b.speaks x t) := by
  rw [allowedAt_iff]
  refine and_congr (not_congr ?_) ?_
  · constructor
    · rintro ⟨b, hb, hspeaks, hdeny⟩
      rcases (hmem b).mp hb with hb | hb
      · exact ⟨b, hb, hspeaks, hdeny⟩
      · rw [hallow b hb] at hdeny
        cases hdeny
    · rintro ⟨b, hb, hspeaks, hdeny⟩
      exact ⟨b, (hmem b).mpr (Or.inl hb), hspeaks, hdeny⟩
  · constructor
    · rintro ⟨b, hb, hspeaks, heffect⟩
      rcases (hmem b).mp hb with hb | hb
      · exact Or.inl ⟨b, hb, hspeaks, heffect⟩
      · exact Or.inr ⟨b, hb, hspeaks⟩
    · rintro (⟨b, hb, hspeaks, heffect⟩ | ⟨b, hb, hspeaks⟩)
      · exact ⟨b, (hmem b).mpr (Or.inl hb), hspeaks, heffect⟩
      · exact ⟨b, (hmem b).mpr (Or.inr hb), hspeaks, hallow b hb⟩

/-- A subject is permitted what its effective bindings permit. -/
theorem permits_iff : Permits S x t d i ↔ Permitted S x t d i (d.effective t i) := by
  cases i with
  | member k =>
      cases hm : d.memberships.lookup k with
      | none =>
          refine iff_of_false ?_ ?_
          · rintro ⟨p, hp, -⟩
            rw [principal, hm] at hp
            cases hp
          · rintro ⟨-, ⟨b, ⟨p, hp, -⟩, -⟩ | ⟨k', m, hk, hm', -⟩⟩
            · rw [principal, hm] at hp
              cases hp
            · cases hk
              rw [hm] at hm'
              cases hm'
      | some m =>
          have hinnate : Innate S x t d (.member k) ↔
              ∃ b ∈ S.baselineBindings ++ S.platformBindings t m.principalId d, b.speaks x t := by
            constructor
            · rintro ⟨k', m', hk, hm', hb⟩
              cases hk
              rw [hm] at hm'
              cases hm'
              exact hb
            · rintro hb
              exact ⟨k, m, rfl, hm, hb⟩
          rw [Permitted, hinnate, ← allowedAt_iff_set (fun _ ↦ mem_bindings_member hm)
            fun _ ↦ allow_of_mem_innate]
          constructor
          · rintro ⟨p, hp, hallowed⟩
            rw [principal, hm, Option.map_some, Option.some_inj] at hp
            exact hp ▸ hallowed
          · intro hallowed
            exact ⟨m.principalId, by rw [principal, hm, Option.map_some], hallowed⟩
  | application a =>
      have hinnate : ¬ Innate S x t d (.application a) := by
        rintro ⟨_, _, hk, -⟩
        cases hk
      rw [Permitted, or_iff_left hinnate]
      have hbindings : ∀ p, S.bindings t p false false d = d.bindingsForPrincipal t p := by
        intro p
        rw [ManagementService.bindings, if_neg Bool.false_ne_true, if_neg Bool.false_ne_true,
          List.append_nil, List.append_nil]
      constructor
      · rintro ⟨p, hp, hallowed⟩
        rw [isMember, hbindings, allowedAt_iff] at hallowed
        obtain ⟨hundenied, b, hb, hspeaks, heffect⟩ := hallowed
        refine ⟨?_, b, ⟨p, hp, hb⟩, hspeaks, heffect⟩
        rintro ⟨b', ⟨p', hp', hb'⟩, hspeaks', hdeny⟩
        rw [hp, Option.some_inj] at hp'
        exact hundenied ⟨b', hp' ▸ hb', hspeaks', hdeny⟩
      · rintro ⟨hundenied, b, ⟨p, hp, hb⟩, hspeaks, heffect⟩
        refine ⟨p, hp, ?_⟩
        rw [isMember, hbindings, allowedAt_iff]
        refine ⟨?_, b, hb, hspeaks, heffect⟩
        rintro ⟨b', hb', hspeaks', hdeny⟩
        exact hundenied ⟨b', ⟨p, hp, hb'⟩, hspeaks', hdeny⟩

/-! ## Platform grants -/

theorem tenantAdminGrant_iff {p : Uuid} {g : PlatformRoleBinding} :
    tenantAdminGrant t p d g ↔ g.roleName = "tenant-admin" ∧ g.revokedAt = none ∧
      g.expiresAt.all (t < ·) ∧ ∃ k m, d.memberships.lookup k = some m ∧ m.userId = g.userId ∧
        m.principalId = p ∧ m.status = .active ∧ d.standing t m := by
  simp only [tenantAdminGrant, Bool.and_eq_true, decide_eq_true_eq, Option.isNone_iff_eq_none,
    AList.anyRow_eq_true, and_assoc]

theorem platformBindings_congr {p : Uuid} (hrows : d'.platformBindings = d.platformBindings)
    (hgrant : ∀ g, tenantAdminGrant t p d' g ↔ tenantAdminGrant t p d g) :
    S.platformBindings t p d' = S.platformBindings t p d := by
  have heq : tenantAdminGrant t p d' = tenantAdminGrant t p d :=
    funext fun g ↦ Bool.eq_iff_iff.mpr (hgrant g)
  rw [ManagementService.platformBindings, ManagementService.platformBindings,
    platformTenantAdminBinding, platformTenantAdminBinding, hrows, heq]

/-- A platform binding which speaks comes from a grant in force. -/
theorem grant_of_mem_platformBindings {p : Uuid} {b : Binding}
    (hb : b ∈ S.platformBindings t p d) (hspeaks : b.speaks x t) :
    ∃ permissions id g, S.tenantAdminPermissions = some permissions ∧ x.permission ∈ permissions ∧
      d.platformBindings.lookup id = some g ∧ g.createdAt ≤ t ∧ tenantAdminGrant t p d g := by
  unfold ManagementService.platformBindings at hb
  split at hb
  · rename_i permissions found hpermissions hfound
    obtain ⟨permission, hpermission, rfl⟩ := List.mem_map.mp hb
    simp only [Binding.speaks, Binding.covers, Bool.and_eq_true, decide_eq_true_eq] at hspeaks
    obtain ⟨⟨id, g⟩, hhead, rfl⟩ := Option.map_eq_some_iff.mp hfound
    have hmem := (List.mergeSort_perm _ _).mem_iff.mp (List.mem_of_head? hhead)
    obtain ⟨hlookup, hgrant⟩ := AList.mem_select_iff.mp hmem
    exact ⟨permissions, id, g, hpermissions, hspeaks.1.1.1.1 ▸ hpermission, hlookup,
      hspeaks.1.1.1.2, hgrant⟩
  · cases hb

/-- Memberships keep their principal and account, and the platform grants are untouched. -/
structure KeepsAccounts (d d' : Directory) : Prop where
  platformBindings : d'.platformBindings = d.platformBindings
  membership : ∀ k, (d'.memberships.lookup k).map (fun m ↦ (m.principalId, m.userId)) =
    (d.memberships.lookup k).map fun m ↦ (m.principalId, m.userId)

theorem KeepsAccounts.principal_eq (h : KeepsAccounts d d') (k : Uuid) :
    d'.principal (.member k) = d.principal (.member k) := by
  have hrow := congrArg (Option.map Prod.fst) (h.membership k)
  rw [Option.map_map, Option.map_map] at hrow
  exact hrow

/-- No platform grant of the account of the principal is in force from `since` on. -/
def Unprivileged (since : Timestamp) (principalId : Uuid) (d : Directory) : Prop :=
  ∀ k m id g, d.memberships.lookup k = some m → m.principalId = principalId →
    d.platformBindings.lookup id = some g → g.userId = m.userId → g.roleName = "tenant-admin" →
      g.revokedAt = none → ¬ g.expiresAt.all (since < ·)

theorem Unprivileged.keeps {since : Timestamp} {p : Uuid} (hd : Unprivileged since p d)
    (h : KeepsAccounts d d') : Unprivileged since p d' := by
  intro k m' id g hm' hp hg huser hname hrevoked
  rw [h.platformBindings] at hg
  have hrow := h.membership k
  rw [hm', Option.map_some] at hrow
  obtain ⟨m, hm, heq⟩ := Option.map_eq_some_iff.mp hrow.symm
  obtain ⟨hprincipal, haccount⟩ := Prod.mk.inj heq
  exact hd k m id g hm (hprincipal.trans hp) hg (huser.trans haccount.symm) hname hrevoked

theorem Unprivileged.platformBindings {since : Timestamp} {p : Uuid} (hd : Unprivileged since p d)
    (hnow : since ≤ now) : S.platformBindings now p d = [] := by
  have hnone : platformTenantAdminBinding now p d = none := by
    rw [platformTenantAdminBinding, Option.map_eq_none_iff, List.head?_eq_none_iff,
      List.eq_nil_iff_forall_not_mem]
    rintro ⟨id, g⟩ hmem
    obtain ⟨hlookup, hgrant⟩ := AList.mem_select_iff.mp ((List.mergeSort_perm _ _).mem_iff.mp hmem)
    obtain ⟨hname, hrevoked, hexpires, k, m, hm, huser, hp, -⟩ := tenantAdminGrant_iff.mp hgrant
    refine hd k m id g hm hp hlookup huser.symm hname hrevoked ?_
    rw [Option.all_eq_true] at hexpires ⊢
    intro e he
    have hlater := hexpires e he
    rw [decide_eq_true_eq] at hlater ⊢
    exact hnow.trans_lt hlater
  rw [ManagementService.platformBindings, hnone]
  cases S.tenantAdminPermissions <;> rfl

end S3mp.Authorization
