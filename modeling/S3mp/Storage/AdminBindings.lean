import S3mp.Common.Clock
import S3mp.Database
import S3mp.Identity.Bumps
import S3mp.Transition.Run

/-!
# Storage space bindings of tenant administrators

The backfill of explicit bindings for the storage spaces of a tenant, over any run
of role binding operations.  A principal and a role have one unrevoked binding at
most, whatever its space: the binding which makes a principal an administrator
takes the place of every binding the backfill could create.
-/

namespace S3mp.Storage

open Relational Authorization Directory Files Transition

/-! ## The backfill -/

/-- `datetime.max` in UTC. -/
def datetimeMax : Timestamp := 253402300799999999

def tenantAdminName : String := "tenant-admin"

/-- A tenant-wide binding of the administrator role which has not been revoked. -/
def listedAdmin (d : Directory) (b : RoleBinding) : Bool :=
  (d.roles.lookup b.roleId).any (·.name = tenantAdminName) && b.effect = .allow &&
    b.revokedAt.isNone && b.storageSpaceId.isNone

def adminPrincipals (d : Directory) : List Uuid :=
  ((d.roleBindings.select fun _ b ↦ listedAdmin d b).map (·.2.principalId)).dedup

def spaceBinding (now : Timestamp) (principalId roleId spaceId : Uuid) : RoleBinding where
  principalId := principalId
  roleId := roleId
  effect := .allow
  storageSpaceId := some spaceId
  canonicalPrefix := none
  reason := "tenant-admin storage space baseline"
  startsAt := now
  expiresAt := datetimeMax
  createdByPrincipalId := principalId
  revokedAt := none

/-- One turn of the loop over the principals; the new rows are counted. -/
def ensureSpaceBinding (id : Uuid) (now : Timestamp) (roleId spaceId principalId : Uuid)
    (out : ℕ × Directory) : Tx (ℕ × Directory) :=
  if out.2.roleBindings.anyRow fun _ b ↦ b.principalId = principalId && b.roleId = roleId &&
      b.storageSpaceId = some spaceId && b.canonicalPrefix.isNone && b.revokedAt.isNone then
    .ok out
  else if out.2.bindingTaken id principalId roleId then
    integrityError "uq_role_binding_active_principal_role"
  else do
    let roleBindings ← insertRow "role_binding_pkey" id (spaceBinding now principalId roleId spaceId)
      out.2.roleBindings
    return (out.1 + 1, { out.2 with roleBindings })

/-- `ids` draws the identifier of the binding of a principal to a space. -/
def ensureTenantAdminSpaceBindings (ids : Uuid → Uuid → Uuid) (now : Timestamp) (spaceId : Uuid)
    (out : ℕ × Directory) : Tx (ℕ × Directory) :=
  match adminPrincipals out.2, out.2.roles.selectFirst fun _ role ↦ role.name = tenantAdminName with
  | [], _ => .ok out
  | _, none => .ok out
  | principals, some (roleId, _) => principals.foldlM (fun out principalId ↦
      ensureSpaceBinding (ids spaceId principalId) now roleId spaceId principalId out) out

def reconcileTenantAdminSpaceBindings (ids : Uuid → Uuid → Uuid) (now : Timestamp)
    (spaces : Table Uuid StorageSpace) (d : Directory) : Tx (ℕ × Directory) :=
  ((spaces.select fun _ space ↦ space.active).map Prod.fst).foldlM
    (fun out spaceId ↦ ensureTenantAdminSpaceBindings ids now spaceId out) (0, d)

/-! ## Runs -/

/-- The bindings which the backfill has created are on record. -/
structure BindingWorld where
  clock : Timestamp
  directory : Directory
  spaces : Table Uuid StorageSpace
  automatic : List Uuid

inductive BindingCommand where
  | wait (duration : ℕ)
  | createSpace (id : Uuid) (space : StorageSpace)
  | createRoleBinding (id principalId : Uuid) (data : GrantData) (createdBy : Uuid)
  | updateRoleBinding (id : Uuid) (data : GrantData)
  | revokeRoleBinding (id : Uuid)
  | reconcile (ids : Uuid → Uuid → Uuid)

namespace BindingWorld

/-- The keys of `t'` which `t` does not have. -/
def added {α : Type} (t t' : Table Uuid α) : List Uuid :=
  t'.keys.filter (· ∉ t)

def exec : BindingCommand → BindingWorld → Tx BindingWorld
  | .wait duration, w => .ok { w with clock := w.clock + duration }
  | .createSpace id space, w => do
    let spaces ← insertRow "storage_space_pkey" id space w.spaces
    return { w with spaces }
  | .createRoleBinding id principalId data createdBy, w => do
    let (_, directory) ← w.directory.createRoleBinding id w.clock principalId data createdBy
    return { w with directory }
  | .updateRoleBinding id data, w => do
    let (_, directory) ← w.directory.updateRoleBinding w.clock id data
    return { w with directory }
  | .revokeRoleBinding id, w => do
    let (_, directory) ← w.directory.revokeRoleBinding w.clock id
    return { w with directory }
  | .reconcile ids, w => do
    let (_, directory) ← reconcileTenantAdminSpaceBindings ids w.clock w.spaces w.directory
    return { w with
      directory
      automatic := w.automatic ++ added w.directory.roleBindings directory.roleBindings }

end BindingWorld

/-! ## What the backfill creates -/

/-- The unique constraint on the names of roles. -/
def RoleNamesUnique (d : Directory) : Prop :=
  ∀ i j r r', d.roles.lookup i = some r → d.roles.lookup j = some r' → r.name = r'.name → i = j

variable {ids : Uuid → Uuid → Uuid} {now : Timestamp} {d : Directory} {spaceId roleId : Uuid}

theorem mem_adminPrincipals {p : Uuid} :
    p ∈ adminPrincipals d ↔
      ∃ id b, d.roleBindings.lookup id = some b ∧ listedAdmin d b ∧ b.principalId = p := by
  rw [adminPrincipals, List.mem_dedup, List.mem_map]
  constructor
  · rintro ⟨⟨id, b⟩, hmem, rfl⟩
    obtain ⟨hb, hlisted⟩ := AList.mem_select_iff.mp hmem
    exact ⟨id, b, hb, hlisted, rfl⟩
  · rintro ⟨id, b, hb, hlisted, rfl⟩
    exact ⟨(id, b), AList.mem_select_iff.mpr ⟨hb, hlisted⟩, rfl⟩

/-- An administrator of the role gets no second binding of it. -/
theorem ensureSpaceBinding_eq_ok {id p : Uuid} {n : ℕ} {out : ℕ × Directory}
    (hadmin : ∃ j b, d.roleBindings.lookup j = some b ∧ b.principalId = p ∧ b.roleId = roleId ∧
      b.revokedAt = none)
    (h : ensureSpaceBinding id now roleId spaceId p (n, d) = .ok out) : out = (n, d) := by
  obtain ⟨j, b, hb, hprincipal, hrole, hrevoked⟩ := hadmin
  unfold ensureSpaceBinding at h
  split at h
  · exact (Except.ok.inj h).symm
  split at h
  · exact absurd h (integrityError_ne_ok _ _)
  rename_i hfree
  obtain ⟨roleBindings, hinsert, -⟩ := Except.bind_eq_ok.mp h
  obtain ⟨hid, -⟩ := insertRow_eq_ok.mp hinsert
  refine absurd (AList.anyRow_eq_true.mpr ⟨j, b, hb, ?_⟩) hfree
  have hne : j ≠ id := fun hj ↦ hid (hj ▸ AList.mem_of_lookup hb)
  simp [hne, hprincipal, hrole, hrevoked]

theorem ensure_eq_ok (hd : RoleNamesUnique d) {n : ℕ} {out : ℕ × Directory}
    (h : ensureTenantAdminSpaceBindings ids now spaceId (n, d) = .ok out) : out = (n, d) := by
  unfold ensureTenantAdminSpaceBindings at h
  split at h
  · exact (Except.ok.inj h).symm
  · exact (Except.ok.inj h).symm
  rename_i roleId role hrole hnonempty
  obtain ⟨hrole, hname⟩ := AList.lookup_of_selectFirst hrole
  refine Tx.foldlM_unchanged (fun p hp s' hturn ↦ ensureSpaceBinding_eq_ok ?_ hturn) h
  obtain ⟨id, b, hb, hlisted, hprincipal⟩ := mem_adminPrincipals.mp hp
  simp only [listedAdmin, Bool.and_eq_true, decide_eq_true_eq, Option.isNone_iff_eq_none] at hlisted
  obtain ⟨⟨⟨hadmin, -⟩, hrevoked⟩, -⟩ := hlisted
  obtain ⟨role', hrole', hname'⟩ := (Option.any_eq_true _ _).mp hadmin
  refine ⟨id, b, hb, hprincipal, hd b.roleId roleId role' role hrole' hrole ?_, hrevoked⟩
  rw [of_decide_eq_true hname', of_decide_eq_true hname]

/-- The backfill goes through only if there is nothing for it to create. -/
theorem reconcile_eq_ok (hd : RoleNamesUnique d) {spaces : Table Uuid StorageSpace}
    {out : ℕ × Directory}
    (h : reconcileTenantAdminSpaceBindings ids now spaces d = .ok out) : out = (0, d) :=
  Tx.foldlM_unchanged (fun _ _ _ hturn ↦ ensure_eq_ok hd hturn) h

/-! ## The laws -/

/-- The principal holds a currently valid binding which makes it an administrator. -/
def HoldsTenantAdmin (now : Timestamp) (p : Uuid) (d : Directory) (source : RoleBinding) : Prop :=
  ∃ id, d.roleBindings.lookup id = some source ∧ source.principalId = p ∧ listedAdmin d source ∧
    source.current now

/-- A principal with an effective automatic binding is an administrator. -/
def Mirrored (w : BindingWorld) : Prop :=
  ∀ id ∈ w.automatic, ∀ b, w.directory.roleBindings.lookup id = some b → b.current w.clock →
    ∃ source, HoldsTenantAdmin w.clock b.principalId w.directory source

/-- What the backfill creates comes from a valid binding, which it does not outlive. -/
def Sourced (w : BindingWorld) (c : BindingCommand) (w' : BindingWorld) : Prop :=
  ∀ ids, c = .reconcile ids → ∀ id b, id ∉ w.directory.roleBindings →
    w'.directory.roleBindings.lookup id = some b →
      ∃ source, HoldsTenantAdmin w.clock b.principalId w.directory source ∧
        b.expiresAt ≤ source.expiresAt

/-- No binding has been created automatically, and role names are unique. -/
structure Bare (w : BindingWorld) : Prop where
  automatic : w.automatic = []
  names : RoleNamesUnique w.directory

theorem Bare.mirrored {w : BindingWorld} (h : Bare w) : Mirrored w := by
  intro id hid
  rw [h.automatic] at hid
  cases hid

variable {w w' : BindingWorld} {c : BindingCommand}

/-- The backfill leaves everything as it is. -/
theorem exec_reconcile {ids : Uuid → Uuid → Uuid} (hw : RoleNamesUnique w.directory)
    (h : BindingWorld.exec (.reconcile ids) w = .ok w') : w' = w := by
  obtain ⟨out, hreconcile, h⟩ := Except.bind_eq_ok.mp h
  obtain rfl := reconcile_eq_ok hw hreconcile
  cases Except.pure_eq_ok.mp h
  have hnone : BindingWorld.added w.directory.roleBindings w.directory.roleBindings = [] := by
    refine List.filter_eq_nil_iff.mpr fun id hid ↦ ?_
    simpa using AList.mem_keys.mpr hid
  simp only [hnone, List.append_nil]

theorem exec_roles (hw : RoleNamesUnique w.directory) (h : BindingWorld.exec c w = .ok w') :
    w'.directory.roles = w.directory.roles ∧ w'.automatic = w.automatic := by
  cases c with
  | wait duration =>
      cases h
      exact ⟨rfl, rfl⟩
  | createSpace id space =>
      obtain ⟨spaces, -, h⟩ := Except.bind_eq_ok.mp h
      cases Except.pure_eq_ok.mp h
      exact ⟨rfl, rfl⟩
  | createRoleBinding id principalId data createdBy =>
      obtain ⟨⟨found, directory⟩, hcreate, h⟩ := Except.bind_eq_ok.mp h
      cases Except.pure_eq_ok.mp h
      refine ⟨?_, rfl⟩
      unfold Directory.createRoleBinding at hcreate
      split at hcreate
      · cases hcreate
        rfl
      split at hcreate
      · cases hcreate
        rfl
      split at hcreate
      · exact absurd hcreate (integrityError_ne_ok _ _)
      obtain ⟨roleBindings, -, hcreate⟩ := Except.bind_eq_ok.mp hcreate
      obtain ⟨-, rfl⟩ := Prod.mk.inj (Except.pure_eq_ok.mp hcreate)
      exact (bumps_affectedPrincipals _ _ _).roles_eq
  | updateRoleBinding id data =>
      obtain ⟨⟨found, directory⟩, hupdate, h⟩ := Except.bind_eq_ok.mp h
      cases Except.pure_eq_ok.mp h
      refine ⟨?_, rfl⟩
      unfold Directory.updateRoleBinding at hupdate
      split at hupdate
      · cases hupdate
        rfl
      split at hupdate
      · cases hupdate
        rfl
      split at hupdate
      · exact absurd hupdate (integrityError_ne_ok _ _)
      cases hupdate
      exact (bumps_affectedPrincipals _ _ _).roles_eq
  | revokeRoleBinding id =>
      obtain ⟨⟨found, directory⟩, hrevoke, h⟩ := Except.bind_eq_ok.mp h
      cases Except.pure_eq_ok.mp h
      refine ⟨?_, rfl⟩
      unfold Directory.revokeRoleBinding at hrevoke
      split at hrevoke
      · cases hrevoke
        rfl
      cases hrevoke
      exact (bumps_affectedPrincipals _ _ _).roles_eq
  | reconcile ids =>
      rw [exec_reconcile hw h]
      exact ⟨rfl, rfl⟩

theorem Bare.step (hw : Bare w) (h : BindingWorld.exec c w = .ok w') : Bare w' := by
  obtain ⟨hroles, hautomatic⟩ := exec_roles hw.names h
  refine ⟨hautomatic.trans hw.automatic, ?_⟩
  rw [RoleNamesUnique, hroles]
  exact hw.names

theorem Bare.sourced (hw : Bare w) (c : BindingCommand) :
    Sourced w c (advance BindingWorld.exec w c) := by
  rintro ids rfl id b hid hb
  have hsame : advance BindingWorld.exec w (.reconcile ids) = w :=
    advance_preserves (I := (· = w)) rfl fun w' h ↦ exec_reconcile hw.names h
  rw [hsame] at hb
  exact absurd (AList.mem_of_lookup hb) hid

/-- In every run each principal with an effective automatic binding is an administrator at the
time, and the backfill creates no binding without a valid source which lasts as long. -/
theorem adminBindings_mirrored {w : BindingWorld} (hautomatic : w.automatic = [])
    (hnames : RoleNamesUnique w.directory) (cs : List BindingCommand) :
    Mirrored (run BindingWorld.exec w cs) ∧
      ∀ c, Sourced (run BindingWorld.exec w cs) c
        (advance BindingWorld.exec (run BindingWorld.exec w cs) c) := by
  have hbare : Bare (run BindingWorld.exec w cs) :=
    run_preserves (fun s c s' hs h ↦ hs.step h) ⟨hautomatic, hnames⟩ cs
  exact ⟨hbare.mirrored, hbare.sourced⟩

namespace AdminSample

/-- A member who has been an administrator until the instant 5. -/
def world : BindingWorld where
  clock := 10
  directory :=
    { tenantActive := true, permissions := [],
      principals := (∅ : Table Uuid Principal).insert 2 ⟨.user, true⟩,
      users := ∅, memberships := ∅, groups := ∅, groupMembers := ∅,
      roles := (∅ : Table Uuid Role).insert 3 ⟨"tenant-admin", true, []⟩,
      roleBindings := (∅ : Table Uuid RoleBinding).insert 4
        ⟨2, 3, .allow, none, none, "grant", 0, 5, 2, none⟩,
      applications := ∅, owners := ∅, representatives := ∅, sessions := ∅, platformBindings := ∅ }
  spaces := (∅ : Table Uuid StorageSpace).insert 6 ⟨none, true, "b", "", none, 1, 1⟩
  automatic := []

/-- The expired binding is listed, and nothing is created from it. -/
example : adminPrincipals world.directory = [2] ∧
    reconcileTenantAdminSpaceBindings (fun _ _ ↦ 7) 10 world.spaces world.directory =
      integrityError "uq_role_binding_active_principal_role" :=
  ⟨by decide, rfl⟩

end AdminSample

theorem adminBindings_mirrored_sample :
    Mirrored (run BindingWorld.exec AdminSample.world
        [.reconcile fun _ _ ↦ 7, .revokeRoleBinding 4, .wait 1]) ∧
      ∀ c, Sourced (run BindingWorld.exec AdminSample.world
          [.reconcile fun _ _ ↦ 7, .revokeRoleBinding 4, .wait 1]) c
        (advance BindingWorld.exec (run BindingWorld.exec AdminSample.world
          [.reconcile fun _ _ ↦ 7, .revokeRoleBinding 4, .wait 1]) c) := by
  refine adminBindings_mirrored rfl ?_ _
  rintro i j r r' hr hr' -
  have hkey : ∀ {k s}, AdminSample.world.directory.roles.lookup k = some s → k = 3 := by
    intro k s hk
    by_contra hne
    rw [show AdminSample.world.directory.roles =
      (∅ : Table Uuid Role).insert 3 ⟨"tenant-admin", true, []⟩ from rfl,
      AList.lookup_insert_ne hne] at hk
    cases hk
  rw [hkey hr, hkey hr']

end S3mp.Storage
