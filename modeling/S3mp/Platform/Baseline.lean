/-!
# Authorization baselines

The constants of `platform/application/baseline.py` which roles, members and
platform grants of a tenant start from.
-/

namespace S3mp.Platform

def tenantAdminPermissions : List String :=
  ["members.read", "members.manage", "groups.read", "groups.manage", "roles.read", "roles.manage",
    "role_bindings.read", "role_bindings.manage", "authorization.explain",
    "authorization.simulate", "applications.read", "applications.manage", "api_keys.read",
    "api_keys.manage", "storage_connections.read", "storage_connections.manage", "files.list",
    "files.read", "files.write", "files.delete", "files.copy", "files.move",
    "presigned_urls.issue", "quotas.read", "quotas.manage", "audit.read", "access_reviews.read",
    "access_reviews.manage"]

/-- What every active member of a tenant may do. -/
def tenantMemberPermissions : List String :=
  ["applications.read", "quotas.read"]

def supportRolePermissions : List String :=
  ["members.read", "groups.read", "roles.read", "role_bindings.read", "applications.read",
    "api_keys.read", "storage_connections.read", "quotas.read", "audit.read"]

def supportRoleName : String := "platform-support"

/-- `_ensure_permissions`: a role only ever gains permissions here. -/
def ensurePermissions (names permissions : List String) : List String :=
  permissions ++ names.filter (· ∉ permissions)

theorem mem_ensurePermissions {names permissions : List String} {p : String} :
    p ∈ ensurePermissions names permissions ↔ p ∈ permissions ∨ p ∈ names := by
  rw [ensurePermissions, List.mem_append, List.mem_filter, decide_eq_true_eq]
  constructor
  · rintro (h | ⟨h, -⟩)
    · exact Or.inl h
    · exact Or.inr h
  · intro h
    by_cases hp : p ∈ permissions
    · exact Or.inl hp
    · exact Or.inr ⟨h.resolve_left hp, hp⟩

end S3mp.Platform
