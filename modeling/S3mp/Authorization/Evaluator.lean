import S3mp.Common.Basic

/-!
# Scoped authorization

The deterministic evaluation of role bindings in `authorization/domain/evaluator.py`:
among the bindings which match permission, time, space and prefix an explicit
deny wins, and nothing is allowed by default.
-/

namespace S3mp.Authorization

inductive Decision where
  | allow | deny
  deriving DecidableEq, Repr

structure Binding where
  id : Uuid
  permission : String
  effect : Decision
  canonicalPrefix : Option String
  startsAt : Timestamp
  expiresAt : Timestamp
  reason : String
  storageSpaceId : Option Uuid
  deriving DecidableEq, Repr

def splitSlash (key : String) : List (List Char) :=
  key.toList.splitOn '/'

/-- `validate_canonical_prefix` raises a `ValueError` unless this holds. -/
def isCanonicalPrefix (key : String) : Bool :=
  key = "" ||
    (key.toList.head? ≠ some '/' &&
      key.toList.all (fun c ↦ c ≠ '\\' && c ≠ '%' && 32 ≤ c.toNat && c.toNat ≠ 127) &&
      (splitSlash key).all fun segment ↦ segment ∉ [[], ['.'], ['.', '.']])

/-- The key is the directory itself or lies below it. -/
def within (directory key : String) : Bool :=
  key = directory || (directory ++ "/").toList.isPrefixOf key.toList

def scopeMatches (bindingPrefix : Option String) (objectKey : String) : Bool :=
  (truthy bindingPrefix).all fun directory ↦ within directory objectKey

def Binding.matches (permission : String) (storageSpaceId : Uuid) (objectKey : String)
    (now : Timestamp) (b : Binding) : Bool :=
  b.permission = permission && b.startsAt ≤ now && now < b.expiresAt &&
    b.storageSpaceId.all (· = storageSpaceId) && scopeMatches b.canonicalPrefix objectKey

structure AuthorizationDecision where
  decision : Decision
  reasonCode : String
  deriving DecidableEq, Repr

/-- The decision over the matching bindings. -/
def resolve (found : List Binding) : AuthorizationDecision :=
  if found.any fun b ↦ b.effect = .deny then ⟨.deny, "explicit_deny"⟩
  else if found.any fun b ↦ b.effect = .allow then ⟨.allow, "binding_allow"⟩
  else ⟨.deny, "default_deny"⟩

/-- No decision is made about a key which is not canonical. -/
def evaluate (permission : String) (bindings : List Binding) (storageSpaceId : Uuid)
    (objectKey : String) (now : Timestamp) : Option AuthorizationDecision :=
  if isCanonicalPrefix objectKey then
    some (resolve (bindings.filter (Binding.matches permission storageSpaceId objectKey now)))
  else none

theorem resolve_allow {found : List Binding} :
    (resolve found).decision = .allow ↔
      (∀ b ∈ found, b.effect ≠ .deny) ∧ ∃ b ∈ found, b.effect = .allow := by
  unfold resolve
  split
  · rename_i hdeny
    obtain ⟨b, hb, heffect⟩ := List.any_eq_true.mp hdeny
    simp only [reduceCtorEq, false_iff, not_and]
    exact fun hnone ↦ absurd (by simpa using heffect) (hnone b hb)
  · rename_i hdeny
    have hnone : ∀ b ∈ found, b.effect ≠ .deny := by simpa using hdeny
    split
    · rename_i hallow
      exact iff_of_true rfl ⟨hnone, by simpa using hallow⟩
    · rename_i hallow
      exact iff_of_false (by simp) fun h ↦ hallow (by simpa using h.2)

end S3mp.Authorization
