import S3mp.Authorization.Evaluator

/-!
# Evaluation with an optional space

Management asks for a permission of the tenant as a whole: `storage_space_id` is
`None` and the key is empty.  For a space the evaluation is the one above.
-/

namespace S3mp.Authorization

/-- The binding speaks about the permission at this place and instant. -/
def Binding.covers (permission : String) (storageSpaceId : Option Uuid) (objectKey : String)
    (now : Timestamp) (b : Binding) : Bool :=
  b.permission = permission && b.startsAt ≤ now && now < b.expiresAt &&
    (b.storageSpaceId = none || b.storageSpaceId = storageSpaceId) &&
    scopeMatches b.canonicalPrefix objectKey

def evaluateAt (permission : String) (bindings : List Binding) (storageSpaceId : Option Uuid)
    (objectKey : String) (now : Timestamp) : Option AuthorizationDecision :=
  if isCanonicalPrefix objectKey then
    some (resolve (bindings.filter (Binding.covers permission storageSpaceId objectKey now)))
  else none

/-- The text of the `ValueError` about a key which is not canonical. -/
def prefixError (key : String) : String :=
  if key.toList.head? = some '/' || key.toList.any (· ∈ ['\\', '%']) then
    "prefix must be canonical and relative"
  else if key.toList.any (fun c ↦ c.toNat < 32 || c.toNat = 127) then
    "prefix must not contain control characters"
  else "prefix contains an invalid segment"

theorem Binding.covers_some {permission objectKey : String} {storageSpaceId : Uuid}
    {now : Timestamp} (b : Binding) :
    b.covers permission (some storageSpaceId) objectKey now =
      b.matches permission storageSpaceId objectKey now := by
  unfold Binding.covers Binding.matches
  cases b.storageSpaceId with
  | none => rfl
  | some s => simp

theorem evaluateAt_some (permission : String) (bindings : List Binding) (storageSpaceId : Uuid)
    (objectKey : String) (now : Timestamp) :
    evaluateAt permission bindings (some storageSpaceId) objectKey now =
      evaluate permission bindings storageSpaceId objectKey now := by
  unfold evaluateAt evaluate
  congr 3
  exact List.filter_congr fun b _ ↦ b.covers_some

def Allowed (bindings : List Binding) (permission : String) (storageSpaceId : Option Uuid)
    (objectKey : String) (now : Timestamp) : Prop :=
  (evaluateAt permission bindings storageSpaceId objectKey now).map (·.decision) = some .allow

variable {bindings : List Binding} {permission objectKey : String} {storageSpaceId : Option Uuid}
  {now : Timestamp}

instance : Decidable (Allowed bindings permission storageSpaceId objectKey now) :=
  inferInstanceAs (Decidable (_ = _))

theorem allowed_iff (hkey : isCanonicalPrefix objectKey) :
    Allowed bindings permission storageSpaceId objectKey now ↔
      (∀ b ∈ bindings, b.covers permission storageSpaceId objectKey now → b.effect ≠ .deny) ∧
        ∃ b ∈ bindings, b.covers permission storageSpaceId objectKey now ∧ b.effect = .allow := by
  rw [Allowed, evaluateAt, if_pos hkey, Option.map_some, Option.some_inj, resolve_allow]
  simp only [List.mem_filter, and_imp, and_assoc]

/-- What is allowed for the tenant as a whole is allowed wherever no deny binding speaks. -/
theorem covers_of_tenantWide {b : Binding}
    (h : b.covers permission none "" now) : b.covers permission storageSpaceId objectKey now := by
  simp only [Binding.covers, Bool.and_eq_true, decide_eq_true_eq, Bool.or_eq_true, or_self] at h ⊢
  obtain ⟨⟨htime, hspace⟩, hscope⟩ := h
  refine ⟨⟨htime, Or.inl hspace⟩, ?_⟩
  unfold scopeMatches at hscope ⊢
  cases hdirectory : truthy b.canonicalPrefix with
  | none => rfl
  | some directory =>
      exfalso
      have hne : directory ≠ "" := by
        have hfilter := (Option.filter_eq_some_iff.mp hdirectory).2
        exact of_decide_eq_true hfilter
      rw [hdirectory] at hscope
      have hempty : directory = "" := by simpa [within, String.toList_append] using hscope
      exact hne hempty

end S3mp.Authorization
