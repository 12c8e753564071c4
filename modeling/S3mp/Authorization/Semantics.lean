import S3mp.Authorization.Scope
import S3mp.Encoding.Segments

/-!
# What the evaluator decides

The decision is a fact about the set of bindings: an allow which covers the request
and no deny which does.  A scope covers a request by its space and by whole path
segments of the key.
-/

namespace S3mp.Authorization

open Encoding

/-- The binding is about this permission, in force, and its scope covers the request. -/
structure Binding.Covers (permission : String) (storageSpaceId : Option Uuid) (objectKey : String)
    (now : Timestamp) (b : Binding) : Prop where
  permission : b.permission = permission
  started : b.startsAt ≤ now
  unexpired : now < b.expiresAt
  space : b.storageSpaceId = none ∨ b.storageSpaceId = storageSpaceId
  segments : ∀ directory, b.canonicalPrefix = some directory →
    directory = "" ∨ splitSlash directory <+: splitSlash objectKey

variable {bindings bindings' : List Binding} {permission objectKey directory : String}
  {storageSpaceId : Option Uuid} {now : Timestamp} {b : Binding}

theorem within_iff :
    within directory objectKey = true ↔ splitSlash directory <+: splitSlash objectKey := by
  have hslash : ("/" : String).toList = ['/'] := rfl
  rw [within, Bool.or_eq_true, decide_eq_true_eq, List.isPrefixOf_iff_prefix, String.toList_append,
    hslash, ← String.toList_inj]
  exact below_iff.symm

theorem scopeMatches_some :
    scopeMatches (some directory) objectKey = true ↔
      directory = "" ∨ splitSlash directory <+: splitSlash objectKey := by
  rw [← within_iff, scopeMatches, truthy]
  by_cases hempty : directory = ""
  · simp [hempty]
  · simp [hempty]

theorem Binding.covers_iff :
    b.covers permission storageSpaceId objectKey now = true ↔
      b.Covers permission storageSpaceId objectKey now := by
  simp only [Binding.covers, Bool.and_eq_true, Bool.or_eq_true, decide_eq_true_eq]
  have hscope : scopeMatches b.canonicalPrefix objectKey = true ↔
      ∀ directory, b.canonicalPrefix = some directory →
        directory = "" ∨ splitSlash directory <+: splitSlash objectKey := by
    cases hprefix : b.canonicalPrefix with
    | none => exact iff_of_true rfl fun _ h ↦ by cases h
    | some directory =>
        rw [scopeMatches_some]
        exact ⟨fun h _ heq ↦ Option.some.inj heq ▸ h, fun h ↦ h directory rfl⟩
  rw [hscope]
  constructor
  · rintro ⟨⟨⟨⟨hpermission, hstarted⟩, hunexpired⟩, hspace⟩, hsegments⟩
    exact ⟨hpermission, hstarted, hunexpired, hspace, hsegments⟩
  · rintro ⟨hpermission, hstarted, hunexpired, hspace, hsegments⟩
    exact ⟨⟨⟨⟨hpermission, hstarted⟩, hunexpired⟩, hspace⟩, hsegments⟩

/-- Some binding which covers the request has the effect. -/
def Covered (bindings : List Binding) (effect : Decision) (permission : String)
    (storageSpaceId : Option Uuid) (objectKey : String) (now : Timestamp) : Prop :=
  ∃ b ∈ bindings, b.Covers permission storageSpaceId objectKey now ∧ b.effect = effect

theorem evaluateAt_eq_none :
    evaluateAt permission bindings storageSpaceId objectKey now = none ↔
      isCanonicalPrefix objectKey = false := by
  unfold evaluateAt
  split
  · rename_i hkey
    simp [hkey]
  · rename_i hkey
    simp [hkey]

theorem not_allowed_of_not_canonical (hkey : isCanonicalPrefix objectKey = false) :
    ¬ Allowed bindings permission storageSpaceId objectKey now := by
  rw [Allowed, evaluateAt_eq_none.mpr hkey]
  simp

theorem allowed_iff_covered (hkey : isCanonicalPrefix objectKey = true) :
    Allowed bindings permission storageSpaceId objectKey now ↔
      Covered bindings .allow permission storageSpaceId objectKey now ∧
        ¬ Covered bindings .deny permission storageSpaceId objectKey now := by
  rw [allowed_iff hkey, and_comm]
  simp only [Covered, Binding.covers_iff, not_exists, not_and, ne_eq]

theorem resolve_congr {found found' : List Binding} (h : ∀ b, b ∈ found ↔ b ∈ found') :
    resolve found = resolve found' := by
  have hany : ∀ effect : Decision, (found.any fun b ↦ b.effect = effect) =
      found'.any fun b ↦ b.effect = effect := by
    intro effect
    rw [Bool.eq_iff_iff, List.any_eq_true, List.any_eq_true]
    simp only [h]
  rw [resolve, hany, hany, resolve]

/-- Neither the order nor the repetition of bindings matters. -/
theorem evaluateAt_congr (h : ∀ b, b ∈ bindings ↔ b ∈ bindings') :
    evaluateAt permission bindings storageSpaceId objectKey now =
      evaluateAt permission bindings' storageSpaceId objectKey now := by
  have hfound : resolve (bindings.filter (Binding.covers permission storageSpaceId objectKey now)) =
      resolve (bindings'.filter (Binding.covers permission storageSpaceId objectKey now)) :=
    resolve_congr fun b ↦ by simp only [List.mem_filter, h]
  rw [evaluateAt, hfound, evaluateAt]

theorem Allowed.without_deny (hadded : ∀ c, c ∈ bindings' ↔ c = b ∨ c ∈ bindings)
    (hdeny : b.effect = .deny) (h : Allowed bindings' permission storageSpaceId objectKey now) :
    Allowed bindings permission storageSpaceId objectKey now := by
  cases hkey : isCanonicalPrefix objectKey with
  | false => exact absurd h (not_allowed_of_not_canonical hkey)
  | true =>
      rw [allowed_iff_covered hkey] at h ⊢
      obtain ⟨⟨c, hc, hcovers, hallow⟩, hnone⟩ := h
      refine ⟨⟨c, ?_, hcovers, hallow⟩, ?_⟩
      · rcases (hadded c).mp hc with rfl | hc
        · rw [hdeny] at hallow
          cases hallow
        · exact hc
      · rintro ⟨c, hc, hcovers, heffect⟩
        exact hnone ⟨c, (hadded c).mpr (Or.inr hc), hcovers, heffect⟩

theorem Allowed.with_allow (hadded : ∀ c, c ∈ bindings' ↔ c = b ∨ c ∈ bindings)
    (hallow : b.effect = .allow) (h : Allowed bindings permission storageSpaceId objectKey now) :
    Allowed bindings' permission storageSpaceId objectKey now := by
  cases hkey : isCanonicalPrefix objectKey with
  | false => exact absurd h (not_allowed_of_not_canonical hkey)
  | true =>
      rw [allowed_iff_covered hkey] at h ⊢
      obtain ⟨⟨c, hc, hcovers, heffect⟩, hnone⟩ := h
      refine ⟨⟨c, (hadded c).mpr (Or.inr hc), hcovers, heffect⟩, ?_⟩
      rintro ⟨c, hc, hcovers, hdeny⟩
      rcases (hadded c).mp hc with rfl | hc
      · rw [hallow] at hdeny
        cases hdeny
      · exact hnone ⟨c, hc, hcovers, hdeny⟩

/-- What the evaluator decides, and what follows for a binding added anywhere in the list. -/
theorem evaluator_semantics (bindings : List Binding) (permission : String)
    (storageSpaceId : Option Uuid) (objectKey : String) (now : Timestamp) :
    (evaluateAt permission bindings storageSpaceId objectKey now = none ↔
        isCanonicalPrefix objectKey = false) ∧
      (isCanonicalPrefix objectKey = true →
        (Allowed bindings permission storageSpaceId objectKey now ↔
          Covered bindings .allow permission storageSpaceId objectKey now ∧
            ¬ Covered bindings .deny permission storageSpaceId objectKey now)) ∧
      (∀ bindings', (∀ b, b ∈ bindings ↔ b ∈ bindings') →
        evaluateAt permission bindings storageSpaceId objectKey now =
          evaluateAt permission bindings' storageSpaceId objectKey now) ∧
      (∀ b bindings', b.effect = .deny → (∀ c, c ∈ bindings' ↔ c = b ∨ c ∈ bindings) →
        ¬ Allowed bindings permission storageSpaceId objectKey now →
          ¬ Allowed bindings' permission storageSpaceId objectKey now) ∧
      ∀ b bindings', b.effect = .allow → (∀ c, c ∈ bindings' ↔ c = b ∨ c ∈ bindings) →
        Allowed bindings permission storageSpaceId objectKey now →
          Allowed bindings' permission storageSpaceId objectKey now := by
  refine ⟨evaluateAt_eq_none, allowed_iff_covered, fun _ ↦ evaluateAt_congr, ?_, ?_⟩
  · intro b bindings' hdeny hadded hnot h
    exact hnot (h.without_deny hadded hdeny)
  · intro b bindings' hallow hadded h
    exact h.with_allow hadded hallow

/-- No decision is made about a key with an empty segment, whatever is allowed. -/
theorem uncovered_key_not_decided : ¬ ∀ (bindings : List Binding) (permission : String)
    (storageSpaceId : Option Uuid) (objectKey : String) (now : Timestamp),
      Allowed bindings permission storageSpaceId objectKey now ↔
        Covered bindings .allow permission storageSpaceId objectKey now ∧
          ¬ Covered bindings .deny permission storageSpaceId objectKey now := by
  intro h
  let everywhere : Binding := ⟨1, "files.read", .allow, none, 0, 10, "", none⟩
  have hcovers : everywhere.Covers "files.read" (some 2) "a//b" 5 :=
    ⟨rfl, by decide, by decide, Or.inl rfl, fun _ hprefix ↦ by cases hprefix⟩
  have hallowed := (h [everywhere] "files.read" (some 2) "a//b" 5).mpr
    ⟨⟨everywhere, List.mem_singleton_self _, hcovers, rfl⟩, ?_⟩
  · exact not_allowed_of_not_canonical (by decide) hallowed
  · rintro ⟨b, hb, -, hdeny⟩
    rw [List.mem_singleton.mp hb] at hdeny
    cases hdeny

end S3mp.Authorization
