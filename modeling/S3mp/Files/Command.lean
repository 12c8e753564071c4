import S3mp.Files.Reconciler
import S3mp.Identity.Context
import Mathlib.Data.List.Sort

/-!
# Authorized file commands

`AuthorizedFileCommand.create`: a requested key becomes the key the evaluator is
shown and the location of the object.  New input of an API key with a directory
prefix is relative to that directory; the key of a stored record is not.
-/

namespace S3mp.Files

open Authorization Identity Storage

/-- What a request means beyond its key and its permission. -/
inductive Semantics where
  | none
  | precheck (contentLength : ℤ)
  | upload (contentLength : ℤ) (contentType : String) (checksum metadata : Option String)
      (expiresAt : Timestamp)
  | completion (checksum : Option String)
  | part (partNumber : ℕ) (contentLength : ℤ)
  | parts (parts : List (ℕ × String))
  | metadataUpdate (fileId recordEtag : String) (metadata : Option String)
  | ifMatch (ifMatch : Option String)
  | rename (sourceFileId : String)
  | operation (operationType : OperationType)
  | deletes (keys : List String)
  deriving DecidableEq, Repr

/-- The text whose SHA-256 is the idempotency fingerprint, by its fields. -/
structure FingerprintPayload where
  principalId : Uuid
  subjectKind : SubjectKind
  action : String
  storageSpaceId : Uuid
  relativeKey : String
  idempotencyKey : String
  semantics : Semantics
  deriving DecidableEq, Repr

structure AuthorizedFileCommand where
  actingPrincipalId : Uuid
  storageSpaceId : Uuid
  bucket : String
  relativeKey : String
  physicalKey : String
  providerTargetVersion : ℕ
  action : String
  authorizationVersion : ℕ
  authorizationEvidence : AuthorizationEvidence
  idempotencyFingerprint : Option String
  deriving DecidableEq, Repr

def AuthorizedFileCommand.providerTarget (c : AuthorizedFileCommand) : ProviderTarget :=
  ⟨c.bucket, c.physicalKey, c.providerTargetVersion⟩

def policyError {α : Type} (message : String) : Except Raised α :=
  .error (.other message)

def apiError {α : Type} (code message : String) (statusCode : ℕ) : Except Raised α :=
  .error (.api ⟨code, message, statusCode⟩)

def keyPrefix (ctx : PrincipalContext) : Option String :=
  if ctx.subjectKind = .application then ctx.apiKeyDirectoryPrefix else none

/-- The directory an API key is confined to. -/
def keyDirectory (ctx : PrincipalContext) : Option String :=
  truthy (keyPrefix ctx)

def canonicalKey (key : String) (allowEmpty : Bool) : Except Raised String :=
  match canonicalObjectKey key allowEmpty with
  | none => policyError "object key is not canonical"
  | some key => .ok key

/-- The key below the directory of the API key: that of a record as it is, new input joined. -/
def scopedKey (ctx : PrincipalContext) (key : String) (resolved : Bool) : Except Raised String :=
  match keyDirectory ctx with
  | none => .ok key
  | some directory => do
    let directory ← canonicalKey directory false
    if resolved then
      if within directory key then return key
      else apiError "permission_denied" "Object is outside API key directory scope" 403
    else return if key = "" then directory else directory ++ "/" ++ key

/-- The evidence of a decision; its sources and its time are left out. -/
def commandEvidence (ctx : PrincipalContext) : AuthorizationEvidence where
  subjectKind := ctx.subjectKind
  targetPrincipalId := ctx.principalId
  membershipId := ctx.membershipId
  applicationId := ctx.applicationId
  actorApplicationId := ctx.actorApplicationId
  actorPrincipalId := ctx.actorPrincipalId
  apiKeyId := ctx.apiKeyId
  apiKeyScopes := (ctx.apiKeyScopes.getD []).insertionSort (· ≤ ·)
  apiKeyDirectoryPrefix := keyPrefix ctx

/-- The last steps: the scopes of the API key and the decision over the bindings. -/
def authorizeKey (ctx : PrincipalContext) (action : String) (bindings : List Binding)
    (spaceId : Uuid) (key : String) (now : Timestamp) : Except Raised Unit :=
  if ctx.subjectKind = .application ∧ !(ctx.apiKeyScopes.any (action ∈ ·)) then
    apiError "permission_denied" "API key scope does not allow this action" 403
  else
    match evaluate action bindings spaceId key now with
    | none => policyError "prefix must be canonical and relative"
    | some decision =>
      if decision.decision = .allow then .ok ()
      else if ctx.subjectKind = .application ∧ bindings = [] then
        apiError "role_not_configured"
          "No active role binding is configured for this application in the target storage space" 403
      else apiError "permission_denied" decision.reasonCode 403

/-- A requested key, with what else the caller says of it. -/
structure CommandInput where
  key : String
  action : String
  idempotencyKey : Option String
  semantics : Semantics
  /-- The key is that of a stored record. -/
  resolved : Bool
  deriving DecidableEq, Repr

/-- `fingerprint` is the SHA-256 of the payload. -/
def AuthorizedFileCommand.create (fingerprint : FingerprintPayload → String) (tenantId : Uuid)
    (ctx : PrincipalContext) (spaceId : Uuid) (space : StorageSpace) (bindings : List Binding)
    (now : Timestamp) (i : CommandInput) : Except Raised AuthorizedFileCommand := do
  let key ← canonicalKey i.key (i.action = "files.list")
  let key ← scopedKey ctx key i.resolved
  if !isCanonicalPrefix key then policyError "prefix must be canonical and relative"
  match deriveProviderTarget tenantId spaceId space key with
  | none => policyError "provider target"
  | some target =>
    authorizeKey ctx i.action bindings spaceId key now
    return {
      actingPrincipalId := ctx.actorPrincipalId.getD ctx.principalId
      storageSpaceId := spaceId
      bucket := target.bucket
      relativeKey := key
      physicalKey := target.key
      providerTargetVersion := target.version
      action := i.action
      authorizationVersion := ctx.authorizationVersion
      authorizationEvidence := commandEvidence ctx
      idempotencyFingerprint := (truthy i.idempotencyKey).map fun idempotencyKey ↦
        fingerprint ⟨ctx.principalId, ctx.subjectKind, i.action, spaceId, key, idempotencyKey,
          i.semantics⟩ }

/-! ## The two directions between relative and physical keys -/

def physicalKeyOf (tenantId spaceId : Uuid) (space : StorageSpace) (relativeKey : String) :
    Except Raised String :=
  match deriveProviderTarget tenantId spaceId space relativeKey with
  | none => policyError "provider target"
  | some target => .ok target.key

/-- The text after the prefix, if it is one. -/
def removePrefix (pre text : String) : Option String :=
  if pre.toList.isPrefixOf text.toList then some (String.ofList (text.toList.drop pre.length))
  else none

theorem removePrefix_eq_some {pre text rest : String} :
    removePrefix pre text = some rest ↔ text = pre ++ rest := by
  have hlength : pre.toList.length = pre.length := String.length_toList
  rw [removePrefix, Option.ite_none_right_eq_some, List.isPrefixOf_iff_prefix, Option.some.injEq,
    ← hlength]
  constructor
  · rintro ⟨⟨tail, htail⟩, rfl⟩
    rw [← String.toList_inj, String.toList_append, String.toList_ofList, ← htail, List.drop_left]
  · rintro rfl
    rw [String.toList_append, List.drop_left, String.ofList_toList]
    exact ⟨List.prefix_append _ _, rfl⟩

def relativeKeyOf (tenantId spaceId : Uuid) (space : StorageSpace) (physicalKey : String) :
    Except Raised String := do
  let expected ← physicalKeyOf tenantId spaceId space ""
  match removePrefix (expected ++ "/") physicalKey with
  | none => apiError "resource_not_found" "Provider target is not in the storage space" 404
  | some key => return key

/-- The directory of the API key is not shown to its clients. -/
def keyRelativePublicKey (ctx : PrincipalContext) (key : String) : Except Raised String :=
  match keyDirectory ctx with
  | none => .ok key
  | some directory =>
    if key = directory then .ok ""
    else
      match removePrefix (directory ++ "/") key with
      | none => apiError "permission_denied" "Object is outside API key directory scope" 403
      | some key => .ok key

end S3mp.Files
