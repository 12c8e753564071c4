import S3mp.Common.Clock
import S3mp.Database
import S3mp.Files.Command
import S3mp.Identity.DirectoryStore

/-!
# API keys

The rows of `api_key`, the transactions of the store on them, and the rules of
`credentials.py`.  A credential names its key and carries the secret whose digest
the key keeps.  The keys of other tenants are neither read nor written.
-/

namespace S3mp.Applications

open Relational Directory Files

/-! ## Credentials -/

inductive ApiKeyStatus where
  | active | revoked | expired
  deriving DecidableEq, Repr

/-- What `issue` of the credential service draws. -/
structure IssuedApiKey where
  keyId : String
  secret : String
  deriving DecidableEq, Repr

def IssuedApiKey.credential (k : IssuedApiKey) : String :=
  k.keyId ++ "." ++ k.secret

/-- The key's id ends at the first dot. -/
def parseCredential (value : String) : Tx (String × String) :=
  match removePrefix "S3MP-Key " value with
  | none => .error (.value "invalid authorization scheme")
  | some credential =>
    match credential.toList.takeWhile (· ≠ '.'), credential.toList.dropWhile (· ≠ '.') with
    | c :: keyId, _ :: d :: secret => .ok (String.ofList (c :: keyId), String.ofList (d :: secret))
    | _, _ => .error (.value "invalid API key credential")

def keyIsUsable (status : ApiKeyStatus) (expiresAt now : Timestamp) : Bool :=
  status = .active && now < expiresAt

/-- `digest` is the HMAC-SHA-256 under the pepper; a secret which is not ASCII has none. -/
def verifySecret (digest : String → List UInt8) (secret : String) (expected : List UInt8) : Bool :=
  secret.toList.all (·.toNat < 128) && digest secret = expected

/-! ## The store -/

structure ApiKey where
  applicationId : Uuid
  keyId : String
  secretDigest : List UInt8
  pepperVersion : ℕ
  scopes : List String
  directoryPrefix : Option String
  status : ApiKeyStatus
  expiresAt : Timestamp
  lastUsedAt : Option Timestamp
  revokedAt : Option Timestamp
  deriving DecidableEq, Repr

def ApiKey.usable (k : ApiKey) (now : Timestamp) : Bool :=
  keyIsUsable k.status k.expiresAt now

structure KeyStore where
  directory : Directory
  keys : Table Uuid ApiKey

/-- A key joined with its application and the principal of that. -/
structure KeyRecord where
  key : ApiKey
  application : Directory.Application
  principal : Directory.Principal
  deriving DecidableEq, Repr

structure KeyData where
  applicationId : Uuid
  keyId : String
  secretDigest : List UInt8
  pepperVersion : ℕ
  scopes : List String
  expiresAt : Timestamp
  directoryPrefix : Option String
  deriving DecidableEq, Repr

def KeyData.row (data : KeyData) : ApiKey where
  applicationId := data.applicationId
  keyId := data.keyId
  secretDigest := data.secretDigest
  pepperVersion := data.pepperVersion
  scopes := data.scopes
  directoryPrefix := data.directoryPrefix
  status := .active
  expiresAt := data.expiresAt
  lastUsedAt := none
  revokedAt := none

/-- The three columns `update_key` assigns. -/
def ApiKey.updated (status : ApiKeyStatus) (revokedAt lastUsedAt : Option Timestamp) (k : ApiKey) :
    ApiKey :=
  { k with status, revokedAt, lastUsedAt }

namespace KeyStore

/-- Keys of an application which is not active are not found. -/
def getKey (id : Uuid) (s : KeyStore) : Option ApiKey :=
  (s.keys.lookup id).filter fun k ↦
    (s.directory.applications.lookup k.applicationId).any (·.status = .active) &&
      s.directory.tenantActive

def bumpApplication (applicationId : Uuid) (s : KeyStore) : KeyStore :=
  { s with directory := { s.directory with
      applications := s.directory.applications.update applicationId Application.bumped } }

def createKey (id : Uuid) (data : KeyData) (s : KeyStore) : Tx (ApiKey × KeyStore) :=
  if data.applicationId ∉ s.directory.applications then
    integrityError "api_key_tenant_id_application_id_fkey"
  else if s.keys.anyRow fun _ k ↦ k.keyId = data.keyId then integrityError "api_key_key_id_key"
  else do
    let keys ← insertRow "api_key_pkey" id (data.row) s.keys
    return (data.row, bumpApplication data.applicationId { s with keys })

def updateKey (id : Uuid) (status : ApiKeyStatus) (revokedAt lastUsedAt : Option Timestamp)
    (s : KeyStore) : Option ApiKey × KeyStore :=
  match s.keys.lookup id with
  | none => (none, s)
  | some k => (some (k.updated status revokedAt lastUsedAt),
      bumpApplication k.applicationId
        { s with keys := s.keys.update id (ApiKey.updated status revokedAt lastUsedAt) })

def findByKeyId (keyId : String) (s : KeyStore) : Option (Uuid × KeyRecord) := do
  let (id, key) ← s.keys.selectFirst fun _ k ↦ k.keyId = keyId
  let application ← s.directory.applications.lookup key.applicationId
  let principal ← s.directory.principals.lookup application.principalId
  return (id, ⟨key, application, principal⟩)

/-! ## Authentication -/

def invalidKey {α : Type} (message : String) : Tx α :=
  raise "authentication_required" message 401

def authenticate (digest : String → List UInt8) (now : Timestamp) (credential : String)
    (s : KeyStore) : Tx (Uuid × KeyRecord) := do
  let (keyId, secret) ← parseCredential credential
  match s.findByKeyId keyId with
  | none => invalidKey "Invalid API key"
  | some (id, record) =>
    if !verifySecret digest secret record.key.secretDigest then invalidKey "Invalid API key"
    else if !record.key.usable now then invalidKey "API key is revoked or expired"
    else if record.application.status ≠ .active ∨ !record.principal.enabled ∨
        record.principal.type ≠ .application then
      invalidKey "Application is not active"
    else return (id, record)

/-- The credential authenticates this key. -/
def Authenticates (digest : String → List UInt8) (now : Timestamp) (credential : String) (id : Uuid)
    (s : KeyStore) : Prop :=
  ∃ record, s.authenticate digest now credential = .ok (id, record)

variable {digest : String → List UInt8} {now : Timestamp} {credential : String} {id : Uuid}
  {s : KeyStore}

theorem of_findByKeyId {keyId : String} {record : KeyRecord}
    (h : s.findByKeyId keyId = some (id, record)) : s.keys.lookup id = some record.key := by
  obtain ⟨⟨i, key⟩, hfound, h⟩ := Option.bind_eq_some_iff.mp h
  obtain ⟨application, -, h⟩ := Option.bind_eq_some_iff.mp h
  obtain ⟨principal, -, h⟩ := Option.bind_eq_some_iff.mp h
  cases h
  exact (AList.lookup_of_selectFirst hfound).1

/-- Only a usable key is authenticated. -/
theorem Authenticates.usable (h : s.Authenticates digest now credential id) :
    ∃ k, s.keys.lookup id = some k ∧ k.usable now := by
  obtain ⟨record, h⟩ := h
  obtain ⟨⟨keyId, secret⟩, -, h⟩ := Except.bind_eq_ok.mp h
  dsimp only at h
  split at h
  · exact absurd h (raise_ne_ok _ _ _ _)
  rename_i i found hfound
  split at h
  · exact absurd h (raise_ne_ok _ _ _ _)
  split at h
  · exact absurd h (raise_ne_ok _ _ _ _)
  rename_i husable
  split at h
  · exact absurd h (raise_ne_ok _ _ _ _)
  obtain ⟨rfl, rfl⟩ := Prod.mk.inj (Except.pure_eq_ok.mp h)
  exact ⟨_, of_findByKeyId hfound, by simpa using husable⟩

end KeyStore

end S3mp.Applications
