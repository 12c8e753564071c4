import S3mp.Common.Uuids
import S3mp.Encoding.Base64
import S3mp.Encoding.Json
import Mathlib.Data.Rat.Defs
import Mathlib.Data.Set.Basic

/-!
# Pagination cursors

`common/api/cursor.py`.  A cursor is a position, sealed together with the tenant,
the principal, the authorization version and the query it was made for.  The
library's keyed hash and its JSON reader are parameters.
-/

namespace S3mp.Cursors

open Encoding

/-! ## Values -/

/-- What `json.loads` returns.  No number stands for an infinity or a NaN. -/
inductive Value where
  | null
  | bool (b : Bool)
  | int (n : ℤ)
  | float (x : Option ℚ)
  | string (s : String)
  | list (items : List Value)
  | dict (members : List (String × Value))

inductive PyError where
  | keyError (key : String)
  | valueError (message : String)
  | typeError (message : String)
  | attributeError (name : String)
  | api (error : ApiError)
  deriving DecidableEq

namespace Value

/-- `data[key]`. -/
def getItem (key : String) : Value → Except PyError Value
  | dict members =>
      match members.lookup key with
      | some v => .ok v
      | none => .error (.keyError key)
  | string _ => .error (.typeError "string indices must be integers, not 'str'")
  | list _ => .error (.typeError "list indices must be integers or slices, not str")
  | _ => .error (.typeError "object is not subscriptable")

/-- `data.get(key)`. -/
def get (key : String) : Value → Except PyError Value
  | dict members => .ok ((members.lookup key).getD null)
  | _ => .error (.attributeError "get")

/-- `value == text`. -/
def eqStr (text : String) : Value → Bool
  | string s => s = text
  | _ => false

/-- `value == n`, where a truth value is a number. -/
def eqInt (n : ℤ) : Value → Bool
  | bool b => n = if b then 1 else 0
  | int m => m = n
  | float x => x = some (n : ℚ)
  | _ => false

end Value

/-- What the codec uses of `hmac` and `json`, and the text `str` gives a value that is none. -/
structure Library where
  hmacSha256 : List UInt8 → List UInt8 → List UInt8
  digest_size : ∀ secret message, (hmacSha256 secret message).length = 32
  loads : List UInt8 → Except PyError Value
  repr : Value → String

def Library.str (lib : Library) : Value → String
  | .string s => s
  | v => lib.repr v

/-! ## Payloads -/

/-- What a cursor is bound to. -/
structure Context where
  tenantId : Uuid
  principalId : Uuid
  authorizationVersion : ℤ
  query : String
  deriving DecidableEq

/-- The decimal numeral. -/
def intText (n : ℤ) : NumberText where
  chars := if n < 0 then '-' :: Nat.toDigits 10 n.natAbs else Nat.toDigits 10 n.natAbs
  nonempty := by
    split
    · exact List.cons_ne_nil _ _
    · exact Nat.toDigits_ne_nil
  numeric := by
    have hdigits : (Nat.toDigits 10 n.natAbs).all isNumberChar = true := by
      refine List.all_eq_true.mpr fun c hc ↦ ?_
      rw [isNumberChar, Nat.isDigit_of_mem_toDigits (by decide) (by decide) hc]
      rfl
    split
    · rw [List.all_cons, hdigits]
      rfl
    · exact hdigits

def unicodeEscape (n : ℕ) : List Char :=
  ['\\', 'u', hexDigit (n / 4096), hexDigit (n / 256 % 16), hexDigit (n / 16 % 16),
    hexDigit (n % 16)]

/-- `ensure_ascii` writes what is not printable ASCII as escapes, and two of them for what does
not fit into one. -/
def asciiChar (c : Char) : List Char :=
  if ' ' ≤ c ∧ c ≤ '~' then [c]
  else if c.toNat < 0x10000 then unicodeEscape c.toNat
  else unicodeEscape (0xd800 + (c.toNat - 0x10000) / 1024) ++
    unicodeEscape (0xdc00 + (c.toNat - 0x10000) % 1024)

/-- `json.dumps(value, separators=(",", ":"), sort_keys=True).encode()`. -/
def dumps (v : Json) : List UInt8 :=
  ((canonicalJson v).flatMap asciiChar).flatMap String.utf8EncodeChar

/-- The payload of a cursor. -/
def payload (context : Context) (position : String) : List UInt8 :=
  dumps (.object
    [("t", .string (uuidText context.tenantId)),
     ("p", .string (uuidText context.principalId)),
     ("v", .number (intText context.authorizationVersion)),
     ("o", .string position),
     ("q", .string context.query)])

/-- What the payload is the text of. -/
def payloadData (context : Context) (position : String) : Value :=
  .dict
    [("o", .string position),
     ("p", .string (uuidText context.principalId)),
     ("q", .string context.query),
     ("t", .string (uuidText context.tenantId)),
     ("v", .int context.authorizationVersion)]

/-- The text of a payload, its members in the order of their names. -/
theorem payload_eq (context : Context) (position : String) :
    payload context position =
      (('{' :: (joined ',' [quoted "o" ++ ':' :: quoted position,
        quoted "p" ++ ':' :: quoted (uuidText context.principalId),
        quoted "q" ++ ':' :: quoted context.query,
        quoted "t" ++ ':' :: quoted (uuidText context.tenantId),
        quoted "v" ++ ':' :: (intText context.authorizationVersion).chars] ++ ['}'])).flatMap
          asciiChar).flatMap String.utf8EncodeChar := by
  simp [payload, dumps, canonicalJson, Json.sorted, Json.render, List.mergeSort,
    List.MergeSort.Internal.splitInTwo]

/-! ## The codec -/

structure CursorCodec where
  secret : List UInt8
  secret_size : 16 ≤ secret.length

def CursorCodec.init (secret : List UInt8) : Except PyError CursorCodec :=
  if h : 16 ≤ secret.length then .ok ⟨secret, h⟩
  else .error (.valueError "cursor secret must be at least 16 bytes")

namespace CursorCodec

variable (lib : Library) (codec : CursorCodec)

/-- `hmac.new(self._secret, payload, hashlib.sha256).digest()`. -/
def sign (message : List UInt8) : List UInt8 := lib.hmacSha256 codec.secret message

def encode (context : Context) (position : String) : String :=
  let message := payload context position
  String.ofList (urlsafeBase64 (message ++ codec.sign lib message))

/-- `base64.urlsafe_b64decode(token + "=" * (-len(token) % 4))`. -/
def tokenBytes (token : String) : Option (List UInt8) :=
  urlsafeB64decode (token.toList ++ padding token.toList.length)

/-- The payload of a token whose signature is right. -/
def verified (token : String) : Except PyError (List UInt8) :=
  match tokenBytes token with
  | none => .error (.valueError "not the text of bytes")
  | some raw =>
      let message := raw.take (raw.length - 32)
      let sig := raw.drop (raw.length - 32)
      let expected := codec.sign lib message
      if sig = expected then .ok message
      else .error (.valueError "cursor signature mismatch")

def bindingMismatch : Except PyError String := .error (.valueError "cursor binding mismatch")

/-- Goes on when the item is the one expected. -/
def agree (item : Except PyError Value) (expected : Value → Bool) (next : Except PyError String) :
    Except PyError String :=
  item >>= fun v ↦ if expected v then next else bindingMismatch

/-- The comparisons with the context, each made only when those before it found no difference. -/
def boundPosition (data : Value) (context : Context) : Except PyError String :=
  agree (data.getItem "t") (Value.eqStr (uuidText context.tenantId)) <|
  agree (data.getItem "p") (Value.eqStr (uuidText context.principalId)) <|
  agree (data.getItem "v") (Value.eqInt context.authorizationVersion) <|
  agree (data.get "q") (Value.eqStr context.query) <|
  (data.getItem "o").map lib.str

@[simp] theorem agree_ok (v : Value) (expected : Value → Bool) (next : Except PyError String) :
    agree (.ok v) expected next = if expected v then next else bindingMismatch := rfl

/-- The body of the `try`. -/
def read (token : String) (context : Context) : Except PyError String := do
  let message ← codec.verified lib token
  let data ← lib.loads message
  boundPosition lib data context

def invalidCursor : ApiError where
  code := "invalid_cursor"
  message := "The cursor is invalid, expired, or belongs to a different context"
  statusCode := 400

def decode (token : String) (context : Context) : Except PyError String :=
  match codec.read lib token context with
  | .ok position => .ok position
  | .error (.keyError _) => .error (.api invalidCursor)
  | .error (.valueError _) => .error (.api invalidCursor)
  | .error e => .error e

/-! ## What a token carries -/

/-- The token is the text of the message and its authenticator. -/
def Carries (token : String) (message : List UInt8) : Prop :=
  tokenBytes token = some (message ++ codec.sign lib message)

/-- Whoever presents the token knows no authenticator but those of the payloads signed. -/
def Unforged (signed : Set (Context × String)) (token : String) : Prop :=
  ∀ message, Carries lib codec token message → ∃ c ∈ signed, message = payload c.1 c.2

theorem carries_encode (context : Context) (position : String) :
    Carries lib codec (codec.encode lib context position) (payload context position) := by
  rw [Carries, tokenBytes, encode, String.toList_ofList]
  exact urlsafeB64decode_urlsafeBase64 _

theorem split_signed (message : List UInt8) :
    (message ++ codec.sign lib message).take
      ((message ++ codec.sign lib message).length - 32) = message ∧
    (message ++ codec.sign lib message).drop
      ((message ++ codec.sign lib message).length - 32) = codec.sign lib message := by
  have hcut : (message ++ codec.sign lib message).length - 32 = message.length := by
    rw [List.length_append, sign, lib.digest_size]
    omega
  rw [hcut]
  exact ⟨List.take_left, List.drop_left⟩

variable {lib codec}

theorem verified_eq_ok {token : String} {message : List UInt8} :
    codec.verified lib token = .ok message ↔ Carries lib codec token message := by
  unfold verified Carries
  cases hraw : tokenBytes token with
  | none => simp
  | some raw =>
      simp only [Option.some.injEq]
      constructor
      · intro h
        split at h
        · rename_i hsign
          obtain rfl := Except.ok.inj h
          rw [← hsign, List.take_append_drop]
        · cases h
      · rintro rfl
        obtain ⟨hmessage, hsign⟩ := split_signed lib codec message
        rw [hmessage, hsign, if_pos rfl]

/-- A cursor the codec made carries nothing else. -/
theorem unforged_encode {signed : Set (Context × String)} {context : Context} {position : String}
    (hc : (context, position) ∈ signed) :
    Unforged lib codec signed (codec.encode lib context position) := by
  intro message hmessage
  have hbytes := (carries_encode lib codec context position).symm.trans hmessage
  have hsize : (codec.sign lib (payload context position)).length =
      (codec.sign lib message).length := by
    rw [sign, sign, lib.digest_size, lib.digest_size]
  exact ⟨_, hc, (List.append_inj_left' (Option.some.inj hbytes) hsize).symm⟩

variable (lib codec) in
theorem verified_cases (token : String) :
    (∃ message, codec.verified lib token = .ok message) ∨
      ∃ reason, codec.verified lib token = .error (.valueError reason) := by
  unfold verified
  split
  · exact Or.inr ⟨_, rfl⟩
  · dsimp only
    split
    · exact Or.inl ⟨_, rfl⟩
    · exact Or.inr ⟨_, rfl⟩

/-- The payload of one context is bound to that context. -/
theorem boundPosition_payloadData (context made : Context) (position : String) :
    boundPosition lib (payloadData made position) context =
      if made = context then .ok position else bindingMismatch := by
  have ht : (payloadData made position).getItem "t" = .ok (.string (uuidText made.tenantId)) := rfl
  have hp : (payloadData made position).getItem "p" =
      .ok (.string (uuidText made.principalId)) := rfl
  have hv : (payloadData made position).getItem "v" = .ok (.int made.authorizationVersion) := rfl
  have hq : (payloadData made position).get "q" = .ok (.string made.query) := rfl
  have ho : (payloadData made position).getItem "o" = .ok (.string position) := rfl
  have hbound : boundPosition lib (payloadData made position) context =
      if uuidText made.tenantId = uuidText context.tenantId then
        if uuidText made.principalId = uuidText context.principalId then
          if made.authorizationVersion = context.authorizationVersion then
            if made.query = context.query then .ok position else bindingMismatch
          else bindingMismatch
        else bindingMismatch
      else bindingMismatch := by
    rw [boundPosition, ht, hp, hv, hq, ho]
    simp only [agree_ok, Value.eqStr, Value.eqInt, decide_eq_true_eq, Except.map, Library.str]
  rw [hbound]
  by_cases heq : made = context
  · subst heq
    simp only [if_true]
  · rw [if_neg heq]
    split_ifs with h₁ h₂ h₃ h₄
    · obtain ⟨tenantId, principalId, v, query⟩ := context
      obtain ⟨tenantId', principalId', v', query'⟩ := made
      simp only at h₁ h₂ h₃ h₄
      obtain rfl := uuidText_injective h₁
      obtain rfl := uuidText_injective h₂
      subst h₃ h₄
      exact absurd rfl heq
    all_goals rfl

theorem decode_of_carries {token : String} {made : Context} {position : String}
    (context : Context) (hcarries : Carries lib codec token (payload made position))
    (hloads : lib.loads (payload made position) = .ok (payloadData made position)) :
    codec.decode lib token context =
      if made = context then .ok position else .error (.api invalidCursor) := by
  have hread : codec.read lib token context =
      if made = context then .ok position else bindingMismatch := by
    rw [read, verified_eq_ok.mpr hcarries]
    simp only [bind, Except.bind, hloads]
    exact boundPosition_payloadData context made position
  rw [decode, hread]
  by_cases heq : made = context
  · rw [if_pos heq, if_pos heq]
  · rw [if_neg heq, if_neg heq]
    rfl

theorem decode_of_not_carries {token : String} (context : Context)
    (hcarries : ∀ message, ¬Carries lib codec token message) :
    codec.decode lib token context = .error (.api invalidCursor) := by
  rcases verified_cases lib codec token with ⟨message, hok⟩ | ⟨reason, herror⟩
  · exact absurd (verified_eq_ok.mp hok) (hcarries message)
  · rw [decode, read, herror]
    rfl

/-- Cursors give back the position they were made from, and only in the context they were made
in.  What anyone presents who cannot sign carries a payload signed for exactly that context,
or is refused as an invalid cursor. -/
theorem cursors_bound (lib : Library) (codec : CursorCodec) (signed : Set (Context × String))
    (hjson : ∀ c ∈ signed, lib.loads (payload c.1 c.2) = .ok (payloadData c.1 c.2)) :
    (∀ context position, (context, position) ∈ signed →
      codec.decode lib (codec.encode lib context position) context = .ok position) ∧
    ∀ token, Unforged lib codec signed token → ∀ context,
      (∃ position, (context, position) ∈ signed ∧
        Carries lib codec token (payload context position) ∧
        codec.decode lib token context = .ok position) ∨
      (∀ position, (context, position) ∈ signed →
        ¬Carries lib codec token (payload context position)) ∧
        codec.decode lib token context = .error (.api invalidCursor) := by
  refine ⟨?_, ?_⟩
  · intro context position hc
    have hcarries := carries_encode lib codec context position
    rw [decode_of_carries context hcarries (hjson (context, position) hc), if_pos rfl]
  · intro token hunforged context
    by_cases hcarries : ∃ message, Carries lib codec token message
    · obtain ⟨message, hmessage⟩ := hcarries
      obtain ⟨⟨made, position⟩, hc, rfl⟩ := hunforged message hmessage
      have hdecode := decode_of_carries context hmessage (hjson (made, position) hc)
      by_cases heq : made = context
      · subst heq
        rw [if_pos rfl] at hdecode
        exact Or.inl ⟨position, hc, hmessage, hdecode⟩
      · rw [if_neg heq] at hdecode
        refine Or.inr ⟨fun position' hc' hcarries' ↦ heq ?_, hdecode⟩
        -- Both payloads stand before the last 32 bytes of the token.
        have hother := decode_of_carries context hcarries' (hjson (context, position') hc')
        rw [if_pos rfl, hdecode] at hother
        cases hother
    · have hnone := fun message h ↦ hcarries ⟨message, h⟩
      exact Or.inr ⟨fun position _ ↦ hnone _, decode_of_not_carries context hnone⟩

end CursorCodec

namespace Sample

def codec : CursorCodec where
  secret := [115, 51, 109, 112, 45, 109, 97, 110, 97, 103, 101, 109, 101, 110, 116, 45, 99, 117,
    114, 115, 111, 114, 45, 107, 101, 121, 45, 118, 49]
  secret_size := by decide

def context : Context where
  tenantId := 0xd9428888122b11e1b85c61cd3cbb3210
  principalId := 0x2a
  authorizationVersion := 3
  query := "kind=file"

/-- The HMAC of the payload that follows. -/
def digest : List UInt8 :=
  [162, 231, 174, 59, 125, 246, 167, 150, 132, 6, 139, 150, 26, 140, 163, 161, 224, 129, 183, 130,
    170, 66, 70, 239, 231, 7, 79, 82, 87, 13, 177, 210]

def library : Library where
  hmacSha256 secret message :=
    if secret = codec.secret ∧ message = payload context "名/a" then digest
    else List.replicate 32 0
  digest_size secret message := by
    split <;> rfl
  loads text :=
    if text = payload context "名/a" then .ok (payloadData context "名/a")
    else .error (.valueError "Expecting value")
  repr _ := ""

def token : String :=
  "eyJvIjoiXHU1NDBkL2EiLCJwIjoiMDAwMDAwMDAtMDAwMC0wMDAwLTAwMDAtMDAwMDAwMDAwMDJhIiwicSI6Imtp" ++
  "bmQ9ZmlsZSIsInQiOiJkOTQyODg4OC0xMjJiLTExZTEtYjg1Yy02MWNkM2NiYjMyMTAiLCJ2IjozfaLnrjt99qeW" ++
  "hAaLlhqMo6HggbeCqkJG7-cHT1JXDbHS"

theorem encode_eq_token : codec.encode library context "名/a" = token := by
  have hsign : codec.sign library (payload context "名/a") = digest := by
    rw [CursorCodec.sign, library]
    exact if_pos ⟨rfl, rfl⟩
  rw [CursorCodec.encode, hsign, payload_eq]
  decide +kernel

/-- The cursor gives its position back, and is refused for another query. -/
theorem token_bound : codec.decode library token context = .ok "名/a" ∧
    codec.decode library token { context with query := "kind=folder" } =
      .error (.api CursorCodec.invalidCursor) := by
  have hjson : ∀ c ∈ ({(context, "名/a")} : Set (Context × String)),
      library.loads (payload c.1 c.2) = .ok (payloadData c.1 c.2) := by
    rintro c rfl
    exact if_pos rfl
  obtain ⟨hround, hbound⟩ := CursorCodec.cursors_bound library codec {(context, "名/a")} hjson
  rw [← encode_eq_token]
  refine ⟨hround context "名/a" rfl, ?_⟩
  rcases hbound _ (CursorCodec.unforged_encode rfl) { context with query := "kind=folder" } with
    ⟨position, hsigned, -⟩ | ⟨-, hrefused⟩
  · have hquery : "kind=folder" = "kind=file" :=
      congrArg (fun c : Context × String ↦ c.1.query) hsigned
    exact absurd hquery (by decide)
  · exact hrefused

end Sample

end S3mp.Cursors
