import Mathlib.Data.Nat.Notation

/-!
# Checksum normalisation

`storage/domain/checksum.py` and `normalized_sha256` of
`files/domain/file_reference.py`.  A checksum arrives as hexadecimal text, with
or without a `sha256:` tag, or as the base64 text of the S3 header; two
checksums are compared through the lower-case hexadecimal of the digest.
-/

namespace S3mp.Storage

/-- The code points `str.strip()` removes. -/
def isPySpace (c : Char) : Bool :=
  let n := c.toNat
  (9 ≤ n && n ≤ 13) || (28 ≤ n && n ≤ 32) || n == 0x85 || n == 0xa0 || n == 0x1680 ||
    (0x2000 ≤ n && n ≤ 0x200a) || n == 0x2028 || n == 0x2029 || n == 0x202f || n == 0x205f ||
    n == 0x3000

def isAsciiSpace (c : Char) : Bool :=
  let n := c.toNat
  (9 ≤ n && n ≤ 13) || n == 32

def strip (s : List Char) : List Char :=
  ((s.dropWhile isPySpace).reverse.dropWhile isPySpace).reverse

def removePrefix (tag s : List Char) : List Char :=
  if tag.isPrefixOf s then s.drop tag.length else s

def hexDigit? (c : Char) : Option ℕ :=
  if '0' ≤ c ∧ c ≤ '9' then some (c.toNat - '0'.toNat)
  else if 'a' ≤ c ∧ c ≤ 'f' then some (c.toNat - 'a'.toNat + 10)
  else if 'A' ≤ c ∧ c ≤ 'F' then some (c.toNat - 'A'.toNat + 10)
  else none

/-- `bytes.fromhex`: white space may stand between bytes, never inside one. -/
def bytesFromhex : List Char → Option (List ℕ)
  | [] => some []
  | [c] => if isAsciiSpace c then some [] else none
  | c :: d :: cs =>
      if isAsciiSpace c then bytesFromhex (d :: cs)
      else do
        let high ← hexDigit? c
        let low ← hexDigit? d
        let rest ← bytesFromhex cs
        return (16 * high + low) :: rest

def base64Digit? (c : Char) : Option ℕ :=
  if 'A' ≤ c ∧ c ≤ 'Z' then some (c.toNat - 'A'.toNat)
  else if 'a' ≤ c ∧ c ≤ 'z' then some (c.toNat - 'a'.toNat + 26)
  else if '0' ≤ c ∧ c ≤ '9' then some (c.toNat - '0'.toNat + 52)
  else if c = '+' then some 62
  else if c = '/' then some 63
  else none

/-- `base64.b64decode` with `validate=True`. -/
def b64decode : List Char → Option (List ℕ)
  | [] => some []
  | [a, b, '=', '='] => do
      let a ← base64Digit? a
      let b ← base64Digit? b
      return [4 * a + b / 16]
  | [a, b, c, '='] => do
      let a ← base64Digit? a
      let b ← base64Digit? b
      let c ← base64Digit? c
      return [4 * a + b / 16, 16 * (b % 16) + c / 4]
  | a :: b :: c :: d :: rest => do
      let a ← base64Digit? a
      let b ← base64Digit? b
      let c ← base64Digit? c
      let d ← base64Digit? d
      let bytes ← b64decode rest
      return (4 * a + b / 16) :: (16 * (b % 16) + c / 4) :: (64 * (c % 4) + d) :: bytes
  | _ => none

def hexChar (n : ℕ) : Char :=
  if n < 10 then Char.ofNat ('0'.toNat + n) else Char.ofNat ('a'.toNat + (n - 10))

def hex (bytes : List ℕ) : String :=
  String.ofList (bytes.flatMap fun b ↦ [hexChar (b / 16), hexChar (b % 16)])

def providerChecksumToHex (value : Option String) : Option String :=
  match value with
  | none => none
  | some text =>
      if text = "" then none
      else
        let candidate := strip text.toList
        match bytesFromhex (removePrefix "sha256:".toList candidate) with
        | some digest =>
            if digest.length = 32 then some (hex digest) else fromBase64 candidate
        | none => fromBase64 candidate
where
  fromBase64 (candidate : List Char) : Option String :=
    match b64decode candidate with
    | some digest => if digest.length = 32 then some (hex digest) else none
    | none => none

/-- The full match of the pattern `(?:sha256:)?([0-9a-fA-F]{64})`, in lower case. -/
def normalizedSha256 (value : Option String) : Option String :=
  match value with
  | none => none
  | some text =>
      let digits := removePrefix "sha256:".toList (strip text.toList)
      if digits.length = 64 ∧ digits.all (fun c ↦ (hexDigit? c).isSome) then
        some (String.ofList (digits.map Char.toLower))
      else none

end S3mp.Storage
