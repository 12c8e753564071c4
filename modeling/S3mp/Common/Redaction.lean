import S3mp.Encoding.Substitution
import S3mp.Storage.Checksum

/-!
# Redaction of log records

`common/logging.py` takes credentials out of what it logs.  A value stored under a
key with a sensitive name is dropped; in texts three patterns are substituted, one
after the other.  `str.lower` and, outside ASCII, `str.isalnum` are parameters.
-/

namespace S3mp.Redaction

open Encoding Storage

/-! ## The patterns -/

/-- Its lower case is the letter `k`. -/
def kelvinSign : Char := Char.ofNat 0x212a

/-- The characters a character of a pattern matches when case is ignored. -/
def variants (l : Char) : List Char :=
  l :: l.toUpper ::
    if l = 'i' then ['İ', 'ı'] else if l = 's' then ['ſ'] else if l = 'k' then [kelvinSign] else []

/-- What `[a-z]` matches beyond ASCII when case is ignored. -/
def foldedLetters : List Char := ['İ', 'ı', 'ſ', kelvinSign]

/-- The characters of a literal. -/
def eat : List Char → List Char → Option (List Char)
  | [], t => some t
  | _ :: _, [] => none
  | l :: ls, c :: t => if c ∈ variants l then eat ls t else none

/-- `[A-Za-z0-9._~+/=-]` -/
def isToken (c : Char) : Bool :=
  c.isAlphanum || c ∈ ['.', '_', '~', '+', '/', '=', '-'] || c ∈ foldedLetters

/-- `[^\\s,;]` -/
def isValue (c : Char) : Bool := !isPySpace c && c ≠ ',' && c ≠ ';'

/-- `[:=]` -/
def isSeparator (c : Char) : Bool := c = ':' || c = '='

/-- `[a-z]` -/
def isSchemeStart (c : Char) : Bool := c.isAlpha || c ∈ foldedLetters

/-- `[a-z0-9+.-]` -/
def isScheme (c : Char) : Bool := c.isAlphanum || c ∈ ['+', '.', '-'] || c ∈ foldedLetters

/-- `[^\\s:/@]` -/
def isUser (c : Char) : Bool := !isPySpace c && c ≠ ':' && c ≠ '/' && c ≠ '@'

/-- `[^\\s@/]` -/
def isUrlPassword (c : Char) : Bool := !isPySpace c && c ≠ '@' && c ≠ '/'

def redacted : List Char := "[REDACTED]".toList

section

variable (isalnum : Char → Bool)

/-- `\w`; no space is alphanumeric. -/
def isWord (c : Char) : Bool :=
  c = '_' || if c.toNat < 128 then c.isAlphanum else !isPySpace c && isalnum c

/-- `\b` -/
def boundary (prev : Option Char) (t : List Char) : Bool :=
  prev.any (isWord isalnum) != t.head?.any (isWord isalnum)

/-- `Bearer\s+[A-Za-z0-9._~+/=-]+` -/
def bearerTail (t : List Char) : Option (List Char) :=
  ((eat "bearer".toList t).bind (many isPySpace)).bind (many isToken)

/-- `BEARER_PATTERN`, with its replacement. -/
def bearer : Matcher Char := fun prev t ↦
  if boundary isalnum prev t then
    (bearerTail t).map fun rest ↦ ("Bearer ".toList ++ redacted, rest)
  else none

def names : List (List Char) :=
  ["authorization", "x-api-key", "api_key", "api-key", "apikey", "password", "secret", "token",
    "ticket", "signature", "business_token", "business-token", "businesstoken"].map String.toList

/-- `\s*[:=]\s*([^\s,;]+)` -/
def headerTail (t : List Char) : Option (List Char) :=
  (one isSeparator (t.dropWhile isPySpace)).bind fun t ↦ many isValue (t.dropWhile isPySpace)

/-- The name, and what is left of the text after its value. -/
def headerNamed (t name : List Char) : Option (List Char × List Char) :=
  (eat name t).bind fun rest ↦ (headerTail rest).map fun left ↦
    (t.take (t.length - rest.length) ++ '=' :: redacted, left)

/-- `HEADER_PATTERN`, with its replacement. -/
def header : Matcher Char := fun prev t ↦
  if boundary isalnum prev t then names.findSome? (headerNamed t) else none

/-- `[a-z][a-z0-9+.-]*://[^\s:/@]+:` -/
def urlScheme (t : List Char) : Option (List Char) :=
  (one isSchemeStart t).bind fun t ↦ (one (· = ':') (t.dropWhile isScheme)).bind fun t ↦
    (one (· = '/') t).bind fun t ↦ (one (· = '/') t).bind fun t ↦
      (many isUser t).bind (one (· = ':'))

/-- `URL_PASSWORD_PATTERN`, with its replacement. -/
def urlPassword : Matcher Char := fun _ t ↦
  (urlScheme t).bind fun rest ↦ ((many isUrlPassword rest).bind (one (· = '@'))).map fun left ↦
    (t.take (t.length - rest.length) ++ redacted ++ ['@'], left)

def redactText (t : List Char) : List Char :=
  let t := substitute (bearer isalnum) none 0 t
  let t := substitute (header isalnum) none 0 t
  substitute urlPassword none 0 t

def redactString (value : String) : String :=
  String.ofList (redactText isalnum value.toList)

end

/-! ## Values -/

/-- A log value, over the numbers it may contain. -/
inductive LogValue (ν : Type) where
  | text (s : String)
  | number (n : ν)
  | mapping (items : List (String × LogValue ν))
  | list (values : List (LogValue ν))
  | tuple (values : List (LogValue ν))

def sensitiveKeys : List String :=
  ["authorization", "cookie", "password", "secret", "token", "ticket", "signature",
    "business_token", "api_key", "x-api-key", "access_key", "signed_url", "presigned_url",
    "metadata", "body"]

section

variable {ν : Type} (isalnum : Char → Bool) (lower : String → String)

def isSensitive (key : String) : Bool :=
  sensitiveKeys.any fun part ↦ part.toList <:+: (lower key).toList

mutual

/-- `redact` of a value which stands under no key. -/
def redact : LogValue ν → LogValue ν
  | .text s => .text (redactString isalnum s)
  | .number n => .number n
  | .mapping items => .mapping (redactItems items)
  | .list values => .list (redactValues values)
  | .tuple values => .list (redactValues values)

def redactItems : List (String × LogValue ν) → List (String × LogValue ν)
  | [] => []
  | (key, value) :: items =>
    (key, if isSensitive lower key then .text (String.ofList redacted) else redact value) ::
      redactItems items

def redactValues : List (LogValue ν) → List (LogValue ν)
  | [] => []
  | value :: values => redact value :: redactValues values

end

mutual

/-- The values differ only in what they store under sensitive keys. -/
inductive SameBut : LogValue ν → LogValue ν → Prop
  | text (s : String) : SameBut (.text s) (.text s)
  | number (n : ν) : SameBut (.number n) (.number n)
  | mapping {items items' : List (String × LogValue ν)} (h : SameButItems items items') :
      SameBut (.mapping items) (.mapping items')
  | list {values values' : List (LogValue ν)} (h : SameButValues values values') :
      SameBut (.list values) (.list values')
  | tuple {values values' : List (LogValue ν)} (h : SameButValues values values') :
      SameBut (.tuple values) (.tuple values')

inductive SameButItems : List (String × LogValue ν) → List (String × LogValue ν) → Prop
  | nil : SameButItems [] []
  | sensitive {key : String} {value value' : LogValue ν} {items items' : List (String × LogValue ν)}
      (hkey : isSensitive lower key = true) (h : SameButItems items items') :
      SameButItems ((key, value) :: items) ((key, value') :: items')
  | cons {key : String} {value value' : LogValue ν} {items items' : List (String × LogValue ν)}
      (hvalue : SameBut value value') (h : SameButItems items items') :
      SameButItems ((key, value) :: items) ((key, value') :: items')

inductive SameButValues : List (LogValue ν) → List (LogValue ν) → Prop
  | nil : SameButValues [] []
  | cons {value value' : LogValue ν} {values values' : List (LogValue ν)}
      (hvalue : SameBut value value') (h : SameButValues values values') :
      SameButValues (value :: values) (value' :: values')

end

mutual

theorem redact_eq {value value' : LogValue ν} (h : SameBut lower value value') :
    redact isalnum lower value = redact isalnum lower value' := by
  cases h with
  | text s => rfl
  | number n => rfl
  | mapping h => rw [redact, redact, redactItems_eq h]
  | list h => rw [redact, redact, redactValues_eq h]
  | tuple h => rw [redact, redact, redactValues_eq h]

theorem redactItems_eq {items items' : List (String × LogValue ν)}
    (h : SameButItems lower items items') :
    redactItems isalnum lower items = redactItems isalnum lower items' := by
  cases h with
  | nil => rfl
  | sensitive hkey h =>
      rw [redactItems, redactItems, redactItems_eq h, if_pos hkey, if_pos hkey]
  | cons hvalue h => rw [redactItems, redactItems, redactItems_eq h, redact_eq hvalue]

theorem redactValues_eq {values values' : List (LogValue ν)} (h : SameButValues lower values values') :
    redactValues isalnum lower values = redactValues isalnum lower values' := by
  cases h with
  | nil => rfl
  | cons hvalue h => rw [redactValues, redactValues, redactValues_eq h, redact_eq hvalue]

end

end

end S3mp.Redaction
