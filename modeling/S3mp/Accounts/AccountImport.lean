import S3mp.Accounts.AccountStore

/-!
# The import of accounts

`platform/application/account_import.py` reads the first worksheet of an upload,
and `import_accounts` stores what it accepts in one transaction.  The archive and
its elements are given as `zipfile` and `ElementTree` read them; what Python's
strings and its `int` do with characters of all scripts is a parameter.
-/

namespace S3mp.AccountImport

open Relational Registry

/-- `str.lower`, `str.casefold`, `str.isalpha`, `str.upper` of one character, and `int`. -/
structure PyText extends CaseMaps where
  isalpha : Char → Bool
  upper : Char → List Char
  int : String → Option ℤ

/-! ## The worksheet -/

/-- A `c` element: its attributes `r` and `t`, whether it has an `f`, and the texts of its `is`
and its `v`. -/
structure Cell where
  reference : Option String
  kind : Option String
  formula : Bool
  inline : Option String
  value : Option String

structure RowElement where
  number : Option String
  cells : List Cell

structure Archive where
  fileSizes : List ℕ
  sharedStrings : Option (List String)
  worksheet : Option (List RowElement)

/-- A row: its number and the texts of its cells with their columns, in their order. -/
structure SheetRow where
  number : ℤ
  cells : List (ℤ × String)
  deriving DecidableEq, Repr

/-- `d[key] = value`: a key which is there keeps its place. -/
def setItem (key : ℤ) (value : String) : List (ℤ × String) → List (ℤ × String)
  | [] => [(key, value)]
  | (k, v) :: d => if k = key then (k, value) :: d else (k, v) :: setItem key value d

/-- Of two cells in one column the later one stays. -/
def SheetRow.values (row : SheetRow) : List (ℤ × String) :=
  row.cells.foldl (fun values cell ↦ setItem cell.1 cell.2 values) []

/-- `l[i]`, where a negative index counts from the end. -/
def getItem? (l : List String) (i : ℤ) : Option String :=
  if 0 ≤ i then l[i.toNat]? else if 0 ≤ i + l.length then l[(i + l.length).toNat]? else none

section Parsing

variable (text : PyText)

/-- The `ord` of a letter whose upper case is no single character is a `TypeError`, which nobody
catches either. -/
def columnIndex : ℤ → List Char → Tx ℤ
  | result, [] => .ok (result - 1)
  | result, c :: reference =>
    if text.isalpha c then
      match text.upper c with
      | [u] => columnIndex (result * 26 + u.toNat - 'A'.toNat + 1) reference
      | _ => .error (.value "ord() expected a character")
    else .ok (result - 1)

def cellValue (shared : List String) (cell : Cell) : Tx (ℤ × String) := do
  let column ← columnIndex text 0 (cell.reference.getD "").toList
  if cell.formula then
    raise "validation_failed" "Excel formulas are not supported in imports" 422
  else if cell.kind = some "inlineStr" then return (column, cell.inline.getD "")
  else if cell.kind = some "s" then
    match (text.int (cell.value.getD "")).bind (getItem? shared) with
    | none => raise "validation_failed" "Excel shared string is invalid" 422
    | some value => return (column, value)
  else return (column, cell.value.getD "")

def sheetRow (shared : List String) (row : RowElement) : Tx SheetRow :=
  match text.int (row.number.getD "0") with
  | none => .error (.value "invalid literal for int() with base 10")
  | some number => do
    let cells ← row.cells.mapM (cellValue text shared)
    return ⟨number, cells⟩

def worksheetRows (archive : Archive) : Tx (List SheetRow) :=
  match archive.worksheet with
  | none => raise "validation_failed" "Excel file has no worksheet" 422
  | some rows => rows.mapM (sheetRow text (archive.sharedStrings.getD []))

/-! ## The header -/

inductive Field where
  | email | employeeNumber | displayName | password
  deriving DecidableEq, Repr

def Field.name : Field → String
  | .email => "email"
  | .employeeNumber => "employee_number"
  | .displayName => "display_name"
  | .password => "password"

def headers : List (String × Field) :=
  [("email", .email), ("邮箱", .email), ("employee_number", .employeeNumber),
    ("系统号", .employeeNumber), ("display_name", .displayName), ("姓名", .displayName),
    ("password", .password), ("初始密码", .password)]

abbrev Columns := List (Field × ℤ)

def mapHeader (columns : Columns) (cell : ℤ × String) : Tx Columns :=
  match headers.lookup (text.casefold (strip cell.2)) with
  | none => .ok columns
  | some field =>
    if (columns.lookup field).isSome then
      raise "validation_failed" ("Duplicate Excel column: " ++ field.name) 422
    else .ok (columns ++ [(field, cell.1)])

def mapHeaders (header : List (ℤ × String)) : Tx Columns := do
  let columns ← header.foldlM (mapHeader text) []
  if [Field.email, .employeeNumber, .displayName, .password].any fun field ↦
      (columns.lookup field).isNone then
    raise "validation_failed" "Excel must contain 姓名、邮箱、系统号、初始密码 columns" 422
  else return columns

/-! ## The rows -/

structure ImportCandidate where
  row : ℤ
  email : String
  normalizedEmail : String
  employeeNumber : String
  normalizedEmployeeNumber : String
  displayName : String
  password : String
  deriving DecidableEq, Repr

structure ImportRowError where
  row : ℤ
  email : Option String
  employeeNumber : Option String
  code : String
  message : String
  deriving DecidableEq, Repr

/-- What stands in the column of the field. -/
def raw (columns : Columns) (row : SheetRow) (field : Field) : String :=
  strip (((columns.lookup field).bind (row.values.lookup ·)).getD "")

/-- `x or None`. -/
def orNone (s : String) : Option String :=
  if s = "" then none else some s

def validateRow (row : ℤ) (email employeeNumber displayName password
    normalizedEmployeeNumber : String) : Option ImportRowError :=
  if email = "" ∨ '@' ∉ email.toList then
    some ⟨row, orNone email, orNone employeeNumber, "invalid_email", "Email is invalid"⟩
  else if !employeeNumberFormat normalizedEmployeeNumber then
    some ⟨row, email, orNone employeeNumber, "invalid_employee_number",
      "Employee number format is invalid"⟩
  else if displayName = "" then
    some ⟨row, email, employeeNumber, "invalid_display_name", "Display name must not be blank"⟩
  else if password.length < 8 then
    some ⟨row, email, employeeNumber, "invalid_password",
      "Initial password must be at least 8 characters"⟩
  else none

structure Parsed where
  candidates : List ImportCandidate
  errors : List ImportRowError
  seenEmails : List String
  seenEmployeeNumbers : List String

/-- No value of the row has any text. -/
def SheetRow.skipped (row : SheetRow) : Bool :=
  row.values.all fun value ↦ strip value.2 = ""

def candidateOf (columns : Columns) (row : SheetRow) : ImportCandidate where
  row := row.number
  email := raw columns row .email
  normalizedEmail := text.casefold (raw columns row .email)
  employeeNumber := raw columns row .employeeNumber
  normalizedEmployeeNumber := text.casefold (raw columns row .employeeNumber)
  displayName := raw columns row .displayName
  password := raw columns row .password

def ImportCandidate.check (c : ImportCandidate) : Option ImportRowError :=
  validateRow c.row c.email c.employeeNumber c.displayName c.password c.normalizedEmployeeNumber

def duplicateError (c : ImportCandidate) : ImportRowError :=
  ⟨c.row, orNone c.email, orNone c.employeeNumber, "duplicate_in_file",
    "Duplicate email or employee number in this Excel file"⟩

def maxImportRows : ℕ := 500

def parseRow (columns : Columns) (s : Parsed) (row : SheetRow) : Tx Parsed :=
  if row.skipped then .ok s
  else if maxImportRows ≤ s.candidates.length + s.errors.length then
    raise "validation_failed" "Excel file can contain at most 500 data rows" 422
  else
    let c := candidateOf text columns row
    match c.check with
    | some error => .ok { s with errors := s.errors ++ [error] }
    | none =>
      if c.normalizedEmail ∈ s.seenEmails ∨
          c.normalizedEmployeeNumber ∈ s.seenEmployeeNumbers then
        .ok { s with errors := s.errors ++ [duplicateError c] }
      else
        .ok { s with
          candidates := s.candidates ++ [c]
          seenEmails := c.normalizedEmail :: s.seenEmails
          seenEmployeeNumbers := c.normalizedEmployeeNumber :: s.seenEmployeeNumbers }

def maxImportUncompressedBytes : ℕ := 25 * 1024 * 1024

/-- There is no archive when `zipfile` cannot open the upload. -/
def parseAccountImport (archive : Option Archive) :
    Tx (List ImportCandidate × List ImportRowError) :=
  match archive with
  | none => raise "validation_failed" "The uploaded file is not a valid .xlsx workbook" 422
  | some archive =>
    if maxImportUncompressedBytes < archive.fileSizes.sum then
      raise "validation_failed" "Excel file expands beyond the allowed size" 422
    else do
      let rows ← worksheetRows text archive
      match rows with
      | [] => raise "validation_failed" "Excel worksheet is empty" 422
      | header :: rows =>
        let columns ← mapHeaders text header.values
        let s ← rows.foldlM (parseRow text columns) ⟨[], [], [], []⟩
        return (s.candidates, s.errors)

structure Upload where
  filename : String
  contentBase64 : String

def maxImportFileBytes : ℕ := 10 * 1024 * 1024

def decodeXlsx (upload : Upload) : Tx (List ℕ) :=
  if !(".xlsx".toList.isSuffixOf (text.lower upload.filename).toList) then
    raise "validation_failed" "Only .xlsx files are supported" 422
  else
    match Storage.b64decode upload.contentBase64.toList with
    | none => raise "validation_failed" "Excel file content is invalid" 422
    | some content =>
      if content = [] ∨ maxImportFileBytes < content.length then
        raise "validation_failed" "Excel file must be no larger than 10 MiB" 422
      else .ok content

end Parsing

/-! ## The accounts -/

/-- What the import takes from its surroundings. -/
structure ImportService where
  text : PyText
  openArchive : List ℕ → Option Archive
  /-- The salted hash of the candidate's password. -/
  hash : ImportCandidate → String
  uuid4 : (users : Table Uuid User) → { id : Uuid // id ∉ users }

inductive ImportStatus where
  | created | rejected
  deriving DecidableEq, Repr

structure ImportEntry where
  row : ℤ
  email : Option String
  employeeNumber : Option String
  status : ImportStatus
  code : Option String
  message : String
  deriving DecidableEq, Repr

/-- The columns `String(320)`, `String(64)`, `String(200)` and `String(512)` hold the account. -/
def columnsHold (u : User) : Bool :=
  u.email.length ≤ 320 && u.normalizedEmail.length ≤ 320 &&
    u.employeeNumber.all (·.length ≤ 64) && u.normalizedEmployeeNumber.all (·.length ≤ 64) &&
    u.displayName.length ≤ 200 && u.passwordHash.all (·.length ≤ 512)

/-- `session.add(user)` and `session.flush()`. -/
def flushUser (id : Uuid) (u : User) (r : Registry) : Tx Registry :=
  if columnsHold u then insertUser id u r
  else .error (.value "value too long for type character varying")

structure ImportAudit where
  userId : Uuid
  row : ℤ
  deriving DecidableEq, Repr

structure Imported where
  registry : Registry
  audit : List ImportAudit
  results : List ImportEntry

variable (e : ImportService)

def userOf (c : ImportCandidate) : User :=
  newUser c.email c.normalizedEmail (some c.employeeNumber) (some c.normalizedEmployeeNumber)
    c.displayName (some (e.hash c))

def existingEntry (c : ImportCandidate) : ImportEntry :=
  ⟨c.row, some c.email, some c.employeeNumber, .rejected, some "account_already_exists",
    "Email or employee number is already in use"⟩

def createdEntry (c : ImportCandidate) : ImportEntry :=
  ⟨c.row, some c.email, some c.employeeNumber, .created, none, "Account created"⟩

def importCandidate (s : Imported) (c : ImportCandidate) : Tx Imported :=
  if s.registry.occupied (userOf e c) then
    .ok { s with results := s.results ++ [existingEntry c] }
  else do
    let id := (e.uuid4 s.registry.users).val
    let registry ← flushUser id (userOf e c) s.registry
    return ⟨registry, ⟨id, c.row⟩ :: s.audit, s.results ++ [createdEntry c]⟩

/-- One transaction: what one candidate raises rolls back all. -/
def importPlatformAccounts (candidates : List ImportCandidate) (r : Registry) : Tx Imported :=
  candidates.foldlM (importCandidate e) ⟨r, [], []⟩

def errorEntry (error : ImportRowError) : ImportEntry :=
  ⟨error.row, error.email, error.employeeNumber, .rejected, some error.code, error.message⟩

structure ImportResult where
  totalRows : ℕ
  createdCount : ℕ
  rejectedCount : ℕ
  rows : List ImportEntry

def importResult (errors : List ImportRowError) (stored : List ImportEntry) : ImportResult :=
  let rows := (errors.map errorEntry ++ stored).mergeSort fun a b ↦ a.row ≤ b.row
  let createdCount := rows.countP (·.status = .created)
  ⟨rows.length, createdCount, rows.length - createdCount, rows⟩

def importAccounts (upload : Upload) (r : Registry) : Tx (ImportResult × Registry) := do
  let content ← decodeXlsx e.text upload
  let (candidates, errors) ← parseAccountImport e.text (e.openArchive content)
  let s ← importPlatformAccounts e candidates r
  return (importResult errors s.results, s.registry)

end S3mp.AccountImport
