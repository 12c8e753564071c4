import S3mp.Database
import S3mp.Storage.Checksum

/-!
# Exclusion rules

`knowledge/domain/exclusions.py` and the rule transactions of `SqlAlchemyKnowledgeStore`,
for one application of a tenant.  A rule names a directory; the files in it are not
analysed.
-/

namespace S3mp.Knowledge

open Relational Storage

/-! ## Matching -/

/-- The parts of a `PurePosixPath` which is not absolute. -/
def pathParts (raw : List Char) : List (List Char) :=
  (raw.splitOn '/').filter fun part ↦ part ≠ [] ∧ part ≠ ['.']

/-- An `InvalidExclusionPath` is a `ValueError`. -/
def normalizeDirectoryPath (value : String) : Tx String :=
  let raw := (Storage.strip value.toList).map fun c ↦ if c = '\\' then '/' else c
  if raw = [] then .error (.value "directory path is required")
  else if raw = ['/'] then .ok ""
  else if raw.head? = some '/' then .error (.value "directory path must be application-relative")
  else if pathParts raw = [] ∨ (pathParts raw).any (· = ['.', '.']) then
    .error (.value "directory path must not contain traversal segments")
  else .ok (String.ofList (['/'].intercalate (pathParts raw)))

def isExcluded (objectKey directoryPath : String) : Tx Bool := do
  let key ← normalizeDirectoryPath objectKey
  let rule ← normalizeDirectoryPath directoryPath
  return rule = "" || key = rule || (rule ++ "/").toList.isPrefixOf key.toList

/-- The first of the paths which excludes the key. -/
def firstExcluding (objectKey : String) : List String → Tx (Option String)
  | [] => .ok none
  | path :: paths => do
    if ← isExcluded objectKey path then return some path
    firstExcluding objectKey paths

example : firstExcluding "reports/2024/a.pdf" ["report", " reports\\2024 "] =
    .ok (some " reports\\2024 ") := by decide

/-! ## Rows -/

structure ExclusionRule where
  directoryPath : String
  ruleSource : String
  createdByPrincipalId : Option Uuid
  enabled : Bool
  deriving DecidableEq, Repr

/-- The paths of the enabled rules. -/
def activePaths (rules : Table Uuid ExclusionRule) : List String :=
  (rules.select fun _ r ↦ r.enabled).map (·.2.directoryPath)

def requireTenantApplication (active : Bool) : Tx Unit :=
  if active then .ok () else raise "resource_not_found" "Application not found" 404

def createExclusion (fresh : Uuid) (applicationActive : Bool) (directoryPath ruleSource : String)
    (createdBy : Option Uuid) (rules : Table Uuid ExclusionRule) :
    Tx ((Uuid × ExclusionRule) × Table Uuid ExclusionRule) := do
  let normalized ← normalizeDirectoryPath directoryPath
  requireTenantApplication applicationActive
  match rules.selectFirst fun _ r ↦ r.directoryPath = normalized && r.ruleSource = ruleSource with
  | some row => return (row, rules)
  | none =>
    let row : ExclusionRule := ⟨normalized, ruleSource, createdBy, true⟩
    let rules ← insertRow "knowledge_extraction_exclusion_rule_pkey" fresh row rules
    return ((fresh, row), rules)

def deleteExclusion (ruleId : Uuid) (applicationActive : Bool) (ruleSource : String)
    (rules : Table Uuid ExclusionRule) : Tx (Bool × Table Uuid ExclusionRule) := do
  requireTenantApplication applicationActive
  match rules.lookup ruleId with
  | none => return (false, rules)
  | some row =>
    if row.ruleSource ≠ ruleSource then return (false, rules)
    return (true, rules.erase ruleId)

end S3mp.Knowledge
