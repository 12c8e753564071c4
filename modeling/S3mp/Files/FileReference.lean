import S3mp.Files.Rows
import S3mp.Storage.Checksum

/-!
# Public file references
-/

namespace S3mp.Files

open Storage

/-- A reference exists only for a file of an application whose checksum is a
SHA-256 digest.  The tenant is fixed, so it is not among the fields. -/
def generateFileRef (applicationId : Option Uuid) (relativeKey : String)
    (metadata checksum : Option String) : Option FileRef :=
  match applicationId, normalizedSha256 checksum with
  | some applicationId, some digest => some ⟨applicationId, relativeKey, metadata, digest⟩
  | _, _ => none

end S3mp.Files
