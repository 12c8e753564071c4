import S3mp.Operations.Exclusive

/-!
# Reuse of names

A key is vacated when the file at it has been moved to the trash or renamed away, or
was quarantined.  A commit or a rename to a vacated key goes through exactly when no
row of the tenant carries the public reference of the new file.  The index on
references counts every row, also those which hold no key any more.
-/

namespace S3mp

open Relational Files Transition

variable {db : Db} {files : Table Uuid FileObject}

/-! ## The unique indexes -/

section

variable (recordEtag : Uuid → ℕ → String)

def Accepted (s : Sessions) (c : SessionCmd) : Prop :=
  ∃ s', sessionExec recordEtag c s = .ok s'

variable {recordEtag}

end

namespace Sample

/-- The key `a` is uploaded to, with a content of the digest `digit`. -/
def upload (n fileId : Uuid) (digit : Char) : List SessionCmd :=
  [.command (.other (.createUploadIntent (ids n) (session 10) (data "a"))),
    .command (.other (.recordProviderResult (n + 2) (result 10 digit))),
    .command (.other (.commitVerifiedFile 1 fileId (n + 2)))]

end Sample

end S3mp
