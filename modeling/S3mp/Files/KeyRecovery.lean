import S3mp.Files.Columns
import S3mp.Files.FileChanges
import S3mp.Files.FileRefBackfill
import S3mp.Files.Keys
import S3mp.Files.Sites
import S3mp.Transition.Run

/-!
# Recovering relative keys

Next to every row stands how it was written: the space its key was derived in and the
relative key it was derived from.  Rows are written by calls of the service and
copied by the completions; meanwhile the namespaces of the spaces may change at any
time, and a call may have read the space before such a change and after it.
-/

namespace S3mp.KeyRecovery

open Relational Files Storage Authorization Identity Transition Platform

/-! ## Calls and transactions -/

/-- How a row was written. -/
structure Birth where
  /-- The space as the key was derived in it. -/
  space : StorageSpace
  relativeKey : String
  objectKey : String
  /-- The namespaces read while the row was written are all that of the space. -/
  coherent : Bool

structure World where
  tenant : Tenant
  born : RowId → Option Birth

/-- What of a space decides where a key is, besides its namespace. -/
def located (space : StorageSpace) : String × String × ℕ :=
  (space.bucket, space.rootPrefix, space.providerTargetVersion)

/-- A caller, with what the service has read for the command on the caller's new key. -/
structure Call where
  ctx : PrincipalContext
  spaceId : Uuid
  space : StorageSpace
  bindings : List Binding
  now : Timestamp

/-- The transaction which writes a session, with an ingestion record or without one. -/
inductive Creation where
  | uploadIntent (ids : IntentIds)
  | multipartIntent (ids : IntentIds)
  | upload (id : Uuid)
  | multipart (id reservationId : Uuid)

def Creation.command (version : ℕ) (session : SessionData) (data : IngestionData) :
    Creation → TenantCmd
  | .uploadIntent ids => .stored (.createUploadIntent ids session data)
  | .multipartIntent ids => .stored (.createMultipartIntent ids session data)
  | .upload id => .createUpload id version session
  | .multipart id reservationId => .createMultipart id reservationId version session

/-- The file store alone reads the space once more when it writes a session. -/
def Creation.reads (w : World) (spaceId : Uuid) (seen : StorageSpace) :
    Creation → List (Option StorageSpace)
  | .uploadIntent _ | .multipartIntent _ => [some seen]
  | .upload _ | .multipart .. => [some seen, w.tenant.db.spaces.lookup spaceId]

/-- The namespaces read are all that of the space. -/
def coherentWith (space : StorageSpace) (reads : List (Option StorageSpace)) : Bool :=
  reads.all fun read ↦ read.map (·.storageNamespace) = some space.storageNamespace

inductive Act where
  /-- `seen` is the space as it is read for the columns of the session. -/
  | create (call : Call) (seen : StorageSpace) (body : UploadBody)
      (idempotencyKey : Option String) (creation : Creation)
  /-- `record` and `source` are what the call has found of the file it renames. -/
  | rename (call : Call) (seen : StorageSpace) (applicationId : Uuid) (fileId : String)
      (record : StoredFile) (source : AuthorizedFileCommand) (objectKey : String)
      (ifMatch : Option String) (idempotencyKey : String) (ids : OperationIds)
  | transaction (c : TenantCmd)
  | updateFileMetadata (recordEtag : Uuid → ℕ → String) (spaceId fileId : Uuid)
      (data : MetadataData) (versions : Table Uuid MetadataVersion)
  | persistReference (id : Uuid) (ref : FileRef) (checksum : String)
  | createSpace (id : Uuid) (space : StorageSpace)
  | setNamespace (spaceId : Uuid) (storageNamespace : Option String)

/-- The commands only calls of the service issue. -/
def writesKeys : TenantCmd → Bool
  | .stored (.createUploadIntent ..) | .stored (.createMultipartIntent ..) | .createUpload ..
  | .createMultipart .. | .operation (.createRenameOperation ..) => true
  | _ => false

/-- The row from which the command makes a file. -/
def copied : TenantCmd → Option RowId
  | .stored (.commitVerifiedFile _ _ id) => some (.ingestion id)
  | .completeUpload _ _ id _ => some (.upload id)
  | .completeMultipart _ id _ => some (.multipart id)
  | _ => none

/-- The rows the command adds are born as `birth` says. -/
def World.commit (c : TenantCmd) (birth : Option Birth) (w : World) : Tx World := do
  let tenant ← tenantExec c w.tenant
  return ⟨tenant, fun r ↦ if (w.tenant.db.site r).isSome then w.born r else birth⟩

/-- A transaction which adds no rows. -/
def World.transact (f : Db → Tx Db) (w : World) : Tx World := do
  return { w with tenant := ← w.tenant.transact f }

/-- The space may have been read at any time: but for its namespace and its activity it has
been the same all along. -/
def World.hasRead (w : World) (spaceId : Uuid) (space : StorageSpace) : Bool :=
  (w.tenant.db.spaces.lookup spaceId).any fun current ↦ located current = located space

def raisedAs : Raised → TxError
  | .api error => .api error
  | .other message => .value message

def notPerformed {α : Type} : Tx α := .error (.value "not a step of the system")

section

variable (fingerprint : FingerprintPayload → String) (renameFingerprint : RenamePayload → String)
  (tenantId : Uuid)

/-- The service's command for the key to be written. -/
def Call.command (call : Call) (key : String) (idempotencyKey : Option String)
    (semantics : Semantics) : Tx AuthorizedFileCommand :=
  if call.ctx.subjectKind = .application ∧ call.space.applicationId ≠ call.ctx.applicationId then
    raise "permission_denied" "Application credentials cannot address another application" 403
  else
    (AuthorizedFileCommand.create fingerprint tenantId call.ctx call.spaceId call.space
      call.bindings call.now ⟨key, "files.write", idempotencyKey, semantics, false⟩).mapError
        raisedAs

def Call.birth (call : Call) (command : AuthorizedFileCommand) (coherent : Bool) : Birth where
  space := call.space
  relativeKey := command.relativeKey
  objectKey := command.physicalKey
  coherent := coherent

def perform : Act → World → Tx World
  | .create call seen body idempotencyKey creation, w => do
    if !(w.hasRead call.spaceId call.space && w.hasRead call.spaceId seen) then notPerformed
    else
      let command ← call.command fingerprint tenantId body.objectKey idempotencyKey
        (FileService.UploadBody.semantics body)
      w.commit (creation.command command.providerTargetVersion
        (FileService.sessionData call.ctx command seen body)
        (FileService.ingestionData command idempotencyKey seen body.metadata))
        (some (call.birth command
          (coherentWith call.space (creation.reads w call.spaceId seen))))
  | .rename call seen applicationId fileId record source objectKey ifMatch idempotencyKey ids,
      w => do
    if !(w.hasRead call.spaceId call.space && call.ctx.subjectKind = .application &&
        call.ctx.applicationId = some applicationId) then notPerformed
    else
      let destination ← call.command fingerprint tenantId objectKey (some idempotencyKey)
        (.rename fileId)
      let coherent := (w.tenant.db.files.lookup record.id).any fun f ↦
        f.storageNamespace = call.space.storageNamespace
      w.commit (.operation (.createRenameOperation ids call.spaceId
        (FileService.renameData renameFingerprint call.ctx applicationId record source destination
          seen ifMatch idempotencyKey)))
        (some (call.birth destination coherent))
  | .transaction c, w =>
    if writesKeys c then notPerformed else w.commit c ((copied c).bind w.born)
  | .updateFileMetadata recordEtag spaceId fileId data versions, w =>
    w.transact fun db ↦
      (Files.updateFileMetadata recordEtag spaceId fileId data db versions).map (·.2.1)
  | .persistReference id ref checksum, w =>
    w.transact fun db ↦ .ok (Files.persistReference id ref checksum db).2
  | .createSpace id space, w =>
    w.transact fun db ↦ do
      return { db with spaces := ← insertRow "storage_space_pkey" id space db.spaces }
  | .setNamespace spaceId storageNamespace, w =>
    w.transact fun db ↦
      .ok { db with spaces := db.spaces.update spaceId fun s ↦ { s with storageNamespace } }

end

/-! ## Rows as they were written -/

/-- The row is where it was written, unless it has been kept for its purge. -/
structure Birth.Sound (tenantId : Uuid) (spaces : Table Uuid StorageSpace) (b : Birth)
    (site : Site) : Prop where
  derived : physicalKeyOf tenantId site.storageSpaceId b.space b.relativeKey = .ok b.objectKey
  named : b.relativeKey ≠ ""
  version : site.providerTargetVersion = b.space.providerTargetVersion
  current : ∃ s, spaces.lookup site.storageSpaceId = some s ∧ located s = located b.space
  recorded : b.coherent = true → truthy site.storageNamespace = truthy b.space.storageNamespace
  unretained : site.retained = false → site.objectKey = b.objectKey

def World.Sound (tenantId : Uuid) (w : World) : Prop :=
  ∀ r site, w.tenant.db.site r = some site →
    ∃ b, w.born r = some b ∧ b.Sound tenantId w.tenant.db.spaces site

/-- No space goes away or is located elsewhere. -/
def SpacesStay (db db' : Db) : Prop :=
  ∀ id s, db.spaces.lookup id = some s →
    ∃ s', db'.spaces.lookup id = some s' ∧ located s' = located s

theorem SpacesStay.of_eq {db db' : Db} (h : db'.spaces = db.spaces) : SpacesStay db db' :=
  fun id s hs ↦ ⟨s, by rw [h, hs], rfl⟩

theorem spacesStay_updateWhere {db db' : Db} {p : Uuid → StorageSpace → Bool}
    {f : StorageSpace → StorageSpace} (hf : ∀ s, located (f s) = located s)
    (h : db'.spaces = db.spaces.updateWhere p f) : SpacesStay db db' := by
  intro id s hs
  refine ⟨_, by rw [h, AList.lookup_updateWhere, hs, Option.map_some], ?_⟩
  split
  · exact hf s
  · rfl

variable {tenantId : Uuid} {w w' : World} {t t' : Tenant} {c : TenantCmd}

theorem Birth.Sound.stays {spaces spaces' : Table Uuid StorageSpace} {b : Birth} {site site' : Site}
    (h : b.Sound tenantId spaces site) (hstays : site.Stays site')
    (hspaces : ∀ id s, spaces.lookup id = some s →
      ∃ s', spaces'.lookup id = some s' ∧ located s' = located s) :
    b.Sound tenantId spaces' site' := by
  obtain ⟨s, hs, hlocated⟩ := h.current
  obtain ⟨s', hs', hlocated'⟩ := hspaces _ s hs
  constructor
  · rw [hstays.storageSpaceId]
    exact h.derived
  · exact h.named
  · rw [hstays.providerTargetVersion]
    exact h.version
  · rw [hstays.storageSpaceId]
    exact ⟨s', hs', hlocated'.trans hlocated⟩
  · rw [hstays.storageNamespace]
    exact h.recorded
  · intro hretained
    obtain rfl := hstays.unretained hretained
    exact h.unretained hretained

theorem tenantExec_spaces (h : tenantExec c t = .ok t') : SpacesStay t.db t'.db := by
  cases tenantExec_step h with
  | idle _ hsame => exact .of_eq (by rw [hsame])
  | stored c _ hexec => exact .of_eq (step_spaces (exec_step hexec))
  | operated c _ _ _ hside => exact .of_eq hside.spaces
  | uploadCreated _ _ _ _ _ _ _ hdb | multipartCreated _ _ _ _ _ _ _ _ hdb
  | uploadCompleted _ _ _ _ _ _ _ _ _ hdb | multipartCompleted _ _ _ _ _ _ _ _ hdb =>
      exact .of_eq (by rw [hdb])
  | appRestored _ _ _ _ _ hnext | switched _ _ _ hnext | restored _ hnext =>
      exact .of_eq (by rw [hnext.2]; rfl)
  | deleted _ hnext =>
      have hlocated : ∀ s : StorageSpace, located { s with active := false } = located s :=
        fun _ ↦ rfl
      refine spacesStay_updateWhere (p := fun _ s ↦ s.active) hlocated ?_
      rw [hnext.2]
      rfl

theorem World.commit_eq_ok {birth : Option Birth} (h : w.commit c birth = .ok w') :
    tenantExec c w.tenant = .ok w'.tenant ∧
      ∀ r, w'.born r = if (w.tenant.db.site r).isSome then w.born r else birth := by
  obtain ⟨tenant, hexec, h⟩ := Except.bind_eq_ok.mp h
  obtain rfl := Except.pure_eq_ok.mp h
  exact ⟨hexec, fun _ ↦ rfl⟩

/-- A command keeps the system sound if the new rows are as their births say. -/
theorem World.Sound.commit (hw : w.Sound tenantId) {birth : Option Birth}
    (h : w.commit c birth = .ok w')
    (hnew : ∀ r site, w.tenant.db.site r = none → c.written w.tenant.db r = some site →
      w'.tenant.db.site r = some site →
      ∃ b, birth = some b ∧ b.Sound tenantId w.tenant.db.spaces site) : w'.Sound tenantId := by
  obtain ⟨hexec, hborn⟩ := World.commit_eq_ok h
  have hspaces := tenantExec_spaces hexec
  intro r site' hsite'
  rw [hborn]
  rcases (tenantExec_sites hexec).site hsite' with ⟨site, hsite, hstays⟩ | ⟨hnone, hwritten⟩
  · obtain ⟨b, hb, hsound⟩ := hw r site hsite
    rw [if_pos (by rw [hsite]; rfl)]
    exact ⟨b, hb, hsound.stays hstays hspaces⟩
  · obtain ⟨b, hb, hsound⟩ := hnew r site' hnone hwritten hsite'
    rw [if_neg (by rw [hnone]; simp)]
    exact ⟨b, hb, hsound.stays (Std.Refl.refl site') hspaces⟩

theorem World.Sound.transact (hw : w.Sound tenantId) {f : Db → Tx Db} (h : w.transact f = .ok w')
    (hf : ∀ db', f w.tenant.db = .ok db' → db'.tenantActive = w.tenant.db.tenantActive ∧
      SpacesStay w.tenant.db db' ∧
        ∀ r site, db'.site r = some site → w.tenant.db.site r = some site) :
    w'.Sound tenantId := by
  obtain ⟨tenant, htransact, h⟩ := Except.bind_eq_ok.mp h
  obtain rfl := Except.pure_eq_ok.mp h
  obtain ⟨-, hdb⟩ := Tenant.transact_eq_ok htransact fun db' hdb' ↦ (hf db' hdb').1
  obtain ⟨-, hspaces, hsites⟩ := hf _ hdb
  intro r site hsite
  obtain ⟨b, hb, hsound⟩ := hw r site (hsites r site hsite)
  exact ⟨b, hb, hsound.stays (Std.Refl.refl site) hspaces⟩

/-! ## New rows -/

/-- What an accepted command says of the row to be written. -/
structure Accepted (tenantId : Uuid) (call : Call) (command : AuthorizedFileCommand) : Prop where
  storageSpace : command.storageSpaceId = call.spaceId
  version : command.providerTargetVersion = call.space.providerTargetVersion
  first : call.space.providerTargetVersion = 1
  named : command.relativeKey ≠ ""
  derived : physicalKeyOf tenantId call.spaceId call.space command.relativeKey =
    .ok command.physicalKey

theorem scopedKey_ne_empty {ctx : PrincipalContext} {key key' : String} {resolved : Bool}
    (h : scopedKey ctx key resolved = .ok key') (hkey : key ≠ "") : key' ≠ "" := by
  unfold scopedKey at h
  split at h
  · obtain rfl := Except.ok.inj h
    exact hkey
  · obtain ⟨directory, -, h⟩ := Except.bind_eq_ok.mp h
    split at h
    · split at h
      · obtain rfl := Except.pure_eq_ok.mp h
        exact hkey
      · cases h
    · obtain rfl := Except.pure_eq_ok.mp h
      rw [Ne, ← String.toList_inj, String.toList_append]
      simp

theorem create_version {fingerprint : FingerprintPayload → String} {ctx : PrincipalContext}
    {spaceId : Uuid} {space : StorageSpace} {bindings : List Binding} {now : Timestamp}
    {i : CommandInput} {command : AuthorizedFileCommand}
    (h : AuthorizedFileCommand.create fingerprint tenantId ctx spaceId space bindings now i =
      .ok command) : command.providerTargetVersion = space.providerTargetVersion := by
  obtain ⟨requested, -, h⟩ := Except.bind_eq_ok.mp h
  obtain ⟨key, -, h⟩ := Except.bind_eq_ok.mp h
  cases hkey : isCanonicalPrefix key with
  | false =>
      rw [hkey] at h
      cases h
  | true =>
      cases htarget : deriveProviderTarget tenantId spaceId space key with
      | none =>
          rw [hkey, htarget] at h
          cases h
      | some target =>
          rw [hkey, htarget] at h
          obtain ⟨-, -, rfl⟩ := deriveProviderTarget_eq_some_iff.mp htarget
          obtain ⟨⟨⟩, -, h⟩ := Except.bind_eq_ok.mp h
          obtain rfl := Except.ok.inj h
          rfl

theorem Call.command_eq_ok {fingerprint : FingerprintPayload → String} {call : Call} {key : String}
    {idempotencyKey : Option String} {semantics : Semantics} {command : AuthorizedFileCommand}
    (h : call.command fingerprint tenantId key idempotencyKey semantics = .ok command) :
    Accepted tenantId call command := by
  have hcreate : AuthorizedFileCommand.create fingerprint tenantId call.ctx call.spaceId call.space
      call.bindings call.now ⟨key, "files.write", idempotencyKey, semantics, false⟩ =
        .ok command := by
    unfold Call.command at h
    split at h
    · cases h
    generalize AuthorizedFileCommand.create fingerprint tenantId call.ctx call.spaceId call.space
      call.bindings call.now _ = out at h ⊢
    cases out with
    | error e => cases h
    | ok found =>
        obtain rfl := Except.ok.inj h
        rfl
  obtain ⟨_, hcreated⟩ := create_eq_ok hcreate
  obtain rfl := hcreated.relative
  have hwrite : "files.write" ≠ "files.list" := by decide
  have hkey : key ≠ "" := fun hempty ↦ hwrite (hcreated.named hempty)
  refine ⟨hcreated.storageSpace, create_version hcreate, hcreated.targetable.version,
    scopedKey_ne_empty hcreated.confined hkey, ?_⟩
  exact physicalKeyOf_eq_ok.mpr ⟨hcreated.targetable, hcreated.canonicalKey, hcreated.physical⟩

variable {call : Call} {command : AuthorizedFileCommand} {coherent : Bool} {site : Site}

theorem Accepted.sound (h : Accepted tenantId call command)
    (hread : w.hasRead call.spaceId call.space) (hspace : site.storageSpaceId = call.spaceId)
    (hversion : site.providerTargetVersion = call.space.providerTargetVersion)
    (hkey : site.objectKey = command.physicalKey)
    (hrecorded : coherent = true →
      truthy site.storageNamespace = truthy call.space.storageNamespace) :
    (call.birth command coherent).Sound tenantId w.tenant.db.spaces site := by
  have hcurrent : ∃ s, w.tenant.db.spaces.lookup call.spaceId = some s ∧
      located s = located call.space := by
    simpa [World.hasRead, Option.any_eq_true] using hread
  constructor
  · rw [hspace]
    exact h.derived
  · exact h.named
  · exact hversion
  · rw [hspace]
    exact hcurrent
  · exact hrecorded
  · exact fun _ ↦ hkey

theorem truthy_or_self (value : Option String) :
    truthy ((truthy value).or value) = truthy value := by
  cases value with
  | none => rfl
  | some text =>
      by_cases hempty : text = ""
      · subst hempty
        rfl
      · have htruthy : truthy (some text) = some text := by
          rw [truthy, Option.filter_some, if_pos (decide_eq_true hempty)]
        rw [htruthy, Option.some_or, htruthy]

/-- A session of the file store has the namespace it was asked for when the space still has it. -/
theorem sessionSite_eq_some {db : Db} {session : SessionData} {version : ℕ}
    (h : sessionSite db session version = some site) :
    ∃ space, db.spaces.lookup session.storageSpaceId = some space ∧
      site.storageSpaceId = session.storageSpaceId ∧ site.providerTargetVersion = version ∧
      site.objectKey = session.objectKey ∧
      site.storageNamespace = (truthy session.storageNamespace).or space.storageNamespace := by
  obtain ⟨space, hspace, rfl⟩ := Option.map_eq_some_iff.mp h
  exact ⟨space, hspace, rfl, rfl, rfl, rfl⟩

theorem recorded_of_intent {seen : StorageSpace}
    (h : coherentWith call.space [some seen] = true) :
    truthy seen.storageNamespace = truthy call.space.storageNamespace := by
  simp only [coherentWith, List.all_cons, List.all_nil, Bool.and_true, Option.map_some,
    decide_eq_true_eq, Option.some.injEq] at h
  rw [h]

theorem recorded_of_session {seen space : StorageSpace}
    (h : coherentWith call.space [some seen, some space] = true) :
    truthy ((truthy seen.storageNamespace).or space.storageNamespace) =
      truthy call.space.storageNamespace := by
  simp only [coherentWith, List.all_cons, List.all_nil, Bool.and_true, Option.map_some,
    Bool.and_eq_true, decide_eq_true_eq, Option.some.injEq] at h
  rw [h.1, h.2, truthy_or_self]

/-- The columns of a row which a creation writes. -/
theorem Creation.written_eq_some {seen : StorageSpace} {body : UploadBody}
    {idempotencyKey : Option String} {creation : Creation} {r : RowId}
    (hspace : command.storageSpaceId = call.spaceId)
    (h : (creation.command command.providerTargetVersion
      (FileService.sessionData call.ctx command seen body)
      (FileService.ingestionData command idempotencyKey seen body.metadata)).written
        w.tenant.db r = some site) :
    site.storageSpaceId = call.spaceId ∧
      (site.providerTargetVersion = 1 ∨
        site.providerTargetVersion = command.providerTargetVersion) ∧
      site.objectKey = command.physicalKey ∧
      (coherentWith call.space (creation.reads w call.spaceId seen) = true →
        truthy site.storageNamespace = truthy call.space.storageNamespace) := by
  have hsession : ∀ {version : ℕ}, sessionSite w.tenant.db
      (FileService.sessionData call.ctx command seen body) version = some site →
      version = command.providerTargetVersion →
      site.storageSpaceId = call.spaceId ∧
        (site.providerTargetVersion = 1 ∨
          site.providerTargetVersion = command.providerTargetVersion) ∧
        site.objectKey = command.physicalKey ∧
        (coherentWith call.space [some seen, w.tenant.db.spaces.lookup call.spaceId] = true →
          truthy site.storageNamespace = truthy call.space.storageNamespace) := by
    rintro version hsite rfl
    obtain ⟨space, hlookup, hid, hversion, hkey, hnamespace⟩ := sessionSite_eq_some hsite
    have hlookup : w.tenant.db.spaces.lookup call.spaceId = some space := hspace ▸ hlookup
    refine ⟨hid.trans hspace, Or.inr hversion, hkey, ?_⟩
    rw [hlookup, hnamespace]
    exact recorded_of_session
  cases creation with
  | uploadIntent ids =>
      cases r with
      | upload id =>
          obtain rfl := Option.some.inj h
          exact ⟨hspace, Or.inl rfl, rfl, recorded_of_intent⟩
      | ingestion id =>
          obtain rfl := Option.some.inj h
          exact ⟨hspace, Or.inr rfl, rfl, recorded_of_intent⟩
      | multipart | file => cases h
  | multipartIntent ids =>
      cases r with
      | multipart id =>
          obtain rfl := Option.some.inj h
          exact ⟨hspace, Or.inl rfl, rfl, recorded_of_intent⟩
      | ingestion id =>
          obtain rfl := Option.some.inj h
          exact ⟨hspace, Or.inr rfl, rfl, recorded_of_intent⟩
      | upload | file => cases h
  | upload id =>
      cases r with
      | upload => exact hsession h rfl
      | multipart | ingestion | file => cases h
  | multipart id reservationId =>
      cases r with
      | multipart => exact hsession h rfl
      | upload | ingestion | file => cases h

/-- The row a rename adds is in the space of its source. -/
theorem rename_space {ids : OperationIds} {spaceId j : Uuid} {data : RenameData}
    (h : tenantExec (.operation (.createRenameOperation ids spaceId data)) t = .ok t')
    (hnone : t.db.site (.file j) = none) (hsite : t'.db.site (.file j) = some site) :
    ∃ source, t.db.files.lookup data.sourceFileId = some source ∧
      source.storageSpaceId = spaceId := by
  obtain ⟨-, hexec⟩ := Tenant.transact_eq_ok h fun _ ↦ opExec_tenantActive
  obtain ⟨op, hrename⟩ := Except.map_snd_eq_ok.mp hexec
  rcases createRenameOperation_eq_ok hrename with hsame | ⟨source, _, -, hsource, hspace, -⟩
  · rw [hsame, hnone] at hsite
    cases hsite
  · exact ⟨source, hsource, hspace⟩

/-- A command which is not a call's own makes its new rows from rows there are. -/
theorem copied_of_written {db : Db} {r : RowId} (hc : writesKeys c = false)
    (h : c.written db r = some site) : ∃ r₀, copied c = some r₀ ∧ db.site r₀ = some site := by
  unfold TenantCmd.written at h
  split at h
  all_goals first
    | cases hc; done
    | exact ⟨_, rfl, h⟩
    | cases h

/-! ## Steps -/

variable {fingerprint : FingerprintPayload → String} {renameFingerprint : RenamePayload → String}

theorem performed_eq_ok {α : Type} {ready : Bool} {x : Tx α} {a : α}
    (h : (if !ready then notPerformed else x) = .ok a) : ready = true ∧ x = .ok a := by
  cases ready with
  | false => cases h
  | true => exact ⟨rfl, h⟩

theorem create_sound (hw : w.Sound tenantId) {seen : StorageSpace} {body : UploadBody}
    {idempotencyKey : Option String} {creation : Creation}
    (h : perform fingerprint renameFingerprint tenantId
      (.create call seen body idempotencyKey creation) w = .ok w') : w'.Sound tenantId := by
  obtain ⟨hready, h⟩ := performed_eq_ok h
  have hread := (Bool.and_eq_true_iff.mp hready).1
  obtain ⟨command, hcommand, h⟩ := Except.bind_eq_ok.mp h
  have haccepted := Call.command_eq_ok hcommand
  refine hw.commit h fun r site _ hwritten _ ↦ ⟨_, rfl, ?_⟩
  obtain ⟨hspace, hversion, hkey, hrecorded⟩ :=
    Creation.written_eq_some haccepted.storageSpace hwritten
  refine haccepted.sound hread hspace ?_ hkey hrecorded
  rcases hversion with hfirst | hversion
  · exact hfirst.trans haccepted.first.symm
  · exact hversion.trans haccepted.version

theorem rename_sound (hw : w.Sound tenantId) {seen : StorageSpace} {applicationId : Uuid}
    {fileId objectKey idempotencyKey : String} {record : StoredFile}
    {source : AuthorizedFileCommand} {ifMatch : Option String} {ids : OperationIds}
    (h : perform fingerprint renameFingerprint tenantId (.rename call seen applicationId fileId
      record source objectKey ifMatch idempotencyKey ids) w = .ok w') : w'.Sound tenantId := by
  obtain ⟨hready, h⟩ := performed_eq_ok h
  simp only [Bool.and_eq_true] at hready
  have hread := hready.1.1
  obtain ⟨destination, hcommand, h⟩ := Except.bind_eq_ok.mp h
  have haccepted := Call.command_eq_ok hcommand
  refine hw.commit h fun r site hnone hwritten hsite ↦ ⟨_, rfl, ?_⟩
  cases r with
  | upload | multipart | ingestion => cases hwritten
  | file j =>
      obtain ⟨row, hrow, hspace⟩ := rename_space (World.commit_eq_ok h).1 hnone hsite
      have hsource : w.tenant.db.site (.file record.id) = some row.site :=
        congrArg (Option.map FileObject.site) hrow
      obtain ⟨b, -, hsound⟩ := hw _ _ hsource
      have hwritten : (w.tenant.db.site (.file record.id)).map (fun site ↦
          { site with objectKey := destination.physicalKey, retained := false }) = some site :=
        hwritten
      rw [hsource, Option.map_some] at hwritten
      obtain rfl := Option.some.inj hwritten
      refine haccepted.sound hread hspace ?_ rfl fun hcoherent ↦ ?_
      · -- All targets have the first version.
        have hfirst := (physicalKeyOf_eq_ok.mp hsound.derived).1.version
        exact (hsound.version.trans hfirst).trans haccepted.first.symm
      · have hrow : w.tenant.db.files.lookup record.id = some row := hrow
        rw [hrow, Option.any_some, decide_eq_true_eq] at hcoherent
        exact congrArg truthy hcoherent

theorem transaction_sound (hw : w.Sound tenantId)
    (h : perform fingerprint renameFingerprint tenantId (.transaction c) w = .ok w') :
    w'.Sound tenantId := by
  have h : (if writesKeys c then notPerformed else w.commit c ((copied c).bind w.born)) =
    .ok w' := h
  cases hc : writesKeys c with
  | true =>
      rw [hc] at h
      cases h
  | false =>
      rw [hc] at h
      refine hw.commit h fun r site _ hwritten _ ↦ ?_
      obtain ⟨r₀, hcopied, hsite⟩ := copied_of_written hc hwritten
      obtain ⟨b, hb, hsound⟩ := hw r₀ site hsite
      exact ⟨b, by rw [hcopied]; exact hb, hsound⟩

theorem sites_of_files {db : Db} {files : Table Uuid FileObject}
    (h : KeepsKey FileObject.site db.files files) {r : RowId}
    (hsite : { db with files }.site r = some site) : db.site r = some site := by
  cases r with
  | upload | multipart | ingestion => exact hsite
  | file j =>
      obtain ⟨f', hf', rfl⟩ := Option.map_eq_some_iff.mp hsite
      obtain ⟨f, hf, hkey⟩ := h j f' hf'
      exact Option.map_eq_some_iff.mpr ⟨f, hf, hkey.symm⟩

/-- A transaction on other columns of a file. -/
theorem World.Sound.files (hw : w.Sound tenantId) {f : Db → Tx Db} (h : w.transact f = .ok w')
    (hf : ∀ db', f w.tenant.db = .ok db' →
      ∃ files, KeepsKey FileObject.site w.tenant.db.files files ∧
        db' = { w.tenant.db with files }) : w'.Sound tenantId := by
  refine hw.transact h fun db' hdb' ↦ ?_
  obtain ⟨files, hkeeps, rfl⟩ := hf db' hdb'
  exact ⟨rfl, .of_eq rfl, fun r site ↦ sites_of_files hkeeps⟩

theorem persistReference_files (id : Uuid) (ref : FileRef) (checksum : String) (db : Db) :
    ∃ files, KeepsKey FileObject.site db.files files ∧
      (Files.persistReference id ref checksum db).2 = { db with files } := by
  unfold Files.persistReference
  split
  · exact ⟨db.files, .refl _ _, rfl⟩
  split
  · exact ⟨db.files, .refl _ _, rfl⟩
  split
  · exact ⟨db.files, .refl _ _, rfl⟩
  · exact ⟨_, keeps_update fun _ _ ↦ by rfl, rfl⟩

theorem updateFileMetadata_files {recordEtag : Uuid → ℕ → String} {spaceId fileId : Uuid}
    {data : MetadataData} {versions : Table Uuid MetadataVersion} {db db' : Db}
    (h : (Files.updateFileMetadata recordEtag spaceId fileId data db versions).map (·.2.1) =
      .ok db') :
    ∃ files, KeepsKey FileObject.site db.files files ∧ db' = { db with files } := by
  obtain ⟨⟨out, db₁, versions'⟩, hupdate, rfl⟩ := Except.map_eq_ok.mp h
  rcases updateFileMetadata_eq_ok hupdate with rfl | ⟨f, hf, -, -, rfl⟩
  · exact ⟨_, .refl _ _, rfl⟩
  · refine ⟨_, keeps_update fun f' hf' ↦ ?_, rfl⟩
    obtain rfl := Option.some.inj (hf.symm.trans hf')
    rfl

theorem perform_sound {act : Act} (hw : w.Sound tenantId)
    (h : perform fingerprint renameFingerprint tenantId act w = .ok w') : w'.Sound tenantId := by
  cases act with
  | create => exact create_sound hw h
  | rename => exact rename_sound hw h
  | transaction => exact transaction_sound hw h
  | updateFileMetadata recordEtag spaceId fileId data versions =>
      exact hw.files h fun db' ↦ updateFileMetadata_files
  | persistReference id ref checksum =>
      refine hw.files h fun db' hdb' ↦ ?_
      obtain rfl := Except.ok.inj hdb'
      exact persistReference_files id ref checksum _
  | createSpace id space =>
      refine hw.transact h fun db' hdb' ↦ ?_
      obtain ⟨spaces, hinsert, hdb'⟩ := Except.bind_eq_ok.mp hdb'
      obtain ⟨hfresh, rfl⟩ := insertRow_eq_ok.mp hinsert
      obtain rfl := Except.pure_eq_ok.mp hdb'
      refine ⟨rfl, fun j s hs ↦ ⟨s, ?_, rfl⟩, fun r site hsite ↦ ?_⟩
      · have hne : j ≠ id := by
          rintro rfl
          exact hfresh (AList.mem_of_lookup hs)
        exact (AList.lookup_insert_ne hne).trans hs
      · cases r <;> exact hsite
  | setNamespace spaceId storageNamespace =>
      refine hw.transact h fun db' hdb' ↦ ?_
      obtain rfl := Except.ok.inj hdb'
      have hlocated : ∀ s : StorageSpace, located { s with storageNamespace } = located s :=
        fun _ ↦ rfl
      refine ⟨rfl, spacesStay_updateWhere (p := fun j _ ↦ j = spaceId) hlocated rfl,
        fun r site hsite ↦ ?_⟩
      cases r <;> exact hsite

variable (fingerprint renameFingerprint) in
theorem run_sound (hw : w.Sound tenantId) (acts : List Act) :
    (run (perform fingerprint renameFingerprint tenantId) w acts).Sound tenantId :=
  run_preserves (fun _ _ _ hs hok ↦ perform_sound hs hok) hw acts


/-! ## Recovery -/

theorem getLast_of_canonical {key : String} (h : isCanonicalPrefix key = true) :
    key.toList.getLast? ≠ some '/' := by
  intro hlast
  obtain ⟨front, hfront⟩ := List.getLast?_eq_some_iff.mp hlast
  have hkey : key = String.ofList front ++ "/" ++ "" := by
    rw [← String.toList_inj, String.toList_append, String.toList_append, String.toList_ofList,
      hfront]
    simp
  have hempty : [] ∈ splitSlash key := by
    rw [hkey, splitSlash_append]
    exact List.mem_append_right _ (by decide)
  have hne : key ≠ "" := by
    rintro rfl
    cases hlast
  unfold isCanonicalPrefix at h
  simp only [hne, decide_false, Bool.false_or, Bool.and_eq_true, List.all_eq_true] at h
  simpa using h.2 [] hempty

theorem rstripSlash_eq_self {key : String} (h : key.toList.getLast? ≠ some '/') :
    rstripSlash key = key := by
  have hkeep : key.toList.reverse.dropWhile (· = '/') = key.toList.reverse := by
    rw [← List.head?_reverse] at h
    cases hrest : key.toList.reverse with
    | nil => rfl
    | cons c rest =>
        rw [hrest, List.head?_cons, Ne, Option.some.injEq] at h
        rw [List.dropWhile_cons_of_neg (by simpa using h)]
  rw [rstripSlash, hkeep, List.reverse_reverse, String.ofList_toList]

theorem rstripSlash_rootKey {spaceId : Uuid} {space : StorageSpace}
    (h : Targetable tenantId spaceId space) :
    rstripSlash (rootKey tenantId spaceId space) = rootKey tenantId spaceId space := by
  apply rstripSlash_eq_self
  unfold rootKey joinKey
  split
  · exact getLast_of_canonical h.namespaced
  · rename_i hprefix
    have hne : space.rootPrefix.toList ≠ [] := fun hnil ↦ hprefix (String.toList_eq_nil_iff.mp hnil)
    rw [String.toList_append, List.getLast?_append_of_ne_nil _ hne]
    exact getLast_of_canonical h.operatorPrefix

/-- A space seen with the namespace the row records is as the row's key was derived in it. -/
theorem Targetable.of_recorded {spaceId : Uuid} {space space' : StorageSpace}
    (h : Targetable tenantId spaceId space) (hlocated : located space' = located space)
    (hnamespace : truthy space'.storageNamespace = truthy space.storageNamespace) :
    Targetable tenantId spaceId space' ∧
      rootKey tenantId spaceId space' = rootKey tenantId spaceId space := by
  simp only [located, Prod.mk.injEq] at hlocated
  obtain ⟨hbucket, hprefix, hversion⟩ := hlocated
  have hsame : namespaceOf tenantId spaceId space' = namespaceOf tenantId spaceId space := by
    rw [namespaceOf, namespaceOf, hnamespace, hversion]
  refine ⟨⟨hversion.trans h.version, hbucket ▸ h.bucket, hprefix ▸ h.operatorPrefix,
    hsame ▸ h.namespaced⟩, ?_⟩
  rw [rootKey, rootKey, hsame, hprefix]

theorem Birth.Sound.recovered {spaces : Table Uuid StorageSpace} {b : Birth} {f : FileObject}
    {space : StorageSpace} (h : b.Sound tenantId spaces f.site)
    (hspace : spaces.lookup f.storageSpaceId = some space) (hkey : f.objectKey = b.objectKey)
    (hcoherent : b.coherent = true) :
    relativeKeyForFile tenantId f space = .ok b.relativeKey ∧
      relativeKeyOf tenantId f.storageSpaceId b.space f.objectKey = .ok b.relativeKey := by
  obtain ⟨s, hs, hlocated⟩ := h.current
  obtain rfl := Option.some.inj (hs.symm.trans hspace)
  have hderived : physicalKeyOf tenantId f.storageSpaceId b.space b.relativeKey =
      .ok f.objectKey := hkey ▸ h.derived
  refine ⟨?_, relativeKeyOf_physicalKeyOf h.named hderived⟩
  obtain ⟨htargetable, -, hphysical⟩ := physicalKeyOf_eq_ok.mp hderived
  have hrecorded : Targetable tenantId f.storageSpaceId
      { s with storageNamespace := f.storageNamespace } ∧
      rootKey tenantId f.storageSpaceId { s with storageNamespace := f.storageNamespace } =
        rootKey tenantId f.storageSpaceId b.space :=
    Targetable.of_recorded htargetable hlocated (h.recorded hcoherent)
  have hversion : f.providerTargetVersion = s.providerTargetVersion :=
    h.version.trans (Prod.mk.inj (Prod.mk.inj hlocated).2).2.symm
  have hroot := physicalKeyOf_eq_ok.mpr ⟨hrecorded.1, isCanonicalPrefix_empty, rfl⟩
  have hempty : ∀ root : String, joinKey root "" = root := fun root ↦ if_pos rfl
  rw [hempty] at hroot
  refine relativeKeyForFile_of_namespace hversion hroot ?_ h.named
  rw [rstripSlash_rootKey hrecorded.1, hrecorded.2, hphysical, joinKey, if_neg h.named]

/-- Every file has been written under some relative key, and is at its physical key as long as it
is not kept for its purge.  As long as it is there, the key is recovered under any namespaces
the space has had since, provided that the row records the one its key was derived under. -/
theorem relativeKey_recovered (fingerprint : FingerprintPayload → String)
    (renameFingerprint : RenamePayload → String) (tenantId : Uuid) (w : World)
    (hempty : ∀ r, w.tenant.db.site r = none) (acts : List Act) (fileId : Uuid) (f : FileObject)
    (hf : (run (perform fingerprint renameFingerprint tenantId) w acts).tenant.db.files.lookup
      fileId = some f) :
    ∃ b space, (run (perform fingerprint renameFingerprint tenantId) w acts).born (.file fileId) =
        some b ∧
      (run (perform fingerprint renameFingerprint tenantId) w acts).tenant.db.spaces.lookup
        f.storageSpaceId = some space ∧
      (f.purgeState = none → f.objectKey = b.objectKey) ∧
      (f.objectKey = b.objectKey → b.coherent = true →
        relativeKeyForFile tenantId f space = .ok b.relativeKey ∧
          relativeKeyOf tenantId f.storageSpaceId b.space f.objectKey = .ok b.relativeKey) := by
  have hsound : w.Sound tenantId := fun r site hsite ↦ by
    rw [hempty] at hsite
    cases hsite
  have hrow := run_sound fingerprint renameFingerprint hsound acts
  generalize run (perform fingerprint renameFingerprint tenantId) w acts = w' at hf hrow ⊢
  obtain ⟨b, hb, hsite⟩ := hrow (.file fileId) f.site (congrArg (Option.map FileObject.site) hf)
  obtain ⟨space, hspace, -⟩ := hsite.current
  refine ⟨b, space, hb, hspace, fun hnone ↦ ?_, hsite.recovered hspace⟩
  apply hsite.unretained
  show f.purgeState.isSome = false
  rw [hnone]
  rfl

namespace Sample

open S3mp.Sample

def start : World := ⟨live, fun _ ↦ none⟩

theorem start_empty (r : RowId) : start.tenant.db.site r = none := by
  cases r <;> rfl

def under (storageNamespace : String) : StorageSpace :=
  { space with storageNamespace := some storageNamespace }

def writing (ctx : PrincipalContext) (storageNamespace : String) : Call where
  ctx := ctx
  spaceId := 2
  space := under storageNamespace
  bindings := mayWrite
  now := 5

def body (key : String) : UploadBody where
  objectKey := key
  contentLength := 4
  contentType := "text/plain"
  checksum := none
  metadata := none
  expiresAt := 1000

/-- The file 30 is uploaded and committed while the space has the namespace. -/
def uploaded (storageNamespace key : String) : List Act :=
  [.setNamespace 2 (some storageNamespace),
    .create (writing writer storageNamespace) (under storageNamespace) (body key) none
      (.uploadIntent (ids 10)),
    .transaction (.stored (.recordProviderResult 12 (result 4 'a'))),
    .transaction (.stored (.commitVerifiedFile 3 30 12))]

def after (acts : List Act) : World :=
  run (perform (fun _ ↦ "") (fun _ ↦ "") 1) start acts

/-- The file has been uploaded under `a`; now the namespace of its space is `a/b`. -/
def rotated : List Act := uploaded "a" "b/x" ++ [.setNamespace 2 (some "a/b")]

end Sample

/-- The key comes back although the namespace has grown into it. -/
theorem relativeKey_recovered_sample :
    ∃ f space, (Sample.after Sample.rotated).tenant.db.files.lookup 30 = some f ∧
      (Sample.after Sample.rotated).tenant.db.spaces.lookup f.storageSpaceId = some space ∧
      relativeKeyForFile 1 f space = .ok "b/x" := by
  have hshape : ((Sample.after Sample.rotated).tenant.db.files.lookup 30).map (·.purgeState) =
      some none := by
    decide +kernel
  have hbirth : ((Sample.after Sample.rotated).born (.file 30)).map (fun b ↦
      (b.relativeKey, b.coherent)) = some ("b/x", true) := by
    decide +kernel
  obtain ⟨f, hf, hnone⟩ := Option.map_eq_some_iff.mp hshape
  obtain ⟨b, space, hb, hspace, hkept, hrecovered⟩ := relativeKey_recovered (fun _ ↦ "")
    (fun _ ↦ "") 1 Sample.start Sample.start_empty Sample.rotated 30 f hf
  obtain ⟨b', hb', hpair⟩ := Option.map_eq_some_iff.mp hbirth
  obtain rfl := Option.some.inj (hb.symm.trans hb')
  obtain ⟨hkey, hcoherent⟩ := Prod.mk.inj hpair
  refine ⟨f, space, hf, hspace, ?_⟩
  rw [← hkey]
  exact (hrecovered (hkept hnone) hcoherent).1

/-- What is recovered is the key the file was created with, and the key the service shows. -/
def World.Recovers (tenantId : Uuid) (w : World) : Prop :=
  ∀ fileId f b space, w.tenant.db.files.lookup fileId = some f → w.born (.file fileId) = some b →
    w.tenant.db.spaces.lookup f.storageSpaceId = some space →
      ∀ key, relativeKeyForFile tenantId f space = .ok key →
        key = b.relativeKey ∧ relativeKeyOf tenantId f.storageSpaceId space f.objectKey = .ok key

namespace Sample

open S3mp.Sample

/-- The key recovered, the key shown and the key the file was created with. -/
def keysOf (w : World) (fileId : Uuid) : Option (Option String × Option String × String) := do
  let f ← w.tenant.db.files.lookup fileId
  let space ← w.tenant.db.spaces.lookup f.storageSpaceId
  let b ← w.born (.file fileId)
  return ((relativeKeyForFile 1 f space).toOption,
    (relativeKeyOf 1 f.storageSpaceId space f.objectKey).toOption, b.relativeKey)

theorem not_recovers {w : World} {fileId : Uuid} {key created : String} {shown : Option String}
    (h : keysOf w fileId = some (some key, shown, created))
    (hne : key ≠ created ∨ shown ≠ some key) : ¬w.Recovers 1 := by
  intro hrecovers
  unfold keysOf at h
  obtain ⟨f, hf, h⟩ := Option.bind_eq_some_iff.mp h
  obtain ⟨space, hspace, h⟩ := Option.bind_eq_some_iff.mp h
  obtain ⟨b, hb, h⟩ := Option.bind_eq_some_iff.mp h
  obtain ⟨hkey, hshown, hcreated⟩ : (relativeKeyForFile 1 f space).toOption = some key ∧
      (relativeKeyOf 1 f.storageSpaceId space f.objectKey).toOption = shown ∧
      b.relativeKey = created := by
    simpa using h
  have hok : relativeKeyForFile 1 f space = .ok key := by
    cases hout : relativeKeyForFile 1 f space with
    | error e =>
        rw [hout] at hkey
        cases hkey
    | ok found =>
        rw [hout] at hkey
        exact congrArg Except.ok (Option.some.inj hkey)
  obtain ⟨hsame, hshow⟩ := hrecovers fileId f b space hf hb hspace key hok
  rcases hne with hne | hne
  · exact hne (hsame.trans hcreated)
  · rw [← hshown, hshow] at hne
    exact hne rfl

/-- The file is deleted, and its object moves into the trash. -/
def trashed : List Act :=
  uploaded "ns" "report" ++
    [.transaction (.stored (.deleteFile 5 40 2 30 (fileDeletion "report"))),
      .transaction (.stored (.finalizeFileTrashMigration 30))]

theorem renamer_wellFormed : (forApplication 6 1 (some 5) (some 7)
    (some ["files.read", "files.write", "files.delete", "files.move"]) none).WellFormed := by
  decide

def renamer : PrincipalContext :=
  ⟨forApplication 6 1 (some 5) (some 7)
    (some ["files.read", "files.write", "files.delete", "files.move"]) none, renamer_wellFormed⟩

/-- What the service has found of the file under its new namespace. -/
def source : AuthorizedFileCommand :=
  { commandAt "x" with
    actingPrincipalId := 6
    physicalKey := "a/b/x"
    action := "files.read"
    authorizationEvidence := commandEvidence renamer }

/-- After the change of the namespace the file is renamed. -/
def renamed : List Act :=
  rotated ++ ((after rotated).tenant.db.files.lookup 30).toList.map fun f ↦
    .rename (writing renamer "a/b") (under "a/b") 5 "30" ⟨30, f, 1⟩ source "y" (some "etag")
      "rename" ⟨50, 51, 31, fun _ ↦ 0⟩

end Sample

/-- A file in the trash gives the key it has there.  A renamed file records the namespace of its
source, under which its key was not derived.  And after a change of the namespace the service
may show another key. -/
theorem recovery_fails : ¬(Sample.after Sample.trashed).Recovers 1 ∧
    ¬(Sample.after Sample.renamed).Recovers 1 ∧ ¬(Sample.after Sample.rotated).Recovers 1 := by
  have htrashed : Sample.keysOf (Sample.after Sample.trashed) 30 =
      some (some "__trash__/19700101T000000.000005Z-00000000-0000-0000-0000-000000000028/report",
        some "__trash__/19700101T000000.000005Z-00000000-0000-0000-0000-000000000028/report",
        "report") := by
    decide +kernel
  have hrenamed : Sample.keysOf (Sample.after Sample.renamed) 31 =
      some (some "b/y", some "y", "y") := by
    decide +kernel
  have hrotated : Sample.keysOf (Sample.after Sample.rotated) 30 =
      some (some "b/x", some "x", "b/x") := by
    decide +kernel
  refine ⟨Sample.not_recovers htrashed (Or.inl (by decide)),
    Sample.not_recovers hrenamed (Or.inl (by decide)),
    Sample.not_recovers hrotated (Or.inr (by decide))⟩

end S3mp.KeyRecovery
