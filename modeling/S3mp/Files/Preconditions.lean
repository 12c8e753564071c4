import S3mp.Files.FileChanges
import S3mp.Files.Listing
import S3mp.Uploads.Completion

/-!
# The precondition of a change

A deletion and a rename name the ETag of the content they are meant for.  A change with
another ETag is to be refused, and one with the right ETag to reach its transaction.
-/

namespace S3mp

open Relational Authorization Identity Storage Files Transition

/-! ## Commands for a record -/

section Commands

variable (fingerprint : FingerprintPayload → String) (ctx : PrincipalContext)

/-- The key and the meaning of a request go into the fingerprint of its command only. -/
def stamped (key : Option String) (semantics : Semantics) (command : AuthorizedFileCommand) :
    AuthorizedFileCommand :=
  { command with
    idempotencyFingerprint := (truthy key).map fun key ↦ fingerprint ⟨ctx.principalId,
      ctx.subjectKind, command.action, command.storageSpaceId, command.relativeKey, key,
      semantics⟩ }

variable (tenantId : Uuid)

theorem create_stamped (spaceId : Uuid) (space : StorageSpace) (bindings : List Binding)
    (now : Timestamp) (key action : String) (idempotencyKey : Option String)
    (semantics : Semantics) (resolved : Bool) :
    AuthorizedFileCommand.create fingerprint tenantId ctx spaceId space bindings now
        ⟨key, action, idempotencyKey, semantics, resolved⟩ =
      (AuthorizedFileCommand.create fingerprint tenantId ctx spaceId space bindings now
        ⟨key, action, none, .none, resolved⟩).map
          (stamped fingerprint ctx idempotencyKey semantics) := by
  unfold AuthorizedFileCommand.create
  cases canonicalKey key (action = "files.list") with
  | error e => rfl
  | ok canonical =>
      cases hbelow : scopedKey ctx canonical resolved with
      | error e => simp [hbelow, bind, Except.bind, Except.map]
      | ok below =>
          simp only [hbelow, bind, Except.bind]
          split
          · rfl
          · cases deriveProviderTarget tenantId spaceId space below with
            | none => rfl
            | some target =>
                dsimp only
                cases authorizeKey ctx action bindings spaceId below now with
                | error e => rfl
                | ok _ => rfl

theorem play_commandForRecord_stamped {σ : Type}
    {answer : (r : FileRequest) → σ → Except Raised r.Value × σ} (record : StoredKey)
    (action : String) (key : Option String) (semantics : Semantics) (s : σ) :
    (FileService.commandForRecord fingerprint tenantId ctx record action key semantics).run.play
        answer s =
      (((FileService.commandForRecord fingerprint tenantId ctx record action none .none).run.play
        answer s).1.map (stamped fingerprint ctx key semantics),
      ((FileService.commandForRecord fingerprint tenantId ctx record action none .none).run.play
        answer s).2) := by
  refine play_bind_map fun space t ↦ ?_
  dsimp only
  split
  · rfl
  · refine play_bind_map fun relativeKey t ↦ play_bind_map fun space t ↦ play_bind_map fun _ t ↦ ?_
    refine play_bind_map fun bindings t ↦ play_bind_map fun now t ↦ ?_
    rw [create_stamped]
    cases AuthorizedFileCommand.create fingerprint tenantId ctx record.storageSpaceId space bindings
      now ⟨relativeKey, action, none, .none, true⟩ with
    | error e => rfl
    | ok command => rfl

end Commands

/-! ## Calls in a world where nothing else happens -/

section Outcome

variable (recordEtag : Uuid → ℕ → String) (c : ServiceChoice)

/-- What a call returns and leaves. -/
abbrev outcome {α : Type} (x : FileService α) (s : Store) : Except Raised α × Store :=
  x.run.play (fun r s ↦ s.answer recordEtag c r) s

/-- Requests which find a record or decide about it. -/
def Looking : FileRequest → Prop
  | .read _ | .getFile .. | .getFileByRef .. => True
  | _ => False

variable {recordEtag c} {s t : Store} {spaceId tenantId : Uuid} {reference : Reference}
  {record : StoredFile} {byRef : Bool} {ctx : PrincipalContext}
  {fingerprint : FingerprintPayload → String}

theorem answer_looking (r : FileRequest) (s : Store) (hr : Looking r) :
    (s.answer recordEtag c r).2 = s := by
  refine answer_keeps fun x s' hperform ↦ ?_
  cases r with
  | read r => cases r with
    | now | getSpace => exact (Store.query_eq_ok hperform).2
    | _ => exact Store.outside_eq_ok hperform
  | getFile | getFileByRef => exact (Store.query_eq_ok hperform).2
  | _ => exact absurd hr id

theorem outcome_looking {α : Type} {x : FileService α} (hx : OnlyR Looking x) (s : Store) :
    (outcome recordEtag c x s).2 = s :=
  Program.play_only answer_looking hx s

theorem outcome_eq_ok {α : Type} {x : FileService α} (hx : OnlyR Looking x) {a : α}
    (h : (outcome recordEtag c x s).1 = .ok a) : outcome recordEtag c x s = (.ok a, s) :=
  Prod.ext h (outcome_looking hx s)

theorem looking_resolveFileReference (spaceId : Uuid) (reference : Reference) :
    OnlyR Looking (FileService.resolveFileReference spaceId reference) := by
  have hfound : ∀ byRef found, OnlyR Looking (FileService.foundRecord byRef found) := by
    intro byRef found
    cases found with
    | none => exact onlyR_throw _
    | some record => exact onlyR_pure _
  cases reference with
  | fileRef ref => exact onlyR_bind (onlyR_call trivial) fun _ ↦ hfound _ _
  | fileId id => exact onlyR_bind (onlyR_call trivial) fun _ ↦ hfound _ _
  | malformed => exact onlyR_throw _

theorem looking_commandForRecord (fingerprint : FingerprintPayload → String) (tenantId : Uuid)
    (ctx : PrincipalContext) (record : StoredKey) (action : String) :
    OnlyR Looking
      (FileService.commandForRecord fingerprint tenantId ctx record action none .none) :=
  FileService.only_commandForRecord (fun _ ↦ trivial) fingerprint tenantId ctx record action none
    .none

theorem looking_inputCommand (fingerprint : FingerprintPayload → String) (tenantId : Uuid)
    (ctx : PrincipalContext) (spaceId : Uuid) (key action : String) (idempotencyKey : Option String)
    (semantics : Semantics) :
    OnlyR Looking (FileService.inputCommand fingerprint tenantId ctx spaceId key action
      idempotencyKey semantics) :=
  FileService.only_command (fun _ ↦ trivial) fingerprint tenantId ctx _ _

theorem looking_sourceCommands (fingerprint : FingerprintPayload → String) (tenantId : Uuid)
    (ctx : PrincipalContext) (record : StoredKey) :
    OnlyR Looking (FileService.sourceCommands fingerprint tenantId ctx record) := by
  refine onlyR_bind (looking_commandForRecord fingerprint tenantId ctx record _) fun _ ↦ ?_
  refine onlyR_bind (looking_commandForRecord fingerprint tenantId ctx record _) fun _ ↦ ?_
  exact onlyR_bind (looking_commandForRecord fingerprint tenantId ctx record _) fun _ ↦
    onlyR_pure _

/-- A read of the tables which is answered. -/
theorem of_answer_query {r : FileRequest} {a x : r.Value} (hquery : s.perform recordEtag c r = s.query a)
    (h : s.answer recordEtag c r = (.ok x, t)) : c.raises = none ∧ x = a := by
  rcases s.answer_cases recordEtag c r with ⟨e, he⟩ | ⟨y, s', hperform, hdone⟩
  · have herror := congrArg Prod.fst (he.symm.trans h)
    cases herror
  · obtain ⟨rfl, -⟩ := Store.query_eq_ok (hquery.symm.trans hperform)
    rcases hdone with ⟨hraises, hdone⟩ | ⟨e, -, -, hdone⟩
    · exact ⟨hraises, (Except.ok.inj (congrArg Prod.fst (hdone.symm.trans h))).symm⟩
    · have herror := congrArg Prod.fst (hdone.symm.trans h)
      cases herror

/-- The record which a reference names is a row of the space. -/
structure StoredAs (s : Store) (spaceId : Uuid) (record : StoredFile) : Prop where
  row : s.db.files.lookup record.id = some record.file
  space : record.file.storageSpaceId = spaceId

theorem storedAs_of_readable {id : Uuid} {f : FileObject}
    (hrow : s.db.files.lookup id = some f) (hreadable : s.readable spaceId f = true) :
    StoredAs s spaceId (s.stored id f) := by
  refine ⟨hrow, ?_⟩
  unfold Store.readable at hreadable
  simp only [Bool.and_eq_true, decide_eq_true_eq] at hreadable
  exact hreadable.1.1.1

theorem found_storedAs
    (h : (outcome recordEtag c (FileService.resolveFileReference spaceId reference) s).1 =
      .ok (record, byRef)) : c.raises = none ∧ StoredAs s spaceId record := by
  have hplay := outcome_eq_ok (looking_resolveFileReference spaceId reference) h
  cases reference with
  | malformed => cases hplay
  | fileId id =>
      obtain ⟨found, u, hfound, hrest⟩ := of_play_bind hplay
      obtain ⟨hquiet, rfl⟩ := of_answer_query rfl hfound
      refine ⟨hquiet, ?_⟩
      cases hrow : s.getFile spaceId id with
      | none =>
          rw [hrow] at hrest
          cases hrest
      | some record' =>
          rw [hrow] at hrest
          obtain ⟨rfl, -⟩ := Prod.mk.inj (Except.ok.inj (congrArg Prod.fst hrest))
          obtain ⟨f, hf, rfl⟩ := Option.map_eq_some_iff.mp hrow
          obtain ⟨hf, hreadable⟩ := Option.filter_eq_some_iff.mp hf
          exact storedAs_of_readable hf hreadable
  | fileRef ref =>
      obtain ⟨found, u, hfound, hrest⟩ := of_play_bind hplay
      obtain ⟨hquiet, rfl⟩ := of_answer_query rfl hfound
      refine ⟨hquiet, ?_⟩
      cases hrow : s.getFileByRef spaceId ref with
      | none =>
          rw [hrow] at hrest
          cases hrest
      | some record' =>
          rw [hrow] at hrest
          obtain ⟨rfl, -⟩ := Prod.mk.inj (Except.ok.inj (congrArg Prod.fst hrest))
          obtain ⟨⟨id, f⟩, hf, rfl⟩ := Option.map_eq_some_iff.mp hrow
          obtain ⟨hf, hreadable⟩ := AList.lookup_of_selectFirst hf
          exact storedAs_of_readable hf (Bool.and_eq_true_iff.mp hreadable).2

/-- A command for a record shows that its space is there and holds its object. -/
theorem space_of_commandForRecord {action : String} {command : AuthorizedFileCommand}
    {stored : StoredKey} (hquiet : c.raises = none)
    (h : (outcome recordEtag c
      (FileService.commandForRecord fingerprint tenantId ctx stored action none .none) s).1 =
        .ok command) :
    ∃ space key, getSpace stored.storageSpaceId s.db = some space ∧
      relativeKeyOf tenantId stored.storageSpaceId space stored.objectKey = .ok key := by
  have hplay := outcome_eq_ok (looking_commandForRecord fingerprint tenantId ctx stored action) h
  obtain ⟨space, u, hspace, hrest⟩ := of_play_bind hplay
  rw [play_resolveSpace recordEtag stored.storageSpaceId s hquiet] at hspace
  cases hget : getSpace stored.storageSpaceId s.db with
  | none =>
      rw [hget] at hspace
      cases hspace
  | some space' =>
      rw [hget] at hspace
      obtain rfl := Except.ok.inj (congrArg Prod.fst hspace)
      refine ⟨space', ?_⟩
      dsimp only at hrest
      split at hrest
      · cases hrest
      · obtain ⟨key, _, hkey, -⟩ := of_play_bind hrest
        rw [play_lift] at hkey
        exact ⟨key, rfl, congrArg Prod.fst hkey⟩

/-! ## What the precondition is to do -/

/-- The transaction which changes the file. -/
def FileRequest.Changes (spaceId fileId : Uuid) : FileRequest → Prop
  | .deleteFile space file _ => space = spaceId ∧ file = fileId
  | .createRenameOperation space data => space = spaceId ∧ data.sourceFileId = fileId
  | _ => False

def etagMismatch : Raised :=
  .api ⟨"etag_mismatch", "The resource has been modified; fetch the latest version and retry", 412⟩

/-- The errors of a precondition, in the service and in the store. -/
def refusals : List String :=
  ["etag_required", "etag_mismatch", "precondition_failed"]

variable (recordEtag c) in
/-- The call goes on to its transaction, which does not refuse the precondition either. -/
structure Passes {α : Type} (spaceId fileId : Uuid) (x : FileService α) (s : Store) : Prop where
  requested : ∃ r ∈ x.run.trace (fun r s ↦ s.answer recordEtag c r) s,
    FileRequest.Changes spaceId fileId r
  notRefused : ∀ e, (outcome recordEtag c x s).1 = .error (.api e) → e.code ∉ refusals

variable (recordEtag c s) in
/-- Another ETag than that of the file is a mismatch and changes nothing, and with its own the
change is made unless something else is against it. -/
def Optimistic {α : Type} (spaceId : Uuid) (record : StoredFile)
    (change : Option String → FileService α) (ifMatch : String) : Prop :=
  (record.file.etag ≠ some ifMatch →
    outcome recordEtag c (change (some ifMatch)) s = (.error etagMismatch, s)) ∧
  (record.file.etag = some ifMatch →
    Passes recordEtag c spaceId record.id (change (some ifMatch)) s)

theorem Passes.of_reaches {α : Type} {fileId : Uuid} {x y : FileService α}
    (hy : Passes recordEtag c spaceId fileId y t)
    (h : Reaches (fun r s ↦ Store.answer s recordEtag c r) x s y t) :
    Passes recordEtag c spaceId fileId x s := by
  obtain ⟨r, hr, hchanges⟩ := hy.requested
  refine ⟨⟨r, h.2 hr, hchanges⟩, ?_⟩
  unfold outcome
  rw [h.1]
  exact hy.notRefused

theorem Passes.bind {α β : Type} {fileId : Uuid} {x : FileService α} {k : α → FileService β} {a : α}
    (hx : outcome recordEtag c x s = (.ok a, t)) (hk : Passes recordEtag c spaceId fileId (k a) t) :
    Passes recordEtag c spaceId fileId (x >>= k) s :=
  hk.of_reaches (reaches_bind hx)

/-- The transaction itself: neither what it raises nor what follows it is a refusal. -/
theorem Passes.call {β : Type} {fileId : Uuid} {r : FileRequest} {k : r.Value → FileService β}
    (hquiet : c.raises = none) (hchanges : FileRequest.Changes spaceId fileId r)
    (herror : ∀ e, s.perform recordEtag c r = .error (.api e) → e.code ∉ refusals)
    (hk : ∀ a t e, (outcome recordEtag c (k a) t).1 = .error (.api e) → e.code ∉ refusals) :
    Passes recordEtag c spaceId fileId (FileService.call r >>= k) s := by
  constructor
  · exact ⟨r, List.mem_cons_self, hchanges⟩
  · intro e he
    have hanswer : outcome recordEtag c (FileService.call r) s = s.answer recordEtag c r := rfl
    rw [Store.answer, hquiet] at hanswer
    cases hperform : s.perform recordEtag c r with
    | error raised =>
        rw [hperform] at hanswer
        have hraised := congrArg Prod.fst (play_bind_error (k := k) hanswer)
        obtain rfl := Except.error.inj (hraised.symm.trans he)
        exact herror e hperform
    | ok out =>
        rw [hperform] at hanswer
        refine hk out.1 out.2 e ?_
        rwa [outcome, play_bind_ok hanswer] at he

end Outcome

/-! ## The preconditions of the store -/

section Store

variable {db : Db} {s : Store} {spaceId fileId : Uuid} {f : FileObject} {e : ApiError}

/-- A part of a transaction which only the database may refuse. -/
def Unanswered {α : Type} (x : Tx α) : Prop :=
  ∀ e, x ≠ .error (.api e)

theorem Unanswered.bind {α β : Type} {x : Tx α} {k : α → Tx β} (hx : Unanswered x)
    (hk : ∀ a, Unanswered (k a)) : Unanswered (x >>= k) := by
  cases x with
  | error e =>
      rintro e' ⟨⟩
      exact hx e' rfl
  | ok a => exact hk a

theorem unanswered_insertRow {α : Type} (constraint : String) (id : Uuid) (row : α)
    (t : Table Uuid α) : Unanswered (insertRow constraint id row t) := by
  intro e h
  unfold insertRow at h
  split at h
  · cases h
  · cases h

theorem unanswered_insertFile (id : Uuid) (f : FileObject) (files : Table Uuid FileObject) :
    Unanswered (insertFile id f files) := by
  intro e h
  unfold insertFile at h
  split at h
  · cases h
  · exact unanswered_insertRow _ _ _ _ e h

theorem deleteFile_notRefused {now : Timestamp} {deletionId : Uuid} {data : DeleteData}
    {ifMatch : String} (hrow : db.files.lookup fileId = some f) (hetag : f.etag = some ifMatch)
    (hmatch : data.ifMatch = some ifMatch)
    (h : deleteFile now deletionId spaceId fileId data db = .error (.api e)) :
    e.code ∉ refusals := by
  have hvalid : validateDeleteEtag f.etag data.ifMatch data.isFileRef = .ok () := by
    rw [hetag, hmatch]
    unfold validateDeleteEtag
    split
    · rfl
    · exact if_neg fun hne ↦ hne rfl
  unfold deleteFile at h
  rw [hrow] at h
  dsimp only at h
  split at h
  · cases h
  split at h
  · cases h
  split at h
  · cases h
  split at h
  · cases h
    decide
  · rw [hvalid] at h
    change (if _ then _ else _) = _ at h
    split at h
    · cases h
    · refine absurd h (Unanswered.bind (unanswered_insertRow _ _ _ _) (fun _ ↦ ?_) e)
      exact fun _ h ↦ by cases h

theorem createRenameOperation_notRefused {ids : OperationIds} {data : RenameData} {ifMatch : String}
    (hrow : db.files.lookup data.sourceFileId = some f) (hetag : f.etag = some ifMatch)
    (hmatch : data.ifMatch = some ifMatch)
    (h : createRenameOperation ids spaceId data db = .error (.api e)) : e.code ∉ refusals := by
  unfold createRenameOperation at h
  rw [hrow] at h
  dsimp only at h
  split at h
  · cases h
    decide
  split at h
  · rename_i hdiffers
    rw [hmatch, hetag] at hdiffers
    exact absurd hdiffers (by simp)
  split at h
  · split at h
    · cases h
    · cases h
      decide
  split at h
  · cases h
    decide
  split at h
  · cases h
    decide
  split at h
  · cases h
    decide
  · refine absurd h (Unanswered.bind (unanswered_insertFile _ _ _) (fun files ↦ ?_) e)
    refine Unanswered.bind (unanswered_insertRow _ _ _ _) fun operations ↦ ?_
    refine Unanswered.bind (Unanswered.bind (unanswered_insertRow _ _ _ _) fun outbox ↦ ?_)
      fun db ↦ ?_
    · exact fun _ h ↦ by cases h
    · exact fun _ h ↦ by cases h

/-- What a transaction raises for the client is raised by its statements. -/
theorem of_transact_eq_error {α β : Type} {out : Tx (α × Db)} {k : α → Store → Except Raised β}
    (hk : ∀ a s, k a s ≠ .error (.api e)) (h : s.transact out k = .error (.api e)) :
    out = .error (.api e) := by
  cases out with
  | error raised =>
      cases raised with
      | api error =>
          obtain rfl := Raised.api.inj (Except.error.inj h)
          rfl
      | integrity constraint => cases h
      | value message => cases h
  | ok written =>
      change (k written.1 (s.put written.2)).map _ = _ at h
      cases hout : k written.1 (s.put written.2) with
      | error raised =>
          rw [hout] at h
          obtain rfl := Except.error.inj h
          exact absurd hout (hk _ _)
      | ok b =>
          rw [hout] at h
          cases h

variable {recordEtag : Uuid → ℕ → String} {c : ServiceChoice} {ifMatch : String}

theorem perform_deleteFile_notRefused {data : DeleteData}
    (hrow : s.db.files.lookup fileId = some f) (hetag : f.etag = some ifMatch)
    (hmatch : data.ifMatch = some ifMatch)
    (h : s.perform recordEtag c (.deleteFile spaceId fileId data) = .error (.api e)) :
    e.code ∉ refusals := by
  have htransact : s.transact (deleteFile c.now c.deletion spaceId fileId data s.db)
      (fun f _ ↦ .ok f) = .error (.api e) := h
  refine deleteFile_notRefused hrow hetag hmatch (of_transact_eq_error (fun _ _ hok ↦ ?_) htransact)
  cases hok

theorem perform_createRenameOperation_notRefused {data : RenameData}
    (hrow : s.db.files.lookup data.sourceFileId = some f) (hetag : f.etag = some ifMatch)
    (hmatch : data.ifMatch = some ifMatch)
    (h : s.perform recordEtag c (.createRenameOperation spaceId data) = .error (.api e)) :
    e.code ∉ refusals := by
  have htransact : s.transact (createRenameOperation c.operation spaceId data s.db)
      (fun _ s ↦ Store.written (s.replayRenameOperation data.applicationId data.idempotencyKey)) =
        .error (.api e) := h
  refine createRenameOperation_notRefused hrow hetag hmatch
    (of_transact_eq_error (fun _ s hwritten ↦ ?_) htransact)
  cases hreplay : s.replayRenameOperation data.applicationId data.idempotencyKey with
  | none =>
      rw [hreplay] at hwritten
      cases hwritten
  | some result =>
      rw [hreplay] at hwritten
      cases hwritten

end Store

/-! ## Deletion -/

section Deletion

variable {recordEtag : Uuid → ℕ → String} {c : ServiceChoice}
  {fingerprint : FingerprintPayload → String} {tenantId : Uuid} {ctx : PrincipalContext}
  {spaceId : Uuid} {reference : Reference} {s : Store} {record : StoredFile} {byRef : Bool}
  {ifMatch : String}

variable (recordEtag c fingerprint tenantId ctx spaceId reference s record byRef) in
/-- The reference names a file, and the caller may delete it. -/
structure Deletable : Prop where
  found : (outcome recordEtag c (FileService.resolveFileReference spaceId reference) s).1 =
    .ok (record, byRef)
  allowed : ∃ command, (outcome recordEtag c (FileService.commandForRecord fingerprint tenantId ctx
    record.file.stored "files.delete" none .none) s).1 = .ok command

theorem Deletable.play_found
    (h : Deletable recordEtag c fingerprint tenantId ctx spaceId reference s record byRef) :
    outcome recordEtag c (FileService.resolveFileReference spaceId reference) s =
      (.ok (record, byRef), s) :=
  outcome_eq_ok (looking_resolveFileReference spaceId reference) h.found

theorem Deletable.play_command
    (h : Deletable recordEtag c fingerprint tenantId ctx spaceId reference s record byRef)
    (key : Option String) (semantics : Semantics) :
    ∃ command, outcome recordEtag c (FileService.commandForRecord fingerprint tenantId ctx
      record.file.stored "files.delete" key semantics) s = (.ok command, s) := by
  obtain ⟨command, hcommand⟩ := h.allowed
  have hplay := outcome_eq_ok
    (looking_commandForRecord fingerprint tenantId ctx record.file.stored _) hcommand
  refine ⟨stamped fingerprint ctx key semantics command, ?_⟩
  unfold outcome at hplay ⊢
  rw [play_commandForRecord_stamped, hplay]
  rfl

/-- The function which would check the mismatching header is not there. -/
theorem Deletable.outcome_mismatch
    (h : Deletable recordEtag c fingerprint tenantId ctx spaceId reference s record byRef)
    (key : Option String) (hetag : record.file.etag ≠ some ifMatch) :
    outcome recordEtag c (FileService.deleteFile fingerprint tenantId ctx spaceId reference key
      (some ifMatch)) s = (.error FileService.unboundLocal, s) := by
  obtain ⟨command, hcommand⟩ := h.play_command key (.ifMatch (some ifMatch))
  have hthrow : FileService.deletePrecondition record.file.etag byRef (some ifMatch) =
      throw FileService.unboundLocal := if_pos hetag
  refine (play_bind_ok h.play_found).trans ((play_bind_ok hcommand).trans ?_)
  refine play_bind_error ?_
  rw [hthrow]
  rfl

theorem Deletable.passes
    (h : Deletable recordEtag c fingerprint tenantId ctx spaceId reference s record byRef)
    (key : Option String) (hetag : record.file.etag = some ifMatch) :
    Passes recordEtag c spaceId record.id (FileService.deleteFile fingerprint tenantId ctx spaceId
      reference key (some ifMatch)) s := by
  obtain ⟨hquiet, hstored⟩ := found_storedAs h.found
  obtain ⟨command, hcommand⟩ := h.play_command key (.ifMatch (some ifMatch))
  obtain ⟨_, hallowed⟩ := h.allowed
  obtain ⟨space, relativeKey, hspace, hkey⟩ := space_of_commandForRecord hquiet hallowed
  obtain rfl := hstored.space
  have hreached : FileService.deletePrecondition record.file.etag byRef (some ifMatch) = pure () :=
    if_neg (not_not.mpr hetag)
  have hresolve := play_resolveSpace recordEtag record.file.storageSpaceId s hquiet
  rw [show getSpace record.file.storageSpaceId s.db = some space from hspace] at hresolve
  refine Passes.bind h.play_found (Passes.bind hcommand ?_)
  rw [hreached]
  refine Passes.bind (t := s) (a := ()) rfl (Passes.bind hresolve ?_)
  refine Passes.bind ((play_lift _).trans (congrArg (·, s) hkey)) ?_
  refine Passes.bind (play_call_of_perform hquiet (r := FileRequest.read .now) rfl) ?_
  refine Passes.call hquiet ⟨rfl, rfl⟩
    (fun e ↦ perform_deleteFile_notRefused hstored.row hetag rfl) fun deleted t e he ↦ ?_
  cases deleted with
  | none =>
      cases he
      decide
  | some deleted => cases he

theorem Deletable.optimistic_iff
    (h : Deletable recordEtag c fingerprint tenantId ctx spaceId reference s record byRef)
    (key : Option String) :
    Optimistic recordEtag c s spaceId record
        (FileService.deleteFile fingerprint tenantId ctx spaceId reference key) ifMatch ↔
      record.file.etag = some ifMatch := by
  refine ⟨fun hoptimistic ↦ ?_, fun hetag ↦ ⟨absurd hetag, h.passes key⟩⟩
  by_contra hne
  have herror := (hoptimistic.1 hne).symm.trans (h.outcome_mismatch key hne)
  cases congrArg Prod.fst herror

/-- Where the precondition is not reached, all headers are alike. -/
theorem outcome_deleteFile_congr (key : Option String) (ifMatch ifMatch' : String)
    (h : ∀ record byRef,
      ¬ Deletable recordEtag c fingerprint tenantId ctx spaceId reference s record byRef) :
    outcome recordEtag c (FileService.deleteFile fingerprint tenantId ctx spaceId reference key
        (some ifMatch)) s =
      outcome recordEtag c (FileService.deleteFile fingerprint tenantId ctx spaceId reference key
        (some ifMatch')) s := by
  refine play_bind_congr fun (record, byRef) t hfound ↦ ?_
  have hfst := congrArg Prod.fst hfound
  obtain rfl : t = s := (congrArg Prod.snd hfound).symm.trans
    (outcome_looking (looking_resolveFileReference spaceId reference) s)
  dsimp only
  cases hcommand : outcome recordEtag c (FileService.commandForRecord fingerprint tenantId ctx
      record.file.stored "files.delete" none .none) t with
  | mk out u =>
      cases out with
      | ok command => exact absurd ⟨hfst, command, congrArg Prod.fst hcommand⟩ (h record byRef)
      | error e =>
          unfold outcome at hcommand
          have herror : ∀ semantics, outcome recordEtag c (FileService.commandForRecord fingerprint
              tenantId ctx record.file.stored "files.delete" key semantics) t = (.error e, u) := by
            intro semantics
            unfold outcome
            rw [play_commandForRecord_stamped, hcommand]
            rfl
          exact (play_bind_error (herror _)).trans (play_bind_error (herror _)).symm

end Deletion

/-! ## Rename -/

section Rename

variable {recordEtag : Uuid → ℕ → String} {c : ServiceChoice}
  {fingerprint : FingerprintPayload → String} {renameFingerprint : RenamePayload → String}
  {tenantId : Uuid} {ctx : PrincipalContext} {spaceId : Uuid} {fileId : String}
  {reference : Reference} {objectKey idempotencyKey : String} {s : Store} {applicationId : Uuid}
  {record : StoredFile} {byRef : Bool} {ifMatch : String}
  {destination : AuthorizedFileCommand} {source : FileService.SourceCommands}

variable (recordEtag c fingerprint tenantId ctx spaceId fileId reference objectKey idempotencyKey s
  record byRef) in
/-- An application may rename the file which the reference names, to another key. -/
structure Renamable : Prop where
  application : ctx.subjectKind = .application
  found : (outcome recordEtag c (FileService.resolveFileReference spaceId reference) s).1 =
    .ok (record, byRef)
  allowed : ∃ applicationId destination source, ctx.applicationId = some applicationId ∧
    (outcome recordEtag c (FileService.inputCommand fingerprint tenantId ctx spaceId objectKey
      "files.write" (some idempotencyKey) (.rename fileId)) s).1 = .ok destination ∧
    (outcome recordEtag c (FileService.sourceCommands fingerprint tenantId ctx record.file.stored)
      s).1 = .ok source ∧
    source.read.relativeKey ≠ destination.relativeKey

theorem relativeKeyOf_notRefused {space : StorageSpace} {physicalKey : String} {e : ApiError}
    (h : relativeKeyOf tenantId spaceId space physicalKey = .error (.api e)) :
    e.code ∉ refusals := by
  unfold relativeKeyOf physicalKeyOf at h
  cases htarget : deriveProviderTarget tenantId spaceId space "" with
  | none =>
      rw [htarget] at h
      cases h
  | some target =>
      rw [htarget] at h
      dsimp only [bind, Except.bind] at h
      split at h
      · cases h
        decide
      · cases h

/-- The part of a rename which begins with its precondition. -/
def acceptRename (renameFingerprint : RenamePayload → String) (tenantId : Uuid)
    (ctx : PrincipalContext) (spaceId applicationId : Uuid) (record : StoredFile)
    (source : FileService.SourceCommands) (destination : AuthorizedFileCommand) (ifMatch : String)
    (idempotencyKey : String) : FileService Renamed := do
  FileService.renamePrecondition record.file.etag (some ifMatch)
  let space ← FileService.resolveSpace spaceId
  let result ← FileService.call (.createRenameOperation spaceId
    (FileService.renameData renameFingerprint ctx applicationId record source.read destination space
      (some ifMatch) idempotencyKey))
  match result.resultFile with
  | none => throw (.other "rename operation is missing its result file")
  | some file => FileService.publicRename tenantId spaceId space result file

theorem Renamable.reaches (renameFingerprint : RenamePayload → String)
    (h : Renamable recordEtag c fingerprint tenantId ctx spaceId fileId reference objectKey
      idempotencyKey s record byRef) :
    ∃ applicationId destination source, outcome recordEtag c
        (FileService.sourceCommands fingerprint tenantId ctx record.file.stored) s =
          (.ok source, s) ∧
      ∀ ifMatch, Reaches (fun r s ↦ Store.answer s recordEtag c r)
        (FileService.renameFile fingerprint renameFingerprint tenantId ctx spaceId fileId reference
          objectKey (some ifMatch) idempotencyKey) s
        (acceptRename renameFingerprint tenantId ctx spaceId applicationId record source destination
          ifMatch idempotencyKey) s := by
  obtain ⟨applicationId, destination, source, hid, hdestination, hsource, hmoved⟩ := h.allowed
  have hdestination := outcome_eq_ok (looking_inputCommand ..) hdestination
  have hsource := outcome_eq_ok (looking_sourceCommands ..) hsource
  have hfound := outcome_eq_ok (looking_resolveFileReference ..) h.found
  refine ⟨applicationId, destination, source, hsource, fun ifMatch ↦ ?_⟩
  have hresolved : outcome recordEtag c (tryCatch
      (do return Except.ok (← FileService.resolveFileReference spaceId reference))
        fun raised ↦ return .error raised) s = (.ok (.ok (record, byRef)), s) := by
    refine (play_attempt _ s).trans ?_
    unfold outcome at hfound
    rw [hfound]
  have hrecord : Reaches (fun r s ↦ Store.answer s recordEtag c r)
      (FileService.renameRecord fingerprint renameFingerprint tenantId ctx spaceId applicationId
        record byRef destination (some ifMatch) idempotencyKey) s
      (acceptRename renameFingerprint tenantId ctx spaceId applicationId record source destination
        ifMatch idempotencyKey) s := by
    unfold FileService.renameRecord
    rw [if_neg (by simp)]
    refine (reaches_bind hsource).trans ?_
    rw [if_neg hmoved]
    exact ⟨rfl, List.Subset.refl _⟩
  unfold FileService.renameFile
  rw [h.application, hid]
  exact (reaches_bind hdestination).trans ((reaches_bind hresolved).trans hrecord)

/-- An empty header is taken for a missing one. -/
def renameRefusal (ifMatch : String) : Raised :=
  if ifMatch = "" then
    .api ⟨"etag_required", "If-Match header is required for this operation", 428⟩
  else etagMismatch

theorem renamePrecondition_of_ne {etag : Option String} (hetag : etag ≠ some ifMatch) :
    FileService.renamePrecondition etag (some ifMatch) = throw (renameRefusal ifMatch) := by
  refine (if_pos hetag).trans ?_
  unfold renameRefusal
  by_cases hempty : ifMatch = ""
  · rw [if_pos hempty, hempty]
    rfl
  · have hgiven : requireIfMatch (some ifMatch) = .ok () := by
      unfold requireIfMatch truthy
      rw [Option.filter_some, if_pos (by simpa using hempty)]
    have hchecked : checkEtag (etag.getD "") ifMatch = raise "etag_mismatch"
        "The resource has been modified; fetch the latest version and retry" 412 := by
      refine if_pos fun heq ↦ ?_
      cases etag with
      | none => exact hempty heq.symm
      | some etag => exact hetag (congrArg some heq)
    rw [if_neg hempty]
    unfold FileService.requireIfMatch FileService.checkEtag
    rw [hgiven, hchecked]
    rfl

theorem Renamable.outcome_mismatch (renameFingerprint : RenamePayload → String)
    (h : Renamable recordEtag c fingerprint tenantId ctx spaceId fileId reference objectKey
      idempotencyKey s record byRef) (hetag : record.file.etag ≠ some ifMatch) :
    outcome recordEtag c (FileService.renameFile fingerprint renameFingerprint tenantId ctx spaceId
      fileId reference objectKey (some ifMatch) idempotencyKey) s =
        (.error (renameRefusal ifMatch), s) := by
  obtain ⟨applicationId, destination, source, -, hreaches⟩ := h.reaches renameFingerprint
  refine (hreaches ifMatch).1.trans (play_bind_error ?_)
  rw [renamePrecondition_of_ne hetag]
  rfl

theorem Renamable.passes (renameFingerprint : RenamePayload → String)
    (h : Renamable recordEtag c fingerprint tenantId ctx spaceId fileId reference objectKey
      idempotencyKey s record byRef) (hetag : record.file.etag = some ifMatch) :
    Passes recordEtag c spaceId record.id (FileService.renameFile fingerprint renameFingerprint
      tenantId ctx spaceId fileId reference objectKey (some ifMatch) idempotencyKey) s := by
  obtain ⟨hquiet, hstored⟩ := found_storedAs h.found
  obtain ⟨applicationId, destination, source, hsource, hreaches⟩ := h.reaches renameFingerprint
  refine Passes.of_reaches ?_ (hreaches ifMatch)
  obtain ⟨read, t, hread, -⟩ := of_play_bind hsource
  obtain ⟨space, _, hspace, -⟩ := space_of_commandForRecord hquiet (congrArg Prod.fst hread)
  obtain rfl := hstored.space
  have hresolve := play_resolveSpace recordEtag record.file.storageSpaceId s hquiet
  rw [show getSpace record.file.storageSpaceId s.db = some space from hspace] at hresolve
  have hmatched : FileService.renamePrecondition record.file.etag (some ifMatch) = pure () :=
    if_neg (not_not.mpr hetag)
  unfold acceptRename
  rw [hmatched]
  refine Passes.bind (t := s) (a := ()) rfl (Passes.bind hresolve ?_)
  refine Passes.call hquiet ⟨rfl, rfl⟩
    (fun e ↦ perform_createRenameOperation_notRefused hstored.row hetag rfl) fun result t e he ↦ ?_
  split at he
  · cases he
  · rename_i file _
    cases hkey : relativeKeyOf tenantId record.file.storageSpaceId space file.2.objectKey with
    | error raised =>
        have hpresent : (FileService.present tenantId record.file.storageSpaceId space file.1
            file.2.objectKey file.2).run.play (fun r s ↦ Store.answer s recordEtag c r) t =
              (.error raised, t) :=
          play_bind_error ((play_lift _).trans (congrArg (·, t) hkey))
        have hraised := congrArg Prod.fst (play_bind_error (k := fun file ↦
          (pure ⟨result.id, result.operation, file⟩ : FileService Renamed)) hpresent)
        obtain rfl := Except.error.inj (hraised.symm.trans he)
        exact relativeKeyOf_notRefused hkey
    | ok key =>
        have hpresent : (FileService.present tenantId record.file.storageSpaceId space file.1
            file.2.objectKey file.2).run.play (fun r s ↦ Store.answer s recordEtag c r) t =
              (.ok ⟨file.1, key, file.2⟩, t) :=
          play_bind_ok ((play_lift _).trans (congrArg (·, t) hkey))
        have hreturned := congrArg Prod.fst (play_bind_ok (k := fun file ↦
          (pure ⟨result.id, result.operation, file⟩ : FileService Renamed)) hpresent)
        cases hreturned.symm.trans he

theorem Renamable.optimistic_iff (renameFingerprint : RenamePayload → String)
    (h : Renamable recordEtag c fingerprint tenantId ctx spaceId fileId reference objectKey
      idempotencyKey s record byRef) :
    Optimistic recordEtag c s spaceId record (fun ifMatch ↦ FileService.renameFile fingerprint
        renameFingerprint tenantId ctx spaceId fileId reference objectKey ifMatch idempotencyKey)
        ifMatch ↔
      record.file.etag = some ifMatch ∨ ifMatch ≠ "" := by
  constructor
  · intro hoptimistic
    by_contra hneither
    obtain ⟨hne, hempty⟩ := not_or.mp hneither
    have herror := (hoptimistic.1 hne).symm.trans (h.outcome_mismatch renameFingerprint hne)
    rw [renameRefusal, if_pos (not_not.mp hempty)] at herror
    exact absurd (Raised.api.inj (Except.error.inj (congrArg Prod.fst herror))) (by decide)
  · intro hgiven
    refine ⟨fun hne ↦ ?_, h.passes renameFingerprint⟩
    refine (h.outcome_mismatch renameFingerprint hne).trans ?_
    rw [renameRefusal, if_neg (hgiven.resolve_left hne)]

/-- Where the precondition is not reached, all headers are alike; so it is for the replay. -/
theorem outcome_renameFile_congr (ifMatch ifMatch' : String)
    (h : ∀ record byRef, ¬ Renamable recordEtag c fingerprint tenantId ctx spaceId fileId reference
      objectKey idempotencyKey s record byRef) :
    outcome recordEtag c (FileService.renameFile fingerprint renameFingerprint tenantId ctx spaceId
        fileId reference objectKey (some ifMatch) idempotencyKey) s =
      outcome recordEtag c (FileService.renameFile fingerprint renameFingerprint tenantId ctx spaceId
        fileId reference objectKey (some ifMatch') idempotencyKey) s := by
  unfold FileService.renameFile
  split
  · rename_i applicationId happlication hid
    refine play_bind_congr fun destination t hdestination ↦ ?_
    obtain rfl : t = s := (congrArg Prod.snd hdestination).symm.trans
      (outcome_looking (looking_inputCommand ..) s)
    refine play_bind_congr fun resolved u hresolved ↦ ?_
    cases resolved with
    | error raised =>
        cases raised with
        | api error => rfl
        | other text => rfl
    | ok found =>
        obtain ⟨record, byRef⟩ := found
        dsimp only
        obtain ⟨hout, hleft⟩ := Prod.mk.inj ((play_attempt _ _).symm.trans hresolved)
        have hfound : outcome recordEtag c (FileService.resolveFileReference spaceId reference) t =
            (.ok (record, byRef), u) := Prod.ext (Except.ok.inj hout) hleft
        obtain rfl : u = t := (congrArg Prod.snd hfound).symm.trans
          (outcome_looking (looking_resolveFileReference ..) t)
        unfold FileService.renameRecord
        rw [if_neg (by simp), if_neg (by simp)]
        refine play_bind_congr fun source v hsource ↦ ?_
        by_cases hsame : source.read.relativeKey = destination.relativeKey
        · rw [if_pos hsame, if_pos hsame]
          rfl
        · refine absurd ⟨happlication, congrArg Prod.fst hfound, applicationId, destination, source,
            hid, ?_, congrArg Prod.fst hsource, hsame⟩ (h record byRef)
          exact congrArg Prod.fst hdestination
  · rfl

end Rename

/-- A deletion honours its header only if that is the ETag of the file, and a rename unless it is
another one and empty.  Where the precondition is not reached the header makes no difference. -/
theorem change_preconditions_iff (recordEtag : Uuid → ℕ → String) (c : ServiceChoice)
    (fingerprint : FingerprintPayload → String) (renameFingerprint : RenamePayload → String)
    (tenantId : Uuid) (ctx : PrincipalContext) (spaceId : Uuid) (fileId : String)
    (reference : Reference) (key : Option String) (objectKey idempotencyKey ifMatch : String)
    (s : Store) :
    (∀ record byRef,
      Deletable recordEtag c fingerprint tenantId ctx spaceId reference s record byRef →
        (Optimistic recordEtag c s spaceId record
            (FileService.deleteFile fingerprint tenantId ctx spaceId reference key) ifMatch ↔
          record.file.etag = some ifMatch)) ∧
    ((∀ record byRef,
      ¬ Deletable recordEtag c fingerprint tenantId ctx spaceId reference s record byRef) →
      ∀ ifMatch', outcome recordEtag c (FileService.deleteFile fingerprint tenantId ctx spaceId
          reference key (some ifMatch)) s =
        outcome recordEtag c (FileService.deleteFile fingerprint tenantId ctx spaceId reference key
          (some ifMatch')) s) ∧
    (∀ record byRef, Renamable recordEtag c fingerprint tenantId ctx spaceId fileId reference
      objectKey idempotencyKey s record byRef →
        (Optimistic recordEtag c s spaceId record (fun ifMatch ↦ FileService.renameFile fingerprint
            renameFingerprint tenantId ctx spaceId fileId reference objectKey ifMatch
            idempotencyKey) ifMatch ↔
          record.file.etag = some ifMatch ∨ ifMatch ≠ "")) ∧
    ((∀ record byRef, ¬ Renamable recordEtag c fingerprint tenantId ctx spaceId fileId reference
      objectKey idempotencyKey s record byRef) →
      ∀ ifMatch', outcome recordEtag c (FileService.renameFile fingerprint renameFingerprint tenantId
          ctx spaceId fileId reference objectKey (some ifMatch) idempotencyKey) s =
        outcome recordEtag c (FileService.renameFile fingerprint renameFingerprint tenantId
          ctx spaceId fileId reference objectKey (some ifMatch') idempotencyKey) s) :=
  ⟨fun _ _ h ↦ h.optimistic_iff key, fun h _ ↦ outcome_deleteFile_congr key _ _ h,
    fun _ _ h ↦ h.optimistic_iff renameFingerprint, fun h _ ↦ outcome_renameFile_congr _ _ h⟩

namespace Sample

theorem changer_wellFormed : (forApplication 6 1 (some 5) (some 7)
    (some ["files.read", "files.write", "files.delete", "files.move"]) none).WellFormed := by
  decide

def changer : PrincipalContext :=
  ⟨forApplication 6 1 (some 5) (some 7)
    (some ["files.read", "files.write", "files.delete", "files.move"]) none, changer_wellFormed⟩

def changes : ServiceChoice :=
  quietly (["files.read", "files.write", "files.delete", "files.move"].map fun action ↦
    ⟨60, action, .allow, none, 0, 1000, "binding", none⟩)

theorem shared_found : (shared.getFile 2 30).isSome = true := by
  decide

/-- Its ETag is `etag`. -/
def sharedFile : StoredFile :=
  (shared.getFile 2 30).get shared_found

theorem found_sharedFile :
    (outcome (fun _ _ ↦ "") changes (FileService.resolveFileReference 2 (.fileId 30)) shared).1 =
      .ok (sharedFile, false) := by
  decide +kernel

theorem returns_of_isOk {α : Type} {x : Except Raised α} (h : x.isOk = true) : ∃ a, x = .ok a := by
  cases x with
  | ok a => exact ⟨a, rfl⟩
  | error e => cases h

theorem deletable_sharedFile :
    Deletable (fun _ _ ↦ "") changes (fun _ ↦ "") 1 changer 2 (.fileId 30) shared sharedFile
      false :=
  ⟨found_sharedFile, returns_of_isOk (by decide +kernel)⟩

theorem renamable_sharedFile :
    Renamable (fun _ _ ↦ "") changes (fun _ ↦ "") 1 changer 2 "30" (.fileId 30) "team/b" "k" shared
      sharedFile false := by
  refine ⟨rfl, found_sharedFile, 5, ?_⟩
  obtain ⟨destination, hdestination⟩ := returns_of_isOk (x := (outcome (fun _ _ ↦ "") changes
    (FileService.inputCommand (fun _ ↦ "") 1 changer 2 "team/b" "files.write" (some "k")
      (.rename "30")) shared).1) (by decide +kernel)
  obtain ⟨source, hsource⟩ := returns_of_isOk (x := (outcome (fun _ _ ↦ "") changes
    (FileService.sourceCommands (fun _ ↦ "") 1 changer sharedFile.file.stored) shared).1)
      (by decide +kernel)
  refine ⟨destination, source, rfl, hdestination, hsource, ?_⟩
  have hto := congrArg (Except.map (·.relativeKey)) hdestination
  have hfrom := congrArg (Except.map (·.read.relativeKey)) hsource
  have hto' : (outcome (fun _ _ ↦ "") changes (FileService.inputCommand (fun _ ↦ "") 1 changer 2
      "team/b" "files.write" (some "k") (.rename "30")) shared).1.map (·.relativeKey) =
        .ok "team/b" := by
    decide +kernel
  have hfrom' : (outcome (fun _ _ ↦ "") changes (FileService.sourceCommands (fun _ ↦ "") 1 changer
      sharedFile.file.stored) shared).1.map (·.read.relativeKey) = .ok "team/private/a" := by
    decide +kernel
  have hkeys : destination.relativeKey = "team/b" ∧ source.read.relativeKey = "team/private/a" :=
    ⟨Except.ok.inj (hto.symm.trans hto'), Except.ok.inj (hfrom.symm.trans hfrom')⟩
  rw [hkeys.1, hkeys.2]
  decide

end Sample

theorem change_preconditions_of_shared :
    (Optimistic (fun _ _ ↦ "") Sample.changes Sample.shared 2 Sample.sharedFile
        (FileService.deleteFile (fun _ ↦ "") 1 Sample.changer 2 (.fileId 30) none) "stale" ↔
      Sample.sharedFile.file.etag = some "stale") ∧
    (Optimistic (fun _ _ ↦ "") Sample.changes Sample.shared 2 Sample.sharedFile
        (fun ifMatch ↦ FileService.renameFile (fun _ ↦ "") (fun _ ↦ "") 1 Sample.changer 2 "30"
          (.fileId 30) "team/b" ifMatch "k") "stale" ↔
      Sample.sharedFile.file.etag = some "stale" ∨ "stale" ≠ "") ∧
    outcome (fun _ _ ↦ "") Sample.changes (FileService.deleteFile (fun _ ↦ "") 1 Sample.changer 2
        .malformed none (some "stale")) Sample.shared =
      outcome (fun _ _ ↦ "") Sample.changes (FileService.deleteFile (fun _ ↦ "") 1 Sample.changer 2
        .malformed none (some "etag")) Sample.shared := by
  have hshared := change_preconditions_iff (fun _ _ ↦ "") Sample.changes (fun _ ↦ "") (fun _ ↦ "") 1
    Sample.changer 2 "30" (.fileId 30) none "team/b" "k" "stale" Sample.shared
  have hmalformed := change_preconditions_iff (fun _ _ ↦ "") Sample.changes (fun _ ↦ "")
    (fun _ ↦ "") 1 Sample.changer 2 "30" .malformed none "team/b" "k" "stale" Sample.shared
  refine ⟨hshared.1 _ _ Sample.deletable_sharedFile, hshared.2.2.1 _ _ Sample.renamable_sharedFile,
    hmalformed.2.1 (fun _ _ h ↦ ?_) "etag"⟩
  cases h.found

/-- A stale header makes a deletion fail on an unbound name. -/
theorem stale_deletion_unbound : ¬ ∀ (recordEtag : Uuid → ℕ → String) (c : ServiceChoice)
    (fingerprint : FingerprintPayload → String) (tenantId : Uuid) (ctx : PrincipalContext)
    (spaceId : Uuid) (reference : Reference) (key : Option String) (ifMatch : String) (s : Store)
    (record : StoredFile) (byRef : Bool),
    Deletable recordEtag c fingerprint tenantId ctx spaceId reference s record byRef →
      Optimistic recordEtag c s spaceId record
        (FileService.deleteFile fingerprint tenantId ctx spaceId reference key) ifMatch := by
  intro h
  have hoptimistic := h (fun _ _ ↦ "") Sample.changes (fun _ ↦ "") 1 Sample.changer 2 (.fileId 30) none
    "stale" Sample.shared Sample.sharedFile false Sample.deletable_sharedFile
  have hetag := (Sample.deletable_sharedFile.optimistic_iff none).mp hoptimistic
  revert hetag
  decide

end S3mp
