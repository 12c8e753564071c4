import S3mp.Common.Sequencing
import S3mp.Files.Keys
import S3mp.Files.ServiceWorld
import S3mp.Transition.Play

/-!
# Listing a directory

A listing asks the evaluator about the requested directory and then selects rows by
their keys.  The evaluator is not asked about the files.
-/

namespace S3mp

open Relational Authorization Identity Encoding Storage Files Transition

namespace Files.FileService

variable (fingerprint : FingerprintPayload → String) (tenantId : Uuid) (ctx : PrincipalContext)

def listFiles (spaceId : Uuid) (pre : String) (status : FileStatus) :
    FileService (List (Public FileObject)) := do
  let command ← inputCommand fingerprint tenantId ctx spaceId pre "files.list" none .none
  let space ← resolveSpace command.storageSpaceId
  let records ← call (.listFiles command.storageSpaceId command.physicalKey status)
  records.mapM (publicFile tenantId command.storageSpaceId space)

end Files.FileService

/-! ## What a listing returns -/

section

variable {ρ σ ε α β : Type} {Val : ρ → Type} {answer : (r : ρ) → σ → Except ε (Val r) × σ}

/-- A part which leaves the world alone is followed by the rest in the same world. -/
theorem play_bind_eq_ok {x : Raising ε Val α} {k : α → Raising ε Val β} {s : σ} {b : β}
    (hstays : (x.run.play answer s).2 = s) :
    ((x >>= k).run.play answer s).1 = .ok b ↔
      ∃ a, (x.run.play answer s).1 = .ok a ∧ ((k a).run.play answer s).1 = .ok b := by
  cases hplay : x.run.play answer s with
  | mk out t =>
      rw [hplay] at hstays
      dsimp only at hstays ⊢
      subst hstays
      cases out with
      | ok a =>
          rw [play_bind_ok hplay]
          simp
      | error e =>
          rw [play_bind_error hplay]
          simp

/-- A loop whose turns leave the world alone. -/
theorem play_mapM {f : α → Raising ε Val β} {g : α → Except ε β} {s : σ}
    (hf : ∀ a, (f a).run.play answer s = (g a, s)) (as : List α) :
    (as.mapM f).run.play answer s = (as.mapM g, s) := by
  have hloop : ∀ (as : List α) (bs : List β),
      (List.mapM.loop f as bs).run.play answer s = (List.mapM.loop g as bs, s) := by
    intro as
    induction as with
    | nil => exact fun _ ↦ rfl
    | cons a as ih =>
        intro bs
        cases hg : g a with
        | ok b =>
            have hturn := (hf a).trans (by rw [hg])
            refine (play_bind_ok hturn).trans ((ih (b :: bs)).trans ?_)
            simp only [List.mapM.loop, hg]
            rfl
        | error e =>
            have hturn := (hf a).trans (by rw [hg])
            refine (play_bind_error hturn).trans ?_
            simp only [List.mapM.loop, hg]
            rfl
  exact hloop as []

end

variable {fingerprint : FingerprintPayload → String} {tenantId spaceId : Uuid}
  {ctx : PrincipalContext} {space : StorageSpace} {bindings : List Binding} {now : Timestamp}
  {pre directory : String} {status : FileStatus}

theorem authorizeKey_eq_ok {action key : String} :
    authorizeKey ctx action bindings spaceId key now = .ok () ↔
      ¬ (ctx.subjectKind = .application ∧ !(ctx.apiKeyScopes.any (action ∈ ·))) ∧
        Allowed bindings action (some spaceId) key now := by
  unfold authorizeKey
  rw [Allowed, evaluateAt_some]
  split
  · rename_i hscope
    exact iff_of_false (by simp [apiError]) fun h ↦ h.1 hscope
  · rename_i hscope
    rw [and_iff_right hscope]
    split
    · rename_i hnone
      exact iff_of_false (by simp [policyError]) (by simp [hnone])
    · rename_i decision hsome
      rw [hsome, Option.map_some, Option.some.injEq]
      split
      · rename_i hallow
        exact iff_of_true rfl hallow
      · rename_i hdeny
        refine iff_of_false ?_ hdeny
        split <;> simp [apiError]

/-! ## The listing in a quiet world -/

/-- What a listing of the directory asks of its caller. -/
structure Listable (tenantId : Uuid) (ctx : PrincipalContext) (spaceId : Uuid)
    (bindings : List Binding) (now : Timestamp) (pre : String) (space : StorageSpace)
    (directory : String) : Prop where
  own : ¬ (ctx.subjectKind = .application ∧ space.applicationId ≠ ctx.applicationId)
  canonical : isCanonicalPrefix pre = true
  confined : scopedKey ctx pre false = .ok directory
  canonicalDirectory : isCanonicalPrefix directory = true
  targetable : Targetable tenantId spaceId space
  keyScope : ¬ (ctx.subjectKind = .application ∧ !(ctx.apiKeyScopes.any ("files.list" ∈ ·)))
  allowed : Allowed bindings "files.list" (some spaceId) directory now

/-- What the caller asks for. -/
def listInput (pre : String) : CommandInput :=
  ⟨pre, "files.list", none, .none, false⟩

theorem listable_of_create {command : AuthorizedFileCommand}
    (h : AuthorizedFileCommand.create fingerprint tenantId ctx spaceId space bindings now
      (listInput pre) = .ok command)
    (hown : ¬ (ctx.subjectKind = .application ∧ space.applicationId ≠ ctx.applicationId)) :
    ∃ directory, Listable tenantId ctx spaceId bindings now pre space directory ∧
      command.storageSpaceId = spaceId ∧
      command.physicalKey = joinKey (rootKey tenantId spaceId space) directory := by
  obtain ⟨directory, hcreated⟩ := create_eq_ok h
  obtain ⟨hkeyScope, hallowed⟩ := authorizeKey_eq_ok.mp hcreated.authorized
  exact ⟨directory, ⟨hown, hcreated.canonical, hcreated.confined, hcreated.canonicalKey,
    hcreated.targetable, hkeyScope, hallowed⟩, hcreated.storageSpace, hcreated.physical⟩

theorem Listable.create (fingerprint : FingerprintPayload → String)
    (h : Listable tenantId ctx spaceId bindings now pre space directory) :
    ∃ command, AuthorizedFileCommand.create fingerprint tenantId ctx spaceId space bindings now
      (listInput pre) = .ok command ∧ command.storageSpaceId = spaceId ∧
      command.physicalKey = joinKey (rootKey tenantId spaceId space) directory := by
  have htarget := deriveProviderTarget_eq_some_iff.mpr ⟨h.targetable, h.canonicalDirectory, rfl⟩
  have hauthorized := authorizeKey_eq_ok.mpr ⟨h.keyScope, h.allowed⟩
  have hkey : canonicalKey pre true = .ok pre :=
    canonicalKey_eq_ok.mpr ⟨rfl, h.canonical, fun _ ↦ rfl⟩
  cases hcreate : AuthorizedFileCommand.create fingerprint tenantId ctx spaceId space bindings now
      (listInput pre) with
  | error e =>
      simp [AuthorizedFileCommand.create, listInput, hkey, h.confined, h.canonicalDirectory, htarget,
        hauthorized, bind, Except.bind, pure, Except.pure] at hcreate
  | ok command =>
      obtain ⟨directory', hlistable, hspace, hphysical⟩ := listable_of_create hcreate h.own
      obtain rfl := Except.ok.inj (h.confined.symm.trans hlistable.confined)
      exact ⟨command, rfl, hspace, hphysical⟩

/-- The row as its listing shows it. -/
def presented (tenantId spaceId : Uuid) (space : StorageSpace) (f : StoredFile) :
    Except Raised (FileService.Public FileObject) :=
  (relativeKeyOf tenantId spaceId space f.file.objectKey).map fun key ↦ ⟨f.id, key, f.file⟩

section

variable {recordEtag : Uuid → ℕ → String} {c : ServiceChoice} {s : Store}

/-- The answer of a store in which nothing raises. -/
theorem answer_of_perform (hquiet : c.raises = none) {r : FileRequest} {x : r.Value} {s' : Store}
    (h : s.perform recordEtag c r = .ok (x, s')) : s.answer recordEtag c r = (.ok x, s') := by
  rw [Store.answer, hquiet, h]

theorem play_call_of_perform (hquiet : c.raises = none) {r : FileRequest} {x : r.Value}
    {s' : Store} (h : s.perform recordEtag c r = .ok (x, s')) :
    (FileService.call r).run.play (fun r s ↦ s.answer recordEtag c r) s = (.ok x, s') :=
  answer_of_perform hquiet h

theorem play_lift {α : Type} (x : Except Raised α) :
    (FileService.lift x).run.play (fun r s ↦ Store.answer s recordEtag c r) s = (x, s) := by
  cases x with
  | ok a => rfl
  | error e => rfl

theorem play_resolveSpace (recordEtag : Uuid → ℕ → String) (spaceId : Uuid) (s : Store)
    (hquiet : c.raises = none) :
    (FileService.resolveSpace spaceId).run.play (fun r s ↦ s.answer recordEtag c r) s =
      (match getSpace spaceId s.db with
        | none => apiError "resource_not_found" "Storage space not found" 404
        | some space => .ok space, s) := by
  have hcall : (FileService.read (.getSpace spaceId)).run.play
      (fun r s ↦ s.answer recordEtag c r) s = (.ok (getSpace spaceId s.db), s) :=
    play_call_of_perform hquiet rfl
  refine (play_bind_ok hcall).trans ?_
  cases getSpace spaceId s.db with
  | none => rfl
  | some space => rfl

theorem play_publicFile (f : StoredFile) :
    (FileService.publicFile tenantId spaceId space f).run.play
      (fun r s ↦ Store.answer s recordEtag c r) s = (presented tenantId spaceId space f, s) := by
  unfold presented
  cases hkey : relativeKeyOf tenantId spaceId space f.file.objectKey with
  | error e =>
      refine play_bind_error ?_
      rw [hkey]
      exact play_lift _
  | ok key =>
      refine play_bind_ok (t := s) (a := key) ?_
      rw [hkey]
      exact play_lift _

variable (fingerprint tenantId spaceId ctx pre s)

/-- The command a listing makes of its request. -/
def listCommand (bindings : List Binding) (now : Timestamp) : Except Raised AuthorizedFileCommand :=
  match getSpace spaceId s.db with
  | none => apiError "resource_not_found" "Storage space not found" 404
  | some space =>
    if ctx.subjectKind = .application ∧ space.applicationId ≠ ctx.applicationId then
      apiError "permission_denied" "Application credentials cannot address another application" 403
    else AuthorizedFileCommand.create fingerprint tenantId ctx spaceId space bindings now
      (listInput pre)

variable (status recordEtag c)

/-- What a listing answers in a world where nothing else happens. -/
def listing : Except Raised (List (FileService.Public FileObject)) :=
  ((FileService.listFiles fingerprint tenantId ctx spaceId pre status).run.play
    (fun r s ↦ s.answer recordEtag c r) s).1

variable {fingerprint tenantId spaceId ctx pre status recordEtag c s}

theorem play_command (fingerprint : FingerprintPayload → String) (tenantId : Uuid) (pre : String)
    (recordEtag : Uuid → ℕ → String) (s : Store) (hquiet : c.raises = none)
    (hbindings : c.outside (.read (.bindingsFor ctx.principalId spaceId ctx.subjectKind)) =
      .ok bindings) :
    (FileService.inputCommand fingerprint tenantId ctx spaceId pre "files.list" none .none).run.play
        (fun r s ↦ s.answer recordEtag c r) s =
      (listCommand fingerprint tenantId spaceId ctx pre s bindings c.now, s) := by
  have hread : (FileService.read (.bindingsFor ctx.principalId spaceId ctx.subjectKind)).run.play
      (fun r s ↦ s.answer recordEtag c r) s = (.ok bindings, s) := by
    refine play_call_of_perform hquiet ?_
    change (c.outside (.read (.bindingsFor ctx.principalId spaceId ctx.subjectKind))).map _ = _
    rw [hbindings]
    rfl
  have hnow : (FileService.read .now).run.play (fun r s ↦ s.answer recordEtag c r) s =
      (.ok c.now, s) := play_call_of_perform hquiet rfl
  have hresolve := play_resolveSpace recordEtag spaceId s hquiet
  unfold listCommand
  cases hspace : getSpace spaceId s.db with
  | none =>
      rw [hspace] at hresolve
      exact play_bind_error hresolve
  | some space =>
      rw [hspace] at hresolve
      refine (play_bind_ok hresolve).trans ?_
      unfold FileService.requireApplicationNamespace
      dsimp only
      split
      · exact play_bind_error (t := s) rfl
      · refine (play_bind_ok (t := s) (a := ()) rfl).trans ((play_bind_ok hread).trans ?_)
        exact (play_bind_ok hnow).trans (play_lift _)

theorem listCommand_eq_ok {command : AuthorizedFileCommand} :
    listCommand fingerprint tenantId spaceId ctx pre s bindings now = .ok command ↔
      ∃ space, getSpace spaceId s.db = some space ∧
        ¬ (ctx.subjectKind = .application ∧ space.applicationId ≠ ctx.applicationId) ∧
        AuthorizedFileCommand.create fingerprint tenantId ctx spaceId space bindings now
          (listInput pre) = .ok command := by
  unfold listCommand
  cases getSpace spaceId s.db with
  | none => simp [apiError]
  | some space =>
      dsimp only
      split
      · rename_i hown
        refine iff_of_false (by simp [apiError]) ?_
        rintro ⟨_, ⟨⟩, hnot, -⟩
        exact hnot hown
      · rename_i hown
        constructor
        · exact fun h ↦ ⟨space, rfl, hown, h⟩
        · rintro ⟨_, ⟨⟩, -, h⟩
          exact h

theorem listing_eq_ok (hquiet : c.raises = none)
    (hbindings : c.outside (.read (.bindingsFor ctx.principalId spaceId ctx.subjectKind)) =
      .ok bindings) {files : List (FileService.Public FileObject)} :
    listing fingerprint tenantId spaceId ctx pre status recordEtag c s = .ok files ↔
      ∃ space directory, getSpace spaceId s.db = some space ∧
        Listable tenantId ctx spaceId bindings c.now pre space directory ∧
        (s.listFiles spaceId (joinKey (rootKey tenantId spaceId space) directory) status).mapM
          (presented tenantId spaceId space) = .ok files := by
  have hcommand := play_command fingerprint tenantId pre recordEtag s hquiet hbindings
  have hrecords : ∀ space physicalKey, getSpace spaceId s.db = some space →
      (do let space ← FileService.resolveSpace spaceId
          let records ← FileService.call (.listFiles spaceId physicalKey status)
          records.mapM (FileService.publicFile tenantId spaceId space)).run.play
        (fun r s ↦ s.answer recordEtag c r) s =
        ((s.listFiles spaceId physicalKey status).mapM (presented tenantId spaceId space), s) := by
    intro space physicalKey hspace
    have hresolve := play_resolveSpace recordEtag spaceId s hquiet
    rw [hspace] at hresolve
    have hcall : (FileService.call (.listFiles spaceId physicalKey status)).run.play
        (fun r s ↦ s.answer recordEtag c r) s = (.ok (s.listFiles spaceId physicalKey status), s) :=
      play_call_of_perform hquiet rfl
    refine (play_bind_ok hresolve).trans ((play_bind_ok hcall).trans ?_)
    exact play_mapM play_publicFile _
  refine (play_bind_eq_ok (by rw [hcommand])).trans ?_
  rw [hcommand]
  constructor
  · rintro ⟨command, hok, hplay⟩
    obtain ⟨space, hspace, hown, hcreate⟩ := listCommand_eq_ok.mp hok
    obtain ⟨directory, hlistable, hid, hphysical⟩ := listable_of_create hcreate hown
    rw [hid, hphysical, hrecords space _ hspace] at hplay
    exact ⟨space, directory, hspace, hlistable, hplay⟩
  · rintro ⟨space, directory, hspace, hlistable, hfiles⟩
    obtain ⟨command, hcreate, hid, hphysical⟩ := hlistable.create fingerprint
    refine ⟨command, listCommand_eq_ok.mpr ⟨space, hspace, hlistable.own, hcreate⟩, ?_⟩
    rw [hid, hphysical, hrecords space _ hspace]
    exact hfiles

end

/-! ## Which rows are selected -/

theorem joinKey_ne_empty {base segment : String} (h : base ≠ "") : joinKey base segment ≠ "" := by
  unfold joinKey
  split
  · exact h
  · intro hempty
    refine h (String.toList_inj.mp ?_)
    have hlist := congrArg String.toList hempty
    rw [String.toList_append, String.toList_append] at hlist
    exact (List.append_eq_nil_iff.mp (List.append_eq_nil_iff.mp hlist).1).1

theorem namespaceOf_ne_empty (tenantId spaceId : Uuid) (space : StorageSpace) :
    namespaceOf tenantId spaceId space ≠ "" := by
  unfold namespaceOf
  cases htruthy : truthy space.storageNamespace with
  | none =>
      intro hempty
      have hlist := congrArg String.toList hempty
      rw [Option.getD_none, legacyNamespace] at hlist
      simp only [String.toList_append] at hlist
      simp at hlist
  | some namespace' =>
      have hne := (Option.filter_eq_some_iff.mp htruthy).2
      simpa using hne

theorem rootKey_ne_empty (tenantId spaceId : Uuid) (space : StorageSpace) :
    rootKey tenantId spaceId space ≠ "" :=
  joinKey_ne_empty (namespaceOf_ne_empty tenantId spaceId space)

/-- The condition of the query on the key. -/
theorem selects_iff {directory objectKey : String} :
    (objectKey = directory || (removePrefix (directory ++ "/") objectKey).isSome) = true ↔
      splitSlash directory <+: splitSlash objectKey := by
  rw [← within_iff, within, Files.removePrefix]
  cases (directory ++ "/").toList.isPrefixOf objectKey.toList with
  | false => rfl
  | true => rfl

/-- Selected are the relative keys in the directory, by whole segments, and for the whole space
also the bare root. -/
theorem selects_rootKey_iff (hspace : Targetable tenantId spaceId space) {objectKey : String} :
    splitSlash (joinKey (rootKey tenantId spaceId space) directory) <+: splitSlash objectKey ↔
      (directory = "" ∧ objectKey = rootKey tenantId spaceId space) ∨
        ∃ key, relativeKeyOf tenantId spaceId space objectKey = .ok key ∧
          (directory = "" ∨ splitSlash directory <+: splitSlash key) := by
  have hbelow : splitSlash (rootKey tenantId spaceId space) <+: splitSlash objectKey ↔
      objectKey = rootKey tenantId spaceId space ∨
        ∃ key, relativeKeyOf tenantId spaceId space objectKey = .ok key := by
    rw [← selects_iff, Bool.or_eq_true, decide_eq_true_eq, Option.isSome_iff_exists]
    simp only [removePrefix_eq_some, relativeKeyOf_eq_ok, hspace, true_and]
  unfold joinKey
  split
  · rename_i hempty
    simp [hempty, hbelow]
  · rename_i hempty
    simp only [hempty, false_and, false_or]
    rw [splitSlash_append]
    constructor
    · intro hprefix
      rcases hbelow.mp ((List.prefix_append _ _).trans hprefix) with rfl | ⟨key, hkey⟩
      · have hlength := hprefix.length_le
        rw [List.length_append] at hlength
        have hpos : 0 < (splitSlash directory).length :=
          List.length_pos_iff.mpr (List.splitOn_ne_nil _ _)
        omega
      · refine ⟨key, hkey, ?_⟩
        obtain ⟨-, rfl⟩ := relativeKeyOf_eq_ok.mp hkey
        rw [splitSlash_append] at hprefix
        exact (List.prefix_append_right_inj _).mp hprefix
    · rintro ⟨key, hkey, hprefix⟩
      obtain ⟨-, rfl⟩ := relativeKeyOf_eq_ok.mp hkey
      rw [splitSlash_append]
      exact (List.prefix_append_right_inj _).mpr hprefix

/-- The file is one of the space, in the requested status and not deleted. -/
structure Requested (spaceId : Uuid) (status : FileStatus) (f : FileObject) : Prop where
  space : f.storageSpaceId = spaceId
  status : f.status = status
  kept : f.softDeleted = false

theorem serves_of_getSpace {s : Store} (h : getSpace spaceId s.db = some space) :
    s.serves spaceId = true := by
  obtain ⟨hspace, hactive⟩ := Option.filter_eq_some_iff.mp h
  simp only [Bool.and_eq_true] at hactive
  simp [Store.serves, hspace, hactive.1.1.1, hactive.1.1.2]

theorem listed_iff {s : Store} (hspace : getSpace spaceId s.db = some space)
    (htarget : Targetable tenantId spaceId space) {f : FileObject} :
    s.listed spaceId (joinKey (rootKey tenantId spaceId space) directory) status f = true ↔
      Requested spaceId status f ∧
        ((directory = "" ∧ f.objectKey = rootKey tenantId spaceId space) ∨
          ∃ key, relativeKeyOf tenantId spaceId space f.objectKey = .ok key ∧
            (directory = "" ∨ splitSlash directory <+: splitSlash key)) := by
  have hne : joinKey (rootKey tenantId spaceId space) directory ≠ "" :=
    joinKey_ne_empty (rootKey_ne_empty tenantId spaceId space)
  rw [← selects_rootKey_iff htarget, ← selects_iff]
  unfold Store.listed
  rw [serves_of_getSpace hspace]
  simp only [hne, decide_false, Bool.false_or, Bool.and_eq_true, Bool.or_eq_true,
    decide_eq_true_eq, Bool.not_eq_true', and_true]
  constructor
  · rintro ⟨⟨⟨hid, hstatus⟩, hkept⟩, hkey⟩
    exact ⟨⟨hid, hstatus, hkept⟩, hkey⟩
  · rintro ⟨⟨hid, hstatus, hkept⟩, hkey⟩
    exact ⟨⟨⟨hid, hstatus⟩, hkept⟩, hkey⟩

/-! ## What is to be listed -/

/-- The caller may list the file, and it lies in the directory. -/
structure Visible (tenantId spaceId : Uuid) (bindings : List Binding) (now : Timestamp)
    (status : FileStatus) (s : Store) (space : StorageSpace) (directory : String)
    (x : FileService.Public FileObject) : Prop where
  stored : s.db.files.lookup x.id = some x.record
  requested : Requested spaceId status x.record
  key : relativeKeyOf tenantId spaceId space x.record.objectKey = .ok x.objectKey
  inDirectory : directory = "" ∨ splitSlash directory <+: splitSlash x.objectKey
  allowed : Allowed bindings "files.list" (some spaceId) x.objectKey now

/-- The listing returns the visible files, each once, and nothing else. -/
def ListsVisible (tenantId spaceId : Uuid) (ctx : PrincipalContext) (bindings : List Binding)
    (now : Timestamp) (pre : String) (status : FileStatus) (s : Store)
    (out : Except Raised (List (FileService.Public FileObject))) : Prop :=
  ∃ files, out = .ok files ∧ (files.map (·.id)).Nodup ∧ ∀ x, x ∈ files ↔
    ∃ space directory, getSpace spaceId s.db = some space ∧
      scopedKey ctx pre false = .ok directory ∧
      Visible tenantId spaceId bindings now status s space directory x

/-- The evaluator allows to list every selected row on its own key. -/
def AllowedBelow (tenantId spaceId : Uuid) (bindings : List Binding) (now : Timestamp)
    (status : FileStatus) (s : Store) (space : StorageSpace) (directory : String) : Prop :=
  ∀ id f, s.db.files.lookup id = some f → Requested spaceId status f →
    (directory = "" → f.objectKey ≠ rootKey tenantId spaceId space) ∧
      ∀ key, relativeKeyOf tenantId spaceId space f.objectKey = .ok key →
        (directory = "" ∨ splitSlash directory <+: splitSlash key) →
          Allowed bindings "files.list" (some spaceId) key now

variable {s : Store}

theorem mem_listFiles {x : StoredFile} {physicalKey : String} :
    x ∈ s.listFiles spaceId physicalKey status ↔
      ∃ id f, s.db.files.lookup id = some f ∧ s.listed spaceId physicalKey status f = true ∧
        x = s.stored id f := by
  simp only [Store.listFiles, List.mem_map, List.mem_mergeSort, Prod.exists]
  constructor
  · rintro ⟨id, f, hmem, rfl⟩
    obtain ⟨hlookup, hlisted⟩ := AList.mem_select_iff.mp hmem
    exact ⟨id, f, hlookup, hlisted, rfl⟩
  · rintro ⟨id, f, hlookup, hlisted, rfl⟩
    exact ⟨id, f, AList.mem_select_iff.mpr ⟨hlookup, hlisted⟩, rfl⟩

theorem nodup_listFiles (physicalKey : String) :
    ((s.listFiles spaceId physicalKey status).map (·.id)).Nodup := by
  have hids : (s.listFiles spaceId physicalKey status).map (·.id) =
      ((s.db.files.select fun _ f ↦ s.listed spaceId physicalKey status f).mergeSort
        fun a b ↦ a.2.objectKey ≤ b.2.objectKey).map Prod.fst := by
    rw [Store.listFiles, List.map_map]
    rfl
  rw [hids]
  exact ((List.mergeSort_perm _ _).map Prod.fst).nodup_iff.mpr (AList.nodup_keys_select _ _)

theorem presented_eq_ok {f : StoredFile} {x : FileService.Public FileObject} :
    presented tenantId spaceId space f = .ok x ↔
      relativeKeyOf tenantId spaceId space f.file.objectKey = .ok x.objectKey ∧
        x.id = f.id ∧ x.record = f.file := by
  unfold presented
  cases relativeKeyOf tenantId spaceId space f.file.objectKey with
  | error e => simp [Except.map]
  | ok key =>
      obtain ⟨id, key', record⟩ := x
      simp only [Except.map, Except.ok.injEq, FileService.Public.mk.injEq]
      constructor
      · rintro ⟨rfl, rfl, rfl⟩
        exact ⟨rfl, rfl, rfl⟩
      · rintro ⟨rfl, rfl, rfl⟩
        exact ⟨rfl, rfl, rfl⟩

theorem map_id_of_mapM {records : List StoredFile} {files : List (FileService.Public FileObject)}
    (h : records.mapM (presented tenantId spaceId space) = .ok files) :
    files.map (·.id) = records.map (·.id) := by
  have hall := mapM_eq_ok_iff.mp h
  clear h
  induction hall with
  | nil => rfl
  | cons hx _ ih =>
      rw [List.map_cons, List.map_cons, ih, (presented_eq_ok.mp hx).2.1]

variable {recordEtag : Uuid → ℕ → String} {c : ServiceChoice}

theorem ListsVisible.allowedBelow (hquiet : c.raises = none)
    (hbindings : c.outside (.read (.bindingsFor ctx.principalId spaceId ctx.subjectKind)) =
      .ok bindings)
    (h : ListsVisible tenantId spaceId ctx bindings c.now pre status s
      (listing fingerprint tenantId spaceId ctx pre status recordEtag c s)) :
    ∃ space directory, getSpace spaceId s.db = some space ∧
      Listable tenantId ctx spaceId bindings c.now pre space directory ∧
      AllowedBelow tenantId spaceId bindings c.now status s space directory := by
  obtain ⟨files, hfiles, -, hvisible⟩ := h
  obtain ⟨space, directory, hspace, hlistable, hmapM⟩ :=
    (listing_eq_ok hquiet hbindings).mp hfiles
  refine ⟨space, directory, hspace, hlistable, fun id f hlookup hrequested ↦ ?_⟩
  have hpresented (hlisted : s.listed spaceId
      (joinKey (rootKey tenantId spaceId space) directory) status f = true) :
      ∃ x ∈ files, presented tenantId spaceId space (s.stored id f) = .ok x :=
    exists_of_mapM hmapM (mem_listFiles.mpr ⟨id, f, hlookup, hlisted, rfl⟩)
  constructor
  · rintro rfl hroot
    obtain ⟨x, -, hx⟩ := hpresented
      ((listed_iff hspace hlistable.targetable).mpr ⟨hrequested, Or.inl ⟨rfl, hroot⟩⟩)
    -- The bare root has no relative key, so the listing would have raised.
    obtain ⟨hkey, -⟩ := presented_eq_ok.mp hx
    have hlength := congrArg String.length (hroot.symm.trans (relativeKeyOf_eq_ok.mp hkey).2)
    rw [String.length_append, String.length_append] at hlength
    have hslash : ("/" : String).length = 1 := rfl
    omega
  · intro key hkey hinside
    obtain ⟨x, hmem, hx⟩ := hpresented
      ((listed_iff hspace hlistable.targetable).mpr ⟨hrequested, Or.inr ⟨key, hkey, hinside⟩⟩)
    obtain ⟨hkey', -, hrecord⟩ := presented_eq_ok.mp hx
    obtain ⟨space', directory', hspace', hconfined, hx'⟩ := (hvisible x).mp hmem
    obtain rfl := Except.ok.inj (hkey.symm.trans hkey')
    exact hx'.allowed

theorem AllowedBelow.listsVisible (hquiet : c.raises = none)
    (hbindings : c.outside (.read (.bindingsFor ctx.principalId spaceId ctx.subjectKind)) =
      .ok bindings) (hspace : getSpace spaceId s.db = some space)
    (hlistable : Listable tenantId ctx spaceId bindings c.now pre space directory)
    (h : AllowedBelow tenantId spaceId bindings c.now status s space directory) :
    ListsVisible tenantId spaceId ctx bindings c.now pre status s
      (listing fingerprint tenantId spaceId ctx pre status recordEtag c s) := by
  have hall : ∀ f ∈ s.listFiles spaceId (joinKey (rootKey tenantId spaceId space) directory) status,
      ∃ x, presented tenantId spaceId space f = .ok x := by
    intro f hf
    obtain ⟨id, f, hlookup, hlisted, rfl⟩ := mem_listFiles.mp hf
    obtain ⟨hrequested, ⟨hwhole, hroot⟩ | ⟨key, hkey, -⟩⟩ :=
      (listed_iff hspace hlistable.targetable).mp hlisted
    · exact absurd hroot ((h id f hlookup hrequested).1 hwhole)
    · exact ⟨⟨id, key, f⟩, presented_eq_ok.mpr ⟨hkey, rfl, rfl⟩⟩
  obtain ⟨files, hmapM⟩ := exists_mapM_eq_ok hall
  refine ⟨files, (listing_eq_ok hquiet hbindings).mpr ⟨space, directory, hspace, hlistable, hmapM⟩,
    ?_, fun x ↦ ?_⟩
  · rw [map_id_of_mapM hmapM]
    exact nodup_listFiles _
  · rw [mem_iff_of_mapM hmapM]
    constructor
    · rintro ⟨f, hf, hx⟩
      obtain ⟨id, f, hlookup, hlisted, rfl⟩ := mem_listFiles.mp hf
      obtain ⟨hkey, hid, hrecord⟩ := presented_eq_ok.mp hx
      have hstored : s.db.files.lookup x.id = some x.record := by
        rw [hid, hrecord]
        exact hlookup
      obtain ⟨hrequested, hinside⟩ := (listed_iff hspace hlistable.targetable).mp hlisted
      rw [← hrecord] at hkey
      have hfile : f = x.record := hrecord.symm
      rw [hfile] at hrequested hinside
      obtain ⟨hnotroot, hbelow⟩ := h x.id x.record hstored hrequested
      rcases hinside with ⟨hwhole, hroot⟩ | ⟨key, hkey', hinside⟩
      · exact absurd hroot (hnotroot hwhole)
      · obtain rfl := Except.ok.inj (hkey'.symm.trans hkey)
        exact ⟨space, directory, hspace, hlistable.confined,
          ⟨hstored, hrequested, hkey, hinside, hbelow _ hkey hinside⟩⟩
    · rintro ⟨space', directory', hspace', hconfined, hx⟩
      obtain rfl := Option.some.inj (hspace.symm.trans hspace')
      obtain rfl := Except.ok.inj (hlistable.confined.symm.trans hconfined)
      refine ⟨s.stored x.id x.record, mem_listFiles.mpr ⟨x.id, x.record, hx.stored, ?_, rfl⟩,
        presented_eq_ok.mpr ⟨hx.key, rfl, rfl⟩⟩
      exact (listed_iff hspace hlistable.targetable).mpr
        ⟨hx.requested, Or.inr ⟨_, hx.key, hx.inDirectory⟩⟩

/-- A listing returns exactly what its caller may list if and only if the directory may be listed
and so may every file selected in it. -/
theorem listing_agrees_iff (fingerprint : FingerprintPayload → String)
    (recordEtag : Uuid → ℕ → String) (tenantId spaceId : Uuid) (ctx : PrincipalContext)
    (bindings : List Binding) (pre : String) (status : FileStatus) (c : ServiceChoice) (s : Store)
    (hquiet : c.raises = none)
    (hbindings : c.outside (.read (.bindingsFor ctx.principalId spaceId ctx.subjectKind)) =
      .ok bindings) :
    ListsVisible tenantId spaceId ctx bindings c.now pre status s
        (listing fingerprint tenantId spaceId ctx pre status recordEtag c s) ↔
      ∃ space directory, getSpace spaceId s.db = some space ∧
        Listable tenantId ctx spaceId bindings c.now pre space directory ∧
        AllowedBelow tenantId spaceId bindings c.now status s space directory := by
  constructor
  · exact ListsVisible.allowedBelow hquiet hbindings
  · rintro ⟨space, directory, hspace, hlistable, hallowed⟩
    exact hallowed.listsVisible hquiet hbindings hspace hlistable

namespace Sample

/-- One file has been committed, in a directory of the directory `team`. -/
def shared : Store :=
  ⟨run exec tenant [.createUploadIntent (ids 10) (session 4) (data "team/private/a"),
    .recordProviderResult 12 (result 4 'a'), .commitVerifiedFile 0 30 12], ∅⟩

theorem reader_wellFormed : (forMember 3 4 1).WellFormed := by decide

def reader : PrincipalContext :=
  ⟨forMember 3 4 1, reader_wellFormed⟩

/-- Everything may be listed except the directory `team/private`. -/
def exceptPrivate : List Binding :=
  [⟨60, "files.list", .allow, none, 0, 1000, "binding", none⟩,
    ⟨61, "files.list", .deny, some "team/private", 0, 1000, "binding", none⟩]

def quietly (bindings : List Binding) : ServiceChoice where
  now := 5
  intent := ids 20
  file := 31
  deletion := 32
  operation := ⟨40, 41, 42, fun _ ↦ 43⟩
  raises := none
  takesEffect := false
  outside
    | .read (.bindingsFor ..) => .ok bindings
    | _ => .error (.other "unavailable")

end Sample

theorem listing_agrees_iff_sample :
    ListsVisible 1 2 Sample.reader Sample.exceptPrivate 5 "team" .available Sample.shared
        (listing (fun _ ↦ "") 1 2 Sample.reader "team" .available (fun _ _ ↦ "")
          (Sample.quietly Sample.exceptPrivate) Sample.shared) ↔
      ∃ space directory, getSpace 2 Sample.shared.db = some space ∧
        Listable 1 Sample.reader 2 Sample.exceptPrivate 5 "team" space directory ∧
        AllowedBelow 1 2 Sample.exceptPrivate 5 .available Sample.shared space directory :=
  listing_agrees_iff (fun _ ↦ "") (fun _ _ ↦ "") 1 2 Sample.reader Sample.exceptPrivate "team"
    .available (Sample.quietly Sample.exceptPrivate) Sample.shared rfl rfl

/-- The listing of the parent shows the file of a directory which is denied. -/
theorem denied_directory_listed : ¬ ∀ (fingerprint : FingerprintPayload → String)
    (recordEtag : Uuid → ℕ → String) (tenantId spaceId : Uuid) (ctx : PrincipalContext)
    (bindings : List Binding) (pre : String) (status : FileStatus) (c : ServiceChoice) (s : Store),
    c.raises = none →
    c.outside (.read (.bindingsFor ctx.principalId spaceId ctx.subjectKind)) = .ok bindings →
      ListsVisible tenantId spaceId ctx bindings c.now pre status s
        (listing fingerprint tenantId spaceId ctx pre status recordEtag c s) := by
  intro h
  obtain ⟨space, directory, hspace, hlistable, hallowed⟩ :=
    (h (fun _ ↦ "") (fun _ _ ↦ "") 1 2 Sample.reader Sample.exceptPrivate "team" .available
      (Sample.quietly Sample.exceptPrivate) Sample.shared rfl rfl).allowedBelow rfl rfl
  have hserved : getSpace 2 Sample.shared.db = some Sample.space := by decide
  obtain rfl := Option.some.inj (hserved.symm.trans hspace)
  obtain rfl : "team" = directory := Except.ok.inj hlistable.confined
  have hstored : (Sample.shared.db.files.lookup 30).map (fun f ↦ (f.storageSpaceId, f.status,
      f.softDeleted, f.objectKey)) = some (2, .available, false, "ns/team/private/a") := by decide
  obtain ⟨f, hlookup, hf⟩ := Option.map_eq_some_iff.mp hstored
  simp only [Prod.mk.injEq] at hf
  obtain ⟨hid, hstatus, hkept, hphysical⟩ := hf
  have hkey : relativeKeyOf 1 2 Sample.space f.objectKey = .ok "team/private/a" := by
    rw [hphysical]
    decide
  have hinside : splitSlash "team" <+: splitSlash "team/private/a" := by decide
  refine absurd ((hallowed 30 f hlookup ⟨hid, hstatus, hkept⟩).2 _ hkey (Or.inr hinside)) ?_
  decide

end S3mp
