import S3mp.Files.ServiceWorld
import S3mp.Relational.Numbered
import S3mp.Uploads.SessionStates

/-!
# The recorded parts of a multipart upload

Only `record_multipart_part` writes the table of parts, and a session keeps the
length it was declared with.  Next to the store stands the journal of the parts
recorded, in the order of their transactions: a row is the last one of its number.
-/

namespace S3mp

open Relational Files Identity Storage Transition

/-! ## What the other transactions leave alone -/

/-- Every session is still there, with the length it was declared with. -/
def Declared (db db' : Db) : Prop :=
  ∀ id m, db.multiparts.lookup id = some m →
    ∃ m', db'.multiparts.lookup id = some m' ∧ m'.declaredLength = m.declaredLength

theorem Declared.refl (db : Db) : Declared db db :=
  fun _ m hm ↦ ⟨m, hm, rfl⟩

theorem Declared.trans {db db' db'' : Db} (h : Declared db db') (h' : Declared db' db'') :
    Declared db db'' := by
  intro id m hm
  obtain ⟨m', hm', hlength⟩ := h id m hm
  obtain ⟨m'', hm'', hlength'⟩ := h' id m' hm'
  exact ⟨m'', hm'', hlength'.trans hlength⟩

/-- The parts are as they were, and so are the declarations. -/
structure PartsKept (db db' : Db) : Prop where
  parts : db'.parts = db.parts
  declared : Declared db db'

section Frames

variable {db db' : Db}

theorem PartsKept.refl (db : Db) : PartsKept db db :=
  ⟨rfl, .refl db⟩

theorem partsKept_of_multiparts (hparts : db'.parts = db.parts)
    (hmultiparts : db'.multiparts = db.multiparts) : PartsKept db db' :=
  ⟨hparts, fun _ m hm ↦ ⟨m, hmultiparts ▸ hm, rfl⟩⟩

theorem partsKept_insert {id : Uuid} {m : MultipartSession} (hparts : db'.parts = db.parts)
    (hfresh : id ∉ db.multiparts) (hmultiparts : db'.multiparts = db.multiparts.insert id m) :
    PartsKept db db' := by
  refine ⟨hparts, fun j s hs ↦ ⟨s, ?_, rfl⟩⟩
  rw [hmultiparts]
  exact AList.lookup_insert_of_lookup hs hfresh

theorem partsKept_update {id : Uuid} {f : MultipartSession → MultipartSession}
    (hparts : db'.parts = db.parts)
    (hf : ∀ m, db.multiparts.lookup id = some m → (f m).declaredLength = m.declaredLength)
    (hmultiparts : db'.multiparts = db.multiparts.update id f) : PartsKept db db' := by
  refine ⟨hparts, fun j s hs ↦ ?_⟩
  rw [hmultiparts]
  by_cases hj : j = id
  · subst hj
    exact ⟨f s, by rw [AList.lookup_update_self, hs, Option.map_some], hf s hs⟩
  · exact ⟨s, by rw [AList.lookup_update_of_ne hj, hs], rfl⟩

theorem deleteFile_partsKept {now : Timestamp} {deletionId spaceId fileId : Uuid} {data : DeleteData}
    {out : Option FileObject}
    (h : deleteFile now deletionId spaceId fileId data db = .ok (out, db')) : PartsKept db db' := by
  have hparts : db'.parts = db.parts := by
    rcases deleteFile_cases h with rfl | ⟨f, -, -, -, -, -, rfl⟩
    · rfl
    · rfl
  exact partsKept_of_multiparts hparts (deleteFile_sessions h).2

theorem completeSessions_multiparts (now : Timestamp) (db : Db) (row : IngestionRecord) :
    (row.multipartSessionId = none → (completeSessions now row db).multiparts = db.multiparts) ∧
      ∀ session, row.multipartSessionId = some session → (completeSessions now row db).multiparts =
        db.multiparts.update session fun m ↦ { m with status := .completed } := by
  unfold completeSessions
  constructor
  · intro hnone
    simp only [hnone]
  · intro session hsome
    simp only [hsome]

theorem commit_partsKept {now : Timestamp} {fileId id : Uuid} (h : Commit now fileId id db db') :
    PartsKept db db' := by
  have hcompleted : ∀ row ledger, PartsKept db (committedDb now fileId id row ledger db) := by
    intro row ledger
    have hwritten := completeSessions_multiparts now
      (withFile fileId row ledger db) (row.committedAs fileId now)
    cases hsession : row.multipartSessionId with
    | none => exact partsKept_of_multiparts rfl (hwritten.1 hsession)
    | some session =>
        refine partsKept_update rfl ?_ (hwritten.2 session hsession)
        exact fun _ _ ↦ rfl
  cases h with
  | replayed => exact .refl db
  | unreserved row => exact hcompleted row _
  | charged row => exact hcompleted row _
  | refused row => exact partsKept_of_multiparts rfl rfl

/-- The result of a transaction whose database is known to keep the parts. -/
theorem transact_partsKept {α β : Type} {s s' : Store} {out : Tx (α × Db)}
    {f : α → Store → Except Raised β} {b : β} (h : s.transact out f = .ok (b, s'))
    (hout : ∀ a db', out = .ok (a, db') → PartsKept s.db db') : PartsKept s.db s'.db := by
  obtain ⟨a, db', hok, -, rfl⟩ := Store.transact_eq_ok h
  exact hout a db' hok

theorem execute_partsKept {s s' : Store} {out : Tx Db} {u : Unit}
    (h : s.execute out = .ok (u, s')) (hout : ∀ db', out = .ok db' → PartsKept s.db db') :
    PartsKept s.db s'.db := by
  obtain ⟨db', hok, rfl⟩ := Store.execute_eq_ok h
  exact hout db' hok

theorem query_partsKept {α : Type} {s s' : Store} {a b : α} (h : s.query a = .ok (b, s')) :
    PartsKept s.db s'.db := by
  rw [(Store.query_eq_ok h).2]
  exact .refl _

theorem outside_partsKept {α : Type} {s s' : Store} {out : Except Raised α} {x : α}
    (h : out.map (fun x ↦ (x, s)) = .ok (x, s')) : PartsKept s.db s'.db := by
  rw [Store.outside_eq_ok h]
  exact .refl _

/-- Of the requests of the service only the recording of a part writes a part. -/
theorem perform_partsKept {recordEtag : Uuid → ℕ → String} {c : ServiceChoice} {r : FileRequest}
    {s s' : Store} {x : r.Value} (hr : ∀ id n part, r ≠ .recordMultipartPart id n part)
    (h : s.perform recordEtag c r = .ok (x, s')) : PartsKept s.db s'.db := by
  cases r with
  | recordMultipartPart id n part => exact absurd rfl (hr id n part)
  | read r =>
      cases r with
      | now | getSpace => exact query_partsKept h
      | _ => exact outside_partsKept h
  | getFile | getFileByRef | listFiles | fileNameIsOccupied | fileNameIsMigrating
  | replayRenameOperation | getOperation | getProvenance | getUpload | getMultipart
  | listMultipartParts | getForSession | reconciliationAttemptCount => exact query_partsKept h
  | listPending | head | hashSha256 | presignGet | presignPut | createMultipartUpload | uploadPart
  | completeMultipartUpload | abortMultipartUpload | listParts => exact outside_partsKept h
  | updateFileMetadata spaceId fileId data =>
      simp only [Store.perform] at h
      split at h
      · cases h
      · rename_i f db versions hok
        obtain ⟨-, rfl⟩ := Prod.mk.inj (Except.ok.inj h)
        rcases updateFileMetadata_eq_ok hok with rfl | ⟨_, -, -, -, rfl⟩
        · exact .refl _
        · exact partsKept_of_multiparts rfl rfl
  | deleteFile spaceId fileId data =>
      simp only [Store.perform] at h
      exact transact_partsKept h fun _ _ hok ↦ deleteFile_partsKept hok
  | createOperation spaceId data =>
      simp only [Store.perform] at h
      refine transact_partsKept h fun op db' hok ↦ ?_
      obtain ⟨_, _, _, -, -, -, -, -, rfl⟩ := createOperation_eq_ok hok
      exact partsKept_of_multiparts rfl rfl
  | createRenameOperation spaceId data =>
      simp only [Store.perform] at h
      refine transact_partsKept h fun op db' hok ↦ ?_
      rcases createRenameOperation_eq_ok hok with rfl | ⟨_, _, -, -, -, -, -, -, -, -, -, rfl⟩
      · exact .refl _
      · exact partsKept_of_multiparts rfl rfl
  | createUploadIntent session data =>
      simp only [Store.perform] at h
      refine transact_partsKept h fun result db' hok ↦ ?_
      rcases createUploadIntent_eq_ok hok with ⟨-, rfl⟩ | ⟨-, -, -, ledger, -, rfl⟩
      · exact .refl _
      · exact partsKept_of_multiparts rfl rfl
  | createMultipartIntent session data =>
      simp only [Store.perform] at h
      refine transact_partsKept h fun result db' hok ↦ ?_
      rcases createMultipartIntent_eq_ok hok with ⟨-, rfl⟩ | ⟨-, hfresh, -, ledger, -, rfl⟩
      · exact .refl _
      · exact partsKept_insert rfl hfresh rfl
  | expireUpload id =>
      refine execute_partsKept h fun db' hok ↦ ?_
      cases hok
      exact partsKept_of_multiparts rfl rfl
  | expireMultipart id =>
      refine execute_partsKept h fun db' hok ↦ ?_
      cases hok
      refine partsKept_update (f := fun m ↦ if m.status = .pending then
        { m with status := .expired } else m) rfl (fun m _ ↦ ?_) rfl
      split <;> rfl
  | abortMultipart id =>
      refine execute_partsKept h fun db' hok ↦ ?_
      cases hok
      exact partsKept_update (f := fun m ↦ { m with status := .aborted }) rfl (fun _ _ ↦ rfl) rfl
  | setMultipartProviderId id uploadId =>
      simp only [Store.perform] at h
      refine transact_partsKept h fun m db' hok ↦ ?_
      unfold setMultipartProviderId at hok
      split at hok
      · cases hok
      · rename_i m hm
        cases hok
        refine partsKept_update (f := fun _ ↦ { m with providerUploadId := some uploadId }) rfl
          (fun m' hm' ↦ ?_) rfl
        rw [Option.some.inj (hm'.symm.trans hm)]
  | completeUpload id data =>
      simp only [Store.perform] at h
      refine transact_partsKept h fun _ db' hok ↦ ?_
      obtain ⟨_, hdone, heq⟩ := Except.map_eq_ok.mp hok
      obtain ⟨-, rfl⟩ := Prod.mk.inj heq
      obtain ⟨u, -, -, -, rfl⟩ := completeUpload_eq_ok.mp hdone
      exact partsKept_of_multiparts rfl rfl
  | completeMultipart id data =>
      simp only [Store.perform] at h
      refine transact_partsKept h fun _ db' hok ↦ ?_
      obtain ⟨_, hdone, heq⟩ := Except.map_eq_ok.mp hok
      obtain ⟨-, rfl⟩ := Prod.mk.inj heq
      obtain ⟨m, -, -, -, rfl⟩ := completeMultipart_eq_ok.mp hdone
      refine partsKept_update rfl ?_ rfl
      exact fun m _ ↦ rfl
  | recordProviderResult id result =>
      simp only [Store.perform] at h
      refine transact_partsKept h fun row db' hok ↦ ?_
      obtain ⟨_, -, -, -, rfl⟩ := recordProviderResult_eq_ok.mp hok
      exact partsKept_of_multiparts rfl rfl
  | commitVerifiedFile id =>
      simp only [Store.perform] at h
      exact transact_partsKept h fun row db' hok ↦ commit_partsKept (commitVerifiedFile_eq_ok hok)
  | failOrQuarantine id status reason =>
      simp only [Store.perform] at h
      refine transact_partsKept h fun row db' hok ↦ ?_
      obtain ⟨_, -, ⟨-, -, rfl⟩ | ⟨-, -, rfl⟩⟩ := failOrQuarantine_eq_ok hok
      · exact partsKept_of_multiparts rfl rfl
      · exact partsKept_of_multiparts rfl rfl
  | expire id =>
      simp only [Store.perform] at h
      refine transact_partsKept h fun row db' hok ↦ ?_
      obtain ⟨_, -, ⟨-, rfl⟩ | ⟨-, rfl⟩⟩ := expire_eq_ok hok
      · exact .refl _
      · exact partsKept_of_multiparts rfl rfl

/-- Recording a part again replaces what was recorded of its number. -/
theorem recordMultipartPart_again (id : Uuid) (n : ℕ) (part part' : MultipartPart) (db : Db) :
    recordMultipartPart id n part' (recordMultipartPart id n part db) =
      recordMultipartPart id n part' db := by
  unfold recordMultipartPart
  rw [AList.insert_insert]

end Frames

/-! ## The journal of the recorded parts -/

structure PartRecord where
  session : Uuid
  partNumber : ℕ
  part : MultipartPart
  deriving DecidableEq, Repr

/-- What was recorded last of a part number of a session. -/
def lastRecorded (journal : List PartRecord) (session : Uuid) (n : ℕ) : Option MultipartPart :=
  (journal.reverse.find? fun r ↦ r.session = session && r.partNumber = n).map PartRecord.part

theorem lastRecorded_append (journal : List PartRecord) (r : PartRecord) (session : Uuid) (n : ℕ) :
    lastRecorded (journal ++ [r]) session n =
      if r.session = session ∧ r.partNumber = n then some r.part
      else lastRecorded journal session n := by
  unfold lastRecorded
  rw [List.reverse_append, List.reverse_singleton, List.singleton_append, List.find?_cons]
  by_cases h : r.session = session ∧ r.partNumber = n
  · simp [h]
  · have hno : (decide (r.session = session) && decide (r.partNumber = n)) = false := by
      simpa using h
    rw [hno, if_neg h]

/-- The store, and the parts recorded so far. -/
structure PartsWorld where
  store : Store
  journal : List PartRecord

/-- The row of a part is what was recorded of it last. -/
def PartsWorld.Recorded (w : PartsWorld) : Prop :=
  ∀ session n, w.store.db.parts.lookup (session, n) = lastRecorded w.journal session n

/-- The request, if it is the recording of a part. -/
def recordOf : FileRequest → Option PartRecord
  | .recordMultipartPart id n part => some ⟨id, n, part⟩
  | _ => none

/-- A recording which raises counts if it was carried out all the same. -/
def PartsWorld.answer (recordEtag : Uuid → ℕ → String) (r : FileRequest) (c : ServiceChoice)
    (w : PartsWorld) : Except Raised r.Value × PartsWorld :=
  let (x, store) := w.store.answer recordEtag c r
  (x, ⟨store, w.journal ++ if c.raises = none ∨ c.takesEffect then (recordOf r).toList else []⟩)

/-- A world whose journal lists the rows there are. -/
def PartsWorld.start (store : Store) : PartsWorld :=
  ⟨store, store.db.parts.entries.map fun e ↦ ⟨e.1.1, e.1.2, e.2⟩⟩

theorem recorded_start (store : Store) : (PartsWorld.start store).Recorded := by
  intro session n
  unfold lastRecorded PartsWorld.start
  cases hfind : ((store.db.parts.entries.map fun e ↦ (⟨e.1.1, e.1.2, e.2⟩ : PartRecord)).reverse.find?
      fun r ↦ r.session = session && r.partNumber = n) with
  | none =>
      rw [Option.map_none, AList.lookup_eq_none]
      intro hmem
      obtain ⟨part, hpart⟩ := AList.lookup_isSome.mpr hmem |> Option.isSome_iff_exists.mp
      have hentry := List.of_mem_dlookup hpart
      have hno := List.find?_eq_none.mp hfind ⟨session, n, part⟩
        (List.mem_reverse.mpr (List.mem_map.mpr ⟨_, hentry, rfl⟩))
      simp at hno
  | some r =>
      obtain ⟨e, hentry, rfl⟩ := List.mem_map.mp (List.mem_reverse.mp (List.mem_of_find?_eq_some hfind))
      have hkey := List.find?_some hfind
      simp only [Bool.and_eq_true, decide_eq_true_eq] at hkey
      obtain ⟨rfl, rfl⟩ := hkey
      exact List.mem_dlookup store.db.parts.nodupKeys hentry

/-- A recording puts the row and the journal forward together, any other request neither. -/
theorem answer_world (recordEtag : Uuid → ℕ → String) (r : FileRequest) (c : ServiceChoice)
    (w : PartsWorld) :
    (∃ p, recordOf r = some p ∧ (w.answer recordEtag r c).2 =
      ⟨w.store.put (recordMultipartPart p.session p.partNumber p.part w.store.db),
        w.journal ++ [p]⟩) ∨
    (w.answer recordEtag r c).2.journal = w.journal ∧
      PartsKept w.store.db (w.answer recordEtag r c).2.store.db := by
  by_cases hr : ∃ id n part, r = .recordMultipartPart id n part
  · obtain ⟨id, n, part, rfl⟩ := hr
    unfold PartsWorld.answer Store.answer
    cases hraises : c.raises with
    | none =>
        refine Or.inl ⟨⟨id, n, part⟩, rfl, ?_⟩
        rw [if_pos (Or.inl rfl)]
        rfl
    | some raised => cases htakes : c.takesEffect with
      | true =>
          refine Or.inl ⟨⟨id, n, part⟩, rfl, ?_⟩
          rw [if_pos (Or.inr rfl)]
          rfl
      | false =>
          refine Or.inr ⟨?_, .refl _⟩
          rw [if_neg (by simp)]
          exact List.append_nil _
  · have hnone : recordOf r = none := by
      cases r <;> first | rfl | exact absurd ⟨_, _, _, rfl⟩ hr
    refine Or.inr ⟨?_, ?_⟩
    · simp [PartsWorld.answer, hnone]
    · change PartsKept w.store.db (w.store.answer recordEtag c r).2.db
      have hnot : ∀ id n part, r ≠ .recordMultipartPart id n part :=
        fun id n part heq ↦ hr ⟨id, n, part, heq⟩
      rcases w.store.answer_cases recordEtag c r with
        ⟨e, hsame⟩ | ⟨x, s', hperform, ⟨-, hs'⟩ | ⟨e, -, -, hs'⟩⟩
      · rw [hsame]
        exact .refl _
      · rw [hs']
        exact perform_partsKept hnot hperform
      · rw [hs']
        exact perform_partsKept hnot hperform

theorem PartsWorld.Recorded.answer {recordEtag : Uuid → ℕ → String} {r : FileRequest}
    {c : ServiceChoice} {w : PartsWorld} (hw : w.Recorded) :
    (w.answer recordEtag r c).2.Recorded := by
  intro session n
  rcases answer_world recordEtag r c w with ⟨p, -, heq⟩ | ⟨hjournal, hkept⟩
  · rw [heq, lastRecorded_append]
    change (w.store.db.parts.insert (p.session, p.partNumber) p.part).lookup (session, n) = _
    rw [AList.lookup_insert', ← hw session n]
    by_cases hkey : p.session = session ∧ p.partNumber = n
    · rw [if_pos hkey, if_pos (by rw [hkey.1, hkey.2])]
    · rw [if_neg hkey, if_neg fun h ↦ hkey ⟨(Prod.mk.inj h).1.symm, (Prod.mk.inj h).2.symm⟩]
  · rw [hjournal, hkept.parts]
    exact hw session n

/-- Parts are only added to the journal, and sessions keep their declarations. -/
structure PartsWorld.Later (w w' : PartsWorld) : Prop where
  journal : w.journal <+: w'.journal
  declared : Declared w.store.db w'.store.db

theorem PartsWorld.Later.refl (w : PartsWorld) : w.Later w :=
  ⟨List.prefix_refl _, .refl _⟩

theorem PartsWorld.Later.trans {w w' w'' : PartsWorld} (h : w.Later w') (h' : w'.Later w'') :
    w.Later w'' :=
  ⟨h.journal.trans h'.journal, h.declared.trans h'.declared⟩

theorem later_answer (recordEtag : Uuid → ℕ → String) (r : FileRequest) (c : ServiceChoice)
    (w : PartsWorld) : w.Later (w.answer recordEtag r c).2 := by
  rcases answer_world recordEtag r c w with ⟨p, -, heq⟩ | ⟨hjournal, hkept⟩
  · rw [heq]
    exact ⟨List.prefix_append _ _, fun _ m hm ↦ ⟨m, hm, rfl⟩⟩
  · exact ⟨hjournal ▸ List.prefix_refl _, hkept.declared⟩

/-- Nothing is forbidden: what the others do is only what they can do. -/
def partsDiscipline (recordEtag : Uuid → ℕ → String) : Discipline (PartsWorld.answer recordEtag) where
  inv := PartsWorld.Recorded
  le := PartsWorld.Later
  guard _ _ := True
  le_refl := .refl
  le_trans := .trans
  keeps hw _ := ⟨hw.answer, later_answer _ _ _ _⟩

/-! ## A completion -/

/-- The requested parts are in strict order, at one moment between `since` and now each of them
was the one recorded last of its number, and their lengths add up to the declared one. -/
structure UsesRecorded (id : Uuid) (parts : List (ℕ × String)) (since : List PartRecord)
    (w : PartsWorld) : Prop where
  ordered : (parts.map Prod.fst).Pairwise (· < ·)
  recorded : ∃ journal m, since <+: journal ∧ journal <+: w.journal ∧
    (∀ n etag, (n, etag) ∈ parts → ∃ p, lastRecorded journal id n = some p ∧ p.etag = etag) ∧
    w.store.db.multiparts.lookup id = some m ∧
    (parts.map fun p ↦ (lastRecorded journal id p.1).elim 0 (·.contentLength)).sum =
      m.declaredLength

theorem UsesRecorded.later {id : Uuid} {parts : List (ℕ × String)} {since : List PartRecord}
    {w w' : PartsWorld} (h : UsesRecorded id parts since w) (hle : w.Later w') :
    UsesRecorded id parts since w' := by
  obtain ⟨journal, m, hsince, hjournal, hparts, hm, hsum⟩ := h.recorded
  obtain ⟨m', hm', hlength⟩ := hle.declared id m hm
  exact ⟨h.ordered, journal, m', hsince, hjournal.trans hle.journal, hparts, hm',
    hsum.trans hlength.symm⟩

theorem lookup_listMultipartParts {s : Store} {id : Uuid} {n : ℕ} {part : MultipartPart}
    (h : (s.listMultipartParts id).lookup n = some part) :
    s.db.parts.lookup (id, n) = some part :=
  (AList.lookup_numbered s.db.parts id n).symm.trans h

namespace Files.FileService

theorem checkParts_eq_ok {m : MultipartSession} {parts : List (ℕ × String)}
    {stored : List (ℕ × MultipartPart)} (h : checkParts m parts stored = .ok ()) :
    (parts.map Prod.fst).Pairwise (· < ·) ∧
      (∀ n etag, (n, etag) ∈ parts → ∃ p, stored.lookup n = some p ∧ p.etag = etag) ∧
      (parts.map fun p ↦ (stored.lookup p.1).elim 0 (·.contentLength)).sum = m.declaredLength := by
  unfold checkParts at h
  split at h
  · cases h
  rename_i hordered
  split at h
  · cases h
  rename_i hstored
  split at h
  · cases h
  rename_i hsum
  refine ⟨?_, fun n etag hmem ↦ ?_, not_not.mp hsum⟩
  · have hsorted := List.pairwise_insertionSort (· ≤ ·) (parts.map Prod.fst).dedup
    have hnodup : ((parts.map Prod.fst).dedup.insertionSort (· ≤ ·)).Nodup :=
      (List.perm_insertionSort _ _).nodup_iff.mpr (List.nodup_dedup _)
    rw [← not_not.mp hordered] at hsorted hnodup
    exact hsorted.imp₂ (fun a b hle hne ↦ lt_of_le_of_ne hle hne) hnodup
  · have hno := List.any_eq_false.mp (Bool.eq_false_iff.mpr hstored) (n, etag) hmem
    cases hlookup : stored.lookup n with
    | none => simp [hlookup] at hno
    | some p => exact ⟨p, rfl, by simpa [hlookup] using hno⟩

end Files.FileService

section Completion

variable {recordEtag : Uuid → ℕ → String} {w : PartsWorld}

theorem unguarded (t : PartsWorld) (r : FileRequest) : (partsDiscipline recordEtag).guard t r :=
  trivial

/-- A request which only reads the store, and what it may be answered. -/
theorem answer_query {r : FileRequest} {c : ServiceChoice} {t : PartsWorld} {a : r.Value}
    (hr : recordOf r = none) (hquery : t.store.perform recordEtag c r = .ok (a, t.store)) :
    (t.answer recordEtag r c).2 = t ∧
      ∀ x, (t.answer recordEtag r c).1 = .ok x → x = a := by
  have hworld : ∀ s : Store, s = t.store → (⟨s, t.journal ++
      if c.raises = none ∨ c.takesEffect then (recordOf r).toList else []⟩ : PartsWorld) = t := by
    rintro s rfl
    simp [hr]
  unfold PartsWorld.answer Store.answer
  rw [hquery]
  cases hraises : c.raises with
  | none =>
      rw [hraises] at hworld
      exact ⟨hworld _ rfl, fun x hx ↦ (Except.ok.inj hx).symm⟩
  | some raised =>
      rw [hraises] at hworld
      refine ⟨hworld _ ?_, fun x hx ↦ nomatch hx⟩
      cases c.takesEffect <;> rfl

theorem safe_lift_bind {α β : Type} {x : Except Raised α} {k : α → FileService β}
    {post : Except Raised β → PartsWorld → Prop} (hraise : ∀ e t, post (.error e) t)
    (hk : ∀ a, x = .ok a → (partsDiscipline recordEtag).SafeR (k a) post w) :
    (partsDiscipline recordEtag).SafeR (FileService.lift x >>= k) post w := by
  cases x with
  | error e => exact safe_raise fun t _ _ ↦ hraise e t
  | ok a => exact hk a rfl

/-- The session a call works on is a row with its declaration. -/
theorem ownMultipart_safe (ctx : Identity.PrincipalContext) (id : Uuid) :
    (partsDiscipline recordEtag).SafeR (FileService.ownMultipart ctx id) (fun out t ↦ match out with
      | .ok m => w.Later t ∧ ∃ m', t.store.db.multiparts.lookup id = some m' ∧
          m'.declaredLength = m.declaredLength
      | .error _ => True) w := by
  refine safe_call_bind fun t ht hle ↦ ⟨trivial, fun c ↦ ?_⟩
  obtain ⟨hworld, hvalue⟩ : (t.answer recordEtag (.getMultipart id) c).2 = t ∧ _ :=
    answer_query rfl rfl
  rw [hworld]
  cases hx : (t.answer recordEtag (.getMultipart id) c).1 with
  | error e => exact fun _ _ _ ↦ trivial
  | ok found =>
      obtain rfl := hvalue found hx
      cases hfound : t.store.getMultipart id with
      | none => exact safe_raise fun _ _ _ ↦ trivial
      | some m =>
          have hm : t.store.db.multiparts.lookup id = some m := (Option.filter_eq_some_iff.mp hfound).1
          refine safeR_unguarded_bind unguarded ht (fun _ _ _ _ ↦ trivial) fun _ t' ht' hle' ↦ ?_
          refine safe_return fun u hu hle'' ↦ ?_
          have hlater : t.Later u := hle'.trans hle''
          exact ⟨PartsWorld.Later.trans hle hlater, hlater.declared id m hm⟩

/-- Whatever the others do on its way, a completion which returns has used recorded parts. -/
theorem completeMultipartUpload_safe (fingerprint : FingerprintPayload → String) (tenantId : Uuid)
    (ctx : Identity.PrincipalContext) (id : Uuid) (parts : List (ℕ × String))
    (idempotencyKey : Option String) (hw : w.Recorded) :
    (partsDiscipline recordEtag).SafeR
      (FileService.completeMultipartUpload fingerprint tenantId ctx id parts idempotencyKey)
      (fun out t ↦ match out with
        | .ok _ => UsesRecorded id parts w.journal t
        | .error _ => True) w := by
  refine Discipline.SafeR.bind ((ownMultipart_safe ctx id).consequence ?_) hw
  intro out t ht hown
  cases out with
  | error e => exact fun _ _ _ ↦ trivial
  | ok m =>
  obtain ⟨hlater, m', hm', hlength⟩ := hown
  refine safeR_unguarded_bind unguarded ht (fun _ _ _ _ ↦ trivial) fun command t₁ ht₁ hle₁ ↦ ?_
  refine safeR_unguarded_bind unguarded ht₁ (fun _ _ _ _ ↦ trivial) fun _ t₂ ht₂ hle₂ ↦ ?_
  split
  · exact safe_raise fun _ _ _ ↦ trivial
  refine safe_call_bind fun t₃ ht₃ hle₃ ↦ ⟨trivial, fun c ↦ ?_⟩
  obtain ⟨hworld, hvalue⟩ : (t₃.answer recordEtag (.listMultipartParts id) c).2 = t₃ ∧ _ :=
    answer_query rfl rfl
  rw [hworld]
  cases hx : (t₃.answer recordEtag (.listMultipartParts id) c).1 with
  | error e => exact fun _ _ _ ↦ trivial
  | ok stored =>
  obtain rfl := hvalue stored hx
  refine safe_lift_bind (fun _ _ ↦ trivial) fun _ hcheck ↦ ?_
  obtain ⟨hordered, hrecorded, hsum⟩ := FileService.checkParts_eq_ok hcheck
  have hrow : ∀ {n part}, (t₃.store.listMultipartParts id).lookup n = some part →
      lastRecorded t₃.journal id n = some part := by
    intro n part hpart
    rw [← ht₃ id n]
    exact lookup_listMultipartParts hpart
  have hthere : t.Later t₃ := hle₁.trans (PartsWorld.Later.trans hle₂ hle₃)
  obtain ⟨m₃, hm₃, hlength₃⟩ := hthere.declared id m' hm'
  have huses : UsesRecorded id parts w.journal t₃ := by
    refine ⟨hordered, t₃.journal, m₃, (hlater.trans hthere).journal, List.prefix_refl _,
      fun n etag hmem ↦ ?_, hm₃, ?_⟩
    · obtain ⟨p, hp, hetag⟩ := hrecorded n etag hmem
      exact ⟨p, hrow hp, hetag⟩
    · rw [hlength₃, hlength, ← hsum]
      refine congrArg List.sum (List.map_congr_left fun p hp ↦ ?_)
      obtain ⟨part, hpart, -⟩ := hrecorded p.1 p.2 hp
      rw [hrow hpart, hpart]
  -- the provider and the commit may still refuse, and change nothing of this
  refine safeR_unguarded unguarded (fun out u hu hle ↦ ?_) ht₃
  cases out with
  | ok _ => exact huses.later hle
  | error _ => trivial

end Completion

/-! ## Any number of calls at a time -/

/-- A completion with the journal it found, and whether it returned; the other calls tell
nothing. -/
inductive PartsOutcome where
  | completion (id : Uuid) (parts : List (ℕ × String)) (since : List PartRecord) (returned : Bool)
  | other
  deriving DecidableEq

abbrev PartsMachine : Type :=
  Machine (fun r : FileRequest ↦ Except Raised r.Value) PartsOutcome PartsWorld

abbrev PartsEvent : Type :=
  Machine.Event (fun r : FileRequest ↦ Except Raised r.Value) PartsOutcome ServiceChoice Store

abbrev PartsProgram : Type :=
  Program (fun r : FileRequest ↦ Except Raised r.Value) PartsOutcome

def completionProgram (fingerprint : FingerprintPayload → String) (tenantId : Uuid)
    (ctx : Identity.PrincipalContext) (id : Uuid) (parts : List (ℕ × String))
    (idempotencyKey : Option String) (since : List PartRecord) : PartsProgram := do
  let out ← (FileService.completeMultipartUpload fingerprint tenantId ctx id parts
    idempotencyKey).run
  return .completion id parts since (match out with | .ok _ => true | .error _ => false)

/-- Any other call of the service: uploads of parts, further uploads of the same parts, aborts. -/
def otherProgram {α : Type} (x : FileService α) : PartsProgram := do
  let _ ← x.run
  return .other

namespace PartsWorld

/-- What is done elsewhere. -/
def happen (store : Store) (w : PartsWorld) : PartsWorld :=
  { w with store }

def exec (recordEtag : Uuid → ℕ → String) :
    PartsEvent → PartsMachine → Except Unit PartsMachine :=
  Machine.exec (answer recordEtag) happen

/-- Calls of the service start with the world there is; elsewhere no part is recorded. -/
def Allowed (fingerprint : FingerprintPayload → String) (tenantId : Uuid) (m : PartsMachine) :
    PartsEvent → Prop
  | .start p => (∃ ctx id parts key,
      p = completionProgram fingerprint tenantId ctx id parts key m.world.journal) ∨
      ∃ (α : Type) (x : FileService α), p = otherProgram x
  | .step _ _ => True
  | .outside store => PartsKept m.world.store.db store.db

end PartsWorld

/-- What a finished call says of the parts. -/
def Accounted : PartsOutcome → PartsWorld → Prop
  | .completion id parts since true, w => UsesRecorded id parts since w
  | _, _ => True

section Machine

variable {recordEtag : Uuid → ℕ → String} {fingerprint : FingerprintPayload → String}
  {tenantId : Uuid} {w : PartsWorld}

theorem completionProgram_safe (ctx : Identity.PrincipalContext) (id : Uuid)
    (parts : List (ℕ × String)) (key : Option String) (hw : w.Recorded) :
    (partsDiscipline recordEtag).Safe
      (completionProgram fingerprint tenantId ctx id parts key w.journal) Accounted w := by
  have hsafe : (partsDiscipline recordEtag).SafeR _ _ w :=
    completeMultipartUpload_safe fingerprint tenantId ctx id parts key hw
  refine Discipline.Safe.bind (D := partsDiscipline recordEtag) (hsafe.consequence ?_) hw
  intro out t ht hout _
  cases out with
  | error e => exact fun _ _ _ ↦ trivial
  | ok completed => exact fun u _ hle ↦ UsesRecorded.later hout hle

theorem otherProgram_safe {α : Type} (x : FileService α) (hw : w.Recorded) :
    (partsDiscipline recordEtag).Safe (otherProgram x) Accounted w := by
  refine Discipline.Safe.bind (D := partsDiscipline recordEtag)
    ((partsDiscipline recordEtag).safe_unguarded unguarded (fun _ _ _ _ _ ↦ ?_) hw) hw
  exact fun _ _ _ ↦ trivial

theorem PartsWorld.Allowed.disciplined {m : PartsMachine} {e : PartsEvent}
    (hm : m.world.Recorded) (h : PartsWorld.Allowed fingerprint tenantId m e) :
    Machine.Allowed (partsDiscipline recordEtag) PartsWorld.happen Accounted m e := by
  cases e with
  | start p =>
      rcases h with ⟨ctx, id, parts, key, rfl⟩ | ⟨α, x, rfl⟩
      · exact completionProgram_safe ctx id parts key hm
      · exact otherProgram_safe x hm
  | step i c => exact trivial
  | outside store =>
      refine ⟨fun session n ↦ ?_, List.prefix_refl _, h.declared⟩
      change store.db.parts.lookup (session, n) = _
      rw [h.parts]
      exact hm session n

/-- In every interleaving of calls, a completion which returns has used, in strict order, parts
each of which was the one recorded last when it read them, with the declared length together.  A
row is always what was recorded last, and recording a part again leaves what one recording
leaves. -/
theorem completion_uses_recorded_parts (store : Store) (es : List PartsEvent)
    (hmeets : Meets (PartsWorld.exec recordEtag) (PartsWorld.Allowed fingerprint tenantId)
      ⟨.start store, []⟩ es) :
    (∀ i id parts since,
      (run (PartsWorld.exec recordEtag) ⟨.start store, []⟩ es).returns i
        (.completion id parts since true) →
      UsesRecorded id parts since (run (PartsWorld.exec recordEtag) ⟨.start store, []⟩ es).world) ∧
    (run (PartsWorld.exec recordEtag) ⟨.start store, []⟩ es).world.Recorded ∧
    ∀ (db : Db) (id : Uuid) (n : ℕ) (part part' : MultipartPart),
      recordMultipartPart id n part' (recordMultipartPart id n part db) =
        recordMultipartPart id n part' db := by
  have hstart : Machine.Disciplined (partsDiscipline recordEtag) Accounted
      (⟨.start store, []⟩ : PartsMachine) :=
    ⟨recorded_start store, fun p hp ↦ nomatch hp⟩
  have hrun : Machine.Disciplined (partsDiscipline recordEtag) Accounted
      (run (PartsWorld.exec recordEtag) ⟨.start store, []⟩ es) :=
    Machine.disciplined_run (fun _ _ hm he ↦ he.disciplined hm.1) hstart hmeets
  refine ⟨fun i id parts since hreturns ↦ hrun.result hreturns, hrun.1, ?_⟩
  exact fun db id n part part' ↦ recordMultipartPart_again id n part part' db

end Machine

namespace Sample

/-- The application 5, whose principal is 6, with its API key. -/
def uploader : Identity.PrincipalContext :=
  ⟨Identity.forApplication 6 1 (some 5) (some 7) (some ["files.write"]) none, by decide⟩

def openMultipart : MultipartSession where
  principalId := 6
  storageSpaceId := 2
  applicationId := some 5
  storageNamespace := some "ns"
  profileVersion := 1
  objectKey := "ns/key"
  providerTargetVersion := 1
  providerUploadId := some "upload"
  declaredLength := 1
  contentType := "text/plain"
  checksum := none
  metadata := none
  quotaReservationId := 10
  status := .pending
  expiresAt := 1000

/-- A multipart upload of one byte has been opened. -/
def opened : Store :=
  ⟨{ tenant with multiparts := (∅ : Table Uuid MultipartSession).insert 11 openMultipart }, ∅⟩

def contentDigest : String := String.ofList (List.replicate 64 'a')

/-- The provider takes every part and holds the part `a`. -/
def provider (etag : String) : ServiceChoice where
  now := 0
  intent := ⟨20, 21, 22⟩
  file := 30
  deletion := 31
  operation := ⟨40, 41, 42, fun _ ↦ 43⟩
  raises := none
  takesEffect := true
  outside
    | .read (.bindingsFor ..) => .ok [⟨60, "files.write", .allow, none, 0, 1000, "binding", none⟩]
    | .uploadPart .. => .ok (some etag)
    | .listParts .. => .ok [(1, "a")]
    | .completeMultipartUpload .. => .ok ⟨1, some "etag", some "text/plain", none, none⟩
    | .hashSha256 _ => .ok contentDigest
    | _ => .error (.other "unavailable")

def sendPart (content : UInt8) : PartsProgram :=
  otherProgram (FileService.uploadMultipartPart (fun _ ↦ "") 1 uploader 11
    ⟨1, [content], 1, "digest"⟩ none)

def steps (thread n : ℕ) (etag : String) : List PartsEvent :=
  List.replicate n (.step thread (provider etag))

/-- The first part is sent twice at the same time; the provider takes `b` first. -/
def sentTwice : List PartsEvent :=
  .start (sendPart 2) :: (steps 0 11 "b" ++ .start (sendPart 1) :: steps 1 12 "a")

def partA : PartRecord := ⟨11, 1, ⟨"a", 1, none, some "digest"⟩⟩

def multipartCompletion : PartsProgram :=
  completionProgram (fun _ ↦ "") 1 uploader 11 [(1, "a")] none [partA]

/-- While the completion is at the provider, the record of `b` is committed. -/
def lateRecord : List PartsEvent :=
  sentTwice ++
    .start multipartCompletion :: (steps 2 9 "a" ++ (steps 0 1 "b" ++ steps 2 4 "a"))

/-- The machine the sample calls run on. -/
abbrev partsRun (es : List PartsEvent) : PartsMachine :=
  run (PartsWorld.exec fun _ _ ↦ "") ⟨.start opened, []⟩ es

theorem meets_steps (m : PartsMachine) (thread n : ℕ) (etag : String) :
    Meets (PartsWorld.exec fun _ _ ↦ "") (PartsWorld.Allowed (fun _ ↦ "") 1) m
      (steps thread n etag) := by
  induction n generalizing m with
  | zero => trivial
  | succ n ih => exact ⟨trivial, ih _⟩

theorem meets_lateRecord :
    Meets (PartsWorld.exec fun _ _ ↦ "") (PartsWorld.Allowed (fun _ ↦ "") 1)
      ⟨.start opened, []⟩ lateRecord := by
  have hother : ∀ m content, PartsWorld.Allowed (fun _ ↦ "") 1 m (.start (sendPart content)) :=
    fun _ _ ↦ Or.inr ⟨_, _, rfl⟩
  have htwice : Meets (PartsWorld.exec fun _ _ ↦ "") (PartsWorld.Allowed (fun _ ↦ "") 1)
      ⟨.start opened, []⟩ sentTwice :=
    ⟨hother _ 2, (meets_append _).mpr ⟨meets_steps _ _ _ _, hother _ 1, meets_steps _ _ _ _⟩⟩
  refine (meets_append _).mpr ⟨htwice, ?_, ?_⟩
  · have hjournal : (partsRun sentTwice).world.journal = [partA] := by
      decide +kernel
    refine Or.inl ⟨uploader, 11, [(1, "a")], none, ?_⟩
    rw [hjournal]
    rfl
  · exact (meets_append _).mpr ⟨meets_steps _ _ _ _,
      (meets_append _).mpr ⟨meets_steps _ _ _ _, meets_steps _ _ _ _⟩⟩

end Sample

/-- What a thread of the machine has returned. -/
def returned (m : PartsMachine) (i : ℕ) : Option PartsOutcome :=
  match m.threads[i]? with
  | some (.done a) => some a
  | _ => none

theorem returns_of_returned {m : PartsMachine} {i : ℕ} {a : PartsOutcome}
    (h : returned m i = some a) : m.returns i a := by
  unfold returned at h
  split at h
  · rename_i b hb
    obtain rfl := Option.some.inj h
    exact hb
  · cases h

open Sample in
theorem lateRecord_returns :
    (partsRun lateRecord).returns 2 (.completion 11 [(1, "a")] [partA] true) :=
  returns_of_returned (by decide +kernel)

open Sample in
/-- A completion has returned, and used the part it was told. -/
theorem completion_uses_recorded_parts_sample :
    UsesRecorded 11 [(1, "a")] [partA] (partsRun lateRecord).world :=
  (completion_uses_recorded_parts opened lateRecord meets_lateRecord).1 2 11 [(1, "a")] [partA]
    lateRecord_returns

open Sample in
/-- When the completion returns, another upload of its part has been recorded last. -/
theorem part_recorded_meanwhile :
    ¬ ∀ (recordEtag : Uuid → ℕ → String) (fingerprint : FingerprintPayload → String)
      (tenantId : Uuid) (store : Store) (es : List PartsEvent),
      Meets (PartsWorld.exec recordEtag) (PartsWorld.Allowed fingerprint tenantId)
        ⟨.start store, []⟩ es →
      ∀ i id parts since,
        (run (PartsWorld.exec recordEtag) ⟨.start store, []⟩ es).returns i
          (.completion id parts since true) →
        ∀ n etag, (n, etag) ∈ parts → ∃ p, lastRecorded
          (run (PartsWorld.exec recordEtag) ⟨.start store, []⟩ es).world.journal id n = some p ∧
            p.etag = etag := by
  intro h
  obtain ⟨p, hp, hetag⟩ := h (fun _ _ ↦ "") (fun _ ↦ "") 1 opened lateRecord meets_lateRecord 2 11
    [(1, "a")] [partA] lateRecord_returns 1 "a" (by simp)
  have hlast : (lastRecorded (partsRun lateRecord).world.journal 11 1).map (·.etag) = some "b" := by
    decide +kernel
  generalize (partsRun lateRecord).world.journal = journal at hp hlast
  rw [hp, Option.map_some, hetag] at hlast
  exact absurd (Option.some.inj hlast) (by decide)

end S3mp
