import S3mp.Files.ServiceWorld
import S3mp.Relational.Numbered
import S3mp.Transition.Play
import S3mp.Uploads.Parts

/-!
# Completing a multipart upload

The request, the recorded parts and the parts the provider lists are compared before the
provider is asked to assemble the object.  The adapter asks for one page of the listing.
-/

namespace S3mp

open Relational Authorization Identity Storage Files Transition

/-! ## The adapter of the object storage -/

/-- `str.strip('"')` -/
def stripQuotes (etag : String) : String :=
  String.ofList (((etag.toList.dropWhile (· = '"')).reverse.dropWhile (· = '"')).reverse)

/-- The parts in one answer of the provider. -/
def pageLimit : ℕ := 1000

/-- `list_parts` of the adapter: the provider's first answer, which lists parts in ascending
order. -/
def listParts (held : List (ℕ × String)) : List (ℕ × String) :=
  (held.take pageLimit).map fun p ↦ (p.1, stripQuotes p.2)

/-- The database, and the ETag of each part which the provider holds of an upload. -/
structure ProviderWorld where
  store : Store
  held : Table (String × ℕ) String

/-- What is decided outside about the requests of one call: besides the answers the ETag which
the provider gives to a part. -/
structure PartChoice where
  service : ServiceChoice
  etag : String

namespace ProviderWorld

variable (recordEtag : Uuid → ℕ → String) (c : PartChoice)

/-- The provider keeps the latest part of each number. -/
def answer : (r : FileRequest) → ProviderWorld → Except Raised r.Value × ProviderWorld
  | .uploadPart _ uploadId n _, w =>
    match c.service.raises with
    | some e => (.error e, w)
    | none => (.ok (some (stripQuotes c.etag)),
        { w with held := w.held.insert (uploadId, n) c.etag })
  | .listParts _ uploadId, w =>
    match c.service.raises with
    | some e => (.error e, w)
    | none => (.ok (listParts (w.held.numbered uploadId)), w)
  | r, w => ((w.store.answer recordEtag c.service r).1,
      { w with store := (w.store.answer recordEtag c.service r).2 })

end ProviderWorld

/-! ## Calls which only read -/

/-- Requests which change neither the tables nor what the provider holds. -/
def Queries : FileRequest → Prop
  | .read _ | .getMultipart _ | .listMultipartParts _ | .listParts .. | .getForSession _ => True
  | _ => False

variable {recordEtag : Uuid → ℕ → String} {c : PartChoice} {w w' : ProviderWorld}

theorem answer_keeps {s : Store} {c : ServiceChoice} {r : FileRequest}
    (h : ∀ x s', s.perform recordEtag c r = .ok (x, s') → s' = s) :
    (s.answer recordEtag c r).2 = s := by
  rcases s.answer_cases recordEtag c r with ⟨e, he⟩ | ⟨x, s', hperform, hdone⟩
  · rw [he]
  · obtain rfl := h x s' hperform
    rcases hdone with ⟨-, hdone⟩ | ⟨e, -, -, hdone⟩
    · rw [hdone]
    · rw [hdone]

theorem answer_queries (r : FileRequest) (w : ProviderWorld) (hr : Queries r) :
    (w.answer recordEtag c r).2 = w := by
  have hstore : ∀ s, s = w.store → ({ w with store := s } : ProviderWorld) = w := by
    rintro s rfl
    rfl
  cases r with
  | listParts target uploadId =>
      simp only [ProviderWorld.answer]
      split <;> rfl
  | read r =>
      refine hstore _ (answer_keeps fun x s' hperform ↦ ?_)
      cases r with
      | now | getSpace => exact (Store.query_eq_ok hperform).2
      | _ => exact Store.outside_eq_ok hperform
  | getMultipart | listMultipartParts | getForSession =>
      exact hstore _ (answer_keeps fun x s' hperform ↦ (Store.query_eq_ok hperform).2)
  | _ => exact absurd hr id

namespace Files.FileService

variable {P : FileRequest → Prop}

theorem only_lift {α : Type} (x : Except Raised α) : OnlyR P (lift x) := by
  cases x with
  | ok a => exact onlyR_pure a
  | error e => exact onlyR_throw e

section

variable (hread : ∀ r, P (.read r))
include hread

theorem only_resolveSpace (spaceId : Uuid) : OnlyR P (resolveSpace spaceId) := by
  refine onlyR_bind (onlyR_call (hread _)) fun space ↦ ?_
  cases space with
  | none => exact onlyR_throw _
  | some space => exact onlyR_pure space

variable (fingerprint : FingerprintPayload → String) (tenantId : Uuid) (ctx : PrincipalContext)

theorem only_command (spaceId : Uuid) (i : CommandInput) :
    OnlyR P (command fingerprint tenantId ctx spaceId i) := by
  refine onlyR_bind (only_resolveSpace hread spaceId) fun space ↦ onlyR_bind ?_ fun _ ↦ ?_
  · unfold requireApplicationNamespace
    split
    · exact onlyR_throw _
    · exact onlyR_pure _
  · refine onlyR_bind (onlyR_call (hread _)) fun bindings ↦ ?_
    exact onlyR_bind (onlyR_call (hread _)) fun now ↦ only_lift _

theorem only_commandForRecord (record : StoredKey) (action : String) (key : Option String)
    (semantics : Semantics) :
    OnlyR P (commandForRecord fingerprint tenantId ctx record action key semantics) := by
  refine onlyR_bind (only_resolveSpace hread _) fun space ↦ ?_
  split
  · exact onlyR_throw _
  · exact onlyR_bind (only_lift _) fun key ↦ only_command hread fingerprint tenantId ctx _ _

end

variable (fingerprint : FingerprintPayload → String) (tenantId : Uuid) (ctx : PrincipalContext)

theorem queries_commandForRecord (record : StoredKey) (action : String) (key : Option String)
    (semantics : Semantics) :
    OnlyR Queries (commandForRecord fingerprint tenantId ctx record action key semantics) :=
  only_commandForRecord (fun _ ↦ trivial) fingerprint tenantId ctx record action key semantics

theorem queries_ownMultipart (id : Uuid) : OnlyR Queries (ownMultipart ctx id) := by
  refine onlyR_bind (onlyR_call trivial) fun found ↦ ?_
  cases found with
  | none => exact onlyR_throw _
  | some m =>
      refine onlyR_bind ?_ fun _ ↦ onlyR_pure m
      unfold checkOwnership
      split
      · exact onlyR_throw _
      · exact onlyR_pure _

end Files.FileService

/-! ## Accepted parts -/

/-- What others do meanwhile concerns neither the parts of the upload nor its provider session. -/
structure SameParts (id : Uuid) (uploadId : String) (w w' : ProviderWorld) : Prop where
  parts : ∀ n, w'.store.db.parts.lookup (id, n) = w.store.db.parts.lookup (id, n)
  held : ∀ n, w'.held.lookup (uploadId, n) = w.held.lookup (uploadId, n)
  session : ∀ m, w.store.db.multiparts.lookup id = some m →
    ∃ m', w'.store.db.multiparts.lookup id = some m' ∧ m'.providerUploadId = m.providerUploadId

/-- The worlds which accepted uploads of parts lead to, in any order and with repeats. -/
inductive PartHistory (recordEtag : Uuid → ℕ → String) (fingerprint : FingerprintPayload → String)
    (tenantId id : Uuid) (uploadId : String) : ProviderWorld → Prop
  | opened {w : ProviderWorld} {m : MultipartSession}
    (session : w.store.db.multiparts.lookup id = some m)
    (provider : truthy m.providerUploadId = some uploadId)
    (noPart : ∀ n, w.store.db.parts.lookup (id, n) = none)
    (noneHeld : ∀ n, w.held.lookup (uploadId, n) = none) :
    PartHistory recordEtag fingerprint tenantId id uploadId w
  | uploaded {w w' : ProviderWorld} {c : PartChoice} {ctx : PrincipalContext}
    {p : FileService.PartUpload} {key : Option String} {part : MultipartPart}
    (earlier : PartHistory recordEtag fingerprint tenantId id uploadId w)
    (accepted : (FileService.uploadMultipartPart fingerprint tenantId ctx id p key).run.play
      (ProviderWorld.answer recordEtag c) w = (.ok part, w')) :
    PartHistory recordEtag fingerprint tenantId id uploadId w'
  | elsewhere {w w' : ProviderWorld}
    (earlier : PartHistory recordEtag fingerprint tenantId id uploadId w)
    (same : SameParts id uploadId w w') :
    PartHistory recordEtag fingerprint tenantId id uploadId w'

/-- The provider holds exactly the recorded parts. -/
structure InStep (id : Uuid) (uploadId : String) (w : ProviderWorld) : Prop where
  session : ∃ m, w.store.db.multiparts.lookup id = some m ∧
    truthy m.providerUploadId = some uploadId
  agree : ∀ n, (w.store.db.parts.lookup (id, n)).map (·.etag) =
    (w.held.lookup (uploadId, n)).map stripQuotes

theorem InStep.elsewhere {id : Uuid} {uploadId : String} (h : InStep id uploadId w)
    (hsame : SameParts id uploadId w w') : InStep id uploadId w' := by
  obtain ⟨m, hm, hprovider⟩ := h.session
  obtain ⟨m', hm', hsession⟩ := hsame.session m hm
  refine ⟨⟨m', hm', hsession ▸ hprovider⟩, fun n ↦ ?_⟩
  rw [hsame.parts, hsame.held]
  exact h.agree n

section

variable {fingerprint : FingerprintPayload → String} {tenantId id : Uuid} {uploadId : String}
  {ctx : PrincipalContext} {m : MultipartSession} {p : FileService.PartUpload}
  {key : Option String} {part : MultipartPart}

/-- What a part of a program which reads and returns leaves of the world. -/
theorem play_queries_snd {α : Type} {x : FileService α} (hx : OnlyR Queries x) (w : ProviderWorld) :
    (x.run.play (ProviderWorld.answer recordEtag c) w).2 = w :=
  Program.play_only answer_queries hx w

theorem play_queries {α : Type} {x : FileService α} (hx : OnlyR Queries x) {a : α}
    (h : x.run.play (ProviderWorld.answer recordEtag c) w = (.ok a, w')) : w' = w := by
  have hkeep : (x.run.play (ProviderWorld.answer recordEtag c) w).2 = w := play_queries_snd hx w
  rwa [h] at hkeep

/-- The session a call goes on with is the row it has found. -/
theorem play_ownMultipart
    (h : (FileService.ownMultipart ctx id).run.play (ProviderWorld.answer recordEtag c) w =
      (.ok m, w')) : w' = w ∧ w.store.db.multiparts.lookup id = some m := by
  refine ⟨play_queries (FileService.queries_ownMultipart ctx id) h, ?_⟩
  obtain ⟨found, u, hfound, hrest⟩ := of_play_bind h
  have hanswer : (w.store.answer recordEtag c.service (.getMultipart id)).1 = .ok found :=
    congrArg Prod.fst hfound
  have hrow : found = w.store.getMultipart id := by
    rcases w.store.answer_cases recordEtag c.service (.getMultipart id) with
      ⟨e, he⟩ | ⟨x, s', hperform, hdone⟩
    · have herror := hanswer.symm.trans (congrArg Prod.fst he)
      cases herror
    · obtain ⟨hx, -⟩ := Store.query_eq_ok hperform
      rcases hdone with ⟨-, hdone⟩ | ⟨e, -, -, hdone⟩
      · have hok := hanswer.symm.trans (congrArg Prod.fst hdone)
        exact (Except.ok.inj hok).trans hx
      · have herror := hanswer.symm.trans (congrArg Prod.fst hdone)
        cases herror
  cases found with
  | none => cases hrest
  | some m' =>
      obtain ⟨_, _, -, hreturn⟩ := of_play_bind hrest
      have hm : m' = m := Except.ok.inj (congrArg Prod.fst hreturn)
      exact hm ▸ (Option.filter_eq_some_iff.mp hrow.symm).1

theorem play_ensureMultipartActive {u : Unit}
    (h : (FileService.ensureMultipartActive tenantId id m).run.play
      (ProviderWorld.answer recordEtag c) w = (.ok u, w')) : w' = w := by
  obtain ⟨now, t, hnow, hrest⟩ := of_play_bind h
  obtain rfl := play_queries (x := FileService.read .now) (onlyR_call trivial) hnow
  split at hrest
  · -- a lapsed upload is refused in the end
    exfalso
    have hrefused : ∀ {t w' : ProviderWorld} {u : Unit}, (do
        FileService.call (.expireMultipart id)
        FileService.expireIngestion (.multipart id)
        FileService.fail "resource_expired" "Multipart upload has expired" 410 :
          FileService Unit).run.play (ProviderWorld.answer recordEtag c) t ≠ (.ok u, w') := by
      intro t w' u h
      obtain ⟨_, _, -, h⟩ := of_play_bind h
      obtain ⟨_, _, -, h⟩ := of_play_bind h
      cases h
    split at hrest
    · exact hrefused hrest
    · obtain ⟨_, _, -, hrest⟩ := of_play_bind hrest
      exact hrefused hrest
  · exact (congrArg Prod.snd hrest).symm

theorem play_uploadPart {target : ProviderTarget} {n : ℕ} {content : List UInt8}
    {etag : Option String}
    (h : (FileService.call (.uploadPart target uploadId n content)).run.play
      (ProviderWorld.answer recordEtag c) w = (.ok etag, w')) :
    c.service.raises = none ∧ etag = some (stripQuotes c.etag) ∧
      w' = { w with held := w.held.insert (uploadId, n) c.etag } := by
  have hanswer : w.answer recordEtag c (.uploadPart target uploadId n content) = (.ok etag, w') := h
  simp only [ProviderWorld.answer] at hanswer
  split at hanswer
  · cases hanswer
  · rename_i hraises
    cases hanswer
    exact ⟨hraises, rfl, rfl⟩

theorem play_recordPart {n : ℕ} {recorded : MultipartPart} (hraises : c.service.raises = none)
    (h : (FileService.call (.recordMultipartPart id n recorded)).run.play
      (ProviderWorld.answer recordEtag c) w = (.ok part, w')) :
    w' = { w with store := w.store.put (recordMultipartPart id n recorded w.store.db) } := by
  have hstore : w.store.answer recordEtag c.service (.recordMultipartPart id n recorded) =
      (.ok recorded, w.store.put (recordMultipartPart id n recorded w.store.db)) := by
    rw [Store.answer, hraises]
    rfl
  have hanswer : w.answer recordEtag c (.recordMultipartPart id n recorded) = (.ok part, w') := h
  simp only [ProviderWorld.answer, hstore] at hanswer
  exact (Prod.mk.inj hanswer).2.symm

theorem InStep.sendPart (h : InStep id uploadId w)
    (hm : w.store.db.multiparts.lookup id = some m)
    (hplay : (FileService.sendPart fingerprint tenantId ctx id m p key).run.play
      (ProviderWorld.answer recordEtag c) w = (.ok part, w')) : InStep id uploadId w' := by
  obtain ⟨m', hm', hprovider⟩ := h.session
  obtain rfl : m = m' := Option.some.inj (hm.symm.trans hm')
  unfold FileService.sendPart at hplay
  rw [hprovider] at hplay
  obtain ⟨command, t, hcommand, hsend⟩ := of_play_bind hplay
  obtain rfl := play_queries (FileService.queries_commandForRecord ..) hcommand
  obtain ⟨etag, t', hupload, hrecord⟩ := of_play_bind hsend
  obtain ⟨hraises, rfl, rfl⟩ := play_uploadPart hupload
  split at hrecord
  · cases hrecord
  rename_i etag hetag
  obtain rfl : stripQuotes c.etag = etag :=
    Option.some.inj (Option.filter_eq_some_iff.mp hetag).1
  rw [play_recordPart hraises hrecord]
  refine ⟨⟨m, hm, hprovider⟩, fun n ↦ ?_⟩
  dsimp only [Store.put, recordMultipartPart]
  rw [AList.lookup_insert', AList.lookup_insert']
  by_cases hn : n = p.partNumber
  · rw [if_pos (by rw [hn]), if_pos (by rw [hn])]
    rfl
  · rw [if_neg fun heq ↦ hn (Prod.mk.inj heq).2, if_neg fun heq ↦ hn (Prod.mk.inj heq).2]
    exact h.agree n

theorem InStep.uploadMultipartPart (h : InStep id uploadId w)
    (hplay : (FileService.uploadMultipartPart fingerprint tenantId ctx id p key).run.play
      (ProviderWorld.answer recordEtag c) w = (.ok part, w')) : InStep id uploadId w' := by
  obtain ⟨m, t, hown, hguards⟩ := of_play_bind hplay
  obtain ⟨rfl, hm⟩ := play_ownMultipart hown
  obtain ⟨command, t', hcommand, hactive⟩ := of_play_bind hguards
  obtain rfl := play_queries (FileService.queries_commandForRecord ..) hcommand
  obtain ⟨_, t', hactive, hchecks⟩ := of_play_bind hactive
  obtain rfl := play_ensureMultipartActive hactive
  split at hchecks
  · cases hchecks
  split at hchecks
  · cases hchecks
  split at hchecks
  · exact h.sendPart hm hchecks
  · obtain ⟨stored, t', hstored, hreplay⟩ := of_play_bind hchecks
    obtain rfl := play_queries (onlyR_call (r := FileRequest.listMultipartParts id) trivial) hstored
    obtain ⟨replayed, t', hreplayed, hreturn⟩ := of_play_bind hreplay
    obtain rfl := play_queries (FileService.only_lift _) hreplayed
    cases replayed with
    | none => exact h.sendPart hm hreturn
    | some part =>
        have hworld : t' = w' := congrArg Prod.snd hreturn
        exact hworld ▸ h

theorem PartHistory.inStep (h : PartHistory recordEtag fingerprint tenantId id uploadId w) :
    InStep id uploadId w := by
  induction h with
  | opened session provider noPart noneHeld =>
      refine ⟨⟨_, session, provider⟩, fun n ↦ ?_⟩
      rw [noPart, noneHeld]
      rfl
  | uploaded earlier accepted ih => exact ih.uploadMultipartPart accepted
  | elsewhere earlier same ih => exact ih.elsewhere same

end

/-! ## The checks of a completion -/

/-- The part list a client sends which has kept what each upload returned. -/
def recordedParts (id : Uuid) (s : Store) : List (ℕ × String) :=
  (s.listMultipartParts id).map fun p ↦ (p.1, p.2.etag)

theorem recordedParts_ascending (id : Uuid) (s : Store) :
    AList.Ascending (recordedParts id s) :=
  (s.db.parts.numbered_ascending id).map _

/-- The recorded parts pass against themselves. -/
theorem checkParts_recorded {id : Uuid} {s : Store} {m : MultipartSession}
    (hsum : ((s.listMultipartParts id).map (·.2.contentLength)).sum = m.declaredLength) :
    FileService.checkParts m (recordedParts id s) (s.listMultipartParts id) = .ok () := by
  have hascending := s.db.parts.numbered_ascending id
  have hlookup : ∀ p ∈ s.listMultipartParts id, (s.listMultipartParts id).lookup p.1 = some p.2 :=
    fun p hp ↦ (AList.lookup_eq_some_iff_mem hascending.nodup).mpr hp
  have hordered : (recordedParts id s).map Prod.fst =
      ((recordedParts id s).map Prod.fst).dedup.insertionSort (· ≤ ·) := by
    have hsorted : ((recordedParts id s).map Prod.fst).Pairwise (· < ·) :=
      List.pairwise_map.mpr (recordedParts_ascending id s)
    rw [List.Nodup.dedup (hsorted.imp ne_of_lt)]
    exact (List.Pairwise.insertionSort_eq (hsorted.imp le_of_lt)).symm
  rw [FileService.checkParts, if_neg (not_not.mpr hordered), if_neg ?matched, if_neg ?total]
  case matched =>
    rw [List.any_eq_true]
    rintro ⟨⟨n, etag⟩, hmem, hnone⟩
    obtain ⟨p, hp, heq⟩ := List.mem_map.mp hmem
    obtain ⟨rfl, rfl⟩ := Prod.mk.inj heq
    simp [hlookup p hp] at hnone
  case total =>
    rw [not_not, ← hsum, recordedParts, List.map_map]
    refine congrArg List.sum (List.map_congr_left fun p hp ↦ ?_)
    change ((s.listMultipartParts id).lookup p.1).elim 0 _ = _
    rw [hlookup p hp]
    rfl

/-- Against one page of the listing the parts pass if and only if they are on it. -/
theorem checkInventory_page_iff {parts : List (ℕ × String)} (h : AList.Ascending parts) :
    FileService.checkInventory parts (parts.take pageLimit) = .ok () ↔
      parts.length ≤ pageLimit := by
  have hpage : ∀ {n etag}, (parts.take pageLimit).reverse.lookup n = some etag ↔
      (n, etag) ∈ parts.take pageLimit := by
    intro n etag
    have hnodup : ((parts.take pageLimit).map Prod.fst).Nodup :=
      AList.Ascending.nodup (List.Pairwise.take h)
    rw [AList.lookup_eq_some_iff_mem, List.mem_reverse]
    rwa [List.map_reverse, List.nodup_reverse]
  constructor
  · intro hpass
    by_contra hlong
    push Not at hlong
    -- the first part after the page is not listed
    obtain ⟨p, hp⟩ : ∃ p, parts[pageLimit]? = some p := ⟨_, List.getElem?_eq_getElem hlong⟩
    have hmem := List.mem_of_getElem? hp
    have hmissing : p ∉ parts.take pageLimit := by
      intro hlisted
      obtain ⟨i, hi, heq⟩ := List.mem_iff_getElem.mp hlisted
      have hlt : i < pageLimit := (List.length_take ▸ hi).trans_le (Nat.min_le_left _ _)
      have hnodup := h.nodup.of_map
      rw [List.getElem_take] at heq
      rw [List.getElem?_eq_getElem hlong, Option.some.injEq] at hp
      have hsame := (List.Nodup.getElem_inj_iff hnodup).mp (heq.trans hp.symm)
      omega
    rw [FileService.checkInventory, if_pos] at hpass
    · cases hpass
    · refine List.any_eq_true.mpr ⟨p, hmem, ?_⟩
      simpa using fun hlisted ↦ hmissing (hpage.mp hlisted)
  · intro hshort
    rw [FileService.checkInventory, if_neg]
    rw [List.any_eq_true]
    rintro ⟨⟨n, etag⟩, hmem, hmissing⟩
    rw [← List.take_of_length_le hshort] at hmem
    simp [hpage.mpr hmem] at hmissing

/-! ## Reaching the provider -/

section

variable {fingerprint : FingerprintPayload → String} {tenantId id : Uuid} {uploadId : String}
  {ctx : PrincipalContext} {key : Option String}

/-- An open session of the caller, who may still write; no request fails. -/
structure OpenTo (recordEtag : Uuid → ℕ → String) (fingerprint : FingerprintPayload → String)
    (tenantId : Uuid) (ctx : PrincipalContext) (id : Uuid) (key : Option String)
    (semantics : Semantics) (c : PartChoice) (w : ProviderWorld) (m : MultipartSession)
    (command : AuthorizedFileCommand) : Prop where
  noFailure : c.service.raises = none
  session : w.store.getMultipart id = some m
  owner : m.principalId = ctx.actorPrincipalId.getD ctx.principalId
  pending : m.status = .pending
  unexpired : c.service.now < m.expiresAt
  authorised : ((FileService.commandForRecord fingerprint tenantId ctx m.stored "files.write" key
    semantics).run.play (ProviderWorld.answer recordEtag c) w).1 = .ok command

/-- The parts of an open session have the declared length in all. -/
structure Completable (recordEtag : Uuid → ℕ → String) (fingerprint : FingerprintPayload → String)
    (tenantId : Uuid) (ctx : PrincipalContext) (id : Uuid) (key : Option String) (c : PartChoice)
    (w : ProviderWorld) (m : MultipartSession) (command : AuthorizedFileCommand) : Prop
    extends OpenTo recordEtag fingerprint tenantId ctx id key
      (.parts (recordedParts id w.store)) c w m command where
  declared : 0 < m.declaredLength
  whole : ((w.store.listMultipartParts id).map (·.2.contentLength)).sum = m.declaredLength

theorem storeAnswer_query {r : FileRequest} {a : r.Value} {s : Store} {c : ServiceChoice}
    (hraises : c.raises = none) (h : s.perform recordEtag c r = s.query a) :
    s.answer recordEtag c r = (.ok a, s) := by
  rw [Store.answer, hraises, h]
  rfl

theorem listParts_eq_take (h : InStep id uploadId w) :
    listParts (w.held.numbered uploadId) = (recordedParts id w.store).take pageLimit := by
  have hsame : recordedParts id w.store =
      (w.held.numbered uploadId).map fun p ↦ (p.1, stripQuotes p.2) :=
    AList.numbered_map_eq h.agree
  rw [listParts, List.map_take, ← hsame]

variable {m : MultipartSession} {command : AuthorizedFileCommand} {semantics : Semantics}

theorem play_query {r : FileRequest} {a : r.Value} (hraises : c.service.raises = none)
    (hquery : w.store.perform recordEtag c.service r = w.store.query a)
    (hanswer : w.answer recordEtag c r = ((w.store.answer recordEtag c.service r).1,
      { w with store := (w.store.answer recordEtag c.service r).2 })) :
    (FileService.call r).run.play (ProviderWorld.answer recordEtag c) w = (.ok a, w) := by
  change w.answer recordEtag c r = _
  rw [hanswer, storeAnswer_query hraises hquery]

theorem OpenTo.play_own
    (h : OpenTo recordEtag fingerprint tenantId ctx id key semantics c w m command) :
    (FileService.ownMultipart ctx id).run.play (ProviderWorld.answer recordEtag c) w =
      (.ok m, w) := by
  have hcall : (FileService.call (.getMultipart id)).run.play (ProviderWorld.answer recordEtag c) w =
      (.ok (some m), w) := by
    rw [← h.session]
    exact play_query h.noFailure rfl rfl
  refine (play_bind_ok hcall).trans ?_
  have howner : FileService.checkOwnership m.principalId ctx = pure () :=
    if_neg (not_not.mpr h.owner)
  dsimp only
  rw [howner]
  rfl

theorem OpenTo.play_now
    (h : OpenTo recordEtag fingerprint tenantId ctx id key semantics c w m command) :
    (FileService.read .now).run.play (ProviderWorld.answer recordEtag c) w =
      (.ok c.service.now, w) :=
  play_query h.noFailure rfl rfl

theorem OpenTo.not_lapsed
    (h : OpenTo recordEtag fingerprint tenantId ctx id key semantics c w m command) :
    ¬ (m.expiresAt ≤ c.service.now ∧ m.status = .pending) :=
  fun hlapsed ↦ absurd h.unexpired (not_lt.mpr hlapsed.1)

theorem OpenTo.play_active
    (h : OpenTo recordEtag fingerprint tenantId ctx id key semantics c w m command) :
    (FileService.ensureMultipartActive tenantId id m).run.play
      (ProviderWorld.answer recordEtag c) w = (.ok (), w) := by
  refine (play_bind_ok h.play_now).trans ?_
  dsimp only
  rw [if_neg h.not_lapsed]
  rfl

theorem OpenTo.play_command
    (h : OpenTo recordEtag fingerprint tenantId ctx id key semantics c w m command) :
    (FileService.commandForRecord fingerprint tenantId ctx m.stored "files.write" key
      semantics).run.play (ProviderWorld.answer recordEtag c) w =
        (.ok command, w) :=
  Prod.ext h.authorised (play_queries_snd (FileService.queries_commandForRecord fingerprint tenantId
    ctx m.stored "files.write" key semantics) w)

theorem InStep.completion_requested_iff (hstep : InStep id uploadId w)
    (h : Completable recordEtag fingerprint tenantId ctx id key c w m command) :
    FileRequest.completeMultipartUpload command.providerTarget uploadId (recordedParts id w.store) ∈
        (FileService.completeMultipartUpload fingerprint tenantId ctx id
          (recordedParts id w.store) key).run.trace (ProviderWorld.answer recordEtag c) w ↔
      (w.store.listMultipartParts id).length ≤ 1000 := by
  have hprovider : truthy m.providerUploadId = some uploadId := by
    obtain ⟨m', hm', hprovider⟩ := hstep.session
    have hm := (Option.filter_eq_some_iff.mp h.session).1
    rwa [Option.some.inj (hm.symm.trans hm')]
  generalize hrequest : FileRequest.completeMultipartUpload command.providerTarget uploadId
    (recordedParts id w.store) = request
  -- what only reads does not ask for the assembly
  have hskip : ∀ {α : Type} {x : FileService α}, OnlyR Queries x →
      request ∉ x.run.trace (ProviderWorld.answer recordEtag c) w := by
    intro α x hx hmem
    have hreads := Program.mem_trace_of_only hx hmem
    rw [← hrequest] at hreads
    exact hreads
  have hactive : request ∉ (FileService.ensureMultipartActive tenantId id m).run.trace
      (ProviderWorld.answer recordEtag c) w := by
    unfold FileService.ensureMultipartActive
    rw [mem_trace_bind h.toOpenTo.play_now (hskip (onlyR_call (r := FileRequest.read .now) trivial)),
      if_neg h.toOpenTo.not_lapsed]
    exact List.not_mem_nil
  unfold FileService.completeMultipartUpload
  rw [mem_trace_bind h.toOpenTo.play_own (hskip (FileService.queries_ownMultipart ctx id)),
    mem_trace_bind h.toOpenTo.play_command (hskip (FileService.queries_commandForRecord ..)),
    mem_trace_bind h.toOpenTo.play_active hactive, hprovider]
  dsimp only
  have hstored : (FileService.call (.listMultipartParts id)).run.play
      (ProviderWorld.answer recordEtag c) w = (.ok (w.store.listMultipartParts id), w) :=
    play_query h.noFailure rfl rfl
  have hlisted : (FileService.call (.listParts command.providerTarget uploadId)).run.play
      (ProviderWorld.answer recordEtag c) w =
        (.ok ((recordedParts id w.store).take pageLimit), w) := by
    rw [← listParts_eq_take hstep]
    change w.answer recordEtag c (.listParts command.providerTarget uploadId) = _
    simp only [ProviderWorld.answer, h.noFailure]
  have hlift : ∀ {x : Except Raised Unit}, OnlyR Queries (FileService.lift x) :=
    FileService.only_lift _
  rw [mem_trace_bind hstored (hskip (onlyR_call (r := FileRequest.listMultipartParts id) trivial)),
    checkParts_recorded h.whole, mem_trace_bind (t := w) (a := ()) rfl (hskip hlift),
    mem_trace_bind hlisted (hskip (onlyR_call (r := FileRequest.listParts _ _) trivial))]
  have hpage := checkInventory_page_iff (recordedParts_ascending id w.store)
  have hlength : (recordedParts id w.store).length = (w.store.listMultipartParts id).length :=
    List.length_map _
  rw [hlength] at hpage
  change _ ↔ _ ≤ pageLimit
  rw [← hpage]
  cases hcheck : FileService.checkInventory (recordedParts id w.store)
      ((recordedParts id w.store).take pageLimit) with
  | error e =>
      refine iff_of_false (not_mem_trace_bind (t := w) (e := e) rfl (hskip hlift)) ?_
      exact fun hok ↦ by cases hok
  | ok u =>
      refine iff_of_true ?_ rfl
      rw [mem_trace_bind (t := w) (a := u) rfl (hskip hlift)]
      have hsession : (FileService.call (.getForSession (.multipart id))).run.play
          (ProviderWorld.answer recordEtag c) w =
            (.ok (w.store.getForSession (.multipart id)), w) := play_query h.noFailure rfl rfl
      rw [mem_trace_bind hsession (hskip (onlyR_call (r := FileRequest.getForSession _) trivial)),
        ← hrequest]
      exact List.mem_cons_self

/-- The provider is asked to assemble the object if and only if one page lists all parts. -/
theorem completion_reaches_provider_iff
    (hhistory : PartHistory recordEtag fingerprint tenantId id uploadId w)
    (h : Completable recordEtag fingerprint tenantId ctx id key c w m command) :
    FileRequest.completeMultipartUpload command.providerTarget uploadId (recordedParts id w.store) ∈
        (FileService.completeMultipartUpload fingerprint tenantId ctx id
          (recordedParts id w.store) key).run.trace (ProviderWorld.answer recordEtag c) w ↔
      (w.store.listMultipartParts id).length ≤ 1000 :=
  hhistory.inStep.completion_requested_iff h

end

namespace Sample

/-- A multipart upload of `k` bytes. -/
def openedFor (k : ℕ) : MultipartSession :=
  { openMultipart with declaredLength := k }

def byteUpload (n : ℕ) : FileService.PartUpload := ⟨n, [0], 1, "digest"⟩

def bytePart : MultipartPart := ⟨"a", 1, none, some "digest"⟩

def calls : PartChoice := ⟨provider "a", "a"⟩

/-- The upload of `k` bytes after the first `n` of its parts, of one byte each. -/
def uploadedParts (k : ℕ) : ℕ → ProviderWorld
  | 0 => ⟨⟨{ tenant with
      multiparts := (∅ : Table Uuid MultipartSession).insert 11 (openedFor k) }, ∅⟩, ∅⟩
  | n + 1 =>
    { store := (uploadedParts k n).store.put
        (recordMultipartPart 11 (n + 1) bytePart (uploadedParts k n).store.db)
      held := (uploadedParts k n).held.insert ("upload", n + 1) "a" }

/-- Nothing but the parts changes. -/
theorem uploadedParts_store (k n : ℕ) : ∃ parts, (uploadedParts k n).store =
    ⟨{ tenant with
      multiparts := (∅ : Table Uuid MultipartSession).insert 11 (openedFor k), parts }, ∅⟩ := by
  induction n with
  | zero => exact ⟨∅, rfl⟩
  | succ n ih =>
      obtain ⟨parts, hparts⟩ := ih
      refine ⟨parts.insert (11, n + 1) bytePart, ?_⟩
      rw [uploadedParts, hparts]
      rfl

theorem lookup_uploadedParts (k n i : ℕ) :
    (uploadedParts k n).store.db.parts.lookup (11, i) =
      if 0 < i ∧ i ≤ n then some bytePart else none := by
  induction n with
  | zero =>
      rw [if_neg (by omega)]
      rfl
  | succ n ih =>
      change ((uploadedParts k n).store.db.parts.insert (11, n + 1) bytePart).lookup (11, i) = _
      rw [AList.lookup_insert', ih]
      by_cases hi : i = n + 1
      · rw [if_pos (by rw [hi]), if_pos (by omega)]
      · rw [if_neg fun heq ↦ hi (Prod.mk.inj heq).2]
        by_cases hle : 0 < i ∧ i ≤ n
        · rw [if_pos hle, if_pos (by omega)]
        · rw [if_neg hle, if_neg (by omega)]

theorem listMultipartParts_uploadedParts (k n : ℕ) :
    (uploadedParts k n).store.listMultipartParts 11 =
      (List.range n).map fun i ↦ (i + 1, bytePart) := by
  have hascending : AList.Ascending ((List.range n).map fun i ↦ (i + 1, bytePart)) :=
    List.pairwise_map.mpr (List.pairwise_lt_range.imp Nat.succ_lt_succ)
  refine (AList.numbered_ascending _ 11).eq_of_mem_iff hascending ?_
  rintro ⟨i, part⟩
  rw [AList.mem_numbered, lookup_uploadedParts, Option.ite_none_right_eq_some, List.mem_map]
  constructor
  · rintro ⟨hi, hpart⟩
    exact ⟨i - 1, List.mem_range.mpr (by omega), by rw [← Option.some.inj hpart,
      Nat.sub_add_cancel hi.1]⟩
  · rintro ⟨j, hj, heq⟩
    obtain ⟨rfl, rfl⟩ := Prod.mk.inj heq
    have hj := List.mem_range.mp hj
    exact ⟨by omega, rfl⟩

/-- The semantics of a request are only for the fingerprint of its idempotency key. -/
theorem commandForRecord_semantics (fingerprint : FingerprintPayload → String) (tenantId : Uuid)
    (ctx : PrincipalContext) (record : StoredKey) (action : String) (s s' : Semantics) :
    FileService.commandForRecord fingerprint tenantId ctx record action none s =
      FileService.commandForRecord fingerprint tenantId ctx record action none s' := rfl

def writeCommand : AuthorizedFileCommand where
  actingPrincipalId := 6
  storageSpaceId := 2
  bucket := "bucket"
  relativeKey := "key"
  physicalKey := "ns/key"
  providerTargetVersion := 1
  action := "files.write"
  authorizationVersion := 1
  authorizationEvidence := commandEvidence uploader
  idempotencyFingerprint := none

/-- Worlds in which a command finds the same spaces. -/
def SameSpaces (w w' : ProviderWorld) : Prop :=
  ∀ spaceId, getSpace spaceId w.store.db = getSpace spaceId w'.store.db

theorem answer_sameSpaces (r : FileRequest) (w w' : ProviderWorld) (hr : ∃ q, r = .read q)
    (h : SameSpaces w w') :
    (w.answer (fun _ _ ↦ "") calls r).1 = (w'.answer (fun _ _ ↦ "") calls r).1 ∧
      SameSpaces (w.answer (fun _ _ ↦ "") calls r).2 (w'.answer (fun _ _ ↦ "") calls r).2 := by
  obtain ⟨q, rfl⟩ := hr
  rw [answer_queries (.read q) w trivial, answer_queries (.read q) w' trivial]
  refine ⟨?_, h⟩
  change (w.store.answer (fun _ _ ↦ "") (provider "a") (.read q)).1 =
    (w'.store.answer (fun _ _ ↦ "") (provider "a") (.read q)).1
  cases q with
  | getSpace spaceId =>
      rw [storeAnswer_query (a := getSpace spaceId w.store.db) rfl rfl,
        storeAnswer_query (a := getSpace spaceId w'.store.db) rfl rfl, h spaceId]
  | _ => rfl

theorem play_writeCommand (k n : ℕ) (semantics : Semantics) :
    ((FileService.commandForRecord (fun _ ↦ "") 1 uploader (openedFor k).stored "files.write" none
      semantics).run.play (ProviderWorld.answer (fun _ _ ↦ "") calls) (uploadedParts k n)).1 =
        .ok writeCommand := by
  have hsame : SameSpaces (uploadedParts k n) ⟨⟨tenant, ∅⟩, ∅⟩ := by
    obtain ⟨parts, hparts⟩ := uploadedParts_store k n
    intro spaceId
    rw [hparts]
    rfl
  rw [commandForRecord_semantics _ _ _ _ _ _ .none]
  have honly := FileService.only_commandForRecord (P := fun r ↦ ∃ q, r = .read q)
    (fun q ↦ ⟨q, rfl⟩) (fun _ ↦ "") 1 uploader (openedFor k).stored "files.write" none .none
  rw [Program.play_fst_congr answer_sameSpaces honly hsame]
  change ((FileService.commandForRecord (fun _ ↦ "") 1 uploader openMultipart.stored "files.write"
    none .none).run.play (ProviderWorld.answer (fun _ _ ↦ "") calls) ⟨⟨tenant, ∅⟩, ∅⟩).1 = _
  decide +kernel

theorem openTo_uploadedParts (k n : ℕ) (semantics : Semantics) :
    OpenTo (fun _ _ ↦ "") (fun _ ↦ "") 1 uploader 11 none semantics calls (uploadedParts k n)
      (openedFor k) writeCommand where
  noFailure := rfl
  session := by
    obtain ⟨parts, hparts⟩ := uploadedParts_store k n
    rw [hparts]
    rfl
  owner := rfl
  pending := rfl
  unexpired := by
    change (0 : Timestamp) < 1000
    decide
  authorised := play_writeCommand k n semantics

theorem play_byteUpload {n : ℕ} (k : ℕ) (hn : n < 10000) :
    (FileService.uploadMultipartPart (fun _ ↦ "") 1 uploader 11 (byteUpload (n + 1)) none).run.play
      (ProviderWorld.answer (fun _ _ ↦ "") calls) (uploadedParts k n) =
        (.ok bytePart, uploadedParts k (n + 1)) := by
  have hopen := openTo_uploadedParts k n
  unfold FileService.uploadMultipartPart
  rw [play_bind_ok (hopen .none).play_own, play_bind_ok (hopen _).play_command,
    play_bind_ok (hopen .none).play_active]
  have hlength : ¬ ((byteUpload (n + 1)).contentLength ≠ (byteUpload (n + 1)).content.length ∨
      (byteUpload (n + 1)).contentLength ≤ 0) := by
    change ¬ ((1 : ℤ) ≠ (1 : ℕ) ∨ (1 : ℤ) ≤ 0)
    decide
  have hnumber : ¬ ((byteUpload (n + 1)).partNumber < 1 ∨ 10000 < (byteUpload (n + 1)).partNumber) := by
    change ¬ (n + 1 < 1 ∨ 10000 < n + 1)
    omega
  rw [if_neg hlength, if_neg hnumber]
  change (FileService.sendPart _ _ _ _ _ _ _).run.play _ _ = _
  unfold FileService.sendPart
  change (FileService.commandForRecord _ _ _ _ _ _ _ >>= _ : FileService _).run.play _ _ = _
  rw [play_bind_ok (hopen .none).play_command]
  have hstrip : stripQuotes "a" = "a" := by decide
  have hetag : truthy (some (stripQuotes "a")) = some "a" := by decide
  have hupload : (FileService.call (.uploadPart writeCommand.providerTarget "upload" (n + 1)
      [0])).run.play (ProviderWorld.answer (fun _ _ ↦ "") calls) (uploadedParts k n) =
        (.ok (some (stripQuotes "a")), { uploadedParts k n with
          held := (uploadedParts k n).held.insert ("upload", n + 1) "a" }) := rfl
  refine (play_bind_ok hupload).trans ?_
  rw [hetag]
  rfl

theorem history_uploadedParts (k : ℕ) {n : ℕ} (hn : n ≤ 10000) :
    PartHistory (fun _ _ ↦ "") (fun _ ↦ "") 1 11 "upload" (uploadedParts k n) := by
  induction n with
  | zero => exact .opened (m := openedFor k) rfl rfl (fun _ ↦ rfl) fun _ ↦ rfl
  | succ n ih => exact (ih (by omega)).uploaded (play_byteUpload k (by omega))

theorem completable_uploadedParts {k : ℕ} (hk : 0 < k) :
    Completable (fun _ _ ↦ "") (fun _ ↦ "") 1 uploader 11 none calls (uploadedParts k k)
      (openedFor k) writeCommand where
  toOpenTo := openTo_uploadedParts k k _
  declared := Int.natCast_pos.mpr hk
  whole := by
    rw [listMultipartParts_uploadedParts, List.map_map]
    change ((List.range k).map fun _ ↦ (1 : ℤ)).sum = k
    simp

end Sample

theorem completion_reaches_provider_of_one :
    FileRequest.completeMultipartUpload Sample.writeCommand.providerTarget "upload"
        (recordedParts 11 (Sample.uploadedParts 1 1).store) ∈
      (FileService.completeMultipartUpload (fun _ ↦ "") 1 Sample.uploader 11
        (recordedParts 11 (Sample.uploadedParts 1 1).store) none).run.trace
          (ProviderWorld.answer (fun _ _ ↦ "") Sample.calls) (Sample.uploadedParts 1 1) ↔
      ((Sample.uploadedParts 1 1).store.listMultipartParts 11).length ≤ 1000 :=
  completion_reaches_provider_iff (Sample.history_uploadedParts 1 (by decide))
    (Sample.completable_uploadedParts (by decide))

/-- The parts after the first page are taken for missing. -/
theorem second_page_missing : ¬ ∀ (recordEtag : Uuid → ℕ → String)
    (fingerprint : FingerprintPayload → String) (tenantId id : Uuid) (uploadId : String)
    (ctx : PrincipalContext) (key : Option String) (c : PartChoice) (w : ProviderWorld)
    (m : MultipartSession) (command : AuthorizedFileCommand),
    PartHistory recordEtag fingerprint tenantId id uploadId w →
      Completable recordEtag fingerprint tenantId ctx id key c w m command →
        FileRequest.completeMultipartUpload command.providerTarget uploadId
            (recordedParts id w.store) ∈
          (FileService.completeMultipartUpload fingerprint tenantId ctx id
            (recordedParts id w.store) key).run.trace (ProviderWorld.answer recordEtag c) w := by
  intro h
  have hhistory := Sample.history_uploadedParts 1001 (n := 1001) (by decide)
  have hcompletable := Sample.completable_uploadedParts (k := 1001) (by decide)
  have hreached := h _ _ 1 11 "upload" Sample.uploader none Sample.calls _ _ _ hhistory hcompletable
  have hpage := (hhistory.inStep.completion_requested_iff hcompletable).mp hreached
  rw [Sample.listMultipartParts_uploadedParts, List.length_map, List.length_range] at hpage
  exact absurd hpage (by decide)

end S3mp
