import S3mp.Operations.Settlement
import S3mp.Transition.Attempts

/-!
# Refused operations

An operation is delivered any number of times.  Every delivery checks its subject, its
space and its permissions anew, and a deletion checks each key when its turn comes.  If
these checks pass from the first object on which a delivery creates or deletes, an
operation which ends as cancelled or failed has had no effect.
-/

namespace S3mp

open Relational Files Storage Identity Authorization Transition

variable {γ : Type} (D : Digest γ)

/-! ## Trials -/

/-- The world, and whether the operation has created or deleted an object. -/
structure Trial (γ : Type) where
  world : World γ
  effected : Bool

/-- What happens before a request is answered, and what is decided about it. -/
structure Moment (γ : Type) where
  outside : List (Outside γ)
  choice : Choice

def Moment.before (m : Moment γ) (w : World γ) : World γ :=
  m.outside.foldl (fun w e ↦ happen e w) w

/-- An object is created or deleted, whether or not the request raises after it. -/
def World.effective (w : World γ) (c : Choice) : WorkerRequest → Bool
  | .copy s _ => (w.objects s).isSome && !(c.raises && !c.takesEffect)
  | .delete t => (w.objects t).isSome && !(c.raises && !c.takesEffect)
  | _ => false

def trialAnswer (r : WorkerRequest) (m : Moment γ) (s : Trial γ) : Except Unit r.Value × Trial γ :=
  let w := m.before s.world
  ((World.answer D r m.choice w).1,
    ⟨(World.answer D r m.choice w).2, s.effected || w.effective m.choice r⟩)

namespace Acceptance

variable (A : Acceptance)

/-- The permissions without which a delivery is refused. -/
def needs : List (String × String) :=
  if A.op.operationType = .delete then A.op.keys.map ("files.delete", ·)
  else
    match truthy A.op.sourceKey, truthy A.op.destinationKey with
    | some source, some destination => requiredPermissions A.op.operationType source destination
    | _, _ => []

/-- The object is the source or the destination of the operation. -/
def Names (t : ProviderTarget) : Prop :=
  ∃ key, (truthy A.op.sourceKey = some key ∨ truthy A.op.destinationKey = some key) ∧
    A.target key = some t

/-- An answer of the subject stores which is among those given. -/
def Allowed (𝒜 : (r : SubjectRead) → r.Value → Prop) :
    (r : WorkerRequest) → Except Unit r.Value → Prop
  | .read r, .ok x => 𝒜 r x
  | _, _ => True

/-- Whichever of the answers the worker gets, its checks pass, and at every look it finds the
object `kept`. -/
structure Grants (𝒜 : (r : SubjectRead) → r.Value → Prop) (kept : ProviderTarget) : Prop where
  subject : (validateDelayedSubject Worker.read A.op.principalId A.op.membershipId
    A.op.authorizationVersion A.op.authorizationEvidence.subject none).run.Under (Allowed 𝒜)
      fun out ↦ ∀ found, out = .ok found → ∃ subject, found = some subject ∧
        (subject.subjectKind = .application →
          ∀ need ∈ A.needs, need.1 ∈ subject.apiKeyScopes.getD [])
  inside : ∀ directory, truthy A.op.authorizationEvidence.apiKeyDirectoryPrefix = some directory →
    ∀ need ∈ A.needs, within directory need.2
  space : ∀ found, 𝒜 (.getSpace A.spaceId) found → found.isSome
  placed : ∀ need ∈ A.needs, (A.target need.2).isSome
  permitted : ∀ kind bindings now, 𝒜 (.bindingsFor A.op.principalId A.spaceId kind) bindings →
    𝒜 .now now → ∀ need ∈ A.needs, ∀ decision,
      evaluate need.1 bindings A.spaceId need.2 now = some decision → decision.decision = .allow
  standing : A.op.operationType ≠ .delete → A.Names kept

/-- From its first effect on, the operation is granted what it needs. -/
def Steady (𝒜 : (r : SubjectRead) → r.Value → Prop) (kept : ProviderTarget) (r : WorkerRequest)
    (m : Moment γ) (s : Trial γ) : Prop :=
  ((m.before s.world).effective m.choice r → A.Grants 𝒜 kept) ∧
    (s.effected → Allowed 𝒜 r (trialAnswer D r m s).1 ∧
      (r = .head kept → ((m.before s.world).objects kept).isSome))

/-! ## What every delivery keeps -/

/-- The keys an operation needs are given. -/
def Keyed : Prop :=
  A.op.operationType = .delete ∨
    (truthy A.op.sourceKey).isSome ∧ (truthy A.op.destinationKey).isSome

structure Kept (𝒜 : (r : SubjectRead) → r.Value → Prop) (kept : ProviderTarget) (s : Trial γ) :
    Prop where
  underway : A.Underway s.world.db
  grants : s.effected → A.Grants 𝒜 kept
  keyed : s.effected → A.Keyed
  served : s.effected → spaceMismatch A.op A.space = none

def Refused (outcome : Outcome) : Prop :=
  outcome.1 = .cancelled ∨ outcome.1 = .failed

variable {A D} {𝒜 : (r : SubjectRead) → r.Value → Prop} {kept : ProviderTarget} {s t : Trial γ}

theorem underway_before {w : World γ} (m : Moment γ) (h : A.Underway w.db) :
    A.Underway (m.before w).db := by
  unfold Moment.before
  induction m.outside generalizing w with
  | nil => exact h
  | cons e es ih =>
      refine ih ?_
      cases e with
      | command c => exact h.advance c
      | provider objects => exact h

theorem Kept.answer {r : WorkerRequest} {m : Moment γ} (h : A.Kept 𝒜 kept s)
    (hsteady : A.Steady D 𝒜 kept r m s)
    (hkeyed : (m.before s.world).effective m.choice r →
      A.Keyed ∧ spaceMismatch A.op A.space = none) :
    A.Kept 𝒜 kept (trialAnswer D r m s).2 := by
  have heffected : (trialAnswer D r m s).2.effected →
      s.effected ∨ (m.before s.world).effective m.choice r := by
    simp [trialAnswer]
  refine ⟨(underway_before m h.underway).answer, fun he ↦ ?_, fun he ↦ ?_, fun he ↦ ?_⟩
  · exact (heffected he).elim h.grants hsteady.1
  · exact (heffected he).elim h.keyed fun htakes ↦ (hkeyed htakes).1
  · exact (heffected he).elim h.served fun htakes ↦ (hkeyed htakes).2

/-- The context of a delivery, as its subject makes it. -/
structure Acts (A : Acceptance) (ctx : PrincipalContext) : Prop where
  principal : ctx.principalId = A.op.principalId
  directory : ∀ directory, truthy ctx.apiKeyDirectoryPrefix = some directory →
    truthy A.op.authorizationEvidence.apiKeyDirectoryPrefix = some directory

variable {ctx : PrincipalContext}

/-- Granted answers lead to granted permissions. -/
theorem Grants.authorize (h : A.Grants 𝒜 kept) (hacts : Acts A ctx) {need : String × String}
    (hneed : need ∈ A.needs)
    (hscope : ctx.subjectKind = .application → need.1 ∈ ctx.apiKeyScopes.getD []) :
    (Files.authorize ctx A.spaceId need.1 need.2).run.Under (Allowed 𝒜)
      fun out ↦ ∀ granted, out = .ok granted → granted = true := by
  unfold Files.authorize
  rw [if_neg fun hnot ↦ hnot.2 (hscope hnot.1), if_neg]
  · intro bindings hbindings
    cases bindings with
    | error e => exact fun granted heq ↦ by cases heq
    | ok bindings =>
        intro now hnow
        cases now with
        | error e => exact fun granted heq ↦ by cases heq
        | ok now =>
            have hallow := h.permitted ctx.subjectKind bindings now
              (by rw [← hacts.principal]; exact hbindings) hnow need hneed
            dsimp only [Program.bind, ExceptT.bindCont]
            split
            · exact fun granted heq ↦ by cases heq
            · rename_i decision hdecision
              rintro granted heq
              cases heq
              exact decide_eq_true (hallow decision hdecision)
  · intro hany
    cases hdirectory : truthy ctx.apiKeyDirectoryPrefix with
    | none =>
        rw [hdirectory] at hany
        cases hany
    | some directory =>
        rw [hdirectory, Option.any_some,
          h.inside directory (hacts.directory directory hdirectory) need hneed] at hany
        cases hany

/-! ## Deletions -/

theorem Grants.authorizeAll (h : A.Grants 𝒜 kept) (hacts : Acts A ctx)
    {needs : List (String × String)} (hneeds : ∀ need ∈ needs, need ∈ A.needs)
    (hscope : ctx.subjectKind = .application →
      ∀ need ∈ A.needs, need.1 ∈ ctx.apiKeyScopes.getD []) :
    (Files.authorizeAll ctx A.spaceId needs).run.Under (Allowed 𝒜)
      fun out ↦ ∀ granted, out = .ok granted → granted = true := by
  induction needs with
  | nil =>
      rintro granted ⟨⟩
      rfl
  | cons need needs ih =>
      have hneed := hneeds need List.mem_cons_self
      unfold Files.authorizeAll
      refine Program.under_bind (h.authorize hacts hneed fun hkind ↦ hscope hkind need hneed) ?_
      intro out hout
      cases out with
      | error e =>
          rintro granted ⟨⟩
      | ok granted =>
          obtain rfl := hout granted rfl
          exact ih fun need' hneed' ↦ hneeds need' (List.mem_cons_of_mem need hneed')

theorem Steady.found {target : ProviderTarget} {m : Moment γ} {found : Option ObjectMetadata}
    (h : A.Steady D 𝒜 kept (.head target) m s) (he : s.effected) (hkept : target = kept)
    (hok : (trialAnswer D (.head target) m s).1 = .ok found) : found.isSome := by
  subst hkept
  obtain rfl := World.answer_head hok
  rw [Option.isSome_map]
  exact (h.2 he).2 rfl

/-- A delivery of the operation, with the row it started from. -/
structure Delivery (γ : Type) where
  op : FileOperation
  moments : List (Moment γ)

def delivery (A : Acceptance) (d : Delivery γ) :
    Program (fun r : WorkerRequest ↦ Except Unit r.Value) (Except Unit Outcome) :=
  (executeOperation A.tenantId A.id d.op).run

/-- What the trial has come to after some deliveries. -/
abbrev after (D : Digest γ) (A : Acceptance) (s : Trial γ) (ds : List (Delivery γ)) : Trial γ :=
  afterAttempts (trialAnswer D) A.delivery Delivery.moments s ds

/-- The rows the operation was accepted for are free, and as they were.  The row a rename has
made for its result does not count. -/
def Restored (A : Acceptance) (db db' : Db) : Prop :=
  ∀ j f, db.files.lookup j = some f → f.activeOperationId = some A.id →
    A.op.resultFileId ≠ some j → ∃ f' f₀, db'.files.lookup j = some f' ∧
      (j, f₀) ∈ A.sources ++ A.results ∧ f'.core = f₀.core ∧ f'.activeOperationId = none

theorem lookup_settleRename_refused {now : Timestamp} {op : FileOperation}
    {status : OperationStatus} {files : Table Uuid FileObject} {id j : Uuid}
    (hstatus : status ≠ .succeeded) (hj : op.resultFileId ≠ some j) :
    (settleRename now id op status files).lookup j = files.lookup j := by
  have hother : ∀ destination, op.resultFileId.filter (heldBy id files) = some destination →
      ∀ g : FileObject → FileObject, (files.update destination g).lookup j = files.lookup j := by
    intro destination hdestination g
    refine AList.lookup_update_of_ne ?_ _ _
    rintro rfl
    exact hj (Option.filter_eq_some_iff.mp hdestination).1
  unfold settleRename
  split
  · rename_i destination _ hdestination
    rw [if_neg hstatus]
    split
    · exact hother _ hdestination _
    · rfl
  · rename_i destination _ hdestination
    split
    · exact hother _ hdestination _
    · rfl
  · rfl

theorem Underway.restored {db db' : Db} {now : Timestamp} {status : OperationStatus}
    {reason : Option String} (h : A.Underway db) (hstatus : status.terminal)
    (hrefused : status ≠ .succeeded)
    (hok : settleBrokerOperation now A.id status reason db = .ok db') : A.Restored db db' := by
  intro j f hf hheld hj
  obtain ⟨op, hop, horder⟩ := h.operation
  obtain ⟨f₀, hmem, hcore⟩ := h.rows j f hf hheld
  rcases settleBrokerOperation_eq_ok hok with ⟨hnone, -⟩ | ⟨op', hop', rfl⟩
  · rw [hop] at hnone
    cases hnone
  obtain rfl := Option.some.inj (hop.symm.trans hop')
  have hresult : op.resultFileId ≠ some j := by
    rwa [(FileOperation.sameOrder horder).resultFileId]
  have hrow : (if op.operationType = .rename then settleRename now A.id op status db.files
      else db.files).lookup j = some f := by
    split
    · rwa [lookup_settleRename_refused hrefused hresult]
    · exact hf
  refine ⟨f.unoccupied, f₀, ?_, hmem, hcore, rfl⟩
  dsimp only [settledFiles]
  rw [if_pos hstatus, updateHeld, AList.lookup_updateWhere, hrow, Option.map_some]
  simp [hheld]

end Acceptance

namespace Sample

/-- Files at the keys `a` and `b`. -/
def storedTwo : Db :=
  { stored with files := stored.files.insert 31 { file with objectKey := "ns/b" } }

def deleteTwo : OperationData :=
  { moveData with
    operationType := .delete
    sourceKey := none
    destinationKey := none
    keys := ["a", "b"]
    sourcePhysicalKey := none
    destinationPhysicalKey := none
    physicalKeys := ["ns/a", "ns/b"]
    idempotencyKey := some "delete-a-b" }

def deletion : FileOperation := newOperation 2 deleteTwo "delete-a-b"

def acceptedTwo : Db := advance opExec storedTwo (.createOperation operationIds 2 deleteTwo)

/-- Every object is there, and the deletion has just been accepted. -/
def deleting : Trial Bool :=
  ⟨{ db := acceptedTwo, objects := fun _ ↦ some move.accepted }, false⟩

def moment (c : Choice) : Moment Bool := ⟨[], c⟩

/-- Everything which was granted is revoked. -/
def revoked : Choice :=
  { served with subjects := fun r ↦ match r with
    | .bindingsFor .. => []
    | r => granted r }

/-- The principal has been disabled. -/
def disabled : Choice :=
  { served with subjects := fun r ↦ match r with
    | .getPrincipal _ => none
    | r => granted r }

end Sample

end S3mp
