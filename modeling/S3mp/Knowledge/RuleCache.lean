import S3mp.Knowledge.ExclusionRules
import S3mp.Transition.History
import S3mp.Transition.Run

/-!
# The cache of the exclusion rules

`_refresh_rule_cache` and `matching_exclusion`.  The rules are committed to the database,
and each committed call then reads them again and writes what it has read to Redis.  These
are separate steps: any call can be overtaken between two of them, and a failure of Redis
is passed over.
-/

namespace S3mp.Knowledge

open Relational Transition

/-! ## Steps -/

/-- A call of `_refresh_rule_cache`, with the version of the rules it has read. -/
inductive Refresh where
  | due
  | loaded (paths : List String) (asOf : ℕ)
  deriving DecidableEq, Repr

inductive LookupStage where
  | started
  | missed
  | answered (answer : Tx (Option String)) (ended : ℕ)
  deriving DecidableEq

/-- A call of `matching_exclusion`, with the version of the rules at which it began. -/
structure Lookup where
  objectKey : String
  since : ℕ
  stage : LookupStage
  deriving DecidableEq

structure CacheWorld where
  rules : History (Table Uuid ExclusionRule)
  cached : Option (List String × ℕ)
  refreshes : Table Uuid Refresh
  lookups : Table Uuid Lookup

/-- `rows` is what a query returns, in the order in which it comes; `served` and `written`
tell whether Redis did what it was asked. -/
inductive CacheCmd where
  | create (refresh fresh : Uuid) (applicationActive : Bool) (directoryPath ruleSource : String)
      (createdBy : Option Uuid)
  | delete (refresh ruleId : Uuid) (applicationActive : Bool) (ruleSource : String)
  | load (refresh : Uuid) (rows : List String)
  | store (refresh : Uuid) (written : Bool)
  | crash (refresh : Uuid)
  | evict
  | begin (lookup : Uuid) (objectKey : String)
  | readCache (lookup : Uuid) (served : Bool)
  | scan (refresh lookup : Uuid) (rows : List String)

namespace CacheWorld

def notNext : Tx CacheWorld :=
  .error (.value "not the next step")

def commit (rules : Table Uuid ExclusionRule) (w : CacheWorld) : CacheWorld :=
  if rules.entries = w.rules.current.entries then w
  else { w with rules := w.rules.commit rules }

def startRefresh (refresh : Uuid) (w : CacheWorld) : Tx CacheWorld :=
  if refresh ∈ w.refreshes then notNext
  else .ok { w with refreshes := w.refreshes.insert refresh .due }

def answer (lookup : Uuid) (l : Lookup) (answer : Tx (Option String)) (w : CacheWorld) :
    CacheWorld :=
  { w with lookups := w.lookups.insert lookup { l with stage := .answered answer w.rules.version } }

def exec : CacheCmd → CacheWorld → Tx CacheWorld
  | .create refresh fresh active directoryPath ruleSource createdBy, w => do
    let (_, rules) ← createExclusion fresh active directoryPath ruleSource createdBy w.rules.current
    (w.commit rules).startRefresh refresh
  | .delete refresh ruleId active ruleSource, w => do
    let (deleted, rules) ← deleteExclusion ruleId active ruleSource w.rules.current
    if deleted then (w.commit rules).startRefresh refresh else return w
  | .load refresh rows, w =>
    match w.refreshes.lookup refresh with
    | some .due =>
      if rows.isPerm (activePaths w.rules.current) then
        .ok { w with refreshes := w.refreshes.insert refresh (.loaded rows w.rules.version) }
      else notNext
    | _ => notNext
  | .store refresh written, w =>
    match w.refreshes.lookup refresh with
    | some (.loaded paths asOf) =>
      .ok { w with
        cached := if written then some (paths, asOf) else w.cached
        refreshes := w.refreshes.erase refresh }
    | _ => notNext
  | .crash refresh, w => .ok { w with refreshes := w.refreshes.erase refresh }
  | .evict, w => .ok { w with cached := none }
  | .begin lookup objectKey, w =>
    if lookup ∈ w.lookups then notNext
    else .ok { w with
      lookups := w.lookups.insert lookup ⟨objectKey, w.rules.version, .started⟩ }
  | .readCache lookup served, w =>
    match w.lookups.lookup lookup with
    | some ⟨objectKey, since, .started⟩ =>
      match (if served then w.cached else none) with
      | some (paths, _) =>
        .ok (w.answer lookup ⟨objectKey, since, .started⟩ (firstExcluding objectKey paths))
      | none => .ok { w with lookups := w.lookups.insert lookup ⟨objectKey, since, .missed⟩ }
    | _ => notNext
  | .scan refresh lookup rows, w =>
    match w.lookups.lookup lookup with
    | some ⟨objectKey, since, .missed⟩ =>
      if rows.isPerm (activePaths w.rules.current) then
        let w := w.answer lookup ⟨objectKey, since, .missed⟩ (firstExcluding objectKey rows)
        -- A path which cannot be matched raises, and the refresh is not reached.
        match firstExcluding objectKey rows with
        | .ok _ => w.startRefresh refresh
        | .error _ => .ok w
      else notNext
    | _ => notNext

/-- The cache answers only with a list which was read after every change committed before the
lookup began. -/
def ServesCurrent (w : CacheWorld) : CacheCmd → Prop
  | .readCache lookup true => ∀ objectKey since paths asOf,
      w.lookups.lookup lookup = some ⟨objectKey, since, .started⟩ →
      w.cached = some (paths, asOf) → since ≤ asOf
  | _ => True

end CacheWorld

/-! ## What a lookup returns -/

variable {w w' : CacheWorld}

/-- What a scan of these rules returns; the query may return them in any order. -/
def ScanReturns (objectKey : String) (answer : Tx (Option String))
    (rules : Table Uuid ExclusionRule) : Prop :=
  ∃ rows : List String, rows.Perm (activePaths rules) ∧ answer = firstExcluding objectKey rows

theorem firstExcluding_cons {objectKey path : String} {paths : List String}
    {answer : Option String} (h : firstExcluding objectKey (path :: paths) = .ok answer) :
    (isExcluded objectKey path = .ok true ∧ answer = some path) ∨
      (isExcluded objectKey path = .ok false ∧ firstExcluding objectKey paths = .ok answer) := by
  obtain ⟨excluded, hexcluded, h⟩ := Except.bind_eq_ok.mp h
  cases excluded with
  | true => exact Or.inl ⟨hexcluded, (Except.pure_eq_ok.mp h).symm⟩
  | false => exact Or.inr ⟨hexcluded, h⟩

theorem ScanReturns.excluded {objectKey path : String} {rules : Table Uuid ExclusionRule}
    (h : ScanReturns objectKey (.ok (some path)) rules) :
    path ∈ activePaths rules ∧ isExcluded objectKey path = .ok true := by
  obtain ⟨rows, hrows, hscan⟩ := h
  rw [← hrows.mem_iff]
  clear hrows
  induction rows with
  | nil => cases hscan
  | cons row rows ih =>
      rcases firstExcluding_cons hscan.symm with ⟨hrow, hpath⟩ | ⟨-, hrest⟩
      · obtain rfl := Option.some.inj hpath
        exact ⟨List.mem_cons_self, hrow⟩
      · obtain ⟨hmem, hpath⟩ := ih hrest.symm
        exact ⟨List.mem_cons_of_mem row hmem, hpath⟩

theorem ScanReturns.not_excluded {objectKey : String} {rules : Table Uuid ExclusionRule}
    (h : ScanReturns objectKey (.ok none) rules) :
    ∀ path ∈ activePaths rules, isExcluded objectKey path = .ok false := by
  obtain ⟨rows, hrows, hscan⟩ := h
  intro path hpath
  rw [← hrows.mem_iff] at hpath
  clear hrows
  induction rows with
  | nil => cases hpath
  | cons row rows ih =>
      rcases firstExcluding_cons hscan.symm with ⟨-, hnone⟩ | ⟨hrow, hrest⟩
      · cases hnone
      · rcases List.mem_cons.mp hpath with rfl | hpath
        · exact hrow
        · exact ih hrest.symm hpath

/-- A list which was read from the rules at a version. -/
def ReadAt (rules : History (Table Uuid ExclusionRule)) (paths : List String) (asOf : ℕ) : Prop :=
  ∃ table, rules.at? asOf = some table ∧ paths.Perm (activePaths table)

namespace CacheWorld

/-- Every lookup has returned what a scan returns at some moment between its start and its
end. -/
def Agrees (w : CacheWorld) : Prop :=
  ∀ id objectKey since answer ended,
    w.lookups.lookup id = some ⟨objectKey, since, .answered answer ended⟩ →
      w.rules.Between since ended (ScanReturns objectKey answer)

/-- A file is excluded only by a rule which was active while the lookup lasted. -/
def NoStaleRule (w : CacheWorld) : Prop :=
  ∀ id objectKey since path ended,
    w.lookups.lookup id = some ⟨objectKey, since, .answered (.ok (some path)) ended⟩ →
      w.rules.Between since ended fun rules ↦
        path ∈ activePaths rules ∧ isExcluded objectKey path = .ok true

/-- A file is let through only if, at a moment of the lookup, no active rule excluded it. -/
def NoRuleIgnored (w : CacheWorld) : Prop :=
  ∀ id objectKey since ended,
    w.lookups.lookup id = some ⟨objectKey, since, .answered (.ok none) ended⟩ →
      w.rules.Between since ended fun rules ↦
        ∀ path ∈ activePaths rules, isExcluded objectKey path = .ok false

structure Faithful (w : CacheWorld) : Prop where
  cached : ∀ paths asOf, w.cached = some (paths, asOf) → ReadAt w.rules paths asOf
  loaded : ∀ id paths asOf, w.refreshes.lookup id = some (.loaded paths asOf) →
    ReadAt w.rules paths asOf
  since : ∀ id l, w.lookups.lookup id = some l → l.since ≤ w.rules.version
  agrees : w.Agrees

/-- Nothing is cached and nothing is under way. -/
structure Idle (w : CacheWorld) : Prop where
  cached : w.cached = none
  refreshes : w.refreshes = ∅
  lookups : w.lookups = ∅

theorem Idle.faithful (h : Idle w) : Faithful w := by
  refine ⟨fun _ _ hcached ↦ ?_, fun _ _ _ hloaded ↦ ?_, fun _ _ hlookup ↦ ?_,
    fun _ _ _ _ _ hlookup ↦ ?_⟩
  · rw [h.cached] at hcached
    cases hcached
  · rw [h.refreshes, AList.lookup_empty] at hloaded
    cases hloaded
  · rw [h.lookups, AList.lookup_empty] at hlookup
    cases hlookup
  · rw [h.lookups, AList.lookup_empty] at hlookup
    cases hlookup

end CacheWorld

theorem ReadAt.commit {rules : History (Table Uuid ExclusionRule)} {paths : List String}
    {asOf : ℕ} (h : ReadAt rules paths asOf) (table : Table Uuid ExclusionRule) :
    ReadAt (rules.commit table) paths asOf := by
  obtain ⟨read, hread, hpaths⟩ := h
  exact ⟨read, History.at?_commit hread, hpaths⟩

theorem ReadAt.between {rules : History (Table Uuid ExclusionRule)} {paths : List String}
    {asOf since : ℕ} (h : ReadAt rules paths asOf) (hsince : since ≤ asOf) (objectKey : String) :
    rules.Between since rules.version (ScanReturns objectKey (firstExcluding objectKey paths)) := by
  obtain ⟨read, hread, hpaths⟩ := h
  exact (History.between_of_at? hread hsince ⟨paths, hpaths, rfl⟩).mono le_rfl
    (History.le_version hread)

namespace CacheWorld

theorem Faithful.commit (h : Faithful w) (table : Table Uuid ExclusionRule) :
    Faithful (w.commit table) := by
  unfold CacheWorld.commit
  split
  · exact h
  · refine ⟨fun paths asOf hcached ↦ (h.cached paths asOf hcached).commit table,
      fun id paths asOf hloaded ↦ (h.loaded id paths asOf hloaded).commit table,
      fun id l hl ↦ ?_, fun id objectKey since answer ended hl ↦ ?_⟩
    · exact (h.since id l hl).trans (by rw [History.version_commit]; exact Nat.le_succ _)
    · exact (h.agrees id objectKey since answer ended hl).commit

/-- The refresh goes on with a list which has just been read, if with any. -/
theorem Faithful.refresh (h : Faithful w) {id : Uuid} {refresh : Refresh}
    (hread : ∀ paths asOf, refresh = .loaded paths asOf → ReadAt w.rules paths asOf) :
    Faithful { w with refreshes := w.refreshes.insert id refresh } := by
  refine ⟨h.cached, fun id' paths asOf hloaded ↦ ?_, h.since, h.agrees⟩
  change (w.refreshes.insert id refresh).lookup id' = _ at hloaded
  rw [AList.lookup_insert'] at hloaded
  split at hloaded
  · exact hread paths asOf (Option.some.inj hloaded)
  · exact h.loaded id' paths asOf hloaded

theorem Faithful.startRefresh {refresh : Uuid} (h : Faithful w)
    (hok : w.startRefresh refresh = .ok w') : Faithful w' := by
  unfold CacheWorld.startRefresh at hok
  split at hok
  · cases hok
  · rw [← Except.ok.inj hok]
    exact h.refresh fun _ _ hdue ↦ nomatch hdue

/-- The refresh is over. -/
theorem Faithful.dropRefresh (h : Faithful w) (id : Uuid) {cached : Option (List String × ℕ)}
    (hcached : ∀ paths asOf, cached = some (paths, asOf) → ReadAt w.rules paths asOf) :
    Faithful { w with cached, refreshes := w.refreshes.erase id } := by
  refine ⟨hcached, fun id' paths asOf hloaded ↦ ?_, h.since, h.agrees⟩
  exact h.loaded id' paths asOf (AList.lookup_of_lookup_erase hloaded).2

/-- The lookup goes on, and what it returns is the answer of a scan. -/
theorem Faithful.lookup (h : Faithful w) {id : Uuid} {l : Lookup}
    (hsince : l.since ≤ w.rules.version)
    (hanswer : ∀ answer ended, l.stage = .answered answer ended →
      w.rules.Between l.since ended (ScanReturns l.objectKey answer)) :
    Faithful { w with lookups := w.lookups.insert id l } := by
  refine ⟨h.cached, h.loaded, fun id' l' hl ↦ ?_, fun id' objectKey since answer ended hl ↦ ?_⟩
  · change (w.lookups.insert id l).lookup id' = _ at hl
    rw [AList.lookup_insert'] at hl
    split at hl
    · exact Option.some.inj hl ▸ hsince
    · exact h.since id' l' hl
  · change (w.lookups.insert id l).lookup id' = _ at hl
    rw [AList.lookup_insert'] at hl
    split at hl
    · obtain rfl := Option.some.inj hl
      exact hanswer answer ended rfl
    · exact h.agrees id' objectKey since answer ended hl

theorem Faithful.answer (h : Faithful w) {id : Uuid} {l : Lookup} {answer : Tx (Option String)}
    (hsince : l.since ≤ w.rules.version)
    (hanswer : w.rules.Between l.since w.rules.version (ScanReturns l.objectKey answer)) :
    Faithful (w.answer id l answer) := by
  refine h.lookup hsince fun answer' ended hstage ↦ ?_
  obtain ⟨rfl, rfl⟩ := LookupStage.answered.inj hstage
  exact hanswer

theorem exec_faithful {c : CacheCmd} (h : Faithful w) (hc : ServesCurrent w c)
    (hok : exec c w = .ok w') : Faithful w' := by
  cases c with
  | create refresh fresh active directoryPath ruleSource createdBy =>
      obtain ⟨⟨row, rules⟩, -, hok⟩ := Except.bind_eq_ok.mp hok
      exact (h.commit rules).startRefresh hok
  | delete refresh ruleId active ruleSource =>
      obtain ⟨⟨deleted, rules⟩, -, hok⟩ := Except.bind_eq_ok.mp hok
      dsimp only at hok
      split at hok
      · exact (h.commit rules).startRefresh hok
      · rwa [← Except.pure_eq_ok.mp hok]
  | load refresh rows =>
      simp only [exec] at hok
      split at hok
      · split at hok
        · rename_i hrows
          rw [← Except.ok.inj hok]
          refine h.refresh fun paths asOf hloaded ↦ ?_
          obtain ⟨rfl, rfl⟩ := Refresh.loaded.inj hloaded
          exact ⟨w.rules.current, History.at?_version, List.isPerm_iff.mp hrows⟩
        · cases hok
      · cases hok
  | store refresh written =>
      simp only [exec] at hok
      split at hok
      · rename_i paths asOf hloaded
        rw [← Except.ok.inj hok]
        refine h.dropRefresh refresh fun paths' asOf' hcached ↦ ?_
        split at hcached
        · obtain ⟨rfl, rfl⟩ := Prod.mk.inj (Option.some.inj hcached)
          exact h.loaded refresh paths asOf hloaded
        · exact h.cached paths' asOf' hcached
      · cases hok
  | crash refresh =>
      rw [← Except.ok.inj hok]
      exact h.dropRefresh refresh h.cached
  | evict =>
      rw [← Except.ok.inj hok]
      exact ⟨fun _ _ hnone ↦ (nomatch hnone), h.loaded, h.since, h.agrees⟩
  | begin lookup objectKey =>
      simp only [exec] at hok
      split at hok
      · cases hok
      · rw [← Except.ok.inj hok]
        exact h.lookup le_rfl fun _ _ hstage ↦ nomatch hstage
  | readCache lookup served =>
      simp only [exec] at hok
      split at hok
      · rename_i objectKey since hl
        have hsince : since ≤ w.rules.version := h.since lookup _ hl
        split at hok
        · rename_i paths asOf hcached
          rw [← Except.ok.inj hok]
          obtain ⟨hserved, hcached⟩ : served = true ∧ w.cached = some (paths, asOf) := by
            cases served with
            | false => cases hcached
            | true => exact ⟨rfl, hcached⟩
          subst hserved
          exact h.answer hsince
            ((h.cached paths asOf hcached).between (hc _ _ paths asOf hl hcached) objectKey)
        · rw [← Except.ok.inj hok]
          exact h.lookup hsince fun _ _ hstage ↦ nomatch hstage
      · cases hok
  | scan refresh lookup rows =>
      simp only [exec] at hok
      split at hok
      · rename_i objectKey since hl
        split at hok
        · rename_i hrows
          have hanswered : Faithful (w.answer lookup ⟨objectKey, since, .missed⟩
              (firstExcluding objectKey rows)) := by
            refine h.answer (h.since lookup _ hl) (History.between_current (h.since lookup _ hl) ?_)
            exact ⟨rows, List.isPerm_iff.mp hrows, rfl⟩
          split at hok
          · exact hanswered.startRefresh hok
          · rwa [← Except.ok.inj hok]
        · cases hok
      · cases hok

theorem Agrees.noStaleRule (h : Agrees w) : NoStaleRule w :=
  fun id objectKey since path ended hl ↦
    (h id objectKey since (.ok (some path)) ended hl).imp fun _ ↦ ScanReturns.excluded

theorem Agrees.noRuleIgnored (h : Agrees w) : NoRuleIgnored w :=
  fun id objectKey since ended hl ↦
    (h id objectKey since _ ended hl).imp fun _ ↦ ScanReturns.not_excluded

/-- In a run in which the cache answers only with lists that are recent enough, every lookup
returns what a scan of the active rules returns while the lookup lasts. -/
theorem lookups_agree (hw : Idle w) {cs : List CacheCmd} (hmeets : Meets exec ServesCurrent w cs)
    {pre post : List CacheCmd} (heq : cs = pre ++ post) :
    (run exec w pre).Agrees ∧ (run exec w pre).NoStaleRule ∧ (run exec w pre).NoRuleIgnored := by
  subst heq
  obtain ⟨hpre, -⟩ := (meets_append exec).mp hmeets
  have hagrees : (run exec w pre).Agrees :=
    (run_invariant (I := Faithful) (fun _ _ _ h hc hok ↦ exec_faithful h hc hok)
      hw.faithful hpre).agrees
  exact ⟨hagrees, hagrees.noStaleRule, hagrees.noRuleIgnored⟩

end CacheWorld

namespace Sample

open CacheWorld

def noRules : CacheWorld := ⟨⟨[], ∅⟩, none, ∅, ∅⟩

theorem idle_noRules : Idle noRules := ⟨rfl, rfl, rfl⟩

/-- A rule is created, its refresh is written, and a lookup finds it. -/
def createThenLookup : List CacheCmd :=
  [.create 1 10 true "drafts" "application" none, .load 1 ["drafts"], .store 1 true,
    .begin 2 "drafts/a.pdf", .readCache 2 true]

theorem servesCurrent_createThenLookup :
    Meets CacheWorld.exec ServesCurrent noRules createThenLookup := by
  refine ⟨trivial, trivial, trivial, trivial, fun objectKey since paths asOf hl hcached ↦ ?_,
    trivial⟩
  have hbegun : (run CacheWorld.exec noRules (createThenLookup.take 4)).lookups.lookup 2 =
      some ⟨"drafts/a.pdf", 1, .started⟩ := by decide
  have hread : (run CacheWorld.exec noRules (createThenLookup.take 4)).cached =
      some (["drafts"], 1) := by decide
  obtain ⟨-, hsince, -⟩ := Lookup.mk.inj (Option.some.inj (hbegun.symm.trans hl))
  obtain ⟨-, hasOf⟩ := Prod.mk.inj (Option.some.inj (hread.symm.trans hcached))
  exact (hsince.symm.trans hasOf).le

/-- The refresh of the creation has read the rule and is written after the refresh of its
deletion. -/
def overtaken : List CacheCmd :=
  [.create 1 10 true "drafts" "application" none, .load 1 ["drafts"],
    .delete 2 10 true "application", .load 2 [], .store 2 true, .store 1 true,
    .begin 3 "drafts/a.pdf", .readCache 3 true]

end Sample

theorem lookups_agree_sample :
    (run CacheWorld.exec Sample.noRules Sample.createThenLookup).Agrees ∧
      (run CacheWorld.exec Sample.noRules Sample.createThenLookup).NoStaleRule ∧
      (run CacheWorld.exec Sample.noRules Sample.createThenLookup).NoRuleIgnored :=
  CacheWorld.lookups_agree Sample.idle_noRules Sample.servesCurrent_createThenLookup
    (List.append_nil Sample.createThenLookup).symm

/-- The deleted rule goes on excluding files. -/
theorem deleted_rule_excludes :
    ¬ ∀ w, CacheWorld.Idle w → ∀ cs, (run CacheWorld.exec w cs).Agrees := by
  intro h
  have hagrees := (h Sample.noRules Sample.idle_noRules Sample.overtaken).noStaleRule
  have hanswer : (run CacheWorld.exec Sample.noRules Sample.overtaken).lookups.lookup 3 =
      some ⟨"drafts/a.pdf", 2, .answered (.ok (some "drafts")) 2⟩ := by decide
  have hdeleted : ((run CacheWorld.exec Sample.noRules Sample.overtaken).rules.at? 2).map
      activePaths = some [] := by decide
  obtain ⟨k, rules, hsince, hended, hrules, hactive, -⟩ := hagrees _ _ _ _ _ hanswer
  obtain rfl : k = 2 := le_antisymm hended hsince
  rw [hrules] at hdeleted
  rw [Option.some.inj hdeleted] at hactive
  cases hactive

end S3mp.Knowledge
