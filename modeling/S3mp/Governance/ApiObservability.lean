import S3mp.Common.Clock
import S3mp.Relational.Table
import S3mp.Transition.Run

/-!
# API observations

The middleware appends what it observes of API calls to a stream; passes of the worker read new
entries in the name of a consumer group, add each to the metric of its hour and acknowledge it.
An exception ends the pass, and the next pass reads new entries again.
-/

namespace S3mp.Governance

open Relational Transition

/-! ## Metrics -/

/-- What the middleware observes of one call. -/
structure Observation where
  tenantId : Uuid
  applicationId : Uuid
  operation : String
  statusCode : ℤ
  requestId : String
  occurredAt : Timestamp
  deriving DecidableEq, Repr

/-- `_window`: the start of the hour, in UTC. -/
def window (value : Timestamp) : Timestamp :=
  value - value % seconds 3600

structure MetricKey where
  tenantId : Uuid
  applicationId : Uuid
  operation : String
  windowStart : Timestamp
  deriving DecidableEq, Repr

structure ApiMetric where
  totalCount : ℕ
  successCount : ℕ
  clientErrorCount : ℕ
  serverErrorCount : ℕ
  deriving DecidableEq, Repr

structure ApiError where
  tenantId : Uuid
  applicationId : Uuid
  operation : String
  statusCode : ℤ
  requestId : String
  occurredAt : Timestamp
  deriving DecidableEq, Repr

namespace Observation

def key (o : Observation) : MetricKey :=
  ⟨o.tenantId, o.applicationId, o.operation, window o.occurredAt⟩

def succeeded (o : Observation) : Bool := o.statusCode < 400

def clientFailed (o : Observation) : Bool := 400 ≤ o.statusCode && o.statusCode < 500

def serverFailed (o : Observation) : Bool := o.statusCode ≥ 500

/-- The row which is inserted when the hour has none yet. -/
def values (o : Observation) : ApiMetric :=
  ⟨1, o.succeeded.toNat, o.clientFailed.toNat, o.serverFailed.toNat⟩

/-- `on_conflict_do_update`. -/
def addTo (o : Observation) (m : ApiMetric) : ApiMetric where
  totalCount := m.totalCount + 1
  successCount := m.successCount + o.values.successCount
  clientErrorCount := m.clientErrorCount + o.values.clientErrorCount
  serverErrorCount := m.serverErrorCount + o.values.serverErrorCount

def error (o : Observation) : ApiError :=
  ⟨o.tenantId, o.applicationId, o.operation, o.statusCode, o.requestId, o.occurredAt⟩

end Observation

/-! ## The stream -/

structure StreamEntry where
  id : ℕ
  fields : Observation
  deriving DecidableEq, Repr

/-- What the stream holds: entries it has delivered to the group, new ones, and the identifiers
of those delivered and not acknowledged. -/
structure UsageStream where
  delivered : List StreamEntry
  fresh : List StreamEntry
  pending : List ℕ

/-- `maxlen`. -/
def UsageStream.maxLength : ℕ := 100000

namespace UsageStream

/-- An approximate `maxlen` trims at most what is too much. -/
def excess (n : ℕ) (s : UsageStream) : ℕ :=
  min n (s.delivered.length + s.fresh.length + 1 - maxLength)

/-- `xadd`: the oldest entries are trimmed, delivered or not. -/
def xadd (n : ℕ) (e : StreamEntry) (s : UsageStream) : UsageStream where
  delivered := s.delivered.drop (s.excess n)
  fresh := (s.fresh ++ [e]).drop (s.excess n - s.delivered.length)
  pending := s.pending

/-- `xreadgroup` with the identifier `>`. -/
def xreadgroup (count : ℕ) (s : UsageStream) : UsageStream where
  delivered := s.delivered ++ s.fresh.take count
  fresh := s.fresh.drop count
  pending := s.pending ++ (s.fresh.take count).map (·.id)

def xack (id : ℕ) (s : UsageStream) : UsageStream :=
  { s with pending := s.pending.filter (· ≠ id) }

end UsageStream

/-! ## Passes -/

/-- Where a pass stands in the loop of `run_once`. -/
inductive ObservationPass where
  | consuming (events : List StreamEntry)
  | acknowledging (event : StreamEntry) (events : List StreamEntry)
  | over

/-- How a transaction or a command of the worker ends: an exception may hide an effect. -/
inductive Outcome where
  | done
  | refused
  | unknown
  deriving DecidableEq

/-- `appended` and `counted` are the entries appended and added to a metric so far. -/
structure ObservabilityWorld where
  stream : UsageStream
  metrics : Table MetricKey ApiMetric
  errors : List ApiError
  passes : List ObservationPass
  appended : List StreamEntry
  counted : List StreamEntry

inductive ObservationStep where
  | append (fields : Observation) (trimmed : ℕ)
  | xreadgroup (count : ℕ)
  | consume (pass : ℕ) (outcome : Outcome)
  | xack (pass : ℕ) (outcome : Outcome)
  | crash (pass : ℕ)

namespace ObservabilityWorld

def start : ObservabilityWorld := ⟨⟨[], [], []⟩, ∅, [], [], [], []⟩

def goOn (i : ℕ) (pass : ObservationPass) (w : ObservabilityWorld) : ObservabilityWorld :=
  { w with passes := w.passes.set i pass }

/-- The transaction of `_consume_one`. -/
def consumeOne (e : StreamEntry) (w : ObservabilityWorld) : ObservabilityWorld :=
  { w with
    metrics := w.metrics.insert e.fields.key
      ((w.metrics.lookup e.fields.key).elim e.fields.values e.fields.addTo)
    errors := if e.fields.statusCode ≥ 400 then w.errors ++ [e.fields.error] else w.errors
    counted := w.counted ++ [e] }

def acknowledge (id : ℕ) (w : ObservabilityWorld) : ObservabilityWorld :=
  { w with stream := w.stream.xack id }

def notNext : Tx ObservabilityWorld :=
  .error (.value "not the next step of the pass")

/-- The client refuses a count of 0. -/
def exec : ObservationStep → ObservabilityWorld → Tx ObservabilityWorld
  | .append fields trimmed, w =>
    let e : StreamEntry := ⟨w.appended.length, fields⟩
    .ok { w with stream := w.stream.xadd trimmed e, appended := w.appended ++ [e] }
  | .xreadgroup count, w =>
    if count = 0 then .error (.value "XREADGROUP count must be a positive integer")
    else .ok { w with
      stream := w.stream.xreadgroup count
      passes := w.passes ++ [.consuming (w.stream.fresh.take count)] }
  | .consume i outcome, w =>
    match w.passes[i]? with
    | some (.consuming (e :: events)) =>
      match outcome with
      | .done => .ok ((w.consumeOne e).goOn i (.acknowledging e events))
      | .refused => .ok (w.goOn i .over)
      | .unknown => .ok ((w.consumeOne e).goOn i .over)
    | _ => notNext
  | .xack i outcome, w =>
    match w.passes[i]? with
    | some (.acknowledging e events) =>
      match outcome with
      | .done => .ok ((w.acknowledge e.id).goOn i (.consuming events))
      | .refused => .ok (w.goOn i .over)
      | .unknown => .ok ((w.acknowledge e.id).goOn i .over)
    | _ => notNext
  | .crash i, w =>
    match w.passes[i]? with
    | none => notNext
    | some _ => .ok (w.goOn i .over)

end ObservabilityWorld

/-! ## What is asked for -/

/-- The entries a pass still holds and has not counted. -/
@[simp] def ObservationPass.uncounted : ObservationPass → List StreamEntry
  | .consuming events | .acknowledging _ events => events
  | .over => []

namespace ObservabilityWorld

/-- The entries which are with a pass. -/
def inHand (w : ObservabilityWorld) : List StreamEntry :=
  w.passes.flatMap (·.uncounted)

/-- Every appended entry has been counted, once, or is with a pass, or can be delivered. -/
def NothingLost (w : ObservabilityWorld) : Prop :=
  w.appended.Perm (w.counted ++ w.inHand ++ w.stream.fresh)

/-- The metric of an hour, from the observations of the hour. -/
def tally (k : MetricKey) (entries : List StreamEntry) : ApiMetric where
  totalCount := entries.countP fun e ↦ e.fields.key = k
  successCount := entries.countP fun e ↦ e.fields.key = k && e.fields.succeeded
  clientErrorCount := entries.countP fun e ↦ e.fields.key = k && e.fields.clientFailed
  serverErrorCount := entries.countP fun e ↦ e.fields.key = k && e.fields.serverFailed

/-- No entry is counted twice, and the metrics are those of the counted entries. -/
structure CountsRight (w : ObservabilityWorld) : Prop where
  once : w.counted.Nodup
  metrics : ∀ k, (w.metrics.lookup k).getD ⟨0, 0, 0, 0⟩ = tally k w.counted
  totals : ∀ k m, w.metrics.lookup k = some m →
    m.totalCount = m.successCount + m.clientErrorCount + m.serverErrorCount

/-- Only delivered entries are trimmed, and a pass ends early only when it has nothing left to
count. -/
def Undisturbed (w : ObservabilityWorld) : ObservationStep → Prop
  | .append _ trimmed => w.stream.excess trimmed ≤ w.stream.delivered.length
  | .xreadgroup _ => True
  | .consume i outcome => ∀ e events, w.passes[i]? = some (.consuming (e :: events)) →
      outcome ≠ .refused ∧ (outcome = .unknown → events = [])
  | .xack i outcome => ∀ e events, w.passes[i]? = some (.acknowledging e events) →
      outcome ≠ .done → events = []
  | .crash i => ∀ pass, w.passes[i]? = some pass → pass.uncounted = []

end ObservabilityWorld

end S3mp.Governance
