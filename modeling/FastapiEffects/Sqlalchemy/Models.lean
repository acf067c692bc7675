import FastapiEffects.ReadCommitted.Prog
import FastapiEffects.Core.Delivery

/-! # The tables of the delivery runtime

The rows of `events`, `deliveries`, `attempts` and `taskiq_handoffs`, their keys,
and the constraints the schema puts on them. A column with a `CHECK` on a fixed set
of strings has an enumeration here.
-/

namespace FastapiEffects

open Python ReadCommitted

/-- `EventRow`. -/
abbrev EventRow := EventRecordArgs

/-- `DeliveryRow`. -/
structure DeliveryRow where
  tenantId : UUID
  deliveryId : UUID
  eventId : UUID
  routeKey : Str
  routeVersion : ℤ
  destinationKind : Str
  destinationKey : Str
  routeSnapshot : Json
  routeSnapshotBytes : Bytes
  state : DeliveryState
  attemptsStarted : ℤ
  nextAttemptAt : Datetime
  leaseToken : Option UUID
  leaseExpiresAt : Option Datetime
  replayOf : Option UUID
  replayActor : Option Str
  replayReason : Option Str
  createdAt : Datetime
  updatedAt : Datetime
deriving DecidableEq

/-- `AttemptRow`. -/
abbrev AttemptRow := AttemptRecordArgs

/-- `HandoffState`. -/
inductive HandoffState where
  | prepared
  | enqueued
  | executing
  | succeeded
  | retryWait
  | dead
deriving DecidableEq, Repr

/-- `TaskiqHandoffRow`. -/
structure HandoffRow where
  tenantId : UUID
  handoffId : UUID
  deliveryId : UUID
  attemptId : UUID
  taskId : Str
  handoffToken : UUID
  state : HandoffState
  routeSnapshot : Json
  executionToken : Option UUID
  executionDeadline : Option Datetime
  executionCount : ℤ
  preparedAt : Datetime
  enqueuedAt : Option Datetime
  startedAt : Option Datetime
  finishedAt : Option Datetime
  updatedAt : Datetime
  failureCode : Option Str
  failureSummary : Option Str
deriving DecidableEq

/-! ## Checks -/

/-- The largest value of an `Integer` column. -/
def maxInteger : ℤ := 2147483647

/-- The `CHECK`s of `events`. -/
def eventRowChecks (r : EventRow) : Bool :=
  0 < r.eventVersion ∧ 0 < r.canonicalVersion ∧ r.payloadSha256.length = 32 ∧
    r.dedupeNamespace.isNone = r.dedupeKey.isNone

/-- The `CHECK`s of `deliveries`. -/
def DeliveryRow.checks (r : DeliveryRow) : Bool :=
  0 < r.routeVersion ∧ 0 ≤ r.attemptsStarted ∧
    (r.state = .leased ↔ r.leaseToken.isSome ∧ r.leaseExpiresAt.isSome) ∧
    r.replayOf.isNone = r.replayActor.isNone ∧ r.replayOf.isNone = r.replayReason.isNone

/-- The `CHECK`s of `attempts`. -/
def attemptRowChecks (r : AttemptRow) : Bool :=
  let plain : Prop := r.outcome = .started ∨ r.outcome = .succeeded
  0 < r.attemptNumber ∧ (r.outcome = .started ↔ r.finishedAt.isNone) ∧
    (plain → r.failureCode.isNone ∧ r.failureSummary.isNone) ∧
    (¬ plain → r.failureCode.isSome ∧ r.failureSummary.isSome)

/-- The `CHECK`s of `taskiq_handoffs`. -/
def HandoffRow.checks (r : HandoffRow) : Bool :=
  let failed : Prop := r.state = .retryWait ∨ r.state = .dead
  0 ≤ r.executionCount ∧
    (r.state = .executing ↔ r.executionToken.isSome ∧ r.executionDeadline.isSome) ∧
    (r.state = .prepared → r.enqueuedAt.isNone) ∧
    (r.state = .enqueued ∨ r.state = .executing ∨ r.state = .succeeded → r.enqueuedAt.isSome) ∧
    (r.state = .succeeded ∨ failed ↔ r.finishedAt.isSome) ∧
    (failed → r.failureCode.isSome ∧ r.failureSummary.isSome) ∧
    (¬ failed → r.failureCode.isNone ∧ r.failureSummary.isNone)

/-! ## Keys -/

/-- The primary keys, and the name of the retention lock of a tenant's webhooks. -/
inductive Key where
  | event (tenantId eventId : UUID)
  | delivery (tenantId deliveryId : UUID)
  | attempt (tenantId attemptId : UUID)
  | handoff (tenantId handoffId : UUID)
  | webhookRetention (tenantId : UUID)
deriving DecidableEq

/-- A row of one of the tables. -/
inductive Row where
  | event (r : EventRow)
  | delivery (r : DeliveryRow)
  | attempt (r : AttemptRow)
  | handoff (r : HandoffRow)
deriving DecidableEq

namespace Row

def key : Row → Key
  | .event r => .event r.tenantId r.eventId
  | .delivery r => .delivery r.tenantId r.deliveryId
  | .attempt r => .attempt r.tenantId r.attemptId
  | .handoff r => .handoff r.tenantId r.handoffId

/-- The unique constraints beside the primary keys. -/
def clash : Row → Row → Bool
  | .event r, .event r' =>
      r.tenantId = r'.tenantId ∧ r.dedupeNamespace.isSome ∧ r.dedupeNamespace = r'.dedupeNamespace ∧
        r.dedupeKey = r'.dedupeKey
  | .delivery r, .delivery r' =>
      r.replayOf.isNone ∧ r'.replayOf.isNone ∧ r.tenantId = r'.tenantId ∧ r.eventId = r'.eventId ∧
        r.routeKey = r'.routeKey ∧ r.routeVersion = r'.routeVersion ∧
        r.destinationKind = r'.destinationKind ∧ r.destinationKey = r'.destinationKey
  | .attempt r, .attempt r' =>
      r.tenantId = r'.tenantId ∧ r.deliveryId = r'.deliveryId ∧ r.attemptNumber = r'.attemptNumber
  | .handoff r, .handoff r' =>
      (r.tenantId = r'.tenantId ∧ r.deliveryId = r'.deliveryId ∧ r.attemptId = r'.attemptId) ∨
        r.taskId = r'.taskId
  | _, _ => false

/-- The row as a delivery, attempt, event or handoff. -/
def event? : Row → Option EventRow
  | .event r => some r
  | _ => none

def delivery? : Row → Option DeliveryRow
  | .delivery r => some r
  | _ => none

def attempt? : Row → Option AttemptRow
  | .attempt r => some r
  | _ => none

def handoff? : Row → Option HandoffRow
  | .handoff r => some r
  | _ => none

end Row

theorem Row.clash_comm (r r' : Row) : r.clash r' = r'.clash r := by
  cases r <;> cases r' <;> simp only [Row.clash, decide_eq_decide] <;> grind

instance : Schema Key Row := ⟨Row.key, Row.clash, Row.clash_comm⟩

/-- The database of the runtime. -/
abbrev Db := Table Key Row

end FastapiEffects
