import FastapiEffects.Core.Event

/-! # Deliveries and attempts

The states of deliveries and attempts, the detached records, which carry the checks
of their constructors, and the classified errors a sink reports.
-/

namespace FastapiEffects

open Python

inductive DeliveryState where
  | pending
  | leased
  | retryWait
  | succeeded
  | dead
deriving DecidableEq, Repr

inductive AttemptOutcome where
  | started
  | succeeded
  | retryable
  | terminal
  | abandoned
  | leaseLost
deriving DecidableEq, Repr

/-! ## Delivery records -/

/-- The arguments of `DeliveryRecord(...)`. -/
structure DeliveryRecordArgs where
  deliveryId : UUID
  tenantId : UUID
  eventId : UUID
  routeKey : Str
  routeVersion : ℤ
  destinationKind : Str
  destinationKey : Str
  routeSnapshot : Bytes
  state : DeliveryState
  attemptsStarted : ℤ
  createdAt : Datetime
  updatedAt : Datetime
  nextAttemptAt : Datetime
  leaseToken : Option UUID
  leaseExpiresAt : Option Datetime
  replayOf : Option UUID
  replayActor : Option Str
  replayReason : Option Str
deriving DecidableEq

/-- Whether the replay fields of a delivery are those of an original or those of a
well-formed replay. -/
def DeliveryRecordArgs.replayCheck (d : DeliveryRecordArgs) : Except PyError Unit :=
  match d.replayOf with
  | none =>
      check (d.replayActor.isNone ∧ d.replayReason.isNone)
        (.configuration "Original delivery cannot contain replay audit data.")
  | some original =>
      check (original ≠ d.deliveryId ∧ d.replayActor.any (fun a => a ≠ [] ∧ a.length ≤ 512) ∧
          d.replayReason.any isStableKey)
        (.configuration "Replay requires a bounded actor and reason.")

/-- `DeliveryRecord.__post_init__`. -/
def DeliveryRecordArgs.postInit (d : DeliveryRecordArgs) : Except PyError Unit := do
  check (isStableKey d.routeKey) (.configuration "Delivery route key is invalid.")
  check (isStableKey d.destinationKind) (.configuration "Delivery destination kind is invalid.")
  check (isStableKey d.destinationKey) (.configuration "Delivery destination key is invalid.")
  check (0 < d.routeVersion) (.configuration "Delivery route version must be positive.")
  check (0 ≤ d.attemptsStarted)
    (.configuration "Delivery attempts_started cannot be negative.")
  check (d.routeSnapshot ≠ []) (.configuration "Delivery route snapshot must be immutable bytes.")
  check (d.leaseToken.isNone = d.leaseExpiresAt.isNone)
    (.configuration "Delivery lease token and expiry must be paired.")
  check (d.state = .leased → d.leaseToken.isSome)
    (.configuration "A leased delivery requires a lease token.")
  check (d.state ≠ .leased → d.leaseToken.isNone)
    (.configuration "Only a leased delivery may retain a lease token.")
  d.replayCheck
  check (d.createdAt ≤ d.updatedAt) (.configuration "Delivery updated before it was created.")

/-- A detached delivery. -/
structure DeliveryRecord extends DeliveryRecordArgs where
  valid : toDeliveryRecordArgs.postInit = .ok ()
deriving DecidableEq

/-- `DeliveryRecord(...)`. -/
def DeliveryRecord.make (d : DeliveryRecordArgs) : Except PyError DeliveryRecord :=
  match h : d.postInit with
  | .ok () => .ok ⟨d, h⟩
  | .error e => .error e

/-! ## Attempt records -/

/-- The arguments of `AttemptRecord(...)`. -/
structure AttemptRecordArgs where
  attemptId : UUID
  tenantId : UUID
  deliveryId : UUID
  attemptNumber : ℤ
  leaseToken : UUID
  outcome : AttemptOutcome
  startedAt : Datetime
  finishedAt : Option Datetime
  failureCode : Option Str
  failureSummary : Option Str
deriving DecidableEq

/-- `AttemptRecord.__post_init__`. -/
def AttemptRecordArgs.postInit (a : AttemptRecordArgs) : Except PyError Unit := do
  check (0 < a.attemptNumber) (.configuration "Attempt number must be positive.")
  if a.outcome = .started then
    check (a.finishedAt.isNone ∧ a.failureCode.isNone ∧ a.failureSummary.isNone)
      (.configuration "A started attempt cannot contain an outcome.")
  else
    check a.finishedAt.isSome (.configuration "A completed attempt requires finished_at.")
  check (a.outcome = .succeeded → a.failureCode.isNone ∧ a.failureSummary.isNone)
    (.configuration "A successful attempt cannot contain a failure.")
  check (a.outcome ≠ .started → a.outcome ≠ .succeeded →
      a.failureCode.isSome ∧ a.failureSummary.isSome)
    (.configuration "A failed attempt requires bounded failure metadata.")
  check (a.finishedAt.all fun t => a.startedAt ≤ t)
    (.configuration "Attempt finished before it started.")
  check (a.failureCode.all isStableKey) (.configuration "Attempt failure code is invalid.")
  check (a.failureSummary.all fun s => s.length ≤ 512)
    (.configuration "Attempt failure summary is invalid.")

/-- A detached attempt. -/
structure AttemptRecord extends AttemptRecordArgs where
  valid : toAttemptRecordArgs.postInit = .ok ()
deriving DecidableEq

/-- `AttemptRecord(...)`. -/
def AttemptRecord.make (a : AttemptRecordArgs) : Except PyError AttemptRecord :=
  match h : a.postInit with
  | .ok () => .ok ⟨a, h⟩
  | .error e => .error e

/-! ## Classified errors -/

/-- `_bounded_summary`: control characters become spaces, 512 characters at most. -/
def boundedSummary (s : Str) : Str :=
  (s.map fun c => if c.ord < 32 ∨ c.ord = 127 then .scalar ' ' else c).take 512

/-- `RetryableDeliveryError` or `PermanentDeliveryError`, as constructed. -/
structure DeliveryError where
  retryable : Bool
  code : Str
  summary : Str
  retryAfter : Option Timedelta
  valid : isStableKey code = true ∧ boundedSummary summary = summary ∧
    (∀ d ∈ retryAfter, 0 ≤ d) ∧ (retryable = false → retryAfter = none)
deriving DecidableEq

/-- A retryable error of the library itself. -/
def DeliveryError.internal (code summary : String)
    (valid : isStableKey code = true ∧ boundedSummary summary = summary) : DeliveryError :=
  ⟨true, code, summary, none, valid.1, valid.2, by simp, by simp⟩

end FastapiEffects
