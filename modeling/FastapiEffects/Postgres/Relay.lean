import FastapiEffects.Postgres.Leasing
import FastapiEffects.TaskGroup

/-! # The relay

`PollingRelay.run_once`: one claimed batch, whose deliveries are executed and finalized side by
side in one task group. What a task asks its surroundings for is the clock, its sink, the short
transaction that finalizes its attempt, and the observer of events.
-/

namespace FastapiEffects

open Python Interaction

/-! ## Exceptions -/

/-- The `errno`s and `gaierror` codes the classifier knows. -/
inductive Errno where
  | connAborted
  | connRefused
  | connReset
  | netDown
  | netUnreach
  | hostDown
  | hostUnreach
  | timedOut
  | eaiAgain
  | other (n : ℤ)
deriving DecidableEq

/-- The classes of `OSError` the classifier looks for. -/
inductive OSErrorKind where
  | connectionRefused
  | connectionReset
  | connectionAborted
  | gaierror
  | other
deriving DecidableEq

/-- An `OSError` that is not a `TimeoutError`. -/
structure OSErrorArgs where
  kind : OSErrorKind
  errno : Option Errno
deriving DecidableEq

/-- A `DBAPIError`: what SQLAlchemy says of the connection, whether it is an `OperationalError`
or an `InterfaceError`, and the attributes of the driver's exception that are texts. -/
structure DBAPIErrorArgs where
  connectionInvalidated : Bool
  operational : Bool
  sqlstate : Option Str
  pgcode : Option Str
deriving DecidableEq

/-- `_TRANSIENT_SQLSTATES`. -/
def transientSqlstates : List Str :=
  ["40001", "40P01", "55P03", "57014", "57P01", "57P02", "57P03"]

/-- `value.upper()` for the comparison with a SQLSTATE: no character outside `a-z` becomes one
of the characters of `transientSqlstates` or a `0` or an `8`. -/
def upperSqlstate (value : Str) : Str :=
  value.map fun c => if c.between 'a' 'z' then .scalar (Char.ofNat (c.ord - 32)) else c

/-- `_sqlstate(error.orig)`. -/
def DBAPIErrorArgs.state (e : DBAPIErrorArgs) : Option Str :=
  ([e.sqlstate, e.pgcode].filterMap id).find? (·.length = 5) |>.map upperSqlstate

/-- What a relay task may be raised at. -/
inductive RelayError where
  /-- `asyncio.CancelledError` -/
  | cancelled
  /-- `PermanentDeliveryError` and `RetryableDeliveryError` -/
  | delivery (error : DeliveryError)
  | authorizationDenied
  | authorizationExpired
  | timeout
  | configuration (message : String)
  | leaseLost (deliveryId : UUID)
  | database (error : DBAPIErrorArgs)
  | os (error : OSErrorArgs)
  /-- any other `Exception` -/
  | other
deriving DecidableEq

/-- `is_transient_database_error`. -/
def isTransientDatabaseError : RelayError → Bool
  | .database e =>
      if e.connectionInvalidated then true
      else
        match e.state with
        | some state => ("08" : Str) <+: state ∨ state ∈ transientSqlstates
        | none => e.operational
  | _ => false

/-- `is_transient_database_connection_error`. -/
def isTransientDatabaseConnectionError (error : RelayError) : Bool :=
  if isTransientDatabaseError error then true
  else
    match error with
    | .os e =>
        match e.kind with
        | .connectionRefused | .connectionReset | .connectionAborted => true
        | .gaierror => e.errno = some .eaiAgain
        | .other => e.errno.any (· ∈ [Errno.connAborted, .connRefused, .connReset, .netDown,
            .netUnreach, .hostDown, .hostUnreach, .timedOut])
    | _ => false

/-! ## Events for observers -/

/-- The two events a task of the relay records. -/
inductive RuntimeEventKind where
  | leaseLost
  | controlPlaneFailed
deriving DecidableEq

/-- The arguments of `RuntimeEvent(...)` and of its `TraceLineage(...)`. -/
structure RuntimeEvent where
  kind : RuntimeEventKind
  occurredAt : Datetime
  attributes : List (Str × Str)
  eventId : UUID
  deliveryId : UUID
  attemptId : UUID
  replayOf : Option UUID
  traceparent : Option Str
deriving DecidableEq

/-- `_ALLOWED_ATTRIBUTES`; each of them is a safe name. -/
def allowedAttributes : List Str :=
  ["attempt.number", "authorization.result", "auto_paused", "backlog.age.seconds", "capability",
    "destination.count", "destination.kind", "duration", "duration.ms", "executed", "failure.code",
    "outcome", "pruned.count", "reconciled.count", "state"]

/-- `TraceLineage.__post_init__` and `RuntimeEvent.__post_init__`. -/
def RuntimeEvent.postInit (e : RuntimeEvent) : Except PyError Unit := do
  check (e.traceparent.all fun s => s.length ≤ 256 ∧ s.all fun c => ¬ (c.ord < 32 ∨ c.ord = 127))
    (.configuration "Runtime trace lineage parent is invalid.")
  check (e.attributes.length ≤ 32) (.configuration "Runtime event has too many attributes.")
  check (e.attributes.all fun a => a.1 ∈ allowedAttributes)
    (.configuration "Runtime event contains an unsafe attribute.")
  check (e.attributes.all fun a => a.2.length ≤ 256)
    (.configuration "Runtime event attribute is oversized.")

/-- An event about a claim. -/
def claimEvent (kind : RuntimeEventKind) (now : Datetime) (claim : ClaimedDelivery)
    (attributes : List (Str × Str)) : RuntimeEvent where
  kind := kind
  occurredAt := now
  attributes := attributes
  eventId := claim.event.eventId
  deliveryId := claim.delivery.deliveryId
  attemptId := claim.attempt.attemptId
  replayOf := claim.delivery.replayOf
  traceparent := claim.event.traceparent

/-! ## Tasks -/

inductive SinkDisposition where
  | completed
  | deferred
deriving DecidableEq

/-- What a task waits for. -/
inductive RelayQuestion where
  /-- `clock.now()` -/
  | now
  /-- `sink.execute(claim)` under a timeout -/
  | execute (claim : ClaimedDelivery) (timeoutSeconds : ℚ)
  /-- `_finalization_operation(_succeed(claim))` -/
  | succeed (claim : ClaimedDelivery)
  /-- `_finalization_operation(_fail_in_session(claim, error))` -/
  | fail (claim : ClaimedDelivery) (error : DeliveryError)
  /-- `event_sink.record(event)` -/
  | record (event : RuntimeEvent)
deriving DecidableEq

/-- What each of them gives when it does not raise. -/
abbrev RelayQuestion.Answer : RelayQuestion → Type
  | .now => Datetime
  | .execute _ _ => Option SinkDisposition
  | _ => Unit

/-- A part of a task. -/
abbrev Relaying (α : Type) := Program RelayQuestion RelayQuestion.Answer RelayError α

/-- `await q` -/
abbrev RelayQuestion.await (q : RelayQuestion) : Relaying q.Answer := Program.await q

/-- An exception of a computation of the task itself. -/
def RelayError.ofPy : PyError → RelayError
  | .configuration message => .configuration message
  | _ => .other

/-- `_remaining_claim_seconds`. -/
def remainingClaimSeconds (claim : ClaimedDelivery) (now : Datetime) : Except PyError ℚ := do
  let invalid := PyError.configuration "Claim attempt deadline is invalid."
  let retry ← match claim.routeSnapshot.get? "retry" with
    | some (.obj members) => .ok (Json.obj members)
    | _ => .error invalid
  let leaseExpiresAt ← orRaise claim.delivery.leaseExpiresAt invalid
  let policy ← RetryPolicy.fromDict retry
  remainingAttemptSeconds policy claim.delivery.createdAt claim.attempt.startedAt leaseExpiresAt now
    none

/-- `record_safely`. -/
def recordSafely (event : RuntimeEvent) : Relaying Unit :=
  (RelayQuestion.record event).await.tryCatch fun e =>
    if e = .cancelled then .raise e else .ret ()

/-- Build an event and record it. -/
def recordEvent (event : RuntimeEvent) : Relaying Unit :=
  match event.postInit with
  | .ok () => recordSafely event
  | .error e => .raise (.ofPy e)

/-- `_record_control_failure`. -/
def recordControlFailure (code : Str) (claim : ClaimedDelivery) : Relaying Unit := do
  let now ← RelayQuestion.now.await
  recordEvent (claimEvent .controlPlaneFailed now claim
    [("failure.code", code), ("destination.kind", claim.delivery.destinationKind)])

/-- `_record_lease_lost`. -/
def recordLeaseLost (claim : ClaimedDelivery) : Relaying Unit := do
  let now ← RelayQuestion.now.await
  recordEvent (claimEvent .leaseLost now claim
    [("destination.kind", claim.delivery.destinationKind)])

/-- The clauses after a finalization: what is left for a later reconciliation is recorded. -/
def settle (claim : ClaimedDelivery) : RelayError → Relaying Unit
  | .leaseLost _ => recordLeaseLost claim
  | .timeout => recordControlFailure "database.finalization_timeout" claim
  | e =>
      if isTransientDatabaseConnectionError e then recordControlFailure "database.transient" claim
      else .raise e

/-- `_fail_safely`. -/
def failSafely (claim : ClaimedDelivery) (error : DeliveryError) : Relaying Unit :=
  (RelayQuestion.fail claim error).await.tryCatch (settle claim)

/-- The `else` clause of `execute_claim`. -/
def succeedSafely (claim : ClaimedDelivery) : Relaying Unit :=
  (RelayQuestion.succeed claim).await.tryCatch (settle claim)

/-- The errors `execute_claim` makes of exceptions that do not classify themselves. -/
def authorizationDeniedError : DeliveryError :=
  ⟨false, "authorization.denied", "Delivery authority was denied.", none, by decide, by decide,
    by simp, by simp⟩

def executionTimeout : DeliveryError :=
  .internal "execution.timeout" "Delivery execution exceeded its timeout." (by decide)

def executionFailed : DeliveryError :=
  .internal "execution.failed" "Delivery execution failed without safe classification." (by decide)

/-- The body of the `try` of `execute_claim`. -/
def executeSink (claim : ClaimedDelivery) : Relaying (Option SinkDisposition) := do
  let now ← RelayQuestion.now.await
  match remainingClaimSeconds claim now with
  | .error e => .raise (.ofPy e)
  | .ok timeoutSeconds =>
      if timeoutSeconds ≤ 0 then .raise .timeout
      else (RelayQuestion.execute claim timeoutSeconds).await

/-- The `except` clauses of `execute_claim`. -/
def handleFailure (claim : ClaimedDelivery) : RelayError → Relaying Unit
  | .cancelled => .raise .cancelled
  | .delivery error => failSafely claim error
  | .authorizationDenied | .authorizationExpired => failSafely claim authorizationDeniedError
  | .timeout => failSafely claim executionTimeout
  | .configuration message => .raise (.configuration message)
  | e =>
      if isTransientDatabaseError e then recordControlFailure "database.transient" claim
      else
        match e with
        | .database _ => .raise e
        | _ => failSafely claim executionFailed

/-- `execute_claim`. The `else` clause is outside the `try`. -/
def executeClaim (claim : ClaimedDelivery) : Relaying Unit := do
  let result ← ((executeSink claim).bind fun d => .ret (.ok d)).tryCatch fun e =>
    (.ret (.error e) : Relaying (Except RelayError (Option SinkDisposition)))
  match result with
  | .error e => handleFailure claim e
  | .ok disposition =>
      if disposition = some .deferred then .ret () else succeedSafely claim

/-! ## A cycle -/

/-- What `run_once` waits for. -/
inductive CycleQuestion where
  /-- `self._stop.is_set()` -/
  | stopped
  /-- `_control_operation(_reconcile(now))` -/
  | reconcile
  /-- `_control_operation(_claim())` -/
  | claim
  /-- the end of the task group over the claims -/
  | group (claims : List ClaimedDelivery)

abbrev CycleQuestion.Answer : CycleQuestion → Type
  | .stopped => Bool
  | .claim => List ClaimedDelivery
  | _ => Unit

/-- An exception of a control operation, or the exceptions of the tasks of the group. -/
inductive CycleError where
  | control (error : RelayError)
  | group (errors : List RelayError)

/-- `await q` -/
abbrev CycleQuestion.await (q : CycleQuestion) :
    Program CycleQuestion CycleQuestion.Answer CycleError q.Answer := Program.await q

/-- `run_once`: how many claims it executed. -/
def runOnce : Program CycleQuestion CycleQuestion.Answer CycleError ℕ := do
  if ← CycleQuestion.stopped.await then return 0
  else
    CycleQuestion.reconcile.await
    if ← CycleQuestion.stopped.await then return 0
    else
      let claims ← CycleQuestion.claim.await
      (CycleQuestion.group claims).await
      return claims.length

/-- The tasks of the group. -/
abbrev RelayGroup := Group RelayQuestion RelayQuestion.Answer RelayError

/-- How the `async with` of the group ends once all tasks have. -/
inductive RelayGroup.Ends (g : RelayGroup) : Except CycleError Unit → Prop
  | returns (h : Group.Returns .cancelled g) : Ends g (.ok ())
  | raises (errors : List RelayError) (hended : ∀ t ∈ g, t.Ended)
      (h : Group.Aborting .cancelled g) : Ends g (.error (.group errors))

end FastapiEffects
