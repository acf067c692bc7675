import FastapiEffects.Postgres.Relay
import FastapiEffects.Executors.Envelope

/-! # The Taskiq bridge

`TaskiqDeliverySink` hands a claimed delivery to a broker, and `TaskiqWorkerBridge` executes what
the broker delivers. Both are programs that ask their surroundings: the clock, the handoff store,
the broker, the executor and the observer of events may answer anything, or raise.
-/

namespace FastapiEffects

open Python Interaction

/-! ## Events for observers -/

inductive HandoffEventKind where
  | taskiqPrepared
  | taskiqEnqueued
  | taskiqExecuted
deriving DecidableEq

/-- The arguments of `RuntimeEvent(...)` and of its `TraceLineage(...)`, less the constant
capability; the checks of both constructors pass for them. -/
structure HandoffEvent where
  kind : HandoffEventKind
  occurredAt : Datetime
  state : Str
  executed : Option Bool
  deliveryId : UUID
  attemptId : UUID
  handoffId : UUID
deriving DecidableEq

/-- `HandoffState.value`. -/
def HandoffState.value : HandoffState → Str
  | .prepared => "prepared"
  | .enqueued => "enqueued"
  | .executing => "executing"
  | .succeeded => "succeeded"
  | .retryWait => "retry_wait"
  | .dead => "dead"

/-- An event about a handoff. -/
def handoffEvent (kind : HandoffEventKind) (envelope : HandoffEnvelope) (now : Datetime)
    (state : Str) (executed : Option Bool) : HandoffEvent :=
  ⟨kind, now, state, executed, envelope.deliveryId, envelope.attemptId, envelope.handoffId⟩

/-! ## The sink -/

/-- The `task_id` of what the broker returned. -/
inductive BrokerTaskId where
  | absent
  | text (s : Str)
  | other
deriving DecidableEq

/-- `getattr(broker_task, "task_id", envelope.task_id) == envelope.task_id`. -/
def BrokerTaskId.isFor (id : BrokerTaskId) (envelope : HandoffEnvelope) : Bool :=
  match id with
  | .absent => true
  | .text s => s = envelope.taskId
  | .other => false

/-- What the sink waits for. -/
inductive HandingQuestion where
  /-- `clock.now()` -/
  | now
  | prepare (claim : ClaimedDelivery) (now : Datetime)
  /-- `task.kicker().with_labels(...).with_task_id(...)` -/
  | kicker (labels : List (Str × Str)) (taskId : Str)
  /-- `kicker.kiq(message)` -/
  | kiq (message : List (Str × Json))
  | enqueueFailed (envelope : HandoffEnvelope) (now : Datetime)
  | markEnqueued (envelope : HandoffEnvelope) (now : Datetime)
  /-- `event_sink.record(event)` -/
  | record (event : HandoffEvent)
  /-- whether a cancellation is that of the `asyncio.timeout` around the attempt -/
  | expired

abbrev HandingQuestion.Answer : HandingQuestion → Type
  | .now => Datetime
  | .prepare _ _ => HandoffEnvelope
  | .kiq _ => BrokerTaskId
  | .enqueueFailed _ _ | .markEnqueued _ _ => HandoffRecord
  | .expired => Bool
  | _ => Unit

/-- A part of the sink. -/
abbrev Handing (α : Type) := Program HandingQuestion HandingQuestion.Answer RelayError α

/-- `await q` -/
abbrev HandingQuestion.await (q : HandingQuestion) : Handing q.Answer := Program.await q

/-- `record_safely` swallows what an observer raises. -/
def recordHandoff (event : HandoffEvent) : Handing Unit :=
  (HandingQuestion.record event).await.tryCatch fun e =>
    if e = .cancelled then .raise e else .ret ()

/-- The labels of the broker's message. -/
def bridgeLabels : List (Str × Str) :=
  [("fastapi_effects_retry_owner", "true"), ("retry_on_error", "false")]

/-- The broker did not take the message, or took it under another name. -/
def reportEnqueueFailed (envelope : HandoffEnvelope) : Handing SinkDisposition := do
  let now ← HandingQuestion.now.await
  let _ ← (HandingQuestion.enqueueFailed envelope now).await
  return .deferred

/-- The broker took the message. -/
def reportEnqueued (envelope : HandoffEnvelope) : Handing SinkDisposition := do
  let now ← HandingQuestion.now.await
  let _ ← (HandingQuestion.markEnqueued envelope now).await
  let recordedAt ← HandingQuestion.now.await
  recordHandoff (handoffEvent .taskiqEnqueued envelope recordedAt "enqueued" none)
  return .deferred

/-- `_execute`. -/
def handOver (claim : ClaimedDelivery) : Handing SinkDisposition := do
  let now ← HandingQuestion.now.await
  let envelope ← (HandingQuestion.prepare claim now).await
  recordHandoff (handoffEvent .taskiqPrepared envelope now "prepared" none)
  (HandingQuestion.kicker bridgeLabels envelope.taskId).await
  let returned ← ((HandingQuestion.kiq envelope.toDict).await.bind fun id =>
      .ret (some id)).tryCatch
    fun e => if e = .cancelled then .raise e else (.ret none : Handing (Option BrokerTaskId))
  match returned with
  | none => reportEnqueueFailed envelope
  | some id => if id.isFor envelope then reportEnqueued envelope else reportEnqueueFailed envelope

/-- What `execute` reads of the claim before it reads the clock. -/
def enqueueTerms (claim : ClaimedDelivery) : Except PyError (RetryPolicy × Datetime) := do
  let invalid := PyError.configuration "Taskiq enqueue attempt deadline is invalid."
  let retry ← match claim.routeSnapshot.get? "retry" with
    | some (.obj members) => .ok (Json.obj members)
    | _ => .error invalid
  let leaseExpiresAt ← orRaise claim.delivery.leaseExpiresAt invalid
  let policy ← RetryPolicy.fromDict retry
  return (policy, leaseExpiresAt)

/-- The `asyncio.timeout` and the `except TimeoutError` around `_execute`: acceptance by the
broker is ambiguous then. -/
def underTimeout (p : Handing SinkDisposition) : Handing SinkDisposition :=
  p.tryCatch fun e =>
    match e with
    | .timeout => .ret .deferred
    | .cancelled => do
        if ← HandingQuestion.expired.await then return .deferred else .raise .cancelled
    | e => .raise e

/-- `TaskiqDeliverySink.execute`. -/
def executeHandoff (claim : ClaimedDelivery) : Handing SinkDisposition := do
  match enqueueTerms claim with
  | .error e => .raise (.ofPy e)
  | .ok (policy, leaseExpiresAt) =>
      let now ← HandingQuestion.now.await
      match remainingAttemptSeconds policy claim.delivery.createdAt claim.attempt.startedAt
          leaseExpiresAt now none with
      | .error e => .raise (.ofPy e)
      | .ok timeoutSeconds =>
          if timeoutSeconds ≤ 0 then return .deferred else underTimeout (handOver claim)

/-! ## The worker -/

/-- `WorkerResult`. -/
structure WorkerResult where
  handoffId : Str
  taskId : Str
  status : Str
  executed : Bool
  executionCount : ℤ
deriving DecidableEq

/-- `_result`. -/
def workerResult (record : HandoffRecord) (executed : Bool) : WorkerResult :=
  ⟨record.handoffId.str, record.taskId, record.state.value, executed, record.executionCount⟩

/-- What a worker waits for; each operation of the store runs in a session and under a timeout
of its own. -/
inductive WorkerQuestion where
  | claimExecution (envelope : HandoffEnvelope) (executionTimeout : Timedelta)
  | forId (tenantId handoffId : UUID)
  /-- `clock.now()` -/
  | now
  /-- `executor.execute(claim)` under a timeout -/
  | execute (claim : ClaimedDelivery) (timeoutSeconds : ℚ)
  | finalizeSuccess (executing : ExecutingHandoff)
  | finalizeFailure (executing : ExecutingHandoff) (error : DeliveryError)
  /-- `event_sink.record(event)` -/
  | record (event : HandoffEvent)

abbrev WorkerQuestion.Answer : WorkerQuestion → Type
  | .claimExecution _ _ => Option ExecutingHandoff
  | .forId _ _ => Option HandoffRecord
  | .now => Datetime
  | .finalizeSuccess _ | .finalizeFailure _ _ => HandoffRecord
  | _ => Unit

/-- A part of a worker. -/
abbrev Working (α : Type) := Program WorkerQuestion WorkerQuestion.Answer RelayError α

/-- `await q` -/
abbrev WorkerQuestion.await (q : WorkerQuestion) : Working q.Answer := Program.await q

/-- The errors `execute` makes of exceptions that do not classify themselves. -/
def executorDeniedError : DeliveryError :=
  ⟨false, "executor.authorization_denied", "Taskiq handler authority was denied.", none, by decide,
    by decide, by simp, by simp⟩

def executorTimeoutError : DeliveryError :=
  .internal "executor.execution_timeout" "Taskiq handler exceeded its aggregate attempt deadline."
    (by decide)

def executorFailedError : DeliveryError :=
  .internal "executor.execution_failed" "Taskiq handler failed without safe classification."
    (by decide)

/-- The `except` clauses of the handler: the failure that is finalized, or what is raised again. -/
def workerFailure : RelayError → Except RelayError DeliveryError
  | .cancelled => .error .cancelled
  | .authorizationDenied | .authorizationExpired => .ok executorDeniedError
  | .delivery error => .ok error
  | .timeout => .ok executorTimeoutError
  | e => if isTransientDatabaseError e then .error e else .ok executorFailedError

/-- The body of the `try` around the handler. -/
def executeAdmitted (executing : ExecutingHandoff) : Working Unit := do
  let now ← WorkerQuestion.now.await
  let remaining := Timedelta.totalSeconds (executing.executionDeadline - now)
  if remaining ≤ 0 then .raise .timeout
  else (WorkerQuestion.execute executing.claim remaining).await

/-- `_record` and `_result`. -/
def concludeWorker (envelope : HandoffEnvelope) (record : HandoffRecord) (executed : Bool) :
    Working WorkerResult := do
  let now ← WorkerQuestion.now.await
  (WorkerQuestion.record (handoffEvent .taskiqExecuted envelope now record.state.value
    (some executed))).await.tryCatch fun e => if e = .cancelled then .raise e else .ret ()
  return workerResult record executed

/-- The handoff as it is stored now. -/
def currentHandoff (envelope : HandoffEnvelope) (missing : String) : Working HandoffRecord := do
  match ← (WorkerQuestion.forId envelope.tenantId envelope.handoffId).await with
  | some record => return record
  | none => .raise (.configuration missing)

/-- The `except` clause of the finalization: after a lost lease the handoff is as others have
finalized it. -/
def afterFinalization (envelope : HandoffEnvelope) : RelayError → Working HandoffRecord
  | .leaseLost _ => currentHandoff envelope "Taskiq stale finalization lost its handoff."
  | e => .raise e

/-- The finalization of an execution. -/
def finalizeExecution (envelope : HandoffEnvelope) (executing : ExecutingHandoff) :
    Option DeliveryError → Working HandoffRecord
  | none => (WorkerQuestion.finalizeSuccess executing).await.tryCatch (afterFinalization envelope)
  | some error =>
      (WorkerQuestion.finalizeFailure executing error).await.tryCatch (afterFinalization envelope)

/-- The failure to finalize, after the handler raised. -/
def afterHandler (e : RelayError) : Working (Option DeliveryError) :=
  match workerFailure e with
  | .ok error => .ret (some error)
  | .error e => .raise e

/-- `TaskiqWorkerBridge.execute` after the message is read. -/
def executeEnvelope (executionTimeout : Timedelta) (envelope : HandoffEnvelope) :
    Working WorkerResult := do
  match ← (WorkerQuestion.claimExecution envelope executionTimeout).await with
  | none =>
      let record ← currentHandoff envelope "Taskiq duplicate references no handoff."
      concludeWorker envelope record false
  | some executing =>
      let failure ← ((executeAdmitted executing).bind fun _ => .ret none).tryCatch afterHandler
      let record ← finalizeExecution envelope executing failure
      concludeWorker envelope record true

/-- `TaskiqWorkerBridge.execute`. -/
def executeMessage [Platform] (executionTimeout : Timedelta) (value : List (Str × Json)) :
    Working WorkerResult :=
  match HandoffEnvelope.fromDict value with
  | .ok envelope => executeEnvelope executionTimeout envelope
  | .error e => .raise (.ofPy e)

end FastapiEffects
