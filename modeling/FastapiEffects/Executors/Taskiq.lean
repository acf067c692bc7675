import FastapiEffects.Postgres.Leasing

/-! # The Taskiq handoff

`TaskiqHandoffStore`: the durable handoff of a claimed delivery to a broker, from
preparation to the fenced finalization by a worker, and the recovery of handoffs
that stay behind.
-/

namespace FastapiEffects

open Python ReadCommitted

/-- `TaskiqHandoffEnvelope`: the message a broker carries. -/
structure HandoffEnvelope where
  tenantId : UUID
  handoffId : UUID
  deliveryId : UUID
  attemptId : UUID
  taskId : Str
  handoffToken : UUID
deriving DecidableEq

/-- `HandoffRecord`. -/
structure HandoffRecord where
  tenantId : UUID
  handoffId : UUID
  deliveryId : UUID
  attemptId : UUID
  taskId : Str
  state : HandoffState
  executionCount : ℤ
  preparedAt : Datetime
  updatedAt : Datetime
deriving DecidableEq

/-- An execution a worker was admitted to. -/
structure ExecutingHandoff where
  record : HandoffRecord
  claim : ClaimedDelivery
  executionToken : UUID
  executionDeadline : Datetime
deriving DecidableEq

/-- `stable_task_id`. -/
def stableTaskId (attemptId : UUID) : Str := "fastapi_effects_" ++ attemptId.hex

/-- `_envelope`. -/
def HandoffRow.envelope (row : HandoffRow) : HandoffEnvelope :=
  ⟨row.tenantId, row.handoffId, row.deliveryId, row.attemptId, row.taskId, row.handoffToken⟩

/-- `_record`. -/
def HandoffRow.record (row : HandoffRow) : HandoffRecord :=
  ⟨row.tenantId, row.handoffId, row.deliveryId, row.attemptId, row.taskId, row.state,
    row.executionCount, row.preparedAt, row.updatedAt⟩

/-- `_clear_execution`. -/
def clearExecution (row : HandoffRow) : HandoffRow :=
  { row with executionToken := none, executionDeadline := none }

/-- The default summary of `_set_failed`. -/
def handoffFailedSummary : Str := "Taskiq handoff failed before completion."

/-- `_set_failed`. -/
def setFailed (row : HandoffRow) (outcome : DeliveryState) (now : Datetime) (code summary : Str) :
    HandoffRow :=
  clearExecution { row with
    state := if outcome = .retryWait then .retryWait else .dead
    finishedAt := some now
    updatedAt := now
    failureCode := some code
    failureSummary := some summary }

/-- `UPDATE` of one handoff. -/
def updateHandoff (row : HandoffRow) : Tx Unit := updateRow row.checks (.handoff row)

/-- `_locked_for_envelope`. -/
def lockedForEnvelope (envelope : HandoffEnvelope) : Tx HandoffRow := do
  match ← selectForUpdate Row.handoff? (.handoff envelope.tenantId envelope.handoffId) with
  | none => .raise (.configuration "Taskiq handoff envelope was rejected.")
  | some row =>
      if row.envelope = envelope then return row
      else .raise (.configuration "Taskiq handoff envelope was rejected.")

/-- `_locked_execution`. -/
def lockedExecution (executing : ExecutingHandoff) : Tx HandoffRow := do
  match ← selectForUpdate Row.handoff?
    (.handoff executing.record.tenantId executing.record.handoffId) with
  | none => .raise (.leaseLost executing.record.deliveryId)
  | some row =>
      if row.state = .executing ∧ row.executionToken = some executing.executionToken then return row
      else .raise (.leaseLost executing.record.deliveryId)

/-- `_claim_for_row`: the claim of the parent attempt, while that attempt still owns
the delivery. -/
def claimForRow (row : HandoffRow) : Tx ClaimedDelivery := do
  let delivery? ← selectForUpdate Row.delivery? (.delivery row.tenantId row.deliveryId)
  let attempt? ← selectForUpdate Row.attempt? (.attempt row.tenantId row.attemptId)
  match delivery?, attempt? with
  | some delivery, some attempt =>
      if delivery.state ≠ .leased ∨ attempt.deliveryId ≠ row.deliveryId ∨
          delivery.leaseToken ≠ some attempt.leaseToken ∨ attempt.outcome ≠ .started then
        .raise (.leaseLost row.deliveryId)
      else
        match ← selectOne Row.event? (.event row.tenantId delivery.eventId) with
        | none => .raise (.configuration "Taskiq handoff event no longer exists.")
        | some event =>
            let eventRecord ← Tx.lift (eventFromRow event)
            let deliveryRecord ← Tx.lift (deliveryFromRow delivery)
            let attemptRecord ← Tx.lift (attemptFromRow attempt)
            return ⟨eventRecord, deliveryRecord, attemptRecord, row.routeSnapshot⟩
  | _, _ => .raise (.leaseLost row.deliveryId)

/-! ## Preparation and enqueueing -/

/-- The row `prepare` stores. -/
def preparedHandoff (claim : ClaimedDelivery) (handoffId handoffToken : UUID)
    (preparedAt : Datetime) : HandoffRow where
  tenantId := claim.delivery.tenantId
  handoffId := handoffId
  deliveryId := claim.delivery.deliveryId
  attemptId := claim.attempt.attemptId
  taskId := stableTaskId claim.attempt.attemptId
  handoffToken := handoffToken
  state := .prepared
  routeSnapshot := claim.routeSnapshot
  executionToken := none
  executionDeadline := none
  executionCount := 0
  preparedAt := preparedAt
  enqueuedAt := none
  startedAt := none
  finishedAt := none
  updatedAt := preparedAt
  failureCode := none
  failureSummary := none

/-- Whether a handoff is the one of a claim's attempt. -/
def HandoffRow.isFor (row : HandoffRow) (claim : ClaimedDelivery) : Bool :=
  row.tenantId = claim.delivery.tenantId ∧ row.deliveryId = claim.delivery.deliveryId ∧
    row.attemptId = claim.attempt.attemptId

/-- `prepare`: a second call for the same attempt finds the first row. A row that is
refused although no handoff of the attempt exists breaks the constraint on task ids,
and a claim whose delivery or attempt is not stored breaks a foreign key. -/
def prepare (claim : ClaimedDelivery) (now : Datetime) : Tx HandoffEnvelope := do
  let handoffId ← newUuid
  let handoffToken ← newUuid
  let preparedAt ← databaseNow now
  let delivery? ← selectOne Row.delivery? (.delivery claim.delivery.tenantId claim.delivery.deliveryId)
  let attempt? ← selectOne Row.attempt? (.attempt claim.delivery.tenantId claim.attempt.attemptId)
  if delivery?.isNone ∨ attempt?.isNone then .raise .integrity
  else
    let row := preparedHandoff claim handoffId handoffToken preparedAt
    let inserted ← insertOrSkip row.checks (.handoff row)
    let rows ← selectAll Row.handoff?
    match rows.find? (·.isFor claim) with
    | none => .raise .integrity
    | some stored =>
        if !inserted ∧ stored.state ≠ .prepared then
          .raise (.configuration "Taskiq handoff preparation conflicted.")
        else return stored.envelope

/-- `mark_enqueued`. -/
def markEnqueued (envelope : HandoffEnvelope) (now : Datetime) : Tx HandoffRecord := do
  let row ← lockedForEnvelope envelope
  let enqueuedAt ← databaseNow now
  if row.state ≠ .prepared then
    if row.enqueuedAt.isNone then
      let row' := { row with enqueuedAt := some enqueuedAt, updatedAt := enqueuedAt }
      updateHandoff row'
      return row'.record
    else return row.record
  else
    let row' := { row with
      state := .enqueued, enqueuedAt := some enqueuedAt, updatedAt := enqueuedAt }
    updateHandoff row'
    return row'.record

/-- The error `enqueue_failed` reports. -/
def enqueueFailedError : DeliveryError :=
  .internal "executor.enqueue_failed" "Taskiq broker enqueue did not complete." (by decide)

/-- `enqueue_failed`. -/
def enqueueFailed (envelope : HandoffEnvelope) (now : Datetime) (uniform : ℚ → ℚ → PyFloat) :
    Tx HandoffRecord := do
  let row ← lockedForEnvelope envelope
  if row.state ≠ .prepared then return row.record
  else
    let claim ← claimForRow row
    let outcome ← failInTransaction claim enqueueFailedError now none uniform
    let failedAt ← databaseNow now
    let row' := setFailed row outcome failedAt "executor.enqueue_failed" handoffFailedSummary
    updateHandoff row'
    return row'.record

/-! ## Execution -/

/-- The error of a handoff that comes too late to start. -/
def executionTimeoutError : DeliveryError :=
  .internal "executor.execution_timeout"
    "Taskiq handoff exceeded the parent attempt deadline before admission." (by decide)

/-- The handoff while a worker executes it. -/
def executingHandoff (row : HandoffRow) (token : UUID) (lockedAt deadline : Datetime) :
    HandoffRow :=
  { row with
    state := .executing
    enqueuedAt := some (row.enqueuedAt.getD lockedAt)
    executionToken := some token
    executionDeadline := some deadline
    executionCount := row.executionCount + 1
    startedAt := some lockedAt
    updatedAt := lockedAt }

/-- Whether a handoff may be executed at a time: it waits, or its execution ran out. -/
def HandoffRow.admits (row : HandoffRow) (lockedAt : Datetime) : Bool :=
  match row.state with
  | .prepared | .enqueued => true
  | .executing => row.executionDeadline.all (· ≤ lockedAt)
  | .succeeded | .retryWait | .dead => false

/-- Admission under the claim of the parent attempt. -/
def admitExecution (row : HandoffRow) (claim : ClaimedDelivery) (observedAt : Datetime)
    (executionTimeout : Timedelta) (uniform : ℚ → ℚ → PyFloat) : Tx (Option ExecutingHandoff) := do
  let lockedAt ← databaseNow observedAt
  match claim.delivery.leaseExpiresAt with
  | none => .raise (.leaseLost row.deliveryId)
  | some leaseDeadline =>
      match claim.routeSnapshot.get? "retry" with
      | some (.obj retry) =>
          let policy ← Tx.lift (RetryPolicy.fromDict (.obj retry))
          let remaining ← Tx.lift (remainingAttemptSeconds policy claim.delivery.createdAt
            claim.attempt.startedAt leaseDeadline lockedAt (some executionTimeout.secondsNumber))
          if remaining ≤ 0 then
            let outcome ← failInTransaction claim executionTimeoutError lockedAt none uniform
            updateHandoff (setFailed row outcome lockedAt executionTimeoutError.code
              executionTimeoutError.summary)
            return none
          else
            let token ← newUuid
            let duration ← Tx.lift (orRaise (Timedelta.ofSeconds? remaining) .overflow)
            let deadline ← Tx.lift (orRaise (lockedAt.add? duration) .overflow)
            let row' := executingHandoff row token lockedAt deadline
            checkInteger row'.executionCount
            updateHandoff row'
            return some ⟨row'.record, claim, token, deadline⟩
      | _ => .raise (.configuration "Taskiq retry snapshot is invalid.")

/-- `claim_execution`: `none` when there is nothing to execute. -/
def claimExecution (envelope : HandoffEnvelope) (now : Datetime) (executionTimeout : Timedelta)
    (uniform : ℚ → ℚ → PyFloat) : Tx (Option ExecutingHandoff) := do
  Tx.lift (check (0 < executionTimeout ∧ executionTimeout ≤ 3600000000)
    (.configuration "Taskiq execution timeout is invalid."))
  let row ← lockedForEnvelope envelope
  let lockedAt ← databaseNow now
  if row.admits lockedAt then
    let claim? ← ((claimForRow row).bind fun c => .ret (some c)).tryCatch fun e =>
      match e with
      | .leaseLost _ => .ret none
      | e => .raise e
    match claim? with
    | none =>
        updateHandoff (setFailed row .dead lockedAt "executor.stale_attempt"
          "Taskiq handoff no longer owns the parent delivery attempt.")
        return none
    | some claim => admitExecution row claim lockedAt executionTimeout uniform
  else return none

/-! ## Finalization -/

/-- `finalize_success`. -/
def finalizeSuccess (executing : ExecutingHandoff) (now : Datetime) : Tx HandoffRecord := do
  let row ← lockedExecution executing
  let finishedAt ← succeedInTransaction executing.claim now
  let row' := clearExecution { row with
    state := .succeeded, finishedAt := some finishedAt, updatedAt := finishedAt }
  updateHandoff row'
  return row'.record

/-- `finalize_failure`. -/
def finalizeFailure (executing : ExecutingHandoff) (error : DeliveryError) (now : Datetime)
    (uniform : ℚ → ℚ → PyFloat) : Tx HandoffRecord := do
  let row ← lockedExecution executing
  let outcome ← failInTransaction executing.claim error now error.retryAfter uniform
  let finishedAt ← databaseNow now
  let row' := setFailed row outcome finishedAt error.code error.summary
  updateHandoff row'
  return row'.record

/-! ## Recovery -/

/-- The error of a handoff that is recovered. -/
def handoffExpiredError : DeliveryError :=
  .internal "executor.handoff_expired" "Taskiq handoff expired before fenced completion."
    (by decide)

/-- The filter of `recover_expired`. -/
def HandoffRow.expired (row : HandoffRow) (selectionTime : Datetime) (enqueueTimeout : Timedelta) :
    Bool :=
  ((row.state = .prepared ∨ row.state = .enqueued) ∧
      row.updatedAt ≤ selectionTime - enqueueTimeout) ∨
    (row.state = .executing ∧ row.executionDeadline.any (· ≤ selectionTime))

/-- One round of the loop of `recover_expired`. -/
def recoverOne (row : HandoffRow) (now : Datetime) (uniform : ℚ → ℚ → PyFloat) : Tx Unit := do
  let outcome ← ((claimForRow row).bind fun claim =>
    failInTransaction claim handoffExpiredError now none uniform).tryCatch fun e =>
      match e with
      | .leaseLost _ => .ret .dead
      | e => .raise e
  let recoveredAt ← databaseNow now
  updateHandoff (setFailed row outcome recoveredAt "executor.handoff_expired" handoffFailedSummary)

/-- The loop of `recover_expired`; the random source draws once for each row. -/
def recoverLoop (now : Datetime) (uniform : ℕ → ℚ → ℚ → PyFloat) : ℕ → List HandoffRow → Tx Unit
  | _, [] => return ()
  | i, row :: rows => do
      recoverOne row now (uniform i)
      recoverLoop now uniform (i + 1) rows

/-- `recover_expired`: how many handoffs it recovered. -/
def recoverExpired (now : Datetime) (enqueueTimeout : Timedelta) (batchSize : ℤ)
    (uniform : ℕ → ℚ → ℚ → PyFloat) : Tx ℕ := do
  Tx.lift (check (1 ≤ batchSize ∧ batchSize ≤ 10000)
    (.configuration "Taskiq recovery batch size is invalid."))
  Tx.lift (check (0 < enqueueTimeout) (.configuration "Taskiq enqueue timeout is invalid."))
  let selectionTime ← databaseNow now
  let rows ← selectAll Row.handoff?
  let expired := (rows.filter (·.expired selectionTime enqueueTimeout)).insertionSort
    fun a b => a.updatedAt ≤ b.updatedAt
  let locked ← lockUpTo Row.handoff? (·.expired selectionTime enqueueTimeout) batchSize.toNat
    (expired.map fun r => Key.handoff r.tenantId r.handoffId)
  recoverLoop now uniform 0 locked
  return locked.length

end FastapiEffects
