import FastapiEffects.Sqlalchemy.Repository

/-! # Leases

`LeaseRepository`: the short transactions that claim deliveries, finalize attempts
under a lease, reconcile expired leases and replay terminal deliveries. A session is
idle when one of them starts, and events for observers are left out.
-/

namespace FastapiEffects

open Python ReadCommitted

/-- A lease handed to a worker. -/
structure ClaimedDelivery where
  event : EventRecord
  delivery : DeliveryRecord
  attempt : AttemptRecord
  routeSnapshot : Json
deriving DecidableEq

/-- `claim.lease_token`. -/
def ClaimedDelivery.leaseToken (c : ClaimedDelivery) : UUID := c.attempt.leaseToken

/-- `_snapshot_policy`. -/
def snapshotPolicy (snapshot : Json) : Except PyError RetryPolicy :=
  match snapshot.get? "retry" with
  | some (.obj members) => RetryPolicy.fromDict (.obj members)
  | _ => .error (.configuration "Delivery retry snapshot is invalid.")

/-- The snapshot of a route holds its policy. -/
theorem snapshotPolicy_toSnapshot [Platform] {route : RouteSpecification} {snapshot : Json}
    (h : route.toSnapshot = .ok snapshot) :
    ∃ base maximum timeout lease, route.retryPolicy.handlerTimeoutSeconds.toFloat? = some timeout ∧
      route.retryPolicy.leaseDurationSeconds.toFloat? = some lease ∧
      ∃ hvalid, snapshotPolicy snapshot = .ok ⟨RetryPolicy.withFloats
        route.retryPolicy.toRetryPolicyArgs base maximum timeout lease, hvalid⟩ := by
  unfold RouteSpecification.toSnapshot at h
  obtain ⟨dict, hdict, h⟩ := bind_eq_ok.mp h
  obtain ⟨base, maximum, timeout, lease, htimeout, hlease, hvalid, hfrom⟩ :=
    RetryPolicy.fromDict_toDict hdict
  refine ⟨base, maximum, timeout, lease, htimeout, hlease, hvalid, ?_⟩
  rw [← hfrom, ← Except.ok.inj h]
  -- a policy's dictionary is an object
  have hobj : ∃ members, dict = .obj members := by
    unfold RetryPolicy.toDict at hdict
    simp only [bind_eq_ok] at hdict
    obtain ⟨_, -, _, -, _, -, _, -, hdict⟩ := hdict
    exact ⟨_, (Except.ok.inj hdict).symm⟩
  obtain ⟨members, rfl⟩ := hobj
  rfl

/-- `_positive`. -/
def positive (name : String) (value : ℤ) : Tx Unit :=
  Tx.lift (check (1 ≤ value) (.configuration s!"Lease {name} must be positive."))

/-- `_clear_lease`. -/
def clearLease (delivery : DeliveryRow) (now : Datetime) : DeliveryRow :=
  { delivery with leaseToken := none, leaseExpiresAt := none, updatedAt := now }

/-- `ORDER BY ... LIMIT n FOR UPDATE SKIP LOCKED`: lock the rows in the given order
until `n` of them are held whose latest version still satisfies the condition. -/
def lockUpTo {α : Type} (kind : Row → Option α) (condition : α → Bool) : ℕ → List Key → Tx (List α)
  | 0, _ => return []
  | _ + 1, [] => return []
  | n + 1, x :: xs => do
      match ← selectSkipLocked kind x with
      | none => lockUpTo kind condition (n + 1) xs
      | some r =>
          if condition r then
            let rs ← lockUpTo kind condition n xs
            return r :: rs
          else lockUpTo kind condition (n + 1) xs

def DeliveryRow.key (r : DeliveryRow) : Key := .delivery r.tenantId r.deliveryId

/-! ## Claiming -/

/-- Whether the state filter of the claim query passes a row. -/
def DeliveryRow.claimable (r : DeliveryRow) : Bool := r.state = .pending ∨ r.state = .retryWait

/-- `ORDER BY next_attempt_at, created_at`, the order within a tenant. -/
def DeliveryRow.dueBefore (r r' : DeliveryRow) : Bool :=
  r.nextAttemptAt < r'.nextAttemptAt ∨
    (r.nextAttemptAt = r'.nextAttemptAt ∧ r.createdAt ≤ r'.createdAt)

/-- `ORDER BY next_attempt_at, created_at, tenant_id`. -/
def DeliveryRow.claimedBefore (r r' : DeliveryRow) : Bool :=
  r.nextAttemptAt < r'.nextAttemptAt ∨
    (r.nextAttemptAt = r'.nextAttemptAt ∧ (r.createdAt < r'.createdAt ∨
      (r.createdAt = r'.createdAt ∧ r.tenantId ≤ r'.tenantId)))

/-- The rows among the first `perTenant` of their tenant; `earlier` has the tenants
of the rows before. -/
def withinRank (perTenant : ℕ) : List UUID → List DeliveryRow → List DeliveryRow
  | _, [] => []
  | earlier, r :: rs =>
      let rest := withinRank perTenant (r.tenantId :: earlier) rs
      if earlier.count r.tenantId < perTenant then r :: rest else rest

/-- The query of `claim` over the rows of a snapshot: due rows ranked within their
tenant, in the order in which they are locked. -/
def claimCandidates (selectionTime : Datetime) (perTenant : ℕ) (rows : List DeliveryRow) :
    List DeliveryRow :=
  let due := rows.filter fun r => r.claimable && r.nextAttemptAt ≤ selectionTime
  let ranked := withinRank perTenant [] (due.insertionSort fun a b => a.dueBefore b)
  ranked.insertionSort fun a b => a.claimedBefore b

/-- The delivery a claim leaves when its deadline has passed. -/
def expiredDelivery (delivery : DeliveryRow) (effectiveNow : Datetime) : DeliveryRow :=
  { delivery with state := .dead, nextAttemptAt := effectiveNow, updatedAt := effectiveNow }

/-- The delivery under its new lease. -/
def leasedDelivery (delivery : DeliveryRow) (token : UUID) (leaseExpiresAt effectiveNow : Datetime) :
    DeliveryRow :=
  { delivery with
    state := .leased
    attemptsStarted := delivery.attemptsStarted + 1
    leaseToken := some token
    leaseExpiresAt := some leaseExpiresAt
    updatedAt := effectiveNow }

/-- The attempt a claim starts. -/
def startedAttempt (delivery : DeliveryRow) (attemptId token : UUID) (effectiveNow : Datetime) :
    AttemptRow where
  tenantId := delivery.tenantId
  attemptId := attemptId
  deliveryId := delivery.deliveryId
  attemptNumber := delivery.attemptsStarted + 1
  leaseToken := token
  outcome := .started
  startedAt := effectiveNow
  finishedAt := none
  failureCode := none
  failureSummary := none

/-- `effective_now + timedelta(seconds=policy.lease_duration_seconds)`. -/
def leaseExpiry (policy : RetryPolicy) (effectiveNow : Datetime) : Except PyError Datetime := do
  let duration ← orRaise (Timedelta.ofSeconds? policy.leaseDurationSeconds.value) .overflow
  orRaise (effectiveNow.add? duration) .overflow

/-- One round of the loop of `claim` that leases a delivery. -/
def leaseOne (delivery : DeliveryRow) (policy : RetryPolicy) (effectiveNow : Datetime) :
    Tx ClaimedDelivery := do
  let token ← newUuid
  let attemptId ← newUuid
  let leaseExpiresAt ← Tx.lift (leaseExpiry policy effectiveNow)
  let leased := leasedDelivery delivery token leaseExpiresAt effectiveNow
  let attempt := startedAttempt delivery attemptId token effectiveNow
  checkInteger leased.attemptsStarted
  updateRow leased.checks (.delivery leased)
  insertRow (attemptRowChecks attempt) (.attempt attempt)
  match ← selectOne Row.event? (.event delivery.tenantId delivery.eventId) with
  | none => .raise (.configuration "Delivery references a missing event.")
  | some event =>
      let eventRecord ← Tx.lift (eventFromRow event)
      let deliveryRecord ← Tx.lift (deliveryFromRow leased)
      let attemptRecord ← Tx.lift (attemptFromRow attempt)
      return ⟨eventRecord, deliveryRecord, attemptRecord, delivery.routeSnapshot⟩

/-- The loop of `claim`. -/
def claimLoop (effectiveNow : Datetime) (batchSize perTenant : ℤ) :
    List DeliveryRow → List ClaimedDelivery → Tx (List ClaimedDelivery)
  | [], claimed => return claimed
  | delivery :: candidates, claimed => do
      if batchSize ≤ claimed.length then return claimed
      else if perTenant ≤ claimed.countP (fun c => c.delivery.tenantId = delivery.tenantId) then
        claimLoop effectiveNow batchSize perTenant candidates claimed
      else
        let policy ← Tx.lift (snapshotPolicy delivery.routeSnapshot)
        let deadline ← Tx.lift (deliveryDeadline policy delivery.createdAt)
        if deadline ≤ effectiveNow then
          let expired := expiredDelivery delivery effectiveNow
          updateRow expired.checks (.delivery expired)
          claimLoop effectiveNow batchSize perTenant candidates claimed
        else
          let claim ← leaseOne delivery policy effectiveNow
          claimLoop effectiveNow batchSize perTenant candidates (claimed ++ [claim])

/-- `LeaseRepository.claim`. The filter on the state sits in the ranked query, which
sees the snapshot; the lock is taken on the latest version of each row, of which
only the key is checked again. -/
def claim (now : Datetime) (batchSize perTenant : ℤ) : Tx (List ClaimedDelivery) := do
  positive "batch_size" batchSize
  positive "per_tenant" perTenant
  let selectionTime ← databaseNow now
  let rows ← selectAll Row.delivery?
  let keys := (claimCandidates selectionTime perTenant.toNat rows).map DeliveryRow.key
  let candidates ← lockUpTo Row.delivery? (fun _ => true) batchSize.toNat keys
  let effectiveNow ← databaseNow now
  claimLoop effectiveNow batchSize perTenant candidates []

/-! ## Finalizing -/

/-- `_locked_active_rows`: both rows of an attempt that still owns its lease, and the
database time under their locks. -/
def lockedActiveRows (claim : ClaimedDelivery) (now : Datetime) :
    Tx (DeliveryRow × AttemptRow × Datetime) := do
  let lost : PyError := .leaseLost claim.delivery.deliveryId
  match ← selectForUpdate Row.delivery? (.delivery claim.delivery.tenantId claim.delivery.deliveryId)
    with
  | none => .raise lost
  | some delivery =>
      match delivery.leaseExpiresAt with
      | none => .raise lost
      | some leaseExpiresAt =>
          if delivery.state ≠ .leased ∨ delivery.leaseToken ≠ some claim.leaseToken then .raise lost
          else
            match ← selectForUpdate Row.attempt?
              (.attempt claim.attempt.tenantId claim.attempt.attemptId) with
            | none => .raise lost
            | some attempt =>
                if attempt.leaseToken ≠ claim.leaseToken ∨ attempt.outcome ≠ .started then
                  .raise lost
                else
                  let lockedAt ← databaseNow now
                  if leaseExpiresAt ≤ lockedAt then .raise lost
                  else return (delivery, attempt, lockedAt)

/-- The attempt after a success. -/
def succeededAttempt (attempt : AttemptRow) (finishedAt : Datetime) : AttemptRow :=
  { attempt with outcome := .succeeded, finishedAt := some finishedAt }

/-- `succeed_in_transaction`. -/
def succeedInTransaction (claim : ClaimedDelivery) (now : Datetime) : Tx Datetime := do
  let (delivery, attempt, finishedAt) ← lockedActiveRows claim now
  let policy ← Tx.lift (snapshotPolicy delivery.routeSnapshot)
  match delivery.leaseExpiresAt with
  | none => .raise (.leaseLost claim.delivery.deliveryId)
  | some leaseExpiresAt =>
      let deadline ← Tx.lift
        (attemptDeadline policy delivery.createdAt attempt.startedAt leaseExpiresAt)
      if deadline ≤ finishedAt then .raise (.leaseLost claim.delivery.deliveryId)
      else
        let attempt' := succeededAttempt attempt finishedAt
        let delivery' := clearLease { delivery with state := .succeeded } finishedAt
        updateRow (attemptRowChecks attempt') (.attempt attempt')
        updateRow delivery'.checks (.delivery delivery')
        return finishedAt

/-- `LeaseRepository.succeed`. -/
def succeed (claim : ClaimedDelivery) (now : Datetime) : Tx Unit := do
  let _finishedAt ← succeedInTransaction claim now
  return ()

/-- What a failure makes of the attempt and of the delivery, the lease apart. -/
structure FailedRows where
  attempt : AttemptRow
  delivery : DeliveryRow
  outcome : DeliveryState

/-- The attempt with the error it ended by. -/
def failedAttempt (attempt : AttemptRow) (finishedAt : Datetime) (code summary : Str)
    (outcome : AttemptOutcome) : AttemptRow :=
  { attempt with
    outcome := outcome
    finishedAt := some finishedAt
    failureCode := some code
    failureSummary := some summary }

/-- Whether `fail_in_transaction` looks for a retry. -/
def retryPermitted (policy : RetryPolicy) (delivery : DeliveryRow) (attempt : AttemptRow)
    (error : DeliveryError) (finishedAt : Datetime) : Except PyError Bool :=
  if error.retryable then policy.permitsRetry attempt.attemptNumber delivery.createdAt finishedAt
  else .ok false

/-- The delay of a retry: the jittered one, or the one the error asks for if longer. -/
def chosenDelay (jittered : Timedelta) : Option Timedelta → Except PyError Timedelta
  | none => .ok jittered
  | some after => do
      check (0 ≤ after) (.configuration "Retry-After cannot be negative.")
      return max jittered after

/-- The branches of `fail_in_transaction`: a retry at a later time, a delivery whose
deadline comes first, or a delivery that is not retried. -/
def failedRows (policy : RetryPolicy) (delivery : DeliveryRow) (attempt : AttemptRow)
    (error : DeliveryError) (finishedAt : Datetime) (retryAfter : Option Timedelta)
    (uniform : ℚ → ℚ → PyFloat) : Except PyError FailedRows := do
  let permitted ← retryPermitted policy delivery attempt error finishedAt
  if permitted then
    let jittered ← policy.retryDelay attempt.attemptNumber uniform
    let delay ← chosenDelay jittered retryAfter
    let maximum ← orRaise (Timedelta.ofSeconds? policy.maximumDelaySeconds.value) .overflow
    let scheduledAt ← orRaise (finishedAt.add? (min delay maximum)) .overflow
    let deadline ← deliveryDeadline policy delivery.createdAt
    if scheduledAt < deadline then
      return {
        attempt := failedAttempt attempt finishedAt error.code error.summary .retryable
        delivery := { delivery with state := .retryWait, nextAttemptAt := scheduledAt }
        outcome := .retryWait }
    else
      return {
        attempt := failedAttempt attempt finishedAt "delivery.deadline_exceeded"
          "Retry scheduling would exceed the delivery elapsed-time deadline." .retryable
        delivery := { delivery with state := .dead, nextAttemptAt := finishedAt }
        outcome := .dead }
  else
    return {
      attempt := failedAttempt attempt finishedAt error.code error.summary
        (if error.retryable then .retryable else .terminal)
      delivery := { delivery with state := .dead }
      outcome := .dead }

/-- `fail_in_transaction`. -/
def failInTransaction (claim : ClaimedDelivery) (error : DeliveryError) (now : Datetime)
    (retryAfter : Option Timedelta) (uniform : ℚ → ℚ → PyFloat) : Tx DeliveryState := do
  let (delivery, attempt, finishedAt) ← lockedActiveRows claim now
  let policy ← Tx.lift (snapshotPolicy delivery.routeSnapshot)
  let rows ← Tx.lift (failedRows policy delivery attempt error finishedAt retryAfter uniform)
  let delivery' := clearLease rows.delivery finishedAt
  updateRow (attemptRowChecks rows.attempt) (.attempt rows.attempt)
  updateRow delivery'.checks (.delivery delivery')
  return rows.outcome

/-- `LeaseRepository.fail`. The relay passes on the error's own `retry_after`. -/
def fail (claim : ClaimedDelivery) (error : DeliveryError) (now : Datetime)
    (retryAfter : Option Timedelta) (uniform : ℚ → ℚ → PyFloat) : Tx DeliveryState := do
  let outcome ← failInTransaction claim error now retryAfter uniform
  let _recordedAt ← databaseNow now
  return outcome

/-! ## Reconciling -/

/-- The filter of `reconcile_expired`. -/
def DeliveryRow.leaseExpired (r : DeliveryRow) (selectionTime : Datetime) : Bool :=
  r.state = .leased ∧ r.leaseExpiresAt.any (· ≤ selectionTime)

/-- Whether an attempt is the one started under the lease of a delivery. -/
def AttemptRecordArgs.isCurrent (a : AttemptRow) (delivery : DeliveryRow) : Bool :=
  a.tenantId = delivery.tenantId ∧ a.deliveryId = delivery.deliveryId ∧
    delivery.leaseToken = some a.leaseToken ∧ a.outcome = .started

/-- Lock the rows that still satisfy a condition, in order. -/
def lockAll {α : Type} (kind : Row → Option α) (condition : α → Bool) : List Key → Tx (List α)
  | [] => return []
  | x :: xs => do
      match ← selectForUpdate kind x with
      | none => lockAll kind condition xs
      | some r =>
          let rs ← lockAll kind condition xs
          return if condition r then r :: rs else rs

/-- The attempt after its lease ran out. -/
def abandonedAttempt (attempt : AttemptRow) (effectiveNow : Datetime)
    (elapsedDeadlineReached : Bool) : AttemptRow :=
  if elapsedDeadlineReached then
    failedAttempt attempt effectiveNow "delivery.deadline_exceeded"
      "Delivery elapsed-time deadline passed before reconciliation." .abandoned
  else failedAttempt attempt effectiveNow "lease.expired"
    "Worker lease expired before finalization." .abandoned

/-- The delivery after its lease ran out. -/
def reconciledDelivery (delivery : DeliveryRow) (policy : RetryPolicy) (effectiveNow : Datetime)
    (elapsedDeadlineReached : Bool) : DeliveryRow :=
  let state : DeliveryState :=
    if delivery.attemptsStarted < policy.maxAttempts ∧ ¬ elapsedDeadlineReached then .retryWait
    else .dead
  clearLease { delivery with state, nextAttemptAt := effectiveNow } effectiveNow

/-- One round of the loop of `reconcile_expired`. -/
def reconcileOne (delivery : DeliveryRow) (now : Datetime) : Tx Unit := do
  let attempts ← selectAll Row.attempt?
  let keys := (attempts.filter (·.isCurrent delivery)).map
    fun a => Key.attempt a.tenantId a.attemptId
  let locked ← lockAll Row.attempt? (·.isCurrent delivery) keys
  let effectiveNow ← databaseNow now
  let policy ← Tx.lift (snapshotPolicy delivery.routeSnapshot)
  let deadline ← Tx.lift (deliveryDeadline policy delivery.createdAt)
  let elapsed : Bool := deadline ≤ effectiveNow
  match locked with
  | [] => pure ()
  | attempt :: _ =>
      let abandoned := abandonedAttempt attempt effectiveNow elapsed
      updateRow (attemptRowChecks abandoned) (.attempt abandoned)
  let reconciled := reconciledDelivery delivery policy effectiveNow elapsed
  updateRow reconciled.checks (.delivery reconciled)

/-- The loop of `reconcile_expired`. -/
def reconcileLoop (now : Datetime) : List DeliveryRow → Tx Unit
  | [] => return ()
  | delivery :: rows => do
      reconcileOne delivery now
      reconcileLoop now rows

/-- `LeaseRepository.reconcile_expired`: how many leases it took back. -/
def reconcileExpired (now : Datetime) (batchSize : ℤ) : Tx ℕ := do
  positive "batch_size" batchSize
  let selectionTime ← databaseNow now
  let rows ← selectAll Row.delivery?
  let expired := (rows.filter (·.leaseExpired selectionTime)).insertionSort
    fun a b => a.leaseExpiresAt.getD 0 ≤ b.leaseExpiresAt.getD 0
  let locked ← lockUpTo Row.delivery? (·.leaseExpired selectionTime) batchSize.toNat
    (expired.map DeliveryRow.key)
  reconcileLoop now locked
  return locked.length

/-! ## Replaying -/

/-- The delivery that replays another one. -/
def replayedDelivery (original : DeliveryRow) (replayId : UUID) (actor reason : Str)
    (now : Datetime) : DeliveryRow :=
  { original with
    deliveryId := replayId
    state := .pending
    attemptsStarted := 0
    nextAttemptAt := now
    leaseToken := none
    leaseExpiresAt := none
    replayOf := some original.deliveryId
    replayActor := some actor
    replayReason := some reason
    createdAt := now
    updatedAt := now }

/-- The retention lock of a tenant's webhooks, for a replay restricted to them. -/
def lockRetention (tenantId : UUID) (destinationKind : Option Str) : Tx Unit :=
  if destinationKind = some ("webhook" : Str) then .advisory (.webhookRetention tenantId) (.ret ())
  else .ret ()

/-- Whether a replay may start from a delivery. -/
def DeliveryRow.replayable (r : DeliveryRow) (destinationKind : Option Str) : Bool :=
  (r.state = .succeeded ∨ r.state = .dead) ∧ destinationKind.all (· = r.destinationKind)

/-- `LeaseRepository.replay`. -/
def replay (tenantId deliveryId : UUID) (actor reason : Str) (now : Datetime)
    (destinationKind : Option Str) : Tx DeliveryRecord := do
  Tx.lift (check (actor ≠ [] ∧ actor.length ≤ 512) (.configuration "Replay actor is invalid."))
  Tx.lift (check (reason ≠ []) (.configuration "Replay reason is invalid."))
  lockRetention tenantId destinationKind
  let replayId ← newUuid
  match ← selectOne Row.delivery? (.delivery tenantId deliveryId) with
  | none => .raise (.configuration "Only a terminal delivery can be replayed.")
  | some original =>
      if original.replayable destinationKind then
        let row := replayedDelivery original replayId actor reason now
        insertRow row.checks (.delivery row)
        Tx.lift (deliveryFromRow row)
      else .raise (.configuration "Only a terminal delivery can be replayed.")

end FastapiEffects
