import FastapiEffects.Core.Backoff
import FastapiEffects.Postgres.Leasing
import FastapiEffects.ReadCommitted.Caller

/-! # Failing and replaying in a transaction of the caller

`fail_in_transaction` and `replay_in_transaction` as parts of a longer transaction. An
assignment to an attribute of a loaded row is pending from then on, whether the function
returns or raises later, and so is an inserted row.
-/

namespace FastapiEffects

open Python ReadCommitted

/-- `if not session.in_transaction(): raise`. -/
def requireTransaction (inTransaction : Bool) (message : String) : Tx Unit :=
  Tx.lift (check inTransaction (.configuration message))

/-- An assignment to attributes of a loaded row, which a later flush writes. -/
def assign (r : Row) : Tx Unit := .put r (.ret ())

/-! ## Failing -/

/-- When a retry is scheduled, and the deadline it has to come before. -/
def retryTimes (policy : RetryPolicy) (delivery : DeliveryRow) (attempt : AttemptRow)
    (finishedAt : Datetime) (retryAfter : Option Timedelta) (uniform : ℚ → ℚ → PyFloat) :
    Except PyError (Datetime × Datetime) := do
  let jittered ← policy.retryDelay attempt.attemptNumber uniform
  let delay ← chosenDelay jittered retryAfter
  let maximum ← orRaise (Timedelta.ofSeconds? policy.maximumDelaySeconds.value) .overflow
  let scheduledAt ← orRaise (finishedAt.add? (min delay maximum)) .overflow
  let deadline ← deliveryDeadline policy delivery.createdAt
  return (scheduledAt, deadline)

/-- The branch of a permitted retry: the outcome is assigned before the delay is computed. -/
def assignRetry (policy : RetryPolicy) (delivery : DeliveryRow) (attempt : AttemptRow)
    (finishedAt : Datetime) (retryAfter : Option Timedelta) (uniform : ℚ → ℚ → PyFloat) :
    Tx (DeliveryRow × DeliveryState) := do
  let attempt := { attempt with outcome := .retryable }
  assign (.attempt attempt)
  let (scheduledAt, deadline) ← Tx.lift
    (retryTimes policy delivery attempt finishedAt retryAfter uniform)
  if scheduledAt < deadline then
    let delivery := { delivery with state := .retryWait, nextAttemptAt := scheduledAt }
    assign (.delivery delivery)
    return (delivery, .retryWait)
  else
    let attempt := {
      attempt with
      failureCode := some "delivery.deadline_exceeded"
      failureSummary := some "Retry scheduling would exceed the delivery elapsed-time deadline." }
    assign (.attempt attempt)
    let delivery := { delivery with state := .dead, nextAttemptAt := finishedAt }
    assign (.delivery delivery)
    return (delivery, .dead)

/-- The branch of a failure that is not retried. -/
def assignDead (delivery : DeliveryRow) (attempt : AttemptRow) (error : DeliveryError) :
    Tx (DeliveryRow × DeliveryState) := do
  assign (.attempt { attempt with outcome := if error.retryable then .retryable else .terminal })
  let delivery := { delivery with state := .dead }
  assign (.delivery delivery)
  return (delivery, .dead)

/-- `fail_in_transaction` from its first assignment on. -/
def assignFailure (policy : RetryPolicy) (delivery : DeliveryRow) (attempt : AttemptRow)
    (error : DeliveryError) (finishedAt : Datetime) (retryAfter : Option Timedelta)
    (uniform : ℚ → ℚ → PyFloat) : Tx DeliveryState := do
  let attempt := {
    attempt with
    finishedAt := some finishedAt
    failureCode := some error.code
    failureSummary := some error.summary }
  assign (.attempt attempt)
  let permitted ← Tx.lift (retryPermitted policy delivery attempt error finishedAt)
  let (delivery, outcome) ←
    if permitted then assignRetry policy delivery attempt finishedAt retryAfter uniform
    else assignDead delivery attempt error
  assign (.delivery (clearLease delivery finishedAt))
  return outcome

/-- `fail_in_transaction`. -/
def failInPlace (inTransaction : Bool) (claim : ClaimedDelivery) (error : DeliveryError)
    (now : Datetime) (retryAfter : Option Timedelta) (uniform : ℚ → ℚ → PyFloat) :
    Tx DeliveryState := do
  requireTransaction inTransaction "Transactional failure requires an active transaction."
  let (delivery, attempt, finishedAt) ← lockedActiveRows claim now
  let policy ← Tx.lift (snapshotPolicy delivery.routeSnapshot)
  assignFailure policy delivery attempt error finishedAt retryAfter uniform

/-! ## Replaying -/

/-- What a `varchar(n)` column keeps of a text: no NUL and no lone surrogate can be sent, and
of a text that is too long only spaces are cut off. -/
def storedText (n : ℕ) (s : Str) : Except PyError Str := do
  check (s.all fun c => c.scalar?.any (0 < ·.toNat)) .data
  check ((s.drop n).all (· = .scalar ' ')) .data
  return s.take n

/-- `replay_in_transaction`. -/
def replayInPlace (inTransaction : Bool) (tenantId deliveryId : UUID) (actor reason : Str)
    (now : Datetime) (destinationKind : Option Str) : Tx DeliveryRecord := do
  requireTransaction inTransaction "Transactional replay requires an active transaction."
  Tx.lift (check (actor ≠ [] ∧ actor.length ≤ 512) (.configuration "Replay actor is invalid."))
  Tx.lift (check (reason ≠ []) (.configuration "Replay reason is invalid."))
  lockRetention tenantId destinationKind
  let replayId ← newUuid
  match ← selectOne Row.delivery? (.delivery tenantId deliveryId) with
  | none => .raise (.configuration "Only a terminal delivery can be replayed.")
  | some original =>
      if original.replayable destinationKind then
        let actor ← Tx.lift (storedText 512 actor)
        let reason ← Tx.lift (storedText 128 reason)
        let row := replayedDelivery original replayId actor reason now
        insertRow row.checks (.delivery row)
        Tx.lift (deliveryFromRow row)
      else .raise (.configuration "Only a terminal delivery can be replayed.")

/-! ## What the locks find -/

/-- The rows of a claim that still holds its lease, and the database time under their locks. -/
structure Held (s : Session Key Row UUID) (claim : ClaimedDelivery) (delivery : DeliveryRow)
    (attempt : AttemptRow) (finishedAt : Datetime) : Prop where
  delivery_row : s.visible.get (.delivery claim.delivery.tenantId claim.delivery.deliveryId) =
    some (.delivery delivery)
  attempt_row : s.visible.get (.attempt claim.attempt.tenantId claim.attempt.attemptId) =
    some (.attempt attempt)
  leased : delivery.state = .leased
  token : delivery.leaseToken = some claim.leaseToken
  attempt_token : attempt.leaseToken = claim.leaseToken
  started : attempt.outcome = .started
  time : finishedAt = s.clock 0
  live : ∃ expiry ∈ delivery.leaseExpiresAt, finishedAt < expiry

theorem Row.bind_delivery? {o : Option Row} {r : DeliveryRow} :
    o.bind Row.delivery? = some r ↔ o = some (.delivery r) := by
  rcases o with _ | row
  · simp
  · cases row <;> simp [Row.delivery?]

theorem Row.bind_attempt? {o : Option Row} {r : AttemptRow} :
    o.bind Row.attempt? = some r ↔ o = some (.attempt r) := by
  rcases o with _ | row
  · simp
  · cases row <;> simp [Row.attempt?]

/-- The locks find the rows of a live lease, or the lease is lost; rows do not change. -/
theorem exec_lockedActiveRows (s : Session Key Row UUID) (claim : ClaimedDelivery)
    (now : Datetime) :
    (∃ delivery attempt s', Held s claim delivery attempt (s.clock 0) ∧ s'.visible = s.visible ∧
        s.exec (lockedActiveRows claim now) = (.ok (delivery, attempt, s.clock 0), s')) ∨
      (∀ delivery attempt finishedAt, ¬ Held s claim delivery attempt finishedAt) ∧
        ∃ s', s'.visible = s.visible ∧ s.exec (lockedActiveRows claim now) =
          (.error (.leaseLost claim.delivery.deliveryId), s') := by
  unfold lockedActiveRows
  simp only [selectForUpdate, databaseNow, Prog.bind_eq, Prog.bind, Session.exec]
  rcases hdelivery : (s.visible.get (.delivery claim.delivery.tenantId
    claim.delivery.deliveryId)).bind Row.delivery? with _ | delivery
  · right
    refine ⟨fun delivery attempt finishedAt held => ?_, s, rfl, rfl⟩
    rw [Row.bind_delivery?.mpr held.delivery_row] at hdelivery
    cases hdelivery
  have honly : ∀ {d a t}, Held s claim d a t → d = delivery := by
    intro d a t held
    rw [Row.bind_delivery?.mpr held.delivery_row] at hdelivery
    exact Option.some.inj hdelivery
  rcases hexpiry : delivery.leaseExpiresAt with _ | expiry
  · right
    refine ⟨fun d a t held => ?_, s, rfl, by simp only [hexpiry, Session.exec]⟩
    obtain ⟨expiry, hsome, -⟩ := held.live
    rw [honly held, hexpiry] at hsome
    cases hsome
  simp only [hexpiry]
  split_ifs with hlost
  · right
    refine ⟨fun d a t held => ?_, s, rfl, rfl⟩
    rw [← honly held] at hlost
    rcases hlost with hstate | htoken
    · exact hstate held.leased
    · exact htoken held.token
  simp only [not_or, not_not] at hlost
  simp only [Session.exec]
  rcases hattempt : (s.visible.get (.attempt claim.attempt.tenantId
    claim.attempt.attemptId)).bind Row.attempt? with _ | attempt
  · right
    refine ⟨fun d a t held => ?_, s, rfl, rfl⟩
    rw [Row.bind_attempt?.mpr held.attempt_row] at hattempt
    cases hattempt
  have honly' : ∀ {d a t}, Held s claim d a t → a = attempt := by
    intro d a t held
    rw [Row.bind_attempt?.mpr held.attempt_row] at hattempt
    exact Option.some.inj hattempt
  simp only
  split_ifs with hover
  · right
    refine ⟨fun d a t held => ?_, s, rfl, rfl⟩
    rw [← honly' held] at hover
    rcases hover with htoken | hstarted
    · exact htoken held.attempt_token
    · exact hstarted held.started
  simp only [not_or, not_not] at hover
  simp only [Session.exec]
  split_ifs with hexpired
  · right
    refine ⟨fun d a t held => ?_, _, Session.visible_clock _ _, rfl⟩
    obtain ⟨expiry', hsome, hlive⟩ := held.live
    rw [honly held, hexpiry] at hsome
    cases hsome
    rw [held.time] at hlive
    exact absurd hexpired (not_le.mpr hlive)
  · left
    exact ⟨delivery, attempt, _, ⟨Row.bind_delivery?.mp hdelivery, Row.bind_attempt?.mp hattempt,
      hlost.1, hlost.2, hover.1, hover.2, rfl, expiry, hexpiry, not_le.mp hexpired⟩,
      Session.visible_clock _ _, rfl⟩

/-! ## What a failure assigns -/

/-- What a retry needs: an attempt whose power of two is a float, a delay that is drawn within
its bounds, a delay of the error that is not negative, and times a clock can show. -/
def Schedulable (policy : RetryPolicy) (delivery : DeliveryRow) (attempt : AttemptRow)
    (finishedAt : Datetime) (retryAfter : Option Timedelta) (uniform : ℚ → ℚ → PyFloat) : Prop :=
  attempt.attemptNumber ≤ 1024 ∧ (∀ after ∈ retryAfter, 0 ≤ after) ∧
    ∃ x drawn maximum elapsed, uniform 0 (policy.retryUpper attempt.attemptNumber) = .finite x ∧
      0 ≤ x.toRat ∧ x.toRat ≤ policy.retryUpper attempt.attemptNumber ∧
      Timedelta.ofSeconds? x.toRat = some drawn ∧
      Timedelta.ofSeconds? policy.maximumDelaySeconds.value = some maximum ∧
      Timedelta.ofSeconds? policy.maximumElapsedSeconds = some elapsed ∧
      Datetime.Valid (finishedAt + min (retryAfter.elim drawn (max drawn)) maximum) ∧
      Datetime.Valid (delivery.createdAt + elapsed)

/-- `retry_delay` returns for the attempts and the draws of `Schedulable`. -/
theorem RetryPolicy.exists_retryDelay {policy : RetryPolicy} {n : ℤ} {uniform : ℚ → ℚ → PyFloat}
    {drawn : Timedelta} (hn : 1 ≤ n) : policy.retryDelay n uniform = .ok drawn ↔
      n ≤ 1024 ∧ ∃ x, uniform 0 (policy.retryUpper n) = .finite x ∧ 0 ≤ x.toRat ∧
        x.toRat ≤ policy.retryUpper n ∧ Timedelta.ofSeconds? x.toRat = some drawn := by
  rcases lt_or_ge 1024 n with hlarge | hle
  · rw [retryDelay_overflow hlarge]
    constructor
    · intro h
      cases h
    · rintro ⟨hle, -⟩
      exact absurd hle (not_le.mpr hlarge)
  · constructor
    · intro h
      unfold retryDelay at h
      obtain ⟨-, -, h⟩ := bind_eq_ok.mp h
      obtain ⟨-, -, h⟩ := bind_eq_ok.mp h
      simp only at h
      split at h
      · rename_i x hx
        simp only [bind_eq_ok, check_eq_ok, decide_eq_true_eq] at h
        obtain ⟨-, ⟨h0, hupper⟩, h⟩ := h
        exact ⟨hle, x, hx, h0, hupper, orRaise_eq_ok.mp h⟩
      · cases h
    · rintro ⟨-, x, hx, h0, hupper, hdrawn⟩
      rw [retryDelay_draw hn hle hx h0 hupper, hdrawn]
      rfl

theorem chosenDelay_eq_ok {jittered delay : Timedelta} {retryAfter : Option Timedelta} :
    chosenDelay jittered retryAfter = .ok delay ↔
      (∀ after ∈ retryAfter, 0 ≤ after) ∧ delay = retryAfter.elim jittered (max jittered) := by
  rcases retryAfter with _ | after
  · simp [chosenDelay, eq_comm]
  · by_cases hafter : 0 ≤ after
    · simp [chosenDelay, check, hafter, bind, Except.bind, pure, Except.pure, eq_comm]
    · simp [chosenDelay, check, hafter, bind, Except.bind]

/-- The times of a retry exist exactly for what it needs. -/
theorem exists_retryTimes {policy : RetryPolicy} {delivery : DeliveryRow} {attempt : AttemptRow}
    {finishedAt : Datetime} {retryAfter : Option Timedelta} {uniform : ℚ → ℚ → PyFloat}
    (hn : 1 ≤ attempt.attemptNumber) :
    (∃ times, retryTimes policy delivery attempt finishedAt retryAfter uniform = .ok times) ↔
      Schedulable policy delivery attempt finishedAt retryAfter uniform := by
  simp only [retryTimes, deliveryDeadline, bind_eq_ok, RetryPolicy.exists_retryDelay hn,
    chosenDelay_eq_ok, orRaise_eq_ok, Datetime.add?_eq_some_iff, Schedulable]
  constructor
  · rintro ⟨times, drawn, ⟨hle, x, hx, h0, hupper, hdrawn⟩, -, ⟨hafter, rfl⟩, maximum, hmaximum, -,
      ⟨hscheduled, -⟩, -, ⟨elapsed, helapsed, hdeadline, -⟩, -⟩
    exact ⟨hle, hafter, x, drawn, maximum, elapsed, hx, h0, hupper, hdrawn, hmaximum, helapsed,
      hscheduled, hdeadline⟩
  · rintro ⟨hle, hafter, x, drawn, maximum, elapsed, hx, h0, hupper, hdrawn, hmaximum, helapsed,
      hscheduled, hdeadline⟩
    exact ⟨_, drawn, ⟨hle, x, hx, h0, hupper, hdrawn⟩, _, ⟨hafter, rfl⟩, maximum, hmaximum, _,
      ⟨hscheduled, rfl⟩, _, ⟨elapsed, helapsed, hdeadline, rfl⟩, rfl⟩

/-- The branches of `failedRows` under a permitted retry. -/
theorem failedRows_permitted {policy : RetryPolicy} {delivery : DeliveryRow} {attempt : AttemptRow}
    {error : DeliveryError} {finishedAt : Datetime} {retryAfter : Option Timedelta}
    {uniform : ℚ → ℚ → PyFloat}
    (h : retryPermitted policy delivery attempt error finishedAt = .ok true) :
    failedRows policy delivery attempt error finishedAt retryAfter uniform =
      (retryTimes policy delivery attempt finishedAt retryAfter uniform).map fun times =>
        if times.1 < times.2 then {
          attempt := failedAttempt attempt finishedAt error.code error.summary .retryable
          delivery := { delivery with state := .retryWait, nextAttemptAt := times.1 }
          outcome := .retryWait }
        else {
          attempt := failedAttempt attempt finishedAt "delivery.deadline_exceeded"
            "Retry scheduling would exceed the delivery elapsed-time deadline." .retryable
          delivery := { delivery with state := .dead, nextAttemptAt := finishedAt }
          outcome := .dead } := by
  unfold failedRows retryTimes
  rw [h]
  simp only [bind, Except.bind, if_true]
  rcases policy.retryDelay attempt.attemptNumber uniform with e | jittered
  · rfl
  dsimp only
  rcases chosenDelay jittered retryAfter with e | delay
  · rfl
  dsimp only
  rcases orRaise (Timedelta.ofSeconds? policy.maximumDelaySeconds.value) .overflow with e | maximum
  · rfl
  dsimp only
  rcases orRaise (finishedAt.add? (min delay maximum)) .overflow with e | scheduledAt
  · rfl
  dsimp only
  rcases deliveryDeadline policy delivery.createdAt with e | deadline
  · rfl
  simp only [pure, Except.pure, Except.map]
  split_ifs <;> rfl

/-- The rows of an attempt and a delivery after assignments to both. -/
def rowsAfter (t : Db) (attempt : AttemptRow) (delivery : DeliveryRow) : Db :=
  (t.put (.attempt attempt)).put (.delivery delivery)

theorem get_put_row (t : Db) (r : Row) (x : Key) :
    (t.put r).get x = if x = r.key then some r else t.get x := by
  rw [Table.get_put]
  exact if_congr eq_comm rfl rfl

section Failing

variable {policy : RetryPolicy} {delivery : DeliveryRow} {attempt : AttemptRow}
  {error : DeliveryError} {finishedAt : Datetime} {retryAfter : Option Timedelta}
  {uniform : ℚ → ℚ → PyFloat}

/-- A failure either makes the rows of `failedRows`, or raises after the outcome is assigned. -/
theorem exec_assignFailure (s : Session Key Row UUID) (policy : RetryPolicy)
    (delivery : DeliveryRow) (error : DeliveryError) (finishedAt : Datetime)
    (retryAfter : Option Timedelta) (uniform : ℚ → ℚ → PyFloat)
    (hn : 0 < attempt.attemptNumber) :
    (∃ rows s', failedRows policy delivery attempt error finishedAt retryAfter uniform = .ok rows ∧
        s.exec (assignFailure policy delivery attempt error finishedAt retryAfter uniform) =
          (.ok rows.outcome, s') ∧
        ∀ x, s'.visible.get x =
          (rowsAfter s.visible rows.attempt (clearLease rows.delivery finishedAt)).get x) ∨
      ∃ e s', failedRows policy delivery attempt error finishedAt retryAfter uniform = .error e ∧
        s.exec (assignFailure policy delivery attempt error finishedAt retryAfter uniform) =
          (.error e, s') ∧
        ∃ a : AttemptRow, a.outcome = .retryable ∧
          s'.visible.get (.attempt attempt.tenantId attempt.attemptId) = some (.attempt a) := by
  have hpermitted : ∃ b, retryPermitted policy delivery attempt error finishedAt = .ok b := by
    unfold retryPermitted RetryPolicy.permitsRetry
    split_ifs
    · simp [check, hn, bind, Except.bind, pure, Except.pure]
    · exact ⟨false, rfl⟩
  obtain ⟨b, hb⟩ := hpermitted
  have hb' : ∀ a : AttemptRow, a.attemptNumber = attempt.attemptNumber →
      retryPermitted policy delivery a error finishedAt = .ok b := by
    intro a ha
    rw [← hb]
    unfold retryPermitted
    rw [ha]
  unfold assignFailure
  simp only [assign, Prog.bind_eq, Prog.bind, Session.exec, hb', Prog.ofExcept_ok]
  rcases b with _ | _
  · -- a failure that is not retried
    left
    have hrows : failedRows policy delivery attempt error finishedAt retryAfter uniform = .ok {
        attempt := failedAttempt attempt finishedAt error.code error.summary
          (if error.retryable then .retryable else .terminal)
        delivery := { delivery with state := .dead }
        outcome := .dead } := by
      unfold failedRows
      rw [hb]
      rfl
    refine ⟨_, _, hrows, rfl, fun x => ?_⟩
    simp only [Session.visible_put, rowsAfter, get_put_row, Row.key, clearLease, failedAttempt]
    by_cases hdelivery : x = .delivery delivery.tenantId delivery.deliveryId
    · simp only [hdelivery, if_true]
    · by_cases hattempt : x = .attempt attempt.tenantId attempt.attemptId
      · simp only [hattempt, if_true, reduceCtorEq, if_false]
      · simp only [hdelivery, hattempt, if_false]
  · -- a permitted retry
    have htimes : ∀ a : AttemptRow, a.attemptNumber = attempt.attemptNumber →
        retryTimes policy delivery a finishedAt retryAfter uniform =
          retryTimes policy delivery attempt finishedAt retryAfter uniform := by
      intro a ha
      unfold retryTimes
      rw [ha]
    simp only [if_true, assignRetry, assign, Prog.bind_eq, Prog.bind, Session.exec, htimes]
    rw [failedRows_permitted hb]
    rcases retryTimes policy delivery attempt finishedAt retryAfter uniform with e | ⟨at_, deadline⟩
    · right
      refine ⟨e, _, rfl, rfl, ?_⟩
      simp only [Session.visible_put, get_put_row, Row.key, if_true]
      exact ⟨_, rfl, rfl⟩
    · left
      simp only [Except.map, Prog.ofExcept_ok, Prog.bind]
      split_ifs
      · refine ⟨_, _, rfl, rfl, fun x => ?_⟩
        simp only [Session.visible_put, rowsAfter, get_put_row, Row.key, clearLease, failedAttempt]
        by_cases hdelivery : x = .delivery delivery.tenantId delivery.deliveryId
        · simp only [hdelivery, if_true]
        · by_cases hattempt : x = .attempt attempt.tenantId attempt.attemptId
          · simp only [hattempt, if_true, reduceCtorEq, if_false]
          · simp only [hdelivery, hattempt, if_false]
      · refine ⟨_, _, rfl, rfl, fun x => ?_⟩
        simp only [Session.visible_put, rowsAfter, get_put_row, Row.key, clearLease, failedAttempt]
        by_cases hdelivery : x = .delivery delivery.tenantId delivery.deliveryId
        · simp only [hdelivery, if_true]
        · by_cases hattempt : x = .attempt attempt.tenantId attempt.attemptId
          · simp only [hattempt, if_true, reduceCtorEq, if_false]
          · simp only [hdelivery, hattempt, if_false]

/-- The rows of a failure exist unless a retry that is permitted cannot be scheduled. -/
theorem exists_failedRows (hn : 0 < attempt.attemptNumber) :
    (∃ rows, failedRows policy delivery attempt error finishedAt retryAfter uniform = .ok rows) ↔
      (error.retryable = true → attempt.attemptNumber < policy.maxAttempts →
        Timedelta.totalSeconds (finishedAt - delivery.createdAt) < policy.maximumElapsedSeconds →
        Schedulable policy delivery attempt finishedAt retryAfter uniform) := by
  by_cases hretry : error.retryable = true ∧ attempt.attemptNumber < policy.maxAttempts ∧
      Timedelta.totalSeconds (finishedAt - delivery.createdAt) < policy.maximumElapsedSeconds
  · obtain ⟨hretryable, hnumber, helapsed⟩ := hretry
    have hb : retryPermitted policy delivery attempt error finishedAt = .ok true := by
      unfold retryPermitted RetryPolicy.permitsRetry
      simp [hretryable, check, hn, bind, Except.bind, pure, Except.pure, hnumber, helapsed]
    rw [failedRows_permitted hb, ← exists_retryTimes hn]
    rcases retryTimes policy delivery attempt finishedAt retryAfter uniform with e | times
    · simp [Except.map, hretryable, hnumber, helapsed]
    · simp [Except.map]
  · have hb : retryPermitted policy delivery attempt error finishedAt = .ok false := by
      unfold retryPermitted RetryPolicy.permitsRetry
      rcases hretryable : error.retryable with _ | _
      · rfl
      · have hnot : ¬ (attempt.attemptNumber < policy.maxAttempts ∧ Timedelta.totalSeconds
            (finishedAt - delivery.createdAt) < policy.maximumElapsedSeconds) :=
          fun h => hretry ⟨hretryable, h⟩
        simp [check, hn, bind, Except.bind, pure, Except.pure, hnot]
    constructor
    · intro _ hretryable hnumber helapsed
      exact absurd ⟨hretryable, hnumber, helapsed⟩ hretry
    · intro _
      unfold failedRows
      rw [hb]
      exact ⟨_, rfl⟩

/-! ## Atomic on error -/

/-- The `CHECK`s of the row's table. -/
def Row.checked : Row → Bool
  | .event r => eventRowChecks r
  | .delivery r => r.checks
  | .attempt r => attemptRowChecks r
  | .handoff r => r.checks

/-- A retry that `fail_in_transaction` starts to assign can be scheduled. -/
def FailSchedulable (s : Session Key Row UUID) (claim : ClaimedDelivery) (error : DeliveryError)
    (retryAfter : Option Timedelta) (uniform : ℚ → ℚ → PyFloat) : Prop :=
  ∀ delivery attempt finishedAt policy, Held s claim delivery attempt finishedAt →
    snapshotPolicy delivery.routeSnapshot = .ok policy → error.retryable = true →
    attempt.attemptNumber < policy.maxAttempts →
    Timedelta.totalSeconds (finishedAt - delivery.createdAt) < policy.maximumElapsedSeconds →
    Schedulable policy delivery attempt finishedAt retryAfter uniform

theorem attempt_pos {r : AttemptRow} (h : attemptRowChecks r = true) : 0 < r.attemptNumber := by
  simp only [attemptRowChecks, decide_eq_true_eq] at h
  exact h.1

/-- The rows a raising failure leaves are the old ones exactly if its retry can be scheduled. -/
theorem fail_atomic (s : Session Key Row UUID) (inTransaction : Bool) (claim : ClaimedDelivery)
    (error : DeliveryError) (now : Datetime) (retryAfter : Option Timedelta)
    (uniform : ℚ → ℚ → PyFloat) (hchecks : ∀ r ∈ s.visible.rows, r.checked = true) :
    s.Atomic (failInPlace inTransaction claim error now retryAfter uniform) ↔
      (inTransaction = true → FailSchedulable s claim error retryAfter uniform) := by
  rcases inTransaction with _ | _
  · simp only [Bool.false_eq_true, false_imp_iff, iff_true]
    exact Session.atomic_of_visible_eq rfl
  have hstart : s.exec (failInPlace true claim error now retryAfter uniform) =
      s.exec ((lockedActiveRows claim now).bind fun r =>
        (Tx.lift (snapshotPolicy r.1.routeSnapshot)).bind fun policy =>
          assignFailure policy r.1 r.2.1 error r.2.2 retryAfter uniform) := rfl
  rcases exec_lockedActiveRows s claim now with
    ⟨delivery, attempt, s', held, hvisible, hexec⟩ | ⟨hlost, s', hvisible, hexec⟩
  · rw [Session.exec_bind_ok hexec, Session.exec_bind, Session.exec_ofExcept] at hstart
    rcases hpolicy : snapshotPolicy delivery.routeSnapshot with e | policy
    · -- the snapshot of the delivery has no policy
      simp only [hpolicy] at hstart
      refine iff_of_true (Session.atomic_of_visible_eq ?_) fun _ d a t p hd hp => ?_
      · rw [hstart, hvisible]
      · rw [Option.some.inj (hd.delivery_row.symm.trans held.delivery_row) |> Row.delivery.inj,
          hpolicy] at hp
        cases hp
    simp only [hpolicy] at hstart
    have hattempt := hchecks _ (Table.mem_of_get held.attempt_row)
    have hn : 0 < attempt.attemptNumber := attempt_pos hattempt
    have hiff : (∃ rows, failedRows policy delivery attempt error (s.clock 0) retryAfter uniform =
        .ok rows) ↔ FailSchedulable s claim error retryAfter uniform := by
      rw [exists_failedRows hn]
      constructor
      · intro h d a t p hd hp
        rw [Row.delivery.inj (Option.some.inj (hd.delivery_row.symm.trans held.delivery_row))]
          at hp ⊢
        rw [Row.attempt.inj (Option.some.inj (hd.attempt_row.symm.trans held.attempt_row)), hd.time]
        rw [hpolicy] at hp
        cases hp
        exact h
      · intro h
        exact h delivery attempt (s.clock 0) policy held hpolicy
    rw [forall_prop_of_true rfl, ← hiff]
    rcases exec_assignFailure s' policy delivery error (s.clock 0) retryAfter uniform hn with
      ⟨rows, s'', hrows, hreturns, -⟩ | ⟨e, s'', hraises, hexec', a, ha, hget⟩
    · refine iff_of_true (Session.atomic_of_ok (a := rows.outcome) ?_) ⟨rows, hrows⟩
      rw [hstart, hreturns]
    · refine iff_of_false (fun hatomic => ?_) ?_
      · -- the outcome that is left is not the one that was found
        have hsame := hatomic e (by rw [hstart, hexec'])
          (.attempt attempt.tenantId attempt.attemptId)
        have hold : s.visible.get (.attempt attempt.tenantId attempt.attemptId) =
            some (.attempt attempt) := Table.mem_iff_get.mp (Table.mem_of_get held.attempt_row)
        rw [hstart, hexec', hget, hold] at hsame
        rw [Row.attempt.inj (Option.some.inj hsame), held.started] at ha
        cases ha
      · rintro ⟨rows, hrows⟩
        rw [hraises] at hrows
        cases hrows
  · -- the lease is lost
    rw [Session.exec_bind_error hexec] at hstart
    refine iff_of_true (Session.atomic_of_visible_eq ?_) fun _ d a t _ hd => absurd hd (hlost d a t)
    rw [hstart, hvisible]

/-- What a failure assigns passes the checks of its tables. -/
theorem failedRows_checked {rows : FailedRows} (hdelivery : delivery.checks = true)
    (hattempt : attemptRowChecks attempt = true)
    (h : failedRows policy delivery attempt error finishedAt retryAfter uniform = .ok rows) :
    attemptRowChecks rows.attempt = true ∧ (clearLease rows.delivery finishedAt).checks = true := by
  have hn : 0 < attempt.attemptNumber := attempt_pos hattempt
  simp only [DeliveryRow.checks, decide_eq_true_eq] at hdelivery
  obtain ⟨hversion, hstarted, -, hactor, hreason⟩ := hdelivery
  have hmade : ∀ code summary outcome, outcome ≠ .started → outcome ≠ .succeeded →
      attemptRowChecks (failedAttempt attempt finishedAt code summary outcome) = true := by
    intro code summary outcome hs hsucceeded
    simp [attemptRowChecks, failedAttempt, hn, hs, hsucceeded]
  have hcleared : ∀ (state : DeliveryState) next, state ≠ .leased →
      (clearLease { delivery with state := state, nextAttemptAt := next } finishedAt).checks
        = true := by
    intro state next hstate
    unfold DeliveryRow.checks
    exact decide_eq_true ⟨hversion, hstarted, by simp [clearLease, hstate], hactor, hreason⟩
  rcases hb : retryPermitted policy delivery attempt error finishedAt with e | b
  · unfold failedRows at h
    rw [hb] at h
    cases h
  rcases b with _ | _
  · unfold failedRows at h
    rw [hb] at h
    rw [← Except.ok.inj h]
    refine ⟨hmade _ _ _ ?_ ?_, hcleared .dead _ (by decide)⟩
    · split_ifs <;> decide
    · split_ifs <;> decide
  · rw [failedRows_permitted hb] at h
    rcases htimes : retryTimes policy delivery attempt finishedAt retryAfter uniform with e | times
    · rw [htimes] at h
      cases h
    · rw [htimes] at h
      rw [← Except.ok.inj h]
      dsimp only
      split_ifs
      · exact ⟨hmade _ _ _ (by decide) (by decide), hcleared .retryWait _ (by decide)⟩
      · exact ⟨hmade _ _ _ (by decide) (by decide), hcleared .dead _ (by decide)⟩

/-- The assignments end in the rows `failInTransaction` writes, and raise when it raises. -/
theorem exec_failInPlace (s : Session Key Row UUID) (claim : ClaimedDelivery)
    (error : DeliveryError) (now : Datetime) (retryAfter : Option Timedelta)
    (uniform : ℚ → ℚ → PyFloat) (hchecks : ∀ r ∈ s.visible.rows, r.checked = true) :
    (s.exec (failInPlace true claim error now retryAfter uniform)).1 =
        (s.exec (failInTransaction claim error now retryAfter uniform)).1 ∧
      ∀ outcome, (s.exec (failInPlace true claim error now retryAfter uniform)).1 = .ok outcome →
        ∀ x, (s.exec (failInPlace true claim error now retryAfter uniform)).2.visible.get x =
          (s.exec (failInTransaction claim error now retryAfter uniform)).2.visible.get x := by
  have hplace : s.exec (failInPlace true claim error now retryAfter uniform) =
      s.exec ((lockedActiveRows claim now).bind fun r =>
        (Tx.lift (snapshotPolicy r.1.routeSnapshot)).bind fun policy =>
          assignFailure policy r.1 r.2.1 error r.2.2 retryAfter uniform) := rfl
  have hwrite : s.exec (failInTransaction claim error now retryAfter uniform) =
      s.exec ((lockedActiveRows claim now).bind fun r =>
        (Tx.lift (snapshotPolicy r.1.routeSnapshot)).bind fun policy =>
          (Tx.lift (failedRows policy r.1 r.2.1 error r.2.2 retryAfter uniform)).bind fun rows =>
            (updateRow (attemptRowChecks rows.attempt) (.attempt rows.attempt)).bind fun _ =>
              (updateRow (clearLease rows.delivery r.2.2).checks
                (.delivery (clearLease rows.delivery r.2.2))).bind fun _ => .ret rows.outcome) := rfl
  rcases exec_lockedActiveRows s claim now with
    ⟨delivery, attempt, s', held, hvisible, hexec⟩ | ⟨hlost, s', hvisible, hexec⟩
  · rw [Session.exec_bind_ok hexec, Session.exec_bind, Session.exec_ofExcept] at hplace hwrite
    rcases hpolicy : snapshotPolicy delivery.routeSnapshot with e | policy
    · simp only [hpolicy] at hplace hwrite
      rw [hplace, hwrite]
      exact ⟨rfl, fun _ _ _ => rfl⟩
    simp only [hpolicy] at hplace hwrite
    have hattempt : attemptRowChecks attempt = true := hchecks _ (Table.mem_of_get held.attempt_row)
    have hdelivery : delivery.checks = true := hchecks _ (Table.mem_of_get held.delivery_row)
    rw [Session.exec_bind, Session.exec_ofExcept] at hwrite
    rcases exec_assignFailure s' policy delivery error (s.clock 0) retryAfter uniform
      (attempt_pos hattempt) with ⟨rows, s'', hrows, hreturns, hget⟩ | ⟨e, s'', hraises, hexec', -⟩
    · obtain ⟨hattempt', hdelivery'⟩ := failedRows_checked hdelivery hattempt hrows
      simp only [hrows, updateRow, hattempt', hdelivery', if_true, Prog.bind, Session.exec] at hwrite
      rw [hplace, hwrite, hreturns]
      refine ⟨rfl, fun _ _ x => ?_⟩
      rw [hget, Session.visible_put, Session.visible_put, rowsAfter]
    · simp only [hraises] at hwrite
      rw [hplace, hwrite, hexec']
      refine ⟨rfl, fun outcome h => ?_⟩
      cases h
  · rw [Session.exec_bind_error hexec] at hplace hwrite
    rw [hplace, hwrite]
    exact ⟨rfl, fun _ _ _ => rfl⟩

end Failing

/-! ## Replays -/

/-- A replay that is inserted is one `delivery_from_row` accepts: the reason and the keys are
stable keys, and the snapshot has bytes. -/
def ReplayDecodes (s : Session Key Row UUID) (tenantId deliveryId : UUID) (actor reason : Str)
    (destinationKind : Option Str) : Prop :=
  ∀ original actor' reason',
    s.visible.get (.delivery tenantId deliveryId) = some (.delivery original) →
    original.replayable destinationKind = true → storedText 512 actor = .ok actor' →
    storedText 128 reason = .ok reason' → s.visible.get (.delivery tenantId (s.supply 0)) = none →
    isStableKey reason' = true ∧ isStableKey original.routeKey = true ∧
      isStableKey original.destinationKind = true ∧ isStableKey original.destinationKey = true ∧
      original.routeSnapshotBytes ≠ []

/-- A text that fits a column is stored as it is. -/
theorem storedText_eq_ok {n : ℕ} {s t : Str} (hlength : s.length ≤ n)
    (h : storedText n s = .ok t) : t = s := by
  unfold storedText at h
  obtain ⟨-, -, h⟩ := bind_eq_ok.mp h
  obtain ⟨-, -, h⟩ := bind_eq_ok.mp h
  rw [← Except.ok.inj h]
  exact List.take_of_length_le hlength

/-- The constructor of the detached replay. -/
theorem exists_deliveryFromRow {original : DeliveryRow} {replayId : UUID} {actor reason : Str}
    {now : Datetime} (hversion : 0 < original.routeVersion) (hid : replayId ≠ original.deliveryId)
    (hactor : actor ≠ [] ∧ actor.length ≤ 512) :
    (∃ record, deliveryFromRow (replayedDelivery original replayId actor reason now) = .ok record) ↔
      isStableKey reason = true ∧ isStableKey original.routeKey = true ∧
        isStableKey original.destinationKind = true ∧ isStableKey original.destinationKey = true ∧
        original.routeSnapshotBytes ≠ [] := by
  have hmake : ∀ d : DeliveryRecordArgs,
      (∃ record, DeliveryRecord.make d = .ok record) ↔ d.postInit = .ok () := by
    intro d
    unfold DeliveryRecord.make
    constructor
    · rintro ⟨record, h⟩
      split at h
      · assumption
      · cases h
    · intro h
      split
      · exact ⟨_, rfl⟩
      · rename_i e he
        rw [h] at he
        cases he
  unfold deliveryFromRow
  rw [hmake]
  simp only [DeliveryRecordArgs.postInit, DeliveryRecordArgs.replayCheck, replayedDelivery,
    bind_eq_ok, check_eq_ok]
  constructor
  · rintro ⟨-, hroute, -, hkind, -, hkey, -, -, -, -, -, hbytes, -, -, -, -, -, -, -, hreplay, -⟩
    obtain ⟨-, -, hreason⟩ := of_decide_eq_true hreplay
    exact ⟨hreason, hroute, hkind, hkey, of_decide_eq_true hbytes⟩
  · rintro ⟨hreason, hroute, hkind, hkey, hbytes⟩
    have hactor' : (some actor).any (fun a => a ≠ [] ∧ a.length ≤ 512) = true := by
      simpa using hactor
    exact ⟨(), hroute, (), hkind, (), hkey, (), decide_eq_true hversion, (), rfl, (),
      decide_eq_true hbytes, (), rfl, (), rfl, (), rfl, (),
      decide_eq_true ⟨fun h => hid h.symm, hactor', hreason⟩, decide_eq_true (le_refl now)⟩

/-- Only its identity can keep a replay from being inserted. -/
theorem any_conflict_replayedDelivery (t : Db) (original : DeliveryRow) (replayId : UUID)
    (actor reason : Str) (now : Datetime) :
    t.rows.any (Session.conflict (κ := Key)
        (.delivery (replayedDelivery original replayId actor reason now))) = true ↔
      t.get (.delivery original.tenantId replayId) ≠ none := by
  rw [List.any_eq_true, Ne, Table.get_eq_none_iff]
  push Not
  constructor
  · rintro ⟨r, hr, hconflict⟩
    refine ⟨r, hr, ?_⟩
    rcases of_decide_eq_true hconflict with hkey | hclash
    · exact hkey.symm
    · -- the unique index on routes is only about originals
      rcases r with r | r | r | r <;>
        simp [Schema.clash, Row.clash, replayedDelivery] at hclash
  · rintro ⟨r, hr, hkey⟩
    exact ⟨r, hr, decide_eq_true (Or.inl hkey.symm)⟩

/-- The rows a raising replay leaves are the old ones exactly if what it inserts decodes. -/
theorem replay_atomic (s : Session Key Row UUID) (inTransaction : Bool) (tenantId deliveryId : UUID)
    (actor reason : Str) (now : Datetime) (destinationKind : Option Str)
    (hchecks : ∀ r ∈ s.visible.rows, r.checked = true) :
    s.Atomic (replayInPlace inTransaction tenantId deliveryId actor reason now destinationKind) ↔
      (inTransaction = true → actor ≠ [] → actor.length ≤ 512 → reason ≠ [] →
        ReplayDecodes s tenantId deliveryId actor reason destinationKind) := by
  rcases inTransaction with _ | _
  · simp only [Bool.false_eq_true, false_imp_iff, iff_true]
    exact Session.atomic_of_visible_eq rfl
  rw [forall_prop_of_true rfl]
  by_cases hactor : actor ≠ [] ∧ actor.length ≤ 512
  swap
  · refine iff_of_true (Session.atomic_of_visible_eq ?_) fun h0 hlength => absurd ⟨h0, hlength⟩ hactor
    simp [replayInPlace, requireTransaction, check, hactor, Prog.bind, Session.exec]
  rw [forall_prop_of_true hactor.1, forall_prop_of_true hactor.2]
  by_cases hreason : reason ≠ []
  swap
  · refine iff_of_true (Session.atomic_of_visible_eq ?_) fun h => absurd h hreason
    simp [replayInPlace, requireTransaction, check, hactor, hreason, Prog.bind, Session.exec]
  rw [forall_prop_of_true hreason]
  -- the session as the function finds it once it has drawn an identifier
  obtain ⟨s₁, hvisible, hstart⟩ : ∃ s₁ : Session Key Row UUID, s₁.visible = s.visible ∧
      s.exec (replayInPlace true tenantId deliveryId actor reason now destinationKind) =
        s₁.exec (match (s.visible.get (.delivery tenantId deliveryId)).bind Row.delivery? with
          | none => .raise (.configuration "Only a terminal delivery can be replayed.")
          | some original =>
              if original.replayable destinationKind then
                (Tx.lift (storedText 512 actor)).bind fun actor =>
                  (Tx.lift (storedText 128 reason)).bind fun reason =>
                    (insertRow (replayedDelivery original (s.supply 0) actor reason now).checks
                      (.delivery (replayedDelivery original (s.supply 0) actor reason now))).bind
                        fun _ => Tx.lift (deliveryFromRow
                          (replayedDelivery original (s.supply 0) actor reason now))
              else .raise (.configuration "Only a terminal delivery can be replayed.")) := by
    refine ⟨{ s with supply := fun n => s.supply (n + 1) }, Session.visible_supply _ _, ?_⟩
    have hactor' : decide (actor ≠ [] ∧ actor.length ≤ 512) = true := decide_eq_true hactor
    have hreason' : decide (reason ≠ []) = true := decide_eq_true hreason
    unfold replayInPlace lockRetention
    simp only [requireTransaction, check, if_true, Prog.ofExcept_ok, Prog.bind_eq, Prog.bind,
      hactor', hreason']
    split_ifs <;> rfl
  rcases hrow : (s.visible.get (.delivery tenantId deliveryId)).bind Row.delivery? with
    _ | original
  · simp only [hrow] at hstart
    refine iff_of_true (Session.atomic_of_visible_eq ?_) fun original _ _ horiginal => ?_
    · rw [hstart]
      exact hvisible
    · rw [Row.bind_delivery?.mpr horiginal] at hrow
      cases hrow
  simp only [hrow] at hstart
  have horiginal := Row.bind_delivery?.mp hrow
  have honly : ∀ {r : DeliveryRow},
      s.visible.get (.delivery tenantId deliveryId) = some (.delivery r) → r = original := by
    intro r hr
    exact Row.delivery.inj (Option.some.inj (hr.symm.trans horiginal))
  by_cases hterminal : original.replayable destinationKind = true
  swap
  · rw [if_neg hterminal] at hstart
    refine iff_of_true (Session.atomic_of_visible_eq ?_) fun r _ _ hr hreplayable => ?_
    · rw [hstart]
      exact hvisible
    · rw [honly hr] at hreplayable
      exact absurd hreplayable hterminal
  rw [if_pos hterminal, Session.exec_bind, Session.exec_ofExcept] at hstart
  rcases hstored : storedText 512 actor with e | actor'
  · simp only [hstored] at hstart
    refine iff_of_true (Session.atomic_of_visible_eq ?_) fun _ actor' _ _ _ hactor' => ?_
    · rw [hstart]
      exact hvisible
    · cases hstored.symm.trans hactor'
  simp only [hstored] at hstart
  rw [Session.exec_bind, Session.exec_ofExcept] at hstart
  rcases hstored' : storedText 128 reason with e | reason'
  · simp only [hstored'] at hstart
    refine iff_of_true (Session.atomic_of_visible_eq ?_) fun _ _ reason' _ _ _ hreason' => ?_
    · rw [hstart]
      exact hvisible
    · cases hstored'.symm.trans hreason'
  simp only [hstored'] at hstart
  have hdelivery : original.checks = true := hchecks _ (Table.mem_of_get horiginal)
  simp only [DeliveryRow.checks, decide_eq_true_eq] at hdelivery
  have hkey : Key.delivery original.tenantId original.deliveryId = .delivery tenantId deliveryId :=
    Table.key_of_get horiginal
  have htenant : original.tenantId = tenantId := (Key.delivery.inj hkey).1
  have hid : original.deliveryId = deliveryId := (Key.delivery.inj hkey).2
  have hrowchecks : (replayedDelivery original (s.supply 0) actor' reason' now).checks = true := by
    simp [DeliveryRow.checks, replayedDelivery, hdelivery.1]
  simp only [insertRow, insertOrSkip, hrowchecks, if_true, Prog.bind_eq, Prog.bind, Session.exec]
    at hstart
  by_cases hfresh : s.visible.get (.delivery tenantId (s.supply 0)) = none
  swap
  · -- the identifier is taken
    have hconflict := any_conflict_replayedDelivery s₁.visible original (s.supply 0) actor' reason' now
    rw [hvisible, htenant] at hconflict
    rw [hvisible, if_pos (hconflict.mpr hfresh)] at hstart
    refine iff_of_true (Session.atomic_of_visible_eq ?_) fun _ _ _ _ _ _ _ hnone =>
      absurd hnone hfresh
    rw [hstart]
    exact hvisible
  have hconflict : ¬ (s₁.visible.rows.any (Session.conflict (κ := Key)
      (.delivery (replayedDelivery original (s.supply 0) actor' reason' now))) = true) := by
    rw [any_conflict_replayedDelivery, hvisible, htenant]
    exact not_not.mpr hfresh
  rw [if_neg hconflict] at hstart
  simp only [Prog.bind, Prog.pure_eq, Session.exec_ofExcept] at hstart
  have hdecodes : (∃ record, deliveryFromRow
      (replayedDelivery original (s.supply 0) actor' reason' now) = .ok record) ↔
      ReplayDecodes s tenantId deliveryId actor reason destinationKind := by
    have hother : s.supply 0 ≠ original.deliveryId := by
      intro h
      rw [h, hid, horiginal] at hfresh
      cases hfresh
    have hactor' : actor' = actor := storedText_eq_ok hactor.2 hstored
    rw [exists_deliveryFromRow hdelivery.1 hother (hactor' ▸ hactor)]
    constructor
    · intro h r _ _ hr _ _ hr' _
      rw [honly hr]
      rw [hstored'] at hr'
      cases hr'
      exact h
    · intro h
      exact h original actor' reason' horiginal hterminal hstored hstored' hfresh
  rw [← hdecodes]
  rcases hrecord : deliveryFromRow (replayedDelivery original (s.supply 0) actor' reason' now) with
    e | record
  · refine iff_of_false (fun hatomic => ?_) ?_
    swap
    · rintro ⟨record, h⟩
      cases h
    -- the inserted row is one that was not there
    have hsame := hatomic e (by rw [hstart, hrecord]) (.delivery tenantId (s.supply 0))
    rw [hstart, hfresh, Session.visible_put, get_put_row] at hsame
    rw [if_pos (by simp [Row.key, replayedDelivery, htenant])] at hsame
    cases hsame
  · refine iff_of_true (Session.atomic_of_ok (a := record) ?_) ⟨record, rfl⟩
    rw [hstart, hrecord]

/-- For texts that are stored as they are, the insert and its decoding are those of `replay`. -/
theorem replayInPlace_eq_replay {tenantId deliveryId : UUID} {actor reason : Str} {now : Datetime}
    {destinationKind : Option Str} (hactor : storedText 512 actor = .ok actor)
    (hreason : storedText 128 reason = .ok reason) :
    replayInPlace true tenantId deliveryId actor reason now destinationKind =
      replay tenantId deliveryId actor reason now destinationKind := by
  simp only [replayInPlace, replay, requireTransaction, check, if_true, hactor, hreason,
    Prog.ofExcept_ok, Prog.bind_eq, Prog.bind] <;> rfl

/-- A call of `fail_in_transaction` or `replay_in_transaction` that raises leaves the rows of
its caller as they were exactly when the retry it would assign can be scheduled, or the replay
it would insert decodes. -/
theorem caller_transaction_atomic (s : Session Key Row UUID) (inTransaction : Bool)
    (hchecks : ∀ r ∈ s.visible.rows, r.checked = true) :
    (∀ claim error now retryAfter uniform,
      s.Atomic (failInPlace inTransaction claim error now retryAfter uniform) ↔
        (inTransaction = true → FailSchedulable s claim error retryAfter uniform)) ∧
    ∀ tenantId deliveryId actor reason now destinationKind,
      s.Atomic (replayInPlace inTransaction tenantId deliveryId actor reason now destinationKind) ↔
        (inTransaction = true → actor ≠ [] → actor.length ≤ 512 → reason ≠ [] →
          ReplayDecodes s tenantId deliveryId actor reason destinationKind) := by
  constructor
  · intro claim error now retryAfter uniform
    exact fail_atomic s inTransaction claim error now retryAfter uniform hchecks
  · intro tenantId deliveryId actor reason now destinationKind
    exact replay_atomic s inTransaction tenantId deliveryId actor reason now destinationKind hchecks

namespace DeadLetter

/-- A dead delivery. -/
def delivery : DeliveryRow where
  tenantId := 1
  deliveryId := 101
  eventId := 100
  routeKey := "orders"
  routeVersion := 1
  destinationKind := "webhook"
  destinationKey := "receiver"
  routeSnapshot := .obj [("retry", RetryPolicy.patient.toDict.toOption.getD .null)]
  routeSnapshotBytes := [123, 125]
  state := .dead
  attemptsStarted := 1
  nextAttemptAt := 2000000
  leaseToken := none
  leaseExpiresAt := none
  replayOf := none
  replayActor := none
  replayReason := none
  createdAt := 1000000
  updatedAt := 2000000

/-- A session of an operator that sees it. -/
def session : Session Key Row UUID :=
  Session.on ⟨[.delivery delivery], by decide⟩ (fun _ => 3000000) fun n => 200 + n

theorem session_checked : ∀ r ∈ session.visible.rows, r.checked = true := by decide

/-- A reason that is a stable key is recorded or nothing is. -/
theorem caller_transaction_atomic_operator :
    session.Atomic (replayInPlace true 1 101 "operator" "operator.request" 3000000 none) := by
  refine ((caller_transaction_atomic session true session_checked).2 _ _ _ _ _ _).mpr
    fun _ _ _ _ original actor' reason' horiginal _ _ hreason _ => ?_
  have hstored : session.visible.get (.delivery 1 101) = some (.delivery delivery) := rfl
  rw [hstored] at horiginal
  cases horiginal
  rw [storedText_eq_ok (by decide) hreason]
  exact ⟨by decide, by decide, by decide, by decide, by decide⟩

/-- A replay with a free text as its reason is refused only after its row is inserted. -/
theorem replay_half_done : ¬ ∀ (s : Session Key Row UUID) (tenantId deliveryId : UUID)
    (actor reason : Str) (now : Datetime) (destinationKind : Option Str),
    (∀ r ∈ s.visible.rows, r.checked = true) →
      s.Atomic (replayInPlace true tenantId deliveryId actor reason now destinationKind) := by
  intro h
  have hsame := h session 1 101 "operator" "Operator asked" 3000000 none session_checked
    (.configuration "Replay requires a bounded actor and reason.") (by decide +kernel)
    (.delivery 1 200)
  revert hsame
  decide +kernel

end DeadLetter

end FastapiEffects
