import FastapiEffects.Executors.Taskiq
import FastapiEffects.Postgres.InPlace

/-! # Admission of an execution

What `claim_execution` does with a handoff whose parent attempt is stale, over its deadline
or in time. The late branch goes through `fail_in_transaction`, which refuses a lease that
has expired.
-/

namespace FastapiEffects

open Python ReadCommitted

/-! ## What is left of an attempt -/

/-- A limit of at most an hour is a positive float. -/
theorem exists_configuredLimit {timeout : Timedelta} (hpos : 0 < timeout)
    (hle : timeout ≤ 3600000000) :
    ∃ limit : Binary64, timeout.secondsNumber = .float (.finite limit) ∧ 0 < limit.toRat := by
  have htotal : 0 < Timedelta.totalSeconds timeout := by
    unfold Timedelta.totalSeconds
    have : (0 : ℚ) < ((timeout : ℤ) : ℚ) := by exact_mod_cast hpos
    positivity
  have hnormal : (2 : ℚ) ^ (-1022 : ℤ) ≤ Timedelta.totalSeconds timeout := by
    have hone : (1 : ℚ) / 1000000 ≤ Timedelta.totalSeconds timeout := by
      unfold Timedelta.totalSeconds
      have : (1 : ℚ) ≤ ((timeout : ℤ) : ℚ) := by exact_mod_cast hpos
      linarith
    have hsmall : (2 : ℚ) ^ (-1022 : ℤ) ≤ 1 / 1000000 :=
      (zpow_le_zpow_right₀ (by norm_num) (by norm_num : (-1022 : ℤ) ≤ -20)).trans (by norm_num)
    exact hsmall.trans hone
  have hlt : Timedelta.totalSeconds timeout < 2 ^ 53 := by
    unfold Timedelta.totalSeconds
    have : ((timeout : ℤ) : ℚ) ≤ 3600000000 := by exact_mod_cast hle
    linarith
  obtain ⟨limit, -, hround, -, -⟩ := Binary64.round?_of_lt false hnormal hlt
  refine ⟨limit, ?_, ?_⟩
  · rw [Timedelta.secondsNumber, PyFloat.nearest, decide_eq_false (not_lt.mpr hpos.le),
      abs_of_pos htotal, hround]
  · have hhalf := Binary64.half_lt_of_round? hround hnormal
    rw [Binary64.toRat, (Binary64.round?_eq_some hround).1, if_neg (by simp)]
    linarith

/-- The sign of a duration in seconds. -/
theorem totalSeconds_sub_nonpos {t u : ℤ} : Timedelta.totalSeconds (t - u) ≤ 0 ↔ t ≤ u := by
  rw [Timedelta.totalSeconds, div_nonpos_iff]
  constructor
  · rintro (⟨-, h⟩ | ⟨h, -⟩)
    · norm_num at h
    · have hle : t - u ≤ 0 := by exact_mod_cast h
      omega
  · intro h
    have hle : t - u ≤ 0 := by omega
    exact Or.inr ⟨by exact_mod_cast hle, by norm_num⟩

/-- A duration that ends by a time a clock can show. -/
theorem add?_of_le_max {now deadline duration : ℤ} (hnow : Datetime.Valid now)
    (hdeadline : deadline ≤ Datetime.max) (h0 : 0 ≤ duration) (hle : duration ≤ deadline - now) :
    Timedelta.min ≤ duration ∧ duration ≤ Timedelta.max ∧
      Datetime.add? now duration = some (now + duration) := by
  have hlow : (-62135596800000000 : ℤ) ≤ now := hnow.1
  have hhigh : deadline ≤ (253402300799999999 : ℤ) := hdeadline
  refine ⟨?_, ?_, Datetime.add?_eq_some_iff.mpr ⟨⟨?_, ?_⟩, rfl⟩⟩
  · show (-86399999913600000000 : ℤ) ≤ duration
    omega
  · show duration ≤ (86399999999999999999 : ℤ)
    omega
  · show (-62135596800000000 : ℤ) ≤ now + duration
    omega
  · show now + duration ≤ (253402300799999999 : ℤ)
    omega

/-- With such a limit something is left of an attempt exactly before its deadline. -/
theorem remaining_of_deadline {policy : RetryPolicy} {created started expiry now : Datetime}
    {timeout : Timedelta} (hpos : 0 < timeout) (hle : timeout ≤ 3600000000) :
    (∀ e, attemptDeadline policy created started expiry = .error e →
      remainingAttemptSeconds policy created started expiry now (some timeout.secondsNumber) =
        .error e) ∧
    ∀ deadline, attemptDeadline policy created started expiry = .ok deadline →
      ∃ q, remainingAttemptSeconds policy created started expiry now
          (some timeout.secondsNumber) = .ok q ∧ (q ≤ 0 ↔ deadline ≤ now) := by
  obtain ⟨limit, hlimit, hlimitpos⟩ := exists_configuredLimit hpos hle
  constructor
  · intro e he
    unfold remainingAttemptSeconds
    rw [he]
    rfl
  · intro deadline hdeadline
    refine ⟨max 0 (min (Timedelta.totalSeconds (deadline - now)) limit.toRat), ?_, ?_⟩
    · unfold remainingAttemptSeconds
      rw [hdeadline, hlimit]
      simp [bind, Except.bind, finiteNumber, Number.toFloat?, check, hlimitpos, pure, Except.pure]
    · rw [max_le_iff, min_le_iff, ← totalSeconds_sub_nonpos]
      constructor
      · rintro ⟨-, h | h⟩
        · exact h
        · exact absurd hlimitpos (not_lt.mpr h)
      · intro h
        exact ⟨le_refl 0, Or.inl h⟩

/-- What is left of an attempt is a duration that ends at a time a clock can show. -/
theorem exists_executionDeadline {policy : RetryPolicy} {created started expiry now : Datetime}
    {timeout : Timedelta} {q : ℚ} (hnow : Datetime.Valid now)
    (h : remainingAttemptSeconds policy created started expiry now
      (some timeout.secondsNumber) = .ok q) (hq : 0 < q) :
    ∃ duration, Timedelta.ofSeconds? q = some duration ∧
      now.add? duration = some (now + duration) := by
  obtain ⟨deadline, hdeadline, hle⟩ := remainingAttemptSeconds_eq_ok h
  have hbound : deadline ≤ Datetime.max := by
    simp only [attemptDeadline, deliveryDeadline, bind_eq_ok, orRaise_eq_ok,
      Datetime.add?_eq_some_iff] at hdeadline
    obtain ⟨latest, ⟨elapsed, -, hvalid, hlatest⟩, -, -, handler, -, hdeadline⟩ := hdeadline
    rw [← Except.ok.inj hdeadline]
    have hlatest' : latest ≤ Datetime.max := hlatest ▸ hvalid.2
    exact (min_le_left _ _).trans ((min_le_left _ _).trans hlatest')
  have hleft : q ≤ Timedelta.totalSeconds (deadline - now) := by
    rcases le_max_iff.mp hle with h0 | h1
    · exact absurd hq (not_lt.mpr h0)
    · exact h1
  have hround := roundHalfEven_mono
    (mul_le_mul_of_nonneg_right hleft (by norm_num : (0 : ℚ) ≤ 1000000))
  rw [Timedelta.roundHalfEven_totalSeconds] at hround
  have hnonneg : 0 ≤ roundHalfEven (q * 1000000) :=
    roundHalfEven_nonneg (mul_nonneg hq.le (by norm_num))
  obtain ⟨hmin, hmax, hadd⟩ := add?_of_le_max hnow hbound hnonneg hround
  refine ⟨roundHalfEven (q * 1000000), ?_, hadd⟩
  rw [Timedelta.ofSeconds?, Timedelta.ofMicroseconds?, if_pos ⟨hmin, hmax⟩]

/-! ## The parent attempt -/

/-- The attempt of a handoff still owns its delivery. -/
structure OwnsParent (t : Db) (row : HandoffRow) (delivery : DeliveryRow) (attempt : AttemptRow) :
    Prop where
  delivery_row : t.get (.delivery row.tenantId row.deliveryId) = some (.delivery delivery)
  attempt_row : t.get (.attempt row.tenantId row.attemptId) = some (.attempt attempt)
  leased : delivery.state = .leased
  parent : attempt.deliveryId = row.deliveryId
  token : delivery.leaseToken = some attempt.leaseToken
  started : attempt.outcome = .started

/-- The claim that the rows under a handoff decode to. -/
def HandoffRow.Claims (t : Db) (row : HandoffRow) (delivery : DeliveryRow) (attempt : AttemptRow)
    (claim : ClaimedDelivery) : Prop :=
  ∃ event, t.get (.event row.tenantId delivery.eventId) = some (.event event) ∧
    eventFromRow event = .ok claim.event ∧ deliveryFromRow delivery = .ok claim.delivery ∧
    attemptFromRow attempt = .ok claim.attempt ∧ claim.routeSnapshot = row.routeSnapshot

theorem OwnsParent.unique {t : Db} {row : HandoffRow} {d d' : DeliveryRow} {a a' : AttemptRow}
    (h : OwnsParent t row d a) (h' : OwnsParent t row d' a') : d' = d ∧ a' = a :=
  ⟨Row.delivery.inj (Option.some.inj (h'.delivery_row.symm.trans h.delivery_row)),
    Row.attempt.inj (Option.some.inj (h'.attempt_row.symm.trans h.attempt_row))⟩

theorem Row.bind_event? {o : Option Row} {r : EventRow} :
    o.bind Row.event? = some r ↔ o = some (.event r) := by
  rcases o with _ | row
  · simp
  · cases row <;> simp [Row.event?]

/-- `_claim_for_row` finds the claim of a parent that owns its delivery, raises something else,
or raises `LeaseLost` for a stale parent; rows do not change. -/
theorem exec_claimForRow (s : Session Key Row UUID) (row : HandoffRow) :
    (∃ delivery attempt claim, OwnsParent s.visible row delivery attempt ∧
        row.Claims s.visible delivery attempt claim ∧
        s.exec (claimForRow row) = (.ok claim, s)) ∨
      (∃ delivery attempt e, OwnsParent s.visible row delivery attempt ∧
        (∀ claim, ¬ row.Claims s.visible delivery attempt claim) ∧
        s.exec (claimForRow row) = (.error e, s)) ∨
      (∀ delivery attempt, ¬ OwnsParent s.visible row delivery attempt) ∧
        s.exec (claimForRow row) = (.error (.leaseLost row.deliveryId), s) := by
  unfold claimForRow
  simp only [selectForUpdate, selectOne, Prog.bind_eq, Prog.bind, Session.exec]
  rcases hdelivery : (s.visible.get (.delivery row.tenantId row.deliveryId)).bind Row.delivery? with
    _ | delivery
  · right; right
    refine ⟨fun d a h => ?_, rfl⟩
    rw [Row.bind_delivery?.mpr h.delivery_row] at hdelivery
    cases hdelivery
  rcases hattempt : (s.visible.get (.attempt row.tenantId row.attemptId)).bind Row.attempt? with
    _ | attempt
  · right; right
    refine ⟨fun d a h => ?_, rfl⟩
    rw [Row.bind_attempt?.mpr h.attempt_row] at hattempt
    cases hattempt
  have honly : ∀ {d a}, OwnsParent s.visible row d a → d = delivery ∧ a = attempt := by
    intro d a h
    rw [Row.bind_delivery?.mpr h.delivery_row] at hdelivery
    rw [Row.bind_attempt?.mpr h.attempt_row] at hattempt
    exact ⟨Option.some.inj hdelivery, Option.some.inj hattempt⟩
  dsimp only
  split_ifs with hstale
  · right; right
    refine ⟨fun d a h => ?_, rfl⟩
    rcases honly h with ⟨rfl, rfl⟩
    rcases hstale with hstate | hparent | htoken | hstarted
    · exact hstate h.leased
    · exact hparent h.parent
    · exact htoken h.token
    · exact hstarted h.started
  simp only [not_or, not_not] at hstale
  have howns : OwnsParent s.visible row delivery attempt :=
    ⟨Row.bind_delivery?.mp hdelivery, Row.bind_attempt?.mp hattempt, hstale.1, hstale.2.1,
      hstale.2.2.1, hstale.2.2.2⟩
  simp only [Session.exec]
  rcases hevent : (s.visible.get (.event row.tenantId delivery.eventId)).bind Row.event? with
    _ | event
  · right; left
    refine ⟨delivery, attempt, _, howns, fun claim hclaims => ?_, rfl⟩
    rcases hclaims with ⟨event, hrow, -⟩
    rw [Row.bind_event?.mpr hrow] at hevent
    cases hevent
  have hrow := Row.bind_event?.mp hevent
  have hclaims : ∀ claim, row.Claims s.visible delivery attempt claim →
      eventFromRow event = .ok claim.event ∧ deliveryFromRow delivery = .ok claim.delivery ∧
        attemptFromRow attempt = .ok claim.attempt := by
    rintro claim ⟨event', hrow', he, hd, ha, -⟩
    rw [Row.event.inj (Option.some.inj (hrow'.symm.trans hrow))] at he
    exact ⟨he, hd, ha⟩
  dsimp only
  rcases he : eventFromRow event with e | eventRecord
  · right; left
    refine ⟨delivery, attempt, e, howns, fun claim h => ?_, rfl⟩
    rw [he] at hclaims
    cases (hclaims claim h).1
  rcases hd : deliveryFromRow delivery with e | deliveryRecord
  · right; left
    refine ⟨delivery, attempt, e, howns, fun claim h => ?_, rfl⟩
    rw [hd] at hclaims
    cases (hclaims claim h).2.1
  rcases ha : attemptFromRow attempt with e | attemptRecord
  · right; left
    refine ⟨delivery, attempt, e, howns, fun claim h => ?_, rfl⟩
    rw [ha] at hclaims
    cases (hclaims claim h).2.2
  · left
    exact ⟨delivery, attempt, ⟨eventRecord, deliveryRecord, attemptRecord, row.routeSnapshot⟩,
      howns, ⟨event, hrow, he, hd, ha, rfl⟩, rfl⟩

/-- The claim of an owned delivery holds its lease as long as the lease is live. -/
theorem HandoffRow.Claims.held_iff {s s' : Session Key Row UUID} {row : HandoffRow}
    {delivery d : DeliveryRow} {attempt a : AttemptRow} {claim : ClaimedDelivery} {t : Datetime}
    (hclaims : row.Claims s.visible delivery attempt claim)
    (howns : OwnsParent s.visible row delivery attempt) (hs : s'.visible = s.visible) :
    Held s' claim d a t ↔ d = delivery ∧ a = attempt ∧ t = s'.clock 0 ∧
      ∃ expiry ∈ delivery.leaseExpiresAt, t < expiry := by
  rcases hclaims with ⟨event, -, -, hd, ha, -⟩
  rcases deliveryFromRow_eq_ok hd with ⟨hid, htenant, -, -⟩
  have hattempt := attemptFromRow_eq_ok ha
  have hdkey : Key.delivery delivery.tenantId delivery.deliveryId =
      .delivery row.tenantId row.deliveryId := Table.key_of_get howns.delivery_row
  have hakey : Key.attempt attempt.tenantId attempt.attemptId =
      .attempt row.tenantId row.attemptId := Table.key_of_get howns.attempt_row
  have hdrow : s'.visible.get (.delivery claim.delivery.tenantId claim.delivery.deliveryId) =
      some (.delivery delivery) := by
    rw [hid, htenant, hdkey, hs]
    exact howns.delivery_row
  have harow : s'.visible.get (.attempt claim.attempt.tenantId claim.attempt.attemptId) =
      some (.attempt attempt) := by
    rw [hattempt, hakey, hs]
    exact howns.attempt_row
  have htoken : claim.leaseToken = attempt.leaseToken := by
    rw [ClaimedDelivery.leaseToken, hattempt]
  constructor
  · intro held
    have hdd := Row.delivery.inj (Option.some.inj (held.delivery_row.symm.trans hdrow))
    have haa := Row.attempt.inj (Option.some.inj (held.attempt_row.symm.trans harow))
    exact ⟨hdd, haa, held.time, hdd ▸ held.live⟩
  · rintro ⟨rfl, rfl, htime, hlive⟩
    exact ⟨hdrow, harow, howns.leased, htoken ▸ howns.token, htoken.symm, howns.started, htime,
      hlive⟩

/-! ## A failure that is recorded -/

/-- `fail_in_transaction` writes the rows of a failure, or raises. -/
theorem exec_failInTransaction (s : Session Key Row UUID) (claim : ClaimedDelivery)
    (error : DeliveryError) (now : Datetime) (retryAfter : Option Timedelta)
    (uniform : ℚ → ℚ → PyFloat) (hchecks : ∀ r ∈ s.visible.rows, r.checked = true) :
    (∃ delivery attempt policy rows s', Held s claim delivery attempt (s.clock 0) ∧
        snapshotPolicy delivery.routeSnapshot = .ok policy ∧
        failedRows policy delivery attempt error (s.clock 0) retryAfter uniform = .ok rows ∧
        s.exec (failInTransaction claim error now retryAfter uniform) = (.ok rows.outcome, s') ∧
        s'.visible = rowsAfter s.visible rows.attempt (clearLease rows.delivery (s.clock 0))) ∨
      (∀ delivery attempt policy rows, Held s claim delivery attempt (s.clock 0) →
        snapshotPolicy delivery.routeSnapshot = .ok policy →
        failedRows policy delivery attempt error (s.clock 0) retryAfter uniform ≠ .ok rows) ∧
        ∃ e s', s.exec (failInTransaction claim error now retryAfter uniform) = (.error e, s') := by
  have hwrite : s.exec (failInTransaction claim error now retryAfter uniform) =
      s.exec ((lockedActiveRows claim now).bind fun r =>
        (Tx.lift (snapshotPolicy r.1.routeSnapshot)).bind fun policy =>
          (Tx.lift (failedRows policy r.1 r.2.1 error r.2.2 retryAfter uniform)).bind fun rows =>
            (updateRow (attemptRowChecks rows.attempt) (.attempt rows.attempt)).bind fun _ =>
              (updateRow (clearLease rows.delivery r.2.2).checks
                (.delivery (clearLease rows.delivery r.2.2))).bind fun _ => .ret rows.outcome) := rfl
  rcases exec_lockedActiveRows s claim now with
    ⟨delivery, attempt, s', held, hvisible, hexec⟩ | ⟨hlost, s', hvisible, hexec⟩
  · rw [Session.exec_bind_ok hexec, Session.exec_bind, Session.exec_ofExcept] at hwrite
    have honly : ∀ {d a}, Held s claim d a (s.clock 0) → d = delivery ∧ a = attempt := by
      intro d a h
      exact ⟨Row.delivery.inj (Option.some.inj (h.delivery_row.symm.trans held.delivery_row)),
        Row.attempt.inj (Option.some.inj (h.attempt_row.symm.trans held.attempt_row))⟩
    rcases hpolicy : snapshotPolicy delivery.routeSnapshot with e | policy
    · right
      simp only [hpolicy] at hwrite
      refine ⟨fun d a p rows h hp => ?_, e, s', hwrite⟩
      rw [(honly h).1, hpolicy] at hp
      cases hp
    simp only [hpolicy] at hwrite
    rw [Session.exec_bind, Session.exec_ofExcept] at hwrite
    rcases hrows : failedRows policy delivery attempt error (s.clock 0) retryAfter uniform with
      e | rows
    · right
      simp only [hrows] at hwrite
      refine ⟨fun d a p rows h hp hr => ?_, e, s', hwrite⟩
      rcases honly h with ⟨rfl, rfl⟩
      rw [hpolicy] at hp
      cases hp
      rw [hrows] at hr
      cases hr
    · left
      obtain ⟨hattempt', hdelivery'⟩ := failedRows_checked
        (hchecks _ (Table.mem_of_get held.delivery_row))
        (hchecks _ (Table.mem_of_get held.attempt_row)) hrows
      simp only [hrows, updateRow, hattempt', hdelivery', if_true, Prog.bind, Session.exec] at hwrite
      refine ⟨delivery, attempt, policy, rows, _, held, hpolicy, hrows, hwrite, ?_⟩
      rw [Session.visible_put, Session.visible_put, hvisible, rowsAfter]
  · right
    rw [Session.exec_bind_error hexec] at hwrite
    exact ⟨fun d a p rows h _ => absurd h (hlost d a _), _, s', hwrite⟩

/-! ## What a call does -/

/-- What `claim_execution` may make of a handoff: nothing while it is executed or over, `dead`
when its parent is stale, `retry_wait` or `dead` when its parent is over the deadline, and
else an execution. -/
inductive Admission (s : Session Key Row UUID) (row : HandoffRow) :
    Option ExecutingHandoff → Db → Prop where
  | untouched (h : row.admits (s.clock 0) = false) : Admission s row none s.visible
  | stale {t} (h : row.admits (s.clock 0) = true)
      (hstale : ∀ delivery attempt, ¬ OwnsParent s.visible row delivery attempt)
      (ht : t = s.visible.put (.handoff (setFailed row .dead (s.clock 0) "executor.stale_attempt"
        "Taskiq handoff no longer owns the parent delivery attempt."))) :
      Admission s row none t
  | overdue {t delivery attempt policy expiry deadline outcome} (h : row.admits (s.clock 0) = true)
      (howns : OwnsParent s.visible row delivery attempt)
      (hpolicy : snapshotPolicy row.routeSnapshot = .ok policy)
      (hexpiry : delivery.leaseExpiresAt = some expiry)
      (hdeadline : attemptDeadline policy delivery.createdAt attempt.startedAt expiry = .ok deadline)
      (hover : deadline ≤ s.clock 1) (houtcome : outcome = .retryWait ∨ outcome = .dead)
      (ht : t.get (.handoff row.tenantId row.handoffId) = some (.handoff
        (setFailed row outcome (s.clock 1) executionTimeoutError.code
          executionTimeoutError.summary))) :
      Admission s row none t
  | executing {t delivery attempt claim token deadline} (h : row.admits (s.clock 0) = true)
      (howns : OwnsParent s.visible row delivery attempt)
      (hclaims : row.Claims s.visible delivery attempt claim) (hstart : s.clock 1 < deadline)
      (ht : t = s.visible.put (.handoff (executingHandoff row token (s.clock 1) deadline))) :
      Admission s row (some ⟨(executingHandoff row token (s.clock 1) deadline).record, claim,
        token, deadline⟩) t

/-- What admission needs of a parent that owns its delivery: rows that decode and a policy with
deadlines; before the deadline a count that fits its column; from the deadline on a lease that
is live when the failure is recorded, and a retry that can be scheduled if one is permitted. -/
structure Admissible (s : Session Key Row UUID) (row : HandoffRow) (uniform : ℚ → ℚ → PyFloat)
    (delivery : DeliveryRow) (attempt : AttemptRow) : Prop where
  claims : ∃ claim, row.Claims s.visible delivery attempt claim
  decides : ∃ policy expiry deadline, snapshotPolicy row.routeSnapshot = .ok policy ∧
    delivery.leaseExpiresAt = some expiry ∧
    attemptDeadline policy delivery.createdAt attempt.startedAt expiry = .ok deadline ∧
    (s.clock 1 < deadline → row.executionCount < maxInteger) ∧
    (deadline ≤ s.clock 1 → s.clock 2 < expiry ∧
      ∃ recorded, snapshotPolicy delivery.routeSnapshot = .ok recorded ∧
        (attempt.attemptNumber < recorded.maxAttempts →
          Timedelta.totalSeconds (s.clock 2 - delivery.createdAt) < recorded.maximumElapsedSeconds →
          Schedulable recorded delivery attempt (s.clock 2) none uniform))

/-! ## The rows a call writes -/

theorem HandoffRow.checks_iff {row : HandoffRow} : row.checks = true ↔
    0 ≤ row.executionCount ∧
      (row.state = .executing ↔ row.executionToken.isSome ∧ row.executionDeadline.isSome) ∧
      (row.state = .prepared → row.enqueuedAt.isNone) ∧
      (row.state = .enqueued ∨ row.state = .executing ∨ row.state = .succeeded →
        row.enqueuedAt.isSome) ∧
      (row.state = .succeeded ∨ row.state = .retryWait ∨ row.state = .dead ↔
        row.finishedAt.isSome) ∧
      (row.state = .retryWait ∨ row.state = .dead →
        row.failureCode.isSome ∧ row.failureSummary.isSome) ∧
      (¬ (row.state = .retryWait ∨ row.state = .dead) →
        row.failureCode.isNone ∧ row.failureSummary.isNone) := by
  unfold HandoffRow.checks
  exact decide_eq_true_iff

/-- A failed handoff passes the checks of its table. -/
theorem setFailed_checks {row : HandoffRow} (h : row.checks = true) (outcome : DeliveryState)
    (now : Datetime) (code summary : Str) :
    (setFailed row outcome now code summary).checks = true := by
  rw [HandoffRow.checks_iff] at h ⊢
  by_cases houtcome : outcome = .retryWait
  · simp [setFailed, clearExecution, houtcome, h.1]
  · simp [setFailed, clearExecution, houtcome, h.1]

/-- So does an execution of a handoff that admits one. -/
theorem executingHandoff_checks {row : HandoffRow} {lockedAt : Datetime} (h : row.checks = true)
    (hadmits : row.admits lockedAt = true) (token : UUID) (startedAt deadline : Datetime) :
    (executingHandoff row token startedAt deadline).checks = true := by
  rw [HandoffRow.checks_iff] at h ⊢
  obtain ⟨hcount, -, -, -, hfinished, -, hfailure⟩ := h
  have hopen : row.state ≠ .succeeded ∧ row.state ≠ .retryWait ∧ row.state ≠ .dead := by
    unfold HandoffRow.admits at hadmits
    split at hadmits <;> simp_all
  have hfailure' := hfailure fun h => h.elim hopen.2.1 hopen.2.2
  have hfinished' : row.finishedAt = none := by
    rcases hnone : row.finishedAt with _ | t
    · rfl
    · rw [hnone] at hfinished
      rcases hfinished.mpr rfl with hs | hr | hd
      · exact absurd hs hopen.1
      · exact absurd hr hopen.2.1
      · exact absurd hd hopen.2.2
  have hcount' : 0 ≤ row.executionCount + 1 := by omega
  simp [executingHandoff, hfinished', hcount', Option.isNone_iff_eq_none.mp hfailure'.1,
    Option.isNone_iff_eq_none.mp hfailure'.2]

theorem snapshotPolicy_eq_ok {snapshot : Json} {policy : RetryPolicy} :
    snapshotPolicy snapshot = .ok policy ↔
      ∃ members, snapshot.get? "retry" = some (.obj members) ∧
        RetryPolicy.fromDict (.obj members) = .ok policy := by
  unfold snapshotPolicy
  constructor
  · intro h
    split at h
    · rename_i members hget
      exact ⟨members, hget, h⟩
    · cases h
  · rintro ⟨members, hget, h⟩
    rw [hget]
    exact h

/-! ## Admission under a claim -/

section Admitting

variable {s s₁ : Session Key Row UUID} {row : HandoffRow} {delivery : DeliveryRow}
  {attempt : AttemptRow} {claim : ClaimedDelivery} {timeout : Timedelta}
  {uniform : ℚ → ℚ → PyFloat}

/-- An admission under a claim is one of a parent that owns its delivery. -/
theorem Admission.cases_owned {result : Option ExecutingHandoff} {t : Db}
    (hadmits : row.admits (s.clock 0) = true) (howns : OwnsParent s.visible row delivery attempt)
    (h : Admission s row result t) :
    (∃ policy expiry deadline, result = none ∧ snapshotPolicy row.routeSnapshot = .ok policy ∧
        delivery.leaseExpiresAt = some expiry ∧
        attemptDeadline policy delivery.createdAt attempt.startedAt expiry = .ok deadline ∧
        deadline ≤ s.clock 1) ∨
      ∃ executing, result = some executing := by
  cases h with
  | untouched h =>
      rw [hadmits] at h
      cases h
  | stale h hstale ht => exact absurd howns (hstale _ _)
  | overdue h howns' hpolicy hexpiry hdeadline hover houtcome ht =>
      rcases howns.unique howns' with ⟨rfl, rfl⟩
      exact Or.inl ⟨_, _, _, rfl, hpolicy, hexpiry, hdeadline, hover⟩
  | executing h howns' hclaims hstart ht => exact Or.inr ⟨_, rfl⟩

/-- A failure that is recorded leaves a delivery that waits for a retry or is dead. -/
theorem failedRows_outcome {policy : RetryPolicy} {error : DeliveryError} {finishedAt : Datetime}
    {retryAfter : Option Timedelta} {rows : FailedRows}
    (h : failedRows policy delivery attempt error finishedAt retryAfter uniform = .ok rows) :
    rows.outcome = .retryWait ∨ rows.outcome = .dead := by
  rcases hb : retryPermitted policy delivery attempt error finishedAt with e | b
  · unfold failedRows at h
    rw [hb] at h
    cases h
  rcases b with _ | _
  · unfold failedRows at h
    rw [hb] at h
    exact Or.inr (by rw [← Except.ok.inj h])
  · rw [failedRows_permitted hb] at h
    rcases htimes : retryTimes policy delivery attempt finishedAt retryAfter uniform with e | times
    · rw [htimes] at h
      cases h
    · rw [htimes] at h
      rw [← Except.ok.inj h]
      dsimp only
      split_ifs
      · exact Or.inl rfl
      · exact Or.inr rfl

/-- Past the deadline the call returns if the lease is live when the failure is recorded and
the failure has rows. -/
theorem exec_lateAdmission {policy : RetryPolicy} {expiry deadline : Datetime}
    (hvisible : s₁.visible = s.visible) (hclock : s₁.clock 0 = s.clock 2)
    (hchecks : ∀ r ∈ s.visible.rows, r.checked = true) (hadmits : row.admits (s.clock 0) = true)
    (hrow : s.visible.get (.handoff row.tenantId row.handoffId) = some (.handoff row))
    (howns : OwnsParent s.visible row delivery attempt)
    (hclaims : row.Claims s.visible delivery attempt claim)
    (hpolicy : snapshotPolicy row.routeSnapshot = .ok policy)
    (hexpiry : delivery.leaseExpiresAt = some expiry)
    (hdeadline : attemptDeadline policy delivery.createdAt attempt.startedAt expiry = .ok deadline)
    (hover : deadline ≤ s.clock 1) :
    (∃ result s', s₁.exec ((failInTransaction claim executionTimeoutError (s.clock 1) none
        uniform).bind fun outcome =>
          (updateHandoff (setFailed row outcome (s.clock 1) executionTimeoutError.code
            executionTimeoutError.summary)).bind fun _ => .ret none) = (.ok result, s') ∧
        Admission s row result s'.visible) ↔
      s.clock 2 < expiry ∧ ∃ recorded, snapshotPolicy delivery.routeSnapshot = .ok recorded ∧
        (attempt.attemptNumber < recorded.maxAttempts →
          Timedelta.totalSeconds (s.clock 2 - delivery.createdAt) < recorded.maximumElapsedSeconds →
          Schedulable recorded delivery attempt (s.clock 2) none uniform) := by
  have hn : 0 < attempt.attemptNumber := attempt_pos (hchecks _ (Table.mem_of_get howns.attempt_row))
  have hheld : ∀ d a, Held s₁ claim d a (s₁.clock 0) ↔ d = delivery ∧ a = attempt ∧
      s₁.clock 0 = s₁.clock 0 ∧ ∃ expiry ∈ delivery.leaseExpiresAt, s₁.clock 0 < expiry :=
    fun d a => hclaims.held_iff howns hvisible
  rcases exec_failInTransaction s₁ claim executionTimeoutError (s.clock 1) none uniform
    (by rwa [hvisible]) with
    ⟨d, a, recorded, rows, s₂, held, hrecorded, hrows, hexec, htable⟩ | ⟨hnone, e, s₂, hexec⟩
  · rcases (hheld d a).mp held with ⟨rfl, rfl, -, expiry', hsome, hlive⟩
    rw [hexpiry] at hsome
    cases hsome
    rw [hclock] at hlive hrows
    refine iff_of_true ?_ ⟨hlive, recorded, hrecorded,
      (exists_failedRows hn).mp ⟨rows, hrows⟩ rfl⟩
    have hfailed := setFailed_checks (hchecks _ (Table.mem_of_get hrow)) rows.outcome (s.clock 1)
      executionTimeoutError.code executionTimeoutError.summary
    refine ⟨none, s₂.change (.put (.handoff (setFailed row rows.outcome (s.clock 1)
      executionTimeoutError.code executionTimeoutError.summary))), ?_, ?_⟩
    · rw [Session.exec_bind_ok hexec, updateHandoff, updateRow, if_pos hfailed]
      rfl
    · refine .overdue hadmits howns hpolicy hexpiry hdeadline hover (failedRows_outcome hrows) ?_
      rw [Session.visible_put, get_put_row]
      exact if_pos rfl
  · refine iff_of_false ?_ ?_
    · rintro ⟨result, s', hreturns, -⟩
      rw [Session.exec_bind_error hexec] at hreturns
      cases hreturns
    · rintro ⟨hlive, recorded, hrecorded, hschedulable⟩
      have hrows : ∃ rows, failedRows recorded delivery attempt executionTimeoutError (s.clock 2)
          none uniform = .ok rows := (exists_failedRows hn).mpr fun _ => hschedulable
      rcases hrows with ⟨rows, hrows⟩
      refine hnone delivery attempt recorded rows ?_ hrecorded (by rwa [hclock])
      exact (hheld delivery attempt).mpr ⟨rfl, rfl, rfl, expiry, hexpiry, by rwa [hclock]⟩

/-- Admission under the claim of an owned delivery returns for what `Admissible` lists. -/
theorem exec_admitExecution (hvisible : s₁.visible = s.visible)
    (hclock : ∀ n, s₁.clock n = s.clock (n + 1)) (hvalid : Datetime.Valid (s.clock 1))
    (hchecks : ∀ r ∈ s.visible.rows, r.checked = true) (hadmits : row.admits (s.clock 0) = true)
    (hrow : s.visible.get (.handoff row.tenantId row.handoffId) = some (.handoff row))
    (howns : OwnsParent s.visible row delivery attempt)
    (hclaims : row.Claims s.visible delivery attempt claim) (observedAt : Datetime)
    (hpos : 0 < timeout) (hle : timeout ≤ 3600000000) :
    (∃ result s', s₁.exec (admitExecution row claim observedAt timeout uniform) = (.ok result, s') ∧
        Admission s row result s'.visible) ↔ Admissible s row uniform delivery attempt := by
  rcases hclaims with ⟨event, hevent, he, hd, ha, hsnapshot⟩
  have hclaims : row.Claims s.visible delivery attempt claim := ⟨event, hevent, he, hd, ha, hsnapshot⟩
  rcases deliveryFromRow_eq_ok hd with ⟨-, -, hcreated, hlease⟩
  have hstarted : claim.attempt.startedAt = attempt.startedAt := by rw [attemptFromRow_eq_ok ha]
  -- whatever `Admissible` says of a policy, a lease and a deadline is said of these
  have hiff : ∀ {policy expiry deadline}, snapshotPolicy row.routeSnapshot = .ok policy →
      delivery.leaseExpiresAt = some expiry →
      attemptDeadline policy delivery.createdAt attempt.startedAt expiry = .ok deadline →
      (Admissible s row uniform delivery attempt ↔
        (s.clock 1 < deadline → row.executionCount < maxInteger) ∧
        (deadline ≤ s.clock 1 → s.clock 2 < expiry ∧
          ∃ recorded, snapshotPolicy delivery.routeSnapshot = .ok recorded ∧
            (attempt.attemptNumber < recorded.maxAttempts →
              Timedelta.totalSeconds (s.clock 2 - delivery.createdAt) <
                recorded.maximumElapsedSeconds →
              Schedulable recorded delivery attempt (s.clock 2) none uniform))) := by
    intro policy expiry deadline hpolicy hexpiry hdeadline
    constructor
    · rintro ⟨-, policy', expiry', deadline', hpolicy', hexpiry', hdeadline', hrest⟩
      rw [hpolicy] at hpolicy'
      cases hpolicy'
      rw [hexpiry] at hexpiry'
      cases hexpiry'
      rw [hdeadline] at hdeadline'
      cases hdeadline'
      exact hrest
    · intro hrest
      exact ⟨⟨claim, hclaims⟩, policy, expiry, deadline, hpolicy, hexpiry, hdeadline, hrest⟩
  have hraises : ∀ {e s₂} {x : Except PyError (Option ExecutingHandoff) × Session Key Row UUID},
      x = (.error e, s₂) →
        ¬ ∃ result s', x = (.ok result, s') ∧ Admission s row result s'.visible := by
    rintro e s₂ x he ⟨result, s', hok, -⟩
    rw [he] at hok
    cases hok
  unfold admitExecution
  simp only [databaseNow, Prog.bind_eq, Prog.bind, Session.exec, hlease, hclock]
  rcases hexpiry : delivery.leaseExpiresAt with _ | expiry
  · refine iff_of_false (hraises rfl) fun h => ?_
    rcases h.decides with ⟨_, expiry, _, -, hsome, -⟩
    rw [hexpiry] at hsome
    cases hsome
  dsimp only
  rcases hpolicy : snapshotPolicy row.routeSnapshot with e | policy
  · have hnone : ∀ members, row.routeSnapshot.get? "retry" = some (.obj members) →
        ∀ policy, RetryPolicy.fromDict (.obj members) ≠ .ok policy := by
      intro members hget policy hfrom
      rw [snapshotPolicy_eq_ok.mpr ⟨members, hget, hfrom⟩] at hpolicy
      cases hpolicy
    refine iff_of_false ?_ fun h => ?_
    · split
      · rename_i members hget
        rcases hfrom : RetryPolicy.fromDict (.obj members) with e' | policy
        · exact hraises rfl
        · exact absurd hfrom (hnone members (hsnapshot ▸ hget) policy)
      · exact hraises rfl
    · rcases h.decides with ⟨policy, _, _, hsome, -⟩
      rw [hpolicy] at hsome
      cases hsome
  rcases snapshotPolicy_eq_ok.mp hpolicy with ⟨members, hget, hfrom⟩
  rw [hsnapshot, hget]
  simp only [hfrom, Prog.ofExcept_ok, Prog.bind, hcreated, hstarted]
  rcases hdeadline : attemptDeadline policy delivery.createdAt attempt.startedAt expiry with
    e | deadline
  · rw [(remaining_of_deadline hpos hle).1 e hdeadline]
    refine iff_of_false (hraises rfl) fun h => ?_
    rcases h.decides with ⟨policy', expiry', deadline', hpolicy', hexpiry', hsome, -⟩
    rw [hpolicy] at hpolicy'
    cases hpolicy'
    rw [hexpiry] at hexpiry'
    cases hexpiry'
    rw [hdeadline] at hsome
    cases hsome
  have hremaining : ∃ q, remainingAttemptSeconds policy delivery.createdAt attempt.startedAt expiry
      (s.clock (0 + 1)) (some timeout.secondsNumber) = .ok q ∧ (q ≤ 0 ↔ deadline ≤ s.clock (0 + 1)) :=
    (remaining_of_deadline hpos hle).2 deadline hdeadline
  rcases hremaining with ⟨q, hq, hsign⟩
  rw [hq, hiff hpolicy hexpiry hdeadline]
  simp only [Prog.ofExcept_ok, Prog.bind]
  by_cases hover : deadline ≤ s.clock 1
  · -- too late: the failure is recorded under a third reading of the clock
    rw [if_pos (hsign.mpr hover)]
    have hearly : ¬ s.clock 1 < deadline := not_lt.mpr hover
    rw [and_iff_right (fun h => absurd h hearly), forall_prop_of_true hover]
    exact exec_lateAdmission (Eq.trans rfl hvisible) rfl hchecks hadmits hrow howns hclaims hpolicy hexpiry hdeadline
      hover
  · have hearly := not_le.mp hover
    rw [if_neg (fun h => hover (hsign.mp h)), forall_prop_of_true hearly,
      and_iff_left (fun h => absurd h hover)]
    rcases exists_executionDeadline hvalid hq (not_le.mp fun h => hover (hsign.mp h)) with
      ⟨duration, hduration, hadd⟩
    have hstart : s.clock 1 < s.clock 1 + duration := by
      have hpositive := remaining_duration_pos hq (not_le.mp fun h => hover (hsign.mp h)) hpos
        hduration
      exact lt_add_of_pos_right _ hpositive
    have hcount : (executingHandoff row (s₁.supply 0) (s.clock 1)
        (s.clock 1 + duration)).executionCount = row.executionCount + 1 := rfl
    have hfits : row.executionCount + 1 ≤ maxInteger ↔ row.executionCount < maxInteger :=
      Int.add_one_le_iff
    have hrowchecks := executingHandoff_checks (hchecks _ (Table.mem_of_get hrow)) hadmits
      (s₁.supply 0) (s.clock 1) (s.clock 1 + duration)
    simp only [newUuid, Prog.bind, Session.exec, hduration, hadd, orRaise, Prog.ofExcept_ok,
      checkInteger, hcount, hfits, updateHandoff, updateRow]
    by_cases hlt : row.executionCount < maxInteger
    · rw [if_pos hlt, if_pos hrowchecks]
      refine iff_of_true ⟨_, _, rfl, ?_⟩ hlt
      refine .executing hadmits howns hclaims hstart ?_
      rw [Session.visible_put]
      exact congrArg (Table.put · _) hvisible
    · rw [if_neg hlt]
      exact iff_of_false (hraises rfl) hlt

end Admitting

/-! ## The whole call -/

/-- `except LeaseLost: claim = None`. -/
def staleClaim : PyError → Tx (Option ClaimedDelivery)
  | .leaseLost _ => .ret none
  | e => .raise e

/-- `claim_execution` once the claim of the handoff is read. -/
def settleClaim (row : HandoffRow) (lockedAt : Datetime) (timeout : Timedelta)
    (uniform : ℚ → ℚ → PyFloat) : Option ClaimedDelivery → Tx (Option ExecutingHandoff)
  | none =>
      (updateHandoff (setFailed row .dead lockedAt "executor.stale_attempt"
        "Taskiq handoff no longer owns the parent delivery attempt.")).bind fun _ => .ret none
  | some claim => admitExecution row claim lockedAt timeout uniform

/-- The call on a stored handoff, under its lock and after a first reading of the clock. -/
theorem exec_claimExecution (s : Session Key Row UUID) {envelope : HandoffEnvelope}
    {row : HandoffRow} {timeout : Timedelta}
    (hrow : s.visible.get (.handoff envelope.tenantId envelope.handoffId) = some (.handoff row))
    (henvelope : row.envelope = envelope) (now : Datetime)
    (htimeout : decide (0 < timeout ∧ timeout ≤ 3600000000) = true) (uniform : ℚ → ℚ → PyFloat) :
    s.exec (claimExecution envelope now timeout uniform) =
      Session.exec { s with clock := fun n => s.clock (n + 1) }
        (if row.admits (s.clock 0) then
          (((claimForRow row).bind fun c => .ret (some c)).tryCatch staleClaim).bind
            (settleClaim row (s.clock 0) timeout uniform)
        else .ret none) := by
  have hlocked : s.exec (lockedForEnvelope envelope) = (.ok row, s) := by
    simp only [lockedForEnvelope, selectForUpdate, Prog.bind_eq, Prog.bind, Session.exec, hrow,
      Option.bind, Row.handoff?, henvelope, if_true, Prog.pure_eq]
  rw [claimExecution, check, if_pos htimeout, Prog.bind_eq, Prog.bind_eq]
  show s.exec ((lockedForEnvelope envelope).bind _) = _
  rw [Session.exec_bind_ok hlocked]
  rfl

/-- For a handoff that is stored, a call of `claim_execution` returns an execution, or leaves
the handoff, or fails it for a stale or late parent, exactly when a parent that owns its
delivery is `Admissible`: past its deadline, as long as the lease has not expired. -/
theorem claim_execution_settles (s : Session Key Row UUID) {envelope : HandoffEnvelope}
    {row : HandoffRow} (hchecks : ∀ r ∈ s.visible.rows, r.checked = true)
    (hclock : ∀ n, Datetime.Valid (s.clock n))
    (hrow : s.visible.get (.handoff envelope.tenantId envelope.handoffId) = some (.handoff row))
    (henvelope : row.envelope = envelope) (now : Datetime) {timeout : Timedelta}
    (hpos : 0 < timeout) (hle : timeout ≤ 3600000000) (uniform : ℚ → ℚ → PyFloat) :
    (∃ result s', s.exec (claimExecution envelope now timeout uniform) = (.ok result, s') ∧
        Admission s row result s'.visible) ↔
      (row.admits (s.clock 0) = true → ∀ delivery attempt,
        OwnsParent s.visible row delivery attempt → Admissible s row uniform delivery attempt) := by
  have hkey : s.visible.get (.handoff row.tenantId row.handoffId) = some (.handoff row) := by
    rw [← henvelope] at hrow
    exact hrow
  have htimeout : decide (0 < timeout ∧ timeout ≤ 3600000000) = true := decide_eq_true ⟨hpos, hle⟩
  -- the session under the lock of the handoff, after a first reading of the clock
  obtain ⟨s₁, hvisible, hclock₁, hstart⟩ : ∃ s₁ : Session Key Row UUID, s₁.visible = s.visible ∧
      (∀ n, s₁.clock n = s.clock (n + 1)) ∧
      s.exec (claimExecution envelope now timeout uniform) =
        s₁.exec (if row.admits (s.clock 0) then
          (((claimForRow row).bind fun c => .ret (some c)).tryCatch staleClaim).bind
            (settleClaim row (s.clock 0) timeout uniform)
          else .ret none) :=
    ⟨{ s with clock := fun n => s.clock (n + 1) }, rfl, fun _ => rfl,
      exec_claimExecution s hrow henvelope now htimeout uniform⟩
  by_cases hadmits : row.admits (s.clock 0) = true
  swap
  · rw [if_neg hadmits] at hstart
    refine iff_of_true ⟨none, s₁, hstart, ?_⟩ fun h => absurd h hadmits
    rw [hvisible]
    exact .untouched (Bool.eq_false_iff.mpr hadmits)
  rw [if_pos hadmits, Session.exec_bind, Session.exec_tryCatch, Session.exec_bind] at hstart
  rw [forall_prop_of_true hadmits]
  have hparent := exec_claimForRow s₁ row
  rw [hvisible] at hparent
  rcases hparent with ⟨delivery, attempt, claim, howns, hclaims, hexec⟩ |
    ⟨delivery, attempt, e, howns, hnone, hexec⟩ | ⟨hstale, hexec⟩
  · -- the parent owns its delivery
    rw [hexec] at hstart
    simp only [Session.exec, settleClaim] at hstart
    rw [hstart, exec_admitExecution hvisible hclock₁ (hclock 1) hchecks hadmits hkey howns hclaims
      _ hpos hle]
    constructor
    · intro h d a howns'
      rcases howns.unique howns' with ⟨rfl, rfl⟩
      exact h
    · intro h
      exact h delivery attempt howns
  · -- its rows do not decode
    refine iff_of_false ?_ fun h => ?_
    · rintro ⟨result, s', hreturns, hadmission⟩
      rw [hstart] at hreturns
      have hfailed := setFailed_checks (hchecks _ (Table.mem_of_get hkey)) .dead (s.clock 0)
        "executor.stale_attempt" "Taskiq handoff no longer owns the parent delivery attempt."
      rw [hexec] at hreturns
      cases e with
      | leaseLost id =>
          -- the handoff would be failed as that of a stale parent
          simp only [Session.exec, staleClaim, settleClaim, updateHandoff, updateRow,
            if_pos hfailed, Prog.bind] at hreturns
          generalize htable : s'.visible = t at hadmission
          cases hadmission with
          | untouched h =>
              rw [hadmits] at h
              cases h
          | stale h hstale ht => exact hstale delivery attempt howns
          | overdue h howns' hpolicy hexpiry hdeadline hover houtcome ht =>
              rw [← htable, ← (Prod.mk.inj hreturns).2, Session.visible_put, get_put_row] at ht
              have hcode : (some "executor.stale_attempt" : Option Str) =
                  some executionTimeoutError.code :=
                congrArg HandoffRow.failureCode
                  (Row.handoff.inj (Option.some.inj ((if_pos rfl).symm.trans ht)))
              exact absurd hcode (by decide)
          | executing h howns' hclaims hstart ht =>
              rcases howns.unique howns' with ⟨rfl, rfl⟩
              exact hnone _ hclaims
      | _ => cases hreturns
    · rcases (h delivery attempt howns).claims with ⟨claim, hclaims⟩
      exact hnone claim hclaims
  · -- the parent is stale
    rw [hexec] at hstart
    have hfailed := setFailed_checks (hchecks _ (Table.mem_of_get hkey)) .dead (s.clock 0)
      "executor.stale_attempt" "Taskiq handoff no longer owns the parent delivery attempt."
    simp only [Session.exec, staleClaim, settleClaim, updateHandoff, updateRow, if_pos hfailed,
      Prog.bind] at hstart
    refine iff_of_true ⟨none, _, hstart, ?_⟩ fun d a howns => absurd howns (hstale d a)
    refine .stale hadmits hstale ?_
    rw [Session.visible_put]
    exact congrArg (Table.put · _) hvisible

namespace EnqueuedHandoff

def snapshot : Json :=
  .obj [("retry", .obj [
    ("name", .str "p"), ("version", .int 1), ("max_attempts", .int 3),
    ("maximum_elapsed_seconds", .int 60), ("base_delay_seconds", .int 1),
    ("maximum_delay_seconds", .int 10), ("handler_timeout_seconds", .int 2),
    ("lease_duration_seconds", .int 30), ("jitter", .str "full")])]

def event : EventRow where
  eventId := 100
  tenantId := 1
  eventType := "order.created"
  eventVersion := 1
  canonicalVersion := 1
  payloadCanonical := canonicalPrefix ++ [123, 125]
  payloadSha256 := List.replicate 32 0
  principal := ⟨1, "service", [], none, none, 0, none, none, none⟩
  occurredAt := 0
  createdAt := 0
  correlationId := none
  causationId := none
  traceparent := none
  tracestate := none
  dedupeNamespace := none
  dedupeKey := none

/-- A delivery under a lease of 30 seconds. -/
def delivery : DeliveryRow where
  tenantId := 1
  deliveryId := 101
  eventId := 100
  routeKey := "orders"
  routeVersion := 1
  destinationKind := "handler"
  destinationKey := "receiver"
  routeSnapshot := snapshot
  routeSnapshotBytes := [123, 125]
  state := .leased
  attemptsStarted := 1
  nextAttemptAt := 0
  leaseToken := some 7
  leaseExpiresAt := some 30000000
  replayOf := none
  replayActor := none
  replayReason := none
  createdAt := 0
  updatedAt := 0

def attempt : AttemptRow where
  attemptId := 102
  tenantId := 1
  deliveryId := 101
  attemptNumber := 1
  leaseToken := 7
  outcome := .started
  startedAt := 0
  finishedAt := none
  failureCode := none
  failureSummary := none

/-- Its handoff, which waits in the broker. -/
def row : HandoffRow where
  tenantId := 1
  handoffId := 103
  deliveryId := 101
  attemptId := 102
  taskId := "task"
  handoffToken := 104
  state := .enqueued
  routeSnapshot := snapshot
  executionToken := none
  executionDeadline := none
  executionCount := 0
  preparedAt := 0
  enqueuedAt := some 0
  startedAt := none
  finishedAt := none
  updatedAt := 0
  failureCode := none
  failureSummary := none

/-- A worker that takes it out of the broker at a time. -/
def session (now : Datetime) : Session Key Row UUID :=
  Session.on ⟨[.event event, .delivery delivery, .attempt attempt, .handoff row], by decide⟩
    (fun _ => now) fun n => 200 + n

theorem session_checked (now : Datetime) : ∀ r ∈ (session now).visible.rows, r.checked = true := by
  show ∀ r ∈ [Row.event event, .delivery delivery, .attempt attempt, .handoff row],
    r.checked = true
  decide

theorem claims : ∃ claim, row.Claims (session 1000000).visible delivery attempt claim := by
  have hok : (eventFromRow event).isOk = true ∧ (deliveryFromRow delivery).isOk = true ∧
      (attemptFromRow attempt).isOk = true := by decide +kernel
  obtain ⟨eventRecord, he⟩ := exists_eq_ok hok.1
  obtain ⟨deliveryRecord, hd⟩ := exists_eq_ok hok.2.1
  obtain ⟨attemptRecord, ha⟩ := exists_eq_ok hok.2.2
  exact ⟨⟨eventRecord, deliveryRecord, attemptRecord, snapshot⟩, event, rfl, he, hd, ha, rfl⟩

/-- A second after it was enqueued the worker is admitted. -/
theorem claim_execution_settles_early : ∃ result s', (session 1000000).exec
      (claimExecution row.envelope 1000000 60000000 fun _ _ => .nan) = (.ok result, s') ∧
    Admission (session 1000000) row result s'.visible := by
  refine (claim_execution_settles (session 1000000) (session_checked _)
    (fun _ => by show Datetime.Valid 1000000; decide) rfl rfl 1000000 (by decide) (by decide)
    fun _ _ => .nan).mpr fun _ d a howns => ?_
  have howner : OwnsParent (session 1000000).visible row delivery attempt :=
    ⟨rfl, rfl, rfl, rfl, rfl, rfl⟩
  rcases howner.unique howns with ⟨rfl, rfl⟩
  have hdeadline : (snapshotPolicy snapshot >>= fun policy =>
      attemptDeadline policy 0 0 30000000) = .ok 2000000 := by decide +kernel
  rcases bind_eq_ok.mp hdeadline with ⟨policy, hpolicy, hdeadline⟩
  exact ⟨claims, policy, 30000000, 2000000, hpolicy, rfl, hdeadline, fun _ => by decide,
    fun hover => absurd hover (by decide)⟩

/-- When the lease has expired and is not reconciled yet, `LeaseLost` reaches the worker. -/
theorem claim_execution_leaks : ¬ ∀ (s : Session Key Row UUID) (envelope : HandoffEnvelope)
    (row : HandoffRow) (now : Datetime) (timeout : Timedelta) (uniform : ℚ → ℚ → PyFloat),
    (∀ r ∈ s.visible.rows, r.checked = true) → (∀ n, Datetime.Valid (s.clock n)) →
    s.visible.get (.handoff envelope.tenantId envelope.handoffId) = some (.handoff row) →
    row.envelope = envelope → 0 < timeout → timeout ≤ 3600000000 →
    ∃ result s', s.exec (claimExecution envelope now timeout uniform) = (.ok result, s') ∧
      Admission s row result s'.visible := by
  intro h
  obtain ⟨result, s', hreturns, -⟩ := h (session 31000000) row.envelope row 31000000 60000000
    (fun _ _ => .nan) (session_checked _) (fun _ => by show Datetime.Valid 31000000; decide) rfl rfl
    (by decide) (by decide)
  have hlost : ((session 31000000).exec (claimExecution row.envelope 31000000 60000000
      fun _ _ => .nan)).1 = .error (.leaseLost 101) := by decide +kernel
  rw [hreturns] at hlost
  cases hlost

end EnqueuedHandoff

end FastapiEffects
