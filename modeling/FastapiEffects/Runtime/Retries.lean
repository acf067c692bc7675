import FastapiEffects.Runtime.Replays

/-! # Retry scheduling

When `fail` leaves a delivery in `retry_wait` and for how long, and what every reachable
database holds of the deliveries that wait for a retry.
-/

namespace FastapiEffects

open Python ReadCommitted

/-! ## One failure -/

/-- The delay of a retry: the jittered one or a longer one that was asked for, at most the
maximum. -/
def RetryPolicy.scheduledDelay (policy : RetryPolicy) (attemptNumber : ℤ)
    (retryAfter : Option Timedelta) (uniform : ℚ → ℚ → PyFloat) : Except PyError Timedelta := do
  let jittered ← policy.retryDelay attemptNumber uniform
  let delay ← chosenDelay jittered retryAfter
  let maximum ← orRaise (Timedelta.ofSeconds? policy.maximumDelaySeconds.value) .overflow
  return min delay maximum

/-- What a failure at `finishedAt` makes of a delivery and its attempt. -/
structure Rescheduled (policy : RetryPolicy) (delivery : DeliveryRow) (attempt : AttemptRow)
    (error : DeliveryError) (finishedAt : Datetime) (retryAfter : Option Timedelta)
    (uniform : ℚ → ℚ → PyFloat) (delivery' : DeliveryRow) (attempt' : AttemptRow) : Prop where
  waits : delivery'.state = .retryWait ↔
    error.retryable = true ∧ attempt.attemptNumber < policy.maxAttempts ∧
      Timedelta.totalSeconds (finishedAt - delivery.createdAt) < policy.maximumElapsedSeconds ∧
      ∃ delay deadline,
        policy.scheduledDelay attempt.attemptNumber retryAfter uniform = .ok delay ∧
        deliveryDeadline policy delivery.createdAt = .ok deadline ∧ finishedAt + delay < deadline
  scheduled : delivery'.state = .retryWait → ∃ delay maximum,
    policy.scheduledDelay attempt.attemptNumber retryAfter uniform = .ok delay ∧
      Timedelta.ofSeconds? policy.maximumDelaySeconds.value = some maximum ∧
      delivery'.nextAttemptAt = finishedAt + delay ∧
      finishedAt ≤ delivery'.nextAttemptAt ∧ delivery'.nextAttemptAt ≤ finishedAt + maximum ∧
      ∀ after ∈ retryAfter, min after maximum ≤ delay
  dead : delivery'.state ≠ .retryWait → delivery'.state = .dead
  outcome : attempt'.outcome = .retryable ↔ error.retryable = true
  finished : attempt'.finishedAt = some finishedAt

theorem finiteNumber_eq_ok {name : String} {value : Number} {x : Binary64}
    (h : finiteNumber name value = .ok x) : value.toFloat? = some (.finite x) := by
  unfold finiteNumber at h
  split at h
  · rename_i y heq
    rw [heq, Except.ok.inj h]
  · cases h
  · cases h

/-- A number whose float is not negative is not negative. -/
theorem Number.value_nonneg {value : Number} {x : Binary64} (h : value.toFloat? = some (.finite x))
    (hx : 0 ≤ x.toRat) : 0 ≤ value.value := by
  cases value with
  | float f =>
      cases Option.some.inj h
      exact hx
  | int n =>
      by_contra hneg
      have hlt : (n : ℚ) < 0 := not_le.mp hneg
      have hle : n ≤ -1 := by
        have : n < 0 := by exact_mod_cast hlt
        omega
      have hone : (1 : ℚ) ≤ |(n : ℚ)| := by
        rw [abs_of_neg hlt]
        have : (n : ℚ) ≤ -1 := by exact_mod_cast hle
        linarith
      have hround : Binary64.round? true |(n : ℚ)| = some x := by
        change (Binary64.round? (decide ((n : ℚ) < 0)) |(n : ℚ)|).map PyFloat.finite = _ at h
        rw [decide_eq_true hlt] at h
        obtain ⟨y, hy, hxy⟩ := Option.map_eq_some_iff.mp h
        rw [hy, PyFloat.finite.inj hxy]
      have hnormal : (2 : ℚ) ^ (-1022 : ℤ) ≤ |(n : ℚ)| :=
        (zpow_le_one_of_nonpos₀ (by norm_num) (by norm_num)).trans hone
      have hhalf := Binary64.half_lt_of_round? hround hnormal
      rw [Binary64.toRat, (Binary64.round?_eq_some hround).1, if_pos rfl] at hx
      linarith

/-- The maximum delay of a policy is not negative. -/
theorem RetryPolicy.maximumDelay_nonneg (policy : RetryPolicy) :
    0 ≤ policy.maximumDelaySeconds.value := by
  have hvalid := policy.valid
  simp only [RetryPolicyArgs.postInit, bind_eq_ok, check_eq_ok, decide_eq_true_eq] at hvalid
  obtain ⟨-, -, -, -, -, -, base, -, maximum, hmaximum, -, -, -, -, -, hbounds, -⟩ := hvalid
  exact Number.value_nonneg (finiteNumber_eq_ok hmaximum) (hbounds.1.trans hbounds.2)

section Failing

variable {policy : RetryPolicy} {delivery : DeliveryRow} {attempt : AttemptRow}
  {error : DeliveryError} {finishedAt : Datetime} {retryAfter : Option Timedelta}
  {uniform : ℚ → ℚ → PyFloat}

/-- What a delay that is scheduled lies between. -/
theorem RetryPolicy.scheduledDelay_bounds {n : ℤ} {delay : Timedelta}
    (h : policy.scheduledDelay n retryAfter uniform = .ok delay) :
    ∃ maximum, Timedelta.ofSeconds? policy.maximumDelaySeconds.value = some maximum ∧ 0 ≤ delay ∧
      delay ≤ maximum ∧ ∀ after ∈ retryAfter, min after maximum ≤ delay := by
  simp only [RetryPolicy.scheduledDelay, bind_eq_ok, orRaise_eq_ok, chosenDelay_eq_ok] at h
  obtain ⟨drawn, hdrawn, _, ⟨hafter, rfl⟩, maximum, hmaximum, h⟩ := h
  cases Except.ok.inj h
  have hdrawn0 : 0 ≤ drawn := by
    unfold RetryPolicy.retryDelay at hdrawn
    simp only [bind_eq_ok] at hdrawn
    obtain ⟨-, -, -, -, hdrawn⟩ := hdrawn
    split at hdrawn
    · simp only [bind_eq_ok, check_eq_ok, decide_eq_true_eq, orRaise_eq_ok] at hdrawn
      obtain ⟨-, ⟨h0, -⟩, hseconds⟩ := hdrawn
      exact Timedelta.ofSeconds?_nonneg hseconds h0
    · cases hdrawn
  have hmaximum0 : 0 ≤ maximum := Timedelta.ofSeconds?_nonneg hmaximum policy.maximumDelay_nonneg
  refine ⟨maximum, hmaximum, le_min ?_ hmaximum0, min_le_right _ _, ?_⟩
  · cases retryAfter with
    | none => exact hdrawn0
    | some after => exact hdrawn0.trans (le_max_left _ _)
  · intro after hmem
    cases hmem
    exact min_le_min_right _ (le_max_right _ _)

/-- The times of a retry are its delay after the end of the attempt, and the deadline. -/
theorem retryTimes_eq_ok {times : Datetime × Datetime}
    (h : retryTimes policy delivery attempt finishedAt retryAfter uniform = .ok times) :
    ∃ delay, policy.scheduledDelay attempt.attemptNumber retryAfter uniform = .ok delay ∧
      times.1 = finishedAt + delay ∧ deliveryDeadline policy delivery.createdAt = .ok times.2 := by
  simp only [retryTimes, bind_eq_ok, orRaise_eq_ok, Datetime.add?_eq_some_iff] at h
  obtain ⟨jittered, hjittered, delay, hdelay, maximum, hmaximum, _, ⟨-, rfl⟩, deadline, hdeadline,
    h⟩ := h
  cases Except.ok.inj h
  refine ⟨min delay maximum, ?_, rfl, hdeadline⟩
  simp only [RetryPolicy.scheduledDelay, hjittered, hdelay, hmaximum, orRaise, bind, Except.bind,
    pure, Except.pure]

/-- What `permits_retry` decides. -/
theorem retryPermitted_eq_ok {b : Bool}
    (h : retryPermitted policy delivery attempt error finishedAt = .ok b) :
    b = true ↔ error.retryable = true ∧ attempt.attemptNumber < policy.maxAttempts ∧
      Timedelta.totalSeconds (finishedAt - delivery.createdAt) < policy.maximumElapsedSeconds := by
  unfold retryPermitted at h
  split_ifs at h with hretryable
  · simp only [RetryPolicy.permitsRetry, bind_eq_ok] at h
    obtain ⟨-, -, h⟩ := h
    rw [← Except.ok.inj h, decide_eq_true_iff]
    exact (and_iff_right hretryable).symm
  · rw [← Except.ok.inj h]
    constructor
    · intro hfalse
      cases hfalse
    · intro hall
      exact absurd hall.1 hretryable

/-- The rows of a failure are scheduled as the policy says. -/
theorem failedRows_rescheduled {rows : FailedRows}
    (h : failedRows policy delivery attempt error finishedAt retryAfter uniform = .ok rows) :
    Rescheduled policy delivery attempt error finishedAt retryAfter uniform
        (clearLease rows.delivery finishedAt) rows.attempt ∧
      rows.outcome = (clearLease rows.delivery finishedAt).state := by
  rcases hb : retryPermitted policy delivery attempt error finishedAt with e | b
  · unfold failedRows at h
    rw [hb] at h
    cases h
  have hpermitted := retryPermitted_eq_ok hb
  rcases b with _ | _
  · -- no retry is permitted
    unfold failedRows at h
    rw [hb] at h
    cases Except.ok.inj h
    refine ⟨⟨?_, ?_, fun _ => rfl, ?_, rfl⟩, rfl⟩
    · constructor
      · intro hwait
        cases hwait
      · rintro ⟨hretryable, hnumber, helapsed, -⟩
        cases hpermitted.mpr ⟨hretryable, hnumber, helapsed⟩
    · intro hwait
      cases hwait
    · rcases error.retryable with _ | _ <;> simp [failedAttempt]
  obtain ⟨hretryable, hnumber, helapsed⟩ := hpermitted.mp rfl
  rw [failedRows_permitted hb] at h
  rcases htimes : retryTimes policy delivery attempt finishedAt retryAfter uniform with e | times
  · rw [htimes] at h
    cases h
  obtain ⟨delay, hdelay, hat, hdeadline⟩ := retryTimes_eq_ok htimes
  rw [htimes] at h
  have hrows := Except.ok.inj h
  dsimp only at hrows
  split_ifs at hrows with hlt
  · -- the retry comes before the deadline
    subst hrows
    refine ⟨⟨?_, ?_, fun hne => absurd rfl hne, ?_, rfl⟩, rfl⟩
    · refine iff_of_true rfl ⟨hretryable, hnumber, helapsed, delay, times.2, hdelay, hdeadline, ?_⟩
      rw [← hat]
      exact hlt
    · intro _
      obtain ⟨maximum, hmaximum, h0, hle, hafter⟩ := RetryPolicy.scheduledDelay_bounds hdelay
      refine ⟨delay, maximum, hdelay, hmaximum, hat, ?_, ?_, hafter⟩
      · show finishedAt ≤ times.1
        rw [hat]
        exact le_add_of_nonneg_right h0
      · show times.1 ≤ finishedAt + maximum
        rw [hat]
        exact Int.add_le_add_left hle _
    · exact iff_of_true rfl hretryable
  · -- the deadline comes first
    subst hrows
    refine ⟨⟨?_, ?_, fun _ => rfl, ?_, rfl⟩, rfl⟩
    · constructor
      · intro hwait
        cases hwait
      · rintro ⟨-, -, -, delay', deadline', hdelay', hdeadline', hlt'⟩
        rw [hdelay] at hdelay'
        cases hdelay'
        rw [hdeadline] at hdeadline'
        cases hdeadline'
        rw [← hat] at hlt'
        exact absurd hlt' hlt
    · intro hwait
      cases hwait
    · exact iff_of_true rfl hretryable

end Failing

/-! ## Failures of a run -/

section Recorded

variable [Platform]

/-- What a `fail` that returns has done to the rows of `db`: it found the rows of a live lease
under their locks, and wrote what the policy of the delivery makes of them. -/
structure FailDone (db : Db) (claim : ClaimedDelivery) (error : DeliveryError)
    (retryAfter : Option Timedelta) (uniform : ℚ → ℚ → PyFloat) (outcome : Outcome) (c : RuntimeCtx)
    (delivery : DeliveryRow) (attempt : AttemptRow) (finishedAt : Datetime) (policy : RetryPolicy)
    (rows : FailedRows) : Prop where
  delivery_row : deliveryAt db claim.delivery.tenantId claim.delivery.deliveryId = some delivery
  attempt_row : attemptAt db claim.attempt.tenantId claim.attempt.attemptId = some attempt
  leased : delivery.state = .leased
  token : delivery.leaseToken = some claim.leaseToken
  attempt_token : attempt.leaseToken = claim.leaseToken
  started : attempt.outcome = .started
  live : ∃ expiry ∈ delivery.leaseExpiresAt, finishedAt < expiry
  time : c.clocks.head? = some finishedAt
  snapshot : snapshotPolicy delivery.routeSnapshot = .ok policy
  failed : failedRows policy delivery attempt error finishedAt retryAfter uniform = .ok rows
  writes : c.writes = [.put (.attempt rows.attempt),
    .put (.delivery (clearLease rows.delivery finishedAt))]
  returned : outcome = .state rows.outcome

section Foresees

variable {V : RuntimeStore → Stmt Key Row → RuntimeCtx → Prop} {db : Db}

/-- A lock before anything is written: the row that is found stays as it is. -/
theorem foresees_selectForUpdate {α : Type} {kind : Row → Option α} {x : Key} {c : RuntimeCtx}
    {Q : Option α → RuntimeCtx → Prop} {E : PyError → RuntimeCtx → Prop} (hwrites : c.writes = [])
    (hV : ∀ s x c, V s (.lock x) c → x ∈ c.held → db.get x = s.db.get x)
    (hQ : ∀ (row : Option Row) (c' : RuntimeCtx), c'.writes = [] → c'.clocks = c.clocks →
      (∀ r, row = some r → db.get x = some r) → Q (row.bind kind) c') :
    Foresees V Q E (selectForUpdate kind x) c := by
  intro s hv
  have hvisible : c.visible s.db = s.db := by simp [Ctx.visible, hwrites]
  rw [hvisible] at hv ⊢
  refine hQ _ _ ?_ ?_ fun r hr => ?_
  · cases s.db.get x <;> exact hwrites
  · cases s.db.get x <;> rfl
  · rw [hr] at hv
    rw [hV s x _ hv List.mem_cons_self, hr]

theorem foresees_updateRow {checks : Bool} {r : Row} {c : RuntimeCtx}
    {Q : Unit → RuntimeCtx → Prop} (hQ : Q () (c.change (.put r))) :
    Foresees V Q (fun _ _ => True) (updateRow checks r) c := by
  unfold updateRow
  split_ifs
  · exact fun _ _ => hQ
  · trivial

/-- The locks of an attempt that still owns its lease, before anything is written. -/
theorem foresees_lockedActiveRows {c : RuntimeCtx} (claim : ClaimedDelivery) (now : Datetime)
    (hV : ∀ s x c, V s (.lock x) c → x ∈ c.held → db.get x = s.db.get x) (hwrites : c.writes = [])
    (hclocks : c.clocks = []) :
    Foresees V (fun r c =>
        deliveryAt db claim.delivery.tenantId claim.delivery.deliveryId = some r.1 ∧
        attemptAt db claim.attempt.tenantId claim.attempt.attemptId = some r.2.1 ∧
        r.1.state = .leased ∧ r.1.leaseToken = some claim.leaseToken ∧
        r.2.1.leaseToken = claim.leaseToken ∧ r.2.1.outcome = .started ∧
        (∃ expiry ∈ r.1.leaseExpiresAt, r.2.2 < expiry) ∧ c.clocks.head? = some r.2.2 ∧ c.writes = [])
      (fun _ _ => True) (lockedActiveRows claim now) c := by
  simp only [lockedActiveRows, databaseNow, Prog.bind_eq, foresees_bind]
  refine foresees_selectForUpdate hwrites hV fun row c₁ hwrites₁ hclocks₁ hrow => ?_
  rcases hdelivery : row.bind Row.delivery? with _ | delivery
  · trivial
  have hdeliveryAt := deliveryAt_eq_some.mpr (hrow _ (Row.bind_delivery?.mp hdelivery))
  dsimp only
  rcases hexpiry : delivery.leaseExpiresAt with _ | expiry
  · trivial
  dsimp only
  split_ifs with hlost
  · trivial
  simp only [not_or, not_not] at hlost
  rw [foresees_bind]
  refine foresees_selectForUpdate hwrites₁ hV fun row c₂ hwrites₂ hclocks₂ hrow => ?_
  rcases hattempt : row.bind Row.attempt? with _ | attempt
  · trivial
  have hattemptAt := attemptAt_eq_some.mpr (hrow _ (Row.bind_attempt?.mp hattempt))
  dsimp only
  split_ifs with hover
  · trivial
  simp only [not_or, not_not] at hover
  intro s _
  dsimp only [Prog.bind]
  split_ifs with hexpired
  · trivial
  · refine ⟨hdeliveryAt, hattemptAt, hlost.1, hlost.2, hover.1, hover.2,
      ⟨expiry, hexpiry, not_le.mp hexpired⟩, ?_, hwrites₂⟩
    simp [Ctx.tell, hclocks₂, hclocks₁, hclocks]

theorem foresees_fail (seen : List Row) (claim : ClaimedDelivery) (error : DeliveryError)
    (now : Datetime) (retryAfter : Option Timedelta) (uniform : ℚ → ℚ → PyFloat)
    (hV : ∀ s x c, V s (.lock x) c → x ∈ c.held → db.get x = s.db.get x) :
    Foresees V (fun outcome c => ∃ delivery attempt finishedAt policy rows,
        FailDone db claim error retryAfter uniform outcome c delivery attempt finishedAt policy rows)
      (fun _ _ => True) (Op.fail claim error now retryAfter uniform).prog (Ctx.init seen) := by
  simp only [Op.prog, fail, failInTransaction, Prog.bind_eq, foresees_bind]
  refine foresees_mono (fun r c hactive => ?_) (fun _ _ h => h)
    (foresees_lockedActiveRows claim now hV rfl rfl)
  obtain ⟨hdelivery, hattempt, hleased, htoken, htoken', hstarted, hlive, htime, hwrites⟩ := hactive
  refine foresees_ofExcept (fun policy hpolicy => ?_) (fun _ _ => trivial)
  refine foresees_ofExcept (fun rows hrows => ?_) (fun _ _ => trivial)
  refine foresees_updateRow (foresees_updateRow ?_)
  intro s _
  exact ⟨r.1, r.2.1, r.2.2, policy, rows, hdelivery, hattempt, hleased, htoken, htoken', hstarted,
    hlive, by simp [Ctx.tell, Ctx.change, htime], hpolicy, hrows, by simp [Ctx.tell, Ctx.change, hwrites],
    rfl⟩

end Foresees

/-- A `fail` that returned: the rows it found under its locks, and what it made of them. -/
structure FailRecorded (w w' : RuntimeWorld) (e : Entry Key Row PyError Op Outcome)
    (claim : ClaimedDelivery) (error : DeliveryError) (retryAfter : Option Timedelta)
    (uniform : ℚ → ℚ → PyFloat) (outcome : Outcome) (delivery delivery' : DeliveryRow)
    (attempt attempt' : AttemptRow) (finishedAt : Datetime) (policy : RetryPolicy) : Prop where
  delivery_row : deliveryAt w.store.db claim.delivery.tenantId claim.delivery.deliveryId =
    some delivery
  attempt_row : attemptAt w.store.db claim.attempt.tenantId claim.attempt.attemptId = some attempt
  leased : delivery.state = .leased ∧ delivery.leaseToken = some claim.leaseToken ∧
    attempt.leaseToken = claim.leaseToken ∧ attempt.outcome = .started
  live : ∃ expiry ∈ delivery.leaseExpiresAt, finishedAt < expiry
  time : e.clocks.head? = some finishedAt
  snapshot : snapshotPolicy delivery.routeSnapshot = .ok policy
  delivery_after : deliveryAt w'.store.db claim.delivery.tenantId claim.delivery.deliveryId =
    some delivery'
  attempt_after : attemptAt w'.store.db claim.attempt.tenantId claim.attempt.attemptId =
    some attempt'
  rescheduled : Rescheduled policy delivery attempt error finishedAt retryAfter uniform delivery'
    attempt'
  returned : outcome = .state delivery'.state

section Runs

variable {now : Datetime} {w w' : RuntimeWorld}

/-- A `fail` that returns has recorded a failure of the lease it was given. -/
theorem fail_recorded (hreach : Reachable runtime (RuntimeWorld.start now) w)
    (hstep : Step runtime w w') {e : Entry Key Row PyError Op Outcome}
    (hlog : w'.store.log = w.store.log ++ [e]) {claim : ClaimedDelivery} {error : DeliveryError}
    {τ : Datetime} {retryAfter : Option Timedelta} {uniform : ℚ → ℚ → PyFloat} {outcome : Outcome}
    (hop : e.op = .fail claim error τ retryAfter uniform) (hresult : e.result = .ok outcome) :
    ∃ delivery delivery' attempt attempt' finishedAt policy, FailRecorded w w' e claim error
      retryAfter uniform outcome delivery delivery' attempt attempt' finishedAt policy := by
  rcases hstep.ends_cases with ⟨-, hsame⟩ | ⟨t, x, hx, hend, ⟨a, hp, hstore⟩ | ⟨err, hp, hstore⟩⟩
  · rw [hlog] at hsame
    simp at hsame
  · have he : e = x.entry (.ok a) := by
      simpa [hstore, Store.commit] using hlog.symm
    subst he
    have ha : a = outcome := Except.ok.inj hresult
    have hxop : x.op = .fail claim error τ retryAfter uniform := hop
    rw [← Mode.free_protocol] at hreach
    have hdone := WorldInv.foreseen (D := Mode.free.discipline) Mode.free.sound
      (worldInv_start Mode.free now) (by simp [RuntimeWorld.start, World.txn]) hreach hx hp
      (Q := fun outcome c => ∃ delivery attempt finishedAt policy rows, FailDone w.store.db claim
        error retryAfter uniform outcome c delivery attempt finishedAt policy rows)
      (E := fun _ _ => True) (by
        rw [hxop]
        exact foresees_fail _ claim error τ retryAfter uniform fun s y c hv hy => hv.held y hy)
    obtain ⟨delivery, attempt, finishedAt, policy, rows, done⟩ := hdone
    obtain ⟨hrescheduled, hstate⟩ := failedRows_rescheduled done.failed
    obtain ⟨state, outcome', next, code, summary, hattempt, hdelivery, -⟩ :=
      failedRows_eq_ok done.failed
    have hdkey := deliveryAt_key done.delivery_row
    have hakey := attemptAt_key done.attempt_row
    have hdb : w'.store.db = (w.store.db.put (.attempt rows.attempt)).put
        (.delivery (clearLease rows.delivery finishedAt)) := by
      rw [hstore, Store.commit, done.writes]
      rfl
    refine ⟨delivery, clearLease rows.delivery finishedAt, attempt, rows.attempt, finishedAt, policy,
      done.delivery_row, done.attempt_row,
      ⟨done.leased, done.token, done.attempt_token, done.started⟩, done.live, done.time,
      done.snapshot, ?_, ?_, hrescheduled, ?_⟩
    · rw [deliveryAt_eq_some, hdb, get_put_row, hdelivery]
      refine if_pos ?_
      rw [← hdkey.1, ← hdkey.2]
      rfl
    · rw [attemptAt_eq_some, hdb, get_put_row, if_neg (by simp [Row.key]), get_put_row, hattempt]
      refine if_pos ?_
      rw [← hakey.1, ← hakey.2]
      rfl
    · rw [← ha, done.returned, hstate]
  · have he : e = x.entry (.error err) := by
      simpa [hstore, Store.commit] using hlog.symm
    rw [he] at hresult
    cases hresult

/-- A delivery that waits for a retry has attempts left. -/
theorem attempts_left (hreach : Reachable Mode.free.protocol (RuntimeWorld.start now) w) :
    ∀ t d r, deliveryAt w.store.db t d = some r → r.state = .retryWait →
      ∀ p, snapshotPolicy r.routeSnapshot = .ok p → r.attemptsStarted < p.maxAttempts := by
  refine Mode.reachable_induction (m := Mode.free)
    (P := fun s => ∀ t d r, deliveryAt s.db t d = some r → r.state = .retryWait →
      ∀ p, snapshotPolicy r.routeSnapshot = .ok p → r.attemptsStarted < p.maxAttempts) ?_ ?_ ?_ hreach
  · intro t d r hr
    simp [RuntimeWorld.start, deliveryAt] at hr
  · intro s t _ h
    exact h
  · intro s e db' _ _ hcommits h t d r' hr' hwait p hp
    obtain ⟨τ, -, -, hstep⟩ := hcommits.cells t d
    have hold := h t d
    change ∀ r, (cellAt s.db t d).delivery = some r → _ at hold
    change (cellAt db' t d).delivery = some r' at hr'
    generalize cellAt s.db t d = cell at hstep hold
    generalize cellAt db' t d = cell' at hstep hr'
    cases hstep with
    | same => exact hold r' hr' hwait p hp
    | create r as hnone hcreated hnew =>
        cases hr'
        rw [hcreated.pending] at hwait
        cases hwait
    | expire r as hfence hstate htime =>
        cases hr'
        cases hwait
    | lease r as id token expiry hfence htime hid hfresh htoken =>
        cases hr'
        cases hwait
    | close r as a state outcome next code summary ha hcloses =>
        cases hr'
        exact hcloses.retry hwait p hp

/-- A delivery that waits for a retry waits for a time before its deadline. -/
theorem waits_before_deadline (hreach : Reachable runtime (RuntimeWorld.start now) w)
    {t d : UUID} {r : DeliveryRow} (hr : deliveryAt w.store.db t d = some r) : r.Timely := by
  have hrows := (Reachable.written (R := Row.Timely) (P := runtime) timely_prog
    (by simp [RuntimeWorld.start, Table.empty]) (by simp [RuntimeWorld.start, World.txn]) hreach).1
  exact hrows _ (Table.mem_of_get (deliveryAt_eq_some.mp hr))

/-- Every `fail` of a run that returns schedules a retry exactly when one is permitted and comes
before the deadline, within the bounds of its delay, and else the delivery is dead. No reachable
database holds a delivery that waits for a retry with no attempts left or until its deadline. -/
theorem retry_scheduling (hreach : Reachable runtime (RuntimeWorld.start now) w) :
    (∀ w' e claim error τ retryAfter uniform outcome, Step runtime w w' →
      w'.store.log = w.store.log ++ [e] → e.op = .fail claim error τ retryAfter uniform →
      e.result = .ok outcome →
      ∃ delivery delivery' attempt attempt' finishedAt policy, FailRecorded w w' e claim error
        retryAfter uniform outcome delivery delivery' attempt attempt' finishedAt policy) ∧
    ∀ t d r, deliveryAt w.store.db t d = some r → r.state = .retryWait →
      ∃ policy deadline, snapshotPolicy r.routeSnapshot = .ok policy ∧
        deliveryDeadline policy r.createdAt = .ok deadline ∧
        r.attemptsStarted < policy.maxAttempts ∧ r.nextAttemptAt < deadline := by
  constructor
  · intro w' e claim error τ retryAfter uniform outcome hstep hlog hop hresult
    exact fail_recorded hreach hstep hlog hop hresult
  · intro t d r hr hwait
    obtain ⟨policy, deadline, hpolicy, hdeadline, hlt⟩ := waits_before_deadline hreach hr hwait
    rw [← Mode.free_protocol] at hreach
    exact ⟨policy, deadline, hpolicy, hdeadline, attempts_left hreach t d r hr hwait policy hpolicy,
      hlt⟩

end Runs

end Recorded

namespace Scenario

/-- The claim a world handed out last. -/
def lastClaim (w : RuntimeWorld) : Option ClaimedDelivery :=
  w.store.log.getLast?.bind fun e => (claimsOf e).head?

/-- Delivery 101 is leased under token 200. -/
def leased : List (Act UUID Op) := leasing ++ [.step 1]

def transientError : DeliveryError :=
  .internal "handler.failed" "The handler raised." (by decide)

/-- A second later its worker reports a retryable error and has only to commit. -/
def failing (claim : ClaimedDelivery) : List (Act UUID Op) :=
  [.tick 1000000, .start (.fail claim transientError 1000000 none RetryPolicy.drawZero), .step 2,
    .step 2, .step 2, .step 2, .step 2, .step 2]

/-- Whether an entry is that of a failure that leaves a retry. -/
def retried (e : Entry Key Row PyError Op Outcome) : Bool :=
  match e.op, e.result with
  | .fail _ _ _ none _, .ok (.state .retryWait) => true
  | _, _ => false

end Scenario

open Scenario in
/-- Delivery 101 fails once and waits for its retry. -/
theorem retry_scheduling_failing : ∃ (w w' : RuntimeWorld) (e : Entry Key Row PyError Op Outcome)
    (claim : ClaimedDelivery) (error : DeliveryError) (uniform : ℚ → ℚ → PyFloat)
    (delivery delivery' : DeliveryRow) (attempt attempt' : AttemptRow) (finishedAt : Datetime)
    (policy : RetryPolicy), delivery'.state = .retryWait ∧ FailRecorded w w' e claim error none
      uniform (.state .retryWait) delivery delivery' attempt attempt' finishedAt policy := by
  have hrun : ((RuntimeWorld.start 0).run runtime leased).any (fun w₀ =>
      (lastClaim w₀).any fun claim => (w₀.run runtime (failing claim)).any fun w =>
        (w.act runtime (.step 2)).any fun w' =>
          w'.store.log.length = w.store.log.length + 1 ∧ w'.store.log.getLast?.any retried)
      = true := by
    decide +kernel
  simp only [Option.any_eq_true, decide_eq_true_eq] at hrun
  obtain ⟨w₀, hw₀, claim, -, w, hw, w', hw', hlength, e, hlast, hretried⟩ := hrun
  have hstep := World.step_of_act hw'
  have hlog := hstep.log_append hlength hlast
  unfold retried at hretried
  split at hretried
  · rename_i claim' error τ uniform hop hresult
    obtain ⟨hfail, -⟩ := retry_scheduling ((World.run_reachable hw₀).trans (World.run_reachable hw))
    obtain ⟨delivery, delivery', attempt, attempt', finishedAt, policy, recorded⟩ :=
      hfail w' e claim' error τ none uniform _ hstep hlog hop hresult
    have hstate : DeliveryState.retryWait = delivery'.state := Outcome.state.inj recorded.returned
    exact ⟨w, w', e, claim', error, uniform, delivery, delivery', attempt, attempt', finishedAt,
      policy, hstate.symm, recorded⟩
  · cases hretried

end FastapiEffects
