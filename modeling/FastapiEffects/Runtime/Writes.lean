import FastapiEffects.Postgres.InPlace
import FastapiEffects.ReadCommitted.Written
import FastapiEffects.Runtime

/-! # What the operations write

Every operation but `publish` and `replay` only updates deliveries, and an update leaves a
delivery in `retry_wait` only for a time before its deadline: `fail_in_transaction` and
`reconcile_expired` each compare with the deadline of the row's own policy.
-/

namespace FastapiEffects

open Python ReadCommitted

/-- A delivery that waits for a retry waits for a time before its deadline. -/
def DeliveryRow.Timely (r : DeliveryRow) : Prop :=
  r.state = .retryWait → ∃ policy deadline, snapshotPolicy r.routeSnapshot = .ok policy ∧
    deliveryDeadline policy r.createdAt = .ok deadline ∧ r.nextAttemptAt < deadline

/-- The same of a row of any table. -/
def Row.Timely : Row → Prop
  | .delivery r => r.Timely
  | _ => True

theorem DeliveryRow.timely_of_ne {r : DeliveryRow} (h : r.state ≠ .retryWait) : r.Timely :=
  fun hwait => absurd hwait h

/-- A row of another table is timely. -/
theorem Row.timely_of_delivery? {r : Row} (h : r.delivery? = none) : r.Timely := by
  cases r with
  | delivery r => cases h
  | event r => trivial
  | attempt r => trivial
  | handoff r => trivial

/-- A failure schedules a retry before the deadline or not at all. -/
theorem failedRows_timely {policy : RetryPolicy} {delivery : DeliveryRow} {attempt : AttemptRow}
    {error : DeliveryError} {finishedAt : Datetime} {retryAfter : Option Timedelta}
    {uniform : ℚ → ℚ → PyFloat} {rows : FailedRows}
    (hpolicy : snapshotPolicy delivery.routeSnapshot = .ok policy)
    (h : failedRows policy delivery attempt error finishedAt retryAfter uniform = .ok rows) :
    (clearLease rows.delivery finishedAt).Timely := by
  rcases hb : retryPermitted policy delivery attempt error finishedAt with e | b
  · unfold failedRows at h
    rw [hb] at h
    cases h
  rcases b with _ | _
  · unfold failedRows at h
    rw [hb] at h
    rw [← Except.ok.inj h]
    exact DeliveryRow.timely_of_ne (by simp [clearLease])
  · rw [failedRows_permitted hb] at h
    rcases htimes : retryTimes policy delivery attempt finishedAt retryAfter uniform with e | times
    · rw [htimes] at h
      cases h
    rw [htimes] at h
    rw [← Except.ok.inj h]
    dsimp only
    split_ifs with hlt
    · intro _
      have hdeadline : deliveryDeadline policy delivery.createdAt = .ok times.2 := by
        simp only [retryTimes, bind_eq_ok] at htimes
        obtain ⟨_, -, _, -, _, -, _, -, deadline, hdeadline, htimes⟩ := htimes
        rw [hdeadline, ← Except.ok.inj htimes]
      exact ⟨policy, times.2, hpolicy, hdeadline, hlt⟩
    · exact DeliveryRow.timely_of_ne (by simp [clearLease])

/-- So does the end of an expired lease. -/
theorem reconciledDelivery_timely {policy : RetryPolicy} {delivery : DeliveryRow}
    {effectiveNow deadline : Datetime} (hpolicy : snapshotPolicy delivery.routeSnapshot = .ok policy)
    (hdeadline : deliveryDeadline policy delivery.createdAt = .ok deadline) :
    (reconciledDelivery delivery policy effectiveNow (deadline ≤ effectiveNow)).Timely := by
  by_cases hwait : delivery.attemptsStarted < policy.maxAttempts ∧
      ¬ (decide (deadline ≤ effectiveNow) = true)
  · intro _
    refine ⟨policy, deadline, hpolicy, hdeadline, ?_⟩
    exact not_le.mp fun hle => hwait.2 (decide_eq_true hle)
  · refine DeliveryRow.timely_of_ne ?_
    simp only [reconciledDelivery, clearLease, if_neg hwait]
    decide

/-! ## Programs -/

/-- A program that inserts no delivery and updates deliveries to timely ones, whatever it
meets. -/
def Steady {α : Type} (p : Tx α) : Prop :=
  p.Writes Row.Timely (fun r => r.delivery? = none) fun _ => True

section Steady

variable {α β : Type}

theorem steady_ret (a : α) : Steady (.ret a : Tx α) := trivial

theorem steady_raise (e : PyError) : Steady (.raise e : Tx α) := trivial

theorem steady_bind {p : Tx α} {f : α → Tx β} (hp : Steady p) (hf : ∀ a, Steady (f a)) :
    Steady (p.bind f) :=
  writes_seq hp hf

theorem steady_tryCatch {p : Tx α} {h : PyError → Tx α} (hp : Steady p) (hh : ∀ e, Steady (h e)) :
    Steady (p.tryCatch h) :=
  writes_tryCatch hp hh

theorem steady_lift (x : Except PyError α) : Steady (Tx.lift x) := by
  cases x <;> trivial

/-- What follows a computation of the client may rely on its result. -/
theorem steady_lift_bind {x : Except PyError α} {f : α → Tx β}
    (hf : ∀ a, x = .ok a → Steady (f a)) : Steady ((Tx.lift x).bind f) :=
  writes_bind.mpr (writes_ofExcept hf)

theorem steady_databaseNow (now : Datetime) : Steady (databaseNow now) := fun _ => trivial

theorem steady_newUuid : Steady newUuid := fun _ => trivial

theorem steady_selectAll (kind : Row → Option α) : Steady (selectAll kind) := fun _ => trivial

theorem steady_selectForUpdate (kind : Row → Option α) (x : Key) :
    Steady (selectForUpdate kind x) := fun _ => trivial

theorem steady_selectSkipLocked (kind : Row → Option α) (x : Key) :
    Steady (selectSkipLocked kind x) := fun _ => trivial

theorem steady_selectOne (kind : Row → Option α) (x : Key) : Steady (selectOne kind x) :=
  fun _ => trivial

theorem steady_updateRow (checks : Bool) {r : Row} (hr : r.Timely) :
    Steady (updateRow checks r) := by
  cases checks
  · trivial
  · exact ⟨hr, trivial⟩

theorem steady_insertOrSkip {checks : Bool} {r : Row} (hr : r.delivery? = none) :
    Steady (insertOrSkip checks r) := by
  cases checks
  · trivial
  · exact ⟨hr, fun _ => trivial⟩

theorem steady_insertRow {checks : Bool} {r : Row} (hr : r.delivery? = none) :
    Steady (insertRow checks r) := by
  refine steady_bind (steady_insertOrSkip hr) fun inserted => ?_
  split <;> trivial

theorem steady_checkInteger (n : ℤ) : Steady (checkInteger n) := by
  unfold checkInteger
  split <;> trivial

theorem steady_lockUpTo (kind : Row → Option α) (condition : α → Bool) (n : ℕ) (xs : List Key) :
    Steady (lockUpTo kind condition n xs) := by
  induction xs generalizing n with
  | nil => cases n <;> exact steady_ret []
  | cons x xs ih =>
      cases n with
      | zero => exact steady_ret []
      | succ n =>
          refine steady_bind (steady_selectSkipLocked kind x) fun r => ?_
          cases r with
          | none => exact ih (n + 1)
          | some r =>
              dsimp only
              split
              · exact steady_bind (ih n) fun rs => steady_ret _
              · exact ih (n + 1)

theorem steady_lockAll (kind : Row → Option α) (condition : α → Bool) (xs : List Key) :
    Steady (lockAll kind condition xs) := by
  induction xs with
  | nil => exact steady_ret []
  | cons x xs ih =>
      refine steady_bind (steady_selectForUpdate kind x) fun r => ?_
      cases r with
      | none => exact ih
      | some r => exact steady_bind ih fun rs => steady_ret _

/-! ### Leases -/

theorem steady_leaseOne (delivery : DeliveryRow) (policy : RetryPolicy) (effectiveNow : Datetime) :
    Steady (leaseOne delivery policy effectiveNow) := by
  refine steady_bind steady_newUuid fun token => steady_bind steady_newUuid fun attemptId => ?_
  refine steady_bind (steady_lift _) fun leaseExpiresAt => ?_
  have hleased : (leasedDelivery delivery token leaseExpiresAt effectiveNow).Timely :=
    DeliveryRow.timely_of_ne (by simp [leasedDelivery])
  refine steady_bind (steady_checkInteger _) fun _ => ?_
  refine steady_bind (steady_updateRow _ hleased) fun _ => ?_
  refine steady_bind (steady_insertRow rfl) fun _ => steady_bind (steady_selectOne _ _) fun event => ?_
  cases event with
  | none => exact steady_raise _
  | some event =>
      exact steady_bind (steady_lift _) fun _ => steady_bind (steady_lift _) fun _ =>
        steady_bind (steady_lift _) fun _ => steady_ret _

theorem steady_claimLoop (effectiveNow : Datetime) (batchSize perTenant : ℤ)
    (candidates : List DeliveryRow) (claimed : List ClaimedDelivery) :
    Steady (claimLoop effectiveNow batchSize perTenant candidates claimed) := by
  induction candidates generalizing claimed with
  | nil => exact steady_ret claimed
  | cons delivery candidates ih =>
      unfold claimLoop
      split
      · exact steady_ret claimed
      split
      · exact ih claimed
      refine steady_bind (steady_lift _) fun policy => steady_bind (steady_lift _) fun deadline => ?_
      dsimp only
      split
      · have hexpired : (expiredDelivery delivery effectiveNow).Timely :=
          DeliveryRow.timely_of_ne (by simp [expiredDelivery])
        exact steady_bind (steady_updateRow _ hexpired) fun _ => ih claimed
      · exact steady_bind (steady_leaseOne _ _ _) fun claim => ih _

theorem steady_claim (now : Datetime) (batchSize perTenant : ℤ) :
    Steady (claim now batchSize perTenant) := by
  refine steady_bind (steady_lift _) fun _ => steady_bind (steady_lift _) fun _ => ?_
  refine steady_bind (steady_databaseNow now) fun selectionTime => ?_
  refine steady_bind (steady_selectAll _) fun rows => steady_bind (steady_lockUpTo _ _ _ _) fun _ => ?_
  exact steady_bind (steady_databaseNow now) fun effectiveNow => steady_claimLoop _ _ _ _ _

theorem steady_lockedActiveRows (c : ClaimedDelivery) (now : Datetime) :
    Steady (lockedActiveRows c now) := by
  refine steady_bind (steady_selectForUpdate _ _) fun delivery => ?_
  cases delivery with
  | none => exact steady_raise _
  | some delivery =>
      dsimp only
      split
      · exact steady_raise _
      split
      · exact steady_raise _
      refine steady_bind (steady_selectForUpdate _ _) fun attempt => ?_
      cases attempt with
      | none => exact steady_raise _
      | some attempt =>
          dsimp only
          split
          · exact steady_raise _
          refine steady_bind (steady_databaseNow now) fun lockedAt => ?_
          split
          · exact steady_raise _
          · exact steady_ret _

theorem steady_succeedInTransaction (c : ClaimedDelivery) (now : Datetime) :
    Steady (succeedInTransaction c now) := by
  refine steady_bind (steady_lockedActiveRows c now) fun ⟨delivery, attempt, finishedAt⟩ => ?_
  refine steady_bind (steady_lift _) fun policy => ?_
  split
  · exact steady_raise _
  refine steady_bind (steady_lift _) fun deadline => ?_
  split
  · exact steady_raise _
  · refine steady_bind (steady_updateRow _ trivial) fun _ => ?_
    refine steady_bind (steady_updateRow _ ?_) fun _ => steady_ret _
    exact DeliveryRow.timely_of_ne (by simp [clearLease])

theorem steady_failInTransaction (c : ClaimedDelivery) (error : DeliveryError) (now : Datetime)
    (retryAfter : Option Timedelta) (uniform : ℚ → ℚ → PyFloat) :
    Steady (failInTransaction c error now retryAfter uniform) := by
  refine steady_bind (steady_lockedActiveRows c now) fun ⟨delivery, attempt, finishedAt⟩ => ?_
  refine steady_lift_bind fun policy hpolicy => steady_lift_bind fun rows hrows => ?_
  refine steady_bind (steady_updateRow _ trivial) fun _ => ?_
  exact steady_bind (steady_updateRow _ (failedRows_timely hpolicy hrows)) fun _ => steady_ret _

theorem steady_reconcileOne (delivery : DeliveryRow) (now : Datetime) :
    Steady (reconcileOne delivery now) := by
  refine steady_bind (steady_selectAll _) fun attempts => ?_
  refine steady_bind (steady_lockAll _ _ _) fun locked => ?_
  refine steady_bind (steady_databaseNow now) fun effectiveNow => ?_
  refine steady_lift_bind fun policy hpolicy => steady_lift_bind fun deadline hdeadline => ?_
  have hreconciled : (reconciledDelivery delivery policy effectiveNow
      (deadline ≤ effectiveNow)).Timely := reconciledDelivery_timely hpolicy hdeadline
  cases locked with
  | nil => exact steady_updateRow _ hreconciled
  | cons attempt rest =>
      exact steady_bind (steady_updateRow _ trivial) fun _ => steady_updateRow _ hreconciled

theorem steady_reconcileLoop (now : Datetime) (rows : List DeliveryRow) :
    Steady (reconcileLoop now rows) := by
  induction rows with
  | nil => exact steady_ret ()
  | cons delivery rows ih => exact steady_bind (steady_reconcileOne delivery now) fun _ => ih

theorem steady_reconcileExpired (now : Datetime) (batchSize : ℤ) :
    Steady (reconcileExpired now batchSize) := by
  refine steady_bind (steady_lift _) fun _ => steady_bind (steady_databaseNow now) fun _ => ?_
  refine steady_bind (steady_selectAll _) fun rows => steady_bind (steady_lockUpTo _ _ _ _) fun _ => ?_
  exact steady_bind (steady_reconcileLoop now _) fun _ => steady_ret _

/-! ### Handoffs -/

theorem steady_updateHandoff (row : HandoffRow) : Steady (updateHandoff row) :=
  steady_updateRow _ trivial

theorem steady_lockedForEnvelope (envelope : HandoffEnvelope) : Steady (lockedForEnvelope envelope) := by
  refine steady_bind (steady_selectForUpdate _ _) fun row => ?_
  cases row with
  | none => exact steady_raise _
  | some row =>
      dsimp only
      split
      · exact steady_ret _
      · exact steady_raise _

theorem steady_lockedExecution (executing : ExecutingHandoff) : Steady (lockedExecution executing) := by
  refine steady_bind (steady_selectForUpdate _ _) fun row => ?_
  cases row with
  | none => exact steady_raise _
  | some row =>
      dsimp only
      split
      · exact steady_ret _
      · exact steady_raise _

theorem steady_claimForRow (row : HandoffRow) : Steady (claimForRow row) := by
  refine steady_bind (steady_selectForUpdate _ _) fun delivery => ?_
  refine steady_bind (steady_selectForUpdate _ _) fun attempt => ?_
  cases delivery with
  | none => exact steady_raise _
  | some delivery =>
      cases attempt with
      | none => exact steady_raise _
      | some attempt =>
          dsimp only
          split
          · exact steady_raise _
          refine steady_bind (steady_selectOne _ _) fun event => ?_
          cases event with
          | none => exact steady_raise _
          | some event =>
              exact steady_bind (steady_lift _) fun _ => steady_bind (steady_lift _) fun _ =>
                steady_bind (steady_lift _) fun _ => steady_ret _

theorem steady_prepare (c : ClaimedDelivery) (now : Datetime) : Steady (prepare c now) := by
  refine steady_bind steady_newUuid fun handoffId => steady_bind steady_newUuid fun handoffToken => ?_
  refine steady_bind (steady_databaseNow now) fun preparedAt => ?_
  refine steady_bind (steady_selectOne _ _) fun delivery => steady_bind (steady_selectOne _ _) fun _ => ?_
  split
  · exact steady_raise _
  refine steady_bind (steady_insertOrSkip rfl) fun inserted => ?_
  refine steady_bind (steady_selectAll _) fun rows => ?_
  split
  · exact steady_raise _
  · split
    · exact steady_raise _
    · exact steady_ret _

theorem steady_markEnqueued (envelope : HandoffEnvelope) (now : Datetime) :
    Steady (markEnqueued envelope now) := by
  refine steady_bind (steady_lockedForEnvelope envelope) fun row => ?_
  refine steady_bind (steady_databaseNow now) fun enqueuedAt => ?_
  split
  · split
    · exact steady_bind (steady_updateHandoff _) fun _ => steady_ret _
    · exact steady_ret _
  · exact steady_bind (steady_updateHandoff _) fun _ => steady_ret _

theorem steady_enqueueFailed (envelope : HandoffEnvelope) (now : Datetime)
    (uniform : ℚ → ℚ → PyFloat) : Steady (enqueueFailed envelope now uniform) := by
  refine steady_bind (steady_lockedForEnvelope envelope) fun row => ?_
  split
  · exact steady_ret _
  refine steady_bind (steady_claimForRow row) fun c => ?_
  refine steady_bind (steady_failInTransaction c _ now none uniform) fun outcome => ?_
  refine steady_bind (steady_databaseNow now) fun failedAt => ?_
  exact steady_bind (steady_updateHandoff _) fun _ => steady_ret _

theorem steady_admitExecution (row : HandoffRow) (c : ClaimedDelivery) (observedAt : Datetime)
    (timeout : Timedelta) (uniform : ℚ → ℚ → PyFloat) :
    Steady (admitExecution row c observedAt timeout uniform) := by
  refine steady_bind (steady_databaseNow _) fun lockedAt => ?_
  split
  · exact steady_raise _
  split
  · refine steady_bind (steady_lift _) fun policy => steady_bind (steady_lift _) fun remaining => ?_
    split
    · refine steady_bind (steady_failInTransaction _ _ _ _ _) fun outcome => ?_
      exact steady_bind (steady_updateHandoff _) fun _ => steady_ret _
    · refine steady_bind steady_newUuid fun token => steady_bind (steady_lift _) fun duration => ?_
      refine steady_bind (steady_lift _) fun deadline => steady_bind (steady_checkInteger _) fun _ => ?_
      exact steady_bind (steady_updateHandoff _) fun _ => steady_ret _
  · exact steady_raise _

theorem steady_claimExecution (envelope : HandoffEnvelope) (now : Datetime) (timeout : Timedelta)
    (uniform : ℚ → ℚ → PyFloat) : Steady (claimExecution envelope now timeout uniform) := by
  refine steady_bind (steady_lift _) fun _ => steady_bind (steady_lockedForEnvelope _) fun row => ?_
  refine steady_bind (steady_databaseNow now) fun lockedAt => ?_
  split
  · refine steady_bind (steady_tryCatch ?_ ?_) fun claim => ?_
    · exact steady_bind (steady_claimForRow row) fun _ => steady_ret _
    · intro e
      cases e <;> trivial
    · cases claim with
      | none => exact steady_bind (steady_updateHandoff _) fun _ => steady_ret _
      | some c => exact steady_admitExecution _ _ _ _ _
  · exact steady_ret _

theorem steady_finalizeSuccess (executing : ExecutingHandoff) (now : Datetime) :
    Steady (finalizeSuccess executing now) := by
  refine steady_bind (steady_lockedExecution executing) fun row => ?_
  refine steady_bind (steady_succeedInTransaction _ _) fun finishedAt => ?_
  exact steady_bind (steady_updateHandoff _) fun _ => steady_ret _

theorem steady_finalizeFailure (executing : ExecutingHandoff) (error : DeliveryError)
    (now : Datetime) (uniform : ℚ → ℚ → PyFloat) :
    Steady (finalizeFailure executing error now uniform) := by
  refine steady_bind (steady_lockedExecution executing) fun row => ?_
  refine steady_bind (steady_failInTransaction _ _ _ _ _) fun outcome => ?_
  refine steady_bind (steady_databaseNow now) fun finishedAt => ?_
  exact steady_bind (steady_updateHandoff _) fun _ => steady_ret _

theorem steady_recoverLoop (now : Datetime) (uniform : ℕ → ℚ → ℚ → PyFloat) (i : ℕ)
    (rows : List HandoffRow) : Steady (recoverLoop now uniform i rows) := by
  induction rows generalizing i with
  | nil => exact steady_ret ()
  | cons row rows ih =>
      refine steady_bind (steady_bind (steady_tryCatch ?_ ?_) fun outcome => ?_) fun _ => ih (i + 1)
      · exact steady_bind (steady_claimForRow row) fun c => steady_failInTransaction _ _ _ _ _
      · intro e
        cases e <;> trivial
      · exact steady_bind (steady_databaseNow now) fun _ => steady_updateHandoff _

theorem steady_recoverExpired (now : Datetime) (timeout : Timedelta) (batchSize : ℤ)
    (uniform : ℕ → ℚ → ℚ → PyFloat) : Steady (recoverExpired now timeout batchSize uniform) := by
  refine steady_bind (steady_lift _) fun _ => steady_bind (steady_lift _) fun _ => ?_
  refine steady_bind (steady_databaseNow now) fun selectionTime => ?_
  refine steady_bind (steady_selectAll _) fun rows => steady_bind (steady_lockUpTo _ _ _ _) fun _ => ?_
  exact steady_bind (steady_recoverLoop now uniform 0 _) fun _ => steady_ret _

end Steady

/-! ## Operations -/

variable [Platform]

/-- Whether an operation inserts deliveries. -/
def Op.creates : Op → Prop
  | .publish _ _ _ _ _ | .replay _ _ _ _ _ _ => True
  | _ => False

/-- Every operation but `publish` and `replay` is steady. -/
theorem steady_prog (op : Op) (h : ¬ op.creates) : Steady op.prog := by
  cases op with
  | publish | replay => exact absurd trivial h
  | claim now batchSize perTenant =>
      exact steady_bind (steady_claim now batchSize perTenant) fun _ => steady_ret _
  | succeed c now =>
      exact steady_bind (steady_bind (steady_succeedInTransaction c now) fun _ => steady_ret _) fun _ =>
        steady_ret _
  | fail c error now retryAfter uniform =>
      refine steady_bind (steady_bind (steady_failInTransaction _ _ _ _ _) fun _ => ?_) fun _ =>
        steady_ret _
      exact steady_bind (steady_databaseNow now) fun _ => steady_ret _
  | reconcileExpired now batchSize =>
      exact steady_bind (steady_reconcileExpired now batchSize) fun _ => steady_ret _
  | prepare c now => exact steady_bind (steady_prepare c now) fun _ => steady_ret _
  | markEnqueued envelope now =>
      exact steady_bind (steady_markEnqueued envelope now) fun _ => steady_ret _
  | enqueueFailed envelope now uniform =>
      exact steady_bind (steady_enqueueFailed envelope now uniform) fun _ => steady_ret _
  | claimExecution envelope now timeout uniform =>
      exact steady_bind (steady_claimExecution envelope now timeout uniform) fun _ => steady_ret _
  | finalizeSuccess ex now => exact steady_bind (steady_finalizeSuccess ex now) fun _ => steady_ret _
  | finalizeFailure ex error now uniform =>
      exact steady_bind (steady_finalizeFailure ex error now uniform) fun _ => steady_ret _
  | recoverExpired now timeout batchSize uniform =>
      exact steady_bind (steady_recoverExpired now timeout batchSize uniform) fun _ => steady_ret _

/-- The deliveries of an event are pending. -/
theorem writes_deliveryRows (tenantId eventId : UUID) (now : Datetime)
    (routes : List RouteSpecification) :
    (deliveryRows tenantId eventId now routes).Writes Row.Timely Row.Timely fun rows =>
      ∀ r ∈ rows, r.state = .pending := by
  induction routes with
  | nil => exact fun r hr => absurd hr List.not_mem_nil
  | cons route routes ih =>
      simp only [deliveryRows, Prog.bind_eq, writes_bind]
      intro deliveryId
      refine writes_ofExcept fun snapshot _ => writes_ofExcept fun bytes _ => ?_
      refine writes_mono (fun _ h => h) (fun _ h => h) (fun rows hrows r hr => ?_) ih
      rcases List.mem_cons.mp hr with rfl | hr
      · rfl
      · exact hrows r hr

omit [Platform] in
theorem writes_insertRow {U I : Row → Prop} (checks : Bool) {r : Row} (hr : I r) :
    (insertRow checks r).Writes U I fun _ => True := by
  unfold insertRow insertOrSkip
  rw [Prog.bind_eq, writes_bind]
  cases checks
  · trivial
  · refine ⟨hr, fun inserted => ?_⟩
    cases inserted <;> trivial

omit [Platform] in
theorem writes_insertDeliveries {rows : List DeliveryRow} (hrows : ∀ r ∈ rows, r.Timely) :
    (insertDeliveries rows).Writes Row.Timely Row.Timely fun _ => True := by
  induction rows with
  | nil => trivial
  | cons r rows ih =>
      have hrest := ih fun r' hr' => hrows r' (List.mem_cons_of_mem _ hr')
      have hrow : (Row.delivery r).Timely := hrows r List.mem_cons_self
      simp only [insertDeliveries, Prog.bind_eq, writes_bind]
      cases deliveryColumns r with
      | error e => trivial
      | ok _ =>
          exact writes_mono (fun _ h => h) (fun _ h => h) (fun _ _ => hrest)
            (writes_insertRow r.checks hrow)

/-- Every operation writes only timely deliveries. -/
theorem timely_prog (op : Op) : op.prog.Writes Row.Timely Row.Timely fun _ => True := by
  by_cases hcreates : op.creates
  swap
  · exact writes_mono (fun _ h => h) (fun _ h => Row.timely_of_delivery? h) (fun _ h => h)
      (steady_prog op hcreates)
  have hsteady : ∀ {α : Type} {p : Tx α}, Steady p →
      p.Writes Row.Timely Row.Timely fun _ => True := by
    intro α p h
    exact writes_mono (fun _ h => h) (fun _ h => Row.timely_of_delivery? h) (fun _ h => h) h
  cases op with
  | publish principal event routes now dedupe =>
      refine writes_seq ?_ fun _ => trivial
      refine writes_seq (hsteady (steady_lift _)) fun _ => ?_
      refine writes_seq (hsteady (steady_lift _)) fun canonical => ?_
      refine writes_seq (hsteady steady_newUuid) fun eventId => ?_
      refine writes_seq (hsteady (steady_lift _)) fun _ => ?_
      refine writes_seq (hsteady (steady_insertOrSkip rfl)) fun inserted => ?_
      cases inserted
      · -- the event was there already
        cases dedupe with
        | none => trivial
        | some identity =>
            refine hsteady (steady_bind (steady_bind (steady_selectAll _) fun rows => ?_)
              fun existing => ?_)
            · dsimp only
              split
              · exact steady_ret _
              · exact steady_raise _
            · split
              · exact steady_raise _
              · exact steady_lift _
      · refine writes_bind.mpr (writes_mono (fun _ h => h) (fun _ h => h) (fun rows hrows => ?_)
          (writes_deliveryRows principal.tenantId eventId now routes))
        refine writes_seq (writes_insertDeliveries fun r hr => ?_) fun _ => hsteady (steady_lift _)
        exact DeliveryRow.timely_of_ne (by simp [hrows r hr])
  | replay tenantId deliveryId actor reason now kind =>
      refine writes_seq ?_ fun _ => trivial
      refine writes_seq (hsteady (steady_lift _)) fun _ => ?_
      refine writes_seq (hsteady (steady_lift _)) fun _ => ?_
      refine writes_seq ?_ fun _ => writes_seq (hsteady steady_newUuid) fun replayId => ?_
      · unfold lockRetention
        split <;> trivial
      refine writes_seq (hsteady (steady_selectOne _ _)) fun original => ?_
      cases original with
      | none => trivial
      | some original =>
          dsimp only
          split
          · have hpending : (Row.delivery
                (replayedDelivery original replayId actor reason now)).Timely :=
              DeliveryRow.timely_of_ne (by simp [replayedDelivery])
            exact writes_seq (writes_insertRow _ hpending) fun _ => hsteady (steady_lift _)
          · trivial
  | _ => cases hcreates

end FastapiEffects
