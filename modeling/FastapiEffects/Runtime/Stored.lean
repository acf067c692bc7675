import FastapiEffects.Runtime.Fairness
import FastapiEffects.Runtime.Writes

/-! # What is stored

Every row the runtime stores was written by a statement that checked it, and only a claim that had
computed the deadline of a delivery stores it as leased. So the rows of every reachable state pass
the checks of their tables, and every leased delivery has a deadline (`Row.Sound`).
-/

namespace FastapiEffects

open Python ReadCommitted

/-- A row that passes the checks of its table and that, if it is a leased delivery, has a
deadline. -/
def Row.Sound (r : Row) : Prop :=
  r.checked = true ∧ ∀ d, r = .delivery d → d.state = .leased → ∃ deadline, d.HasDeadline deadline

theorem Row.sound_delivery {d : DeliveryRow} (hchecks : d.checks = true)
    (hdeadline : d.state = .leased → ∃ deadline, d.HasDeadline deadline) :
    (Row.delivery d).Sound := by
  refine ⟨hchecks, ?_⟩
  rintro d' ⟨⟩ hleased
  exact hdeadline hleased

/-- A delivery that is not leased needs no deadline. -/
theorem Row.sound_of_ne {d : DeliveryRow} (hstate : d.state ≠ .leased) (hchecks : d.checks = true) :
    (Row.delivery d).Sound :=
  sound_delivery hchecks fun hleased => absurd hleased hstate

theorem Row.sound_of_delivery? {r : Row} (hr : r.delivery? = none) (hchecks : r.checked = true) :
    r.Sound := by
  refine ⟨hchecks, ?_⟩
  rintro d ⟨⟩
  cases hr

theorem Row.Sound.of_delivery {d : DeliveryRow} (h : (Row.delivery d).Sound) : d.checks = true ∧
    (d.state = .leased → ∃ deadline, d.HasDeadline deadline) :=
  ⟨h.1, h.2 d rfl⟩

/-! ## Programs that only read -/

section Reads

variable {α : Type} {U I : Row → Prop}

theorem writes_lockUpTo (kind : Row → Option α) (condition : α → Bool) (n : ℕ) (xs : List Key) :
    (lockUpTo kind condition n xs).Writes U I fun _ => True := by
  induction xs generalizing n with
  | nil => cases n <;> trivial
  | cons x xs ih =>
      cases n with
      | zero => trivial
      | succ n =>
          refine writes_seq (fun _ => trivial) fun r => ?_
          cases r with
          | none => exact ih (n + 1)
          | some r =>
              dsimp only
              split
              · exact writes_seq (ih n) fun _ => trivial
              · exact ih (n + 1)

theorem writes_lockAll (kind : Row → Option α) (condition : α → Bool) (xs : List Key) :
    (lockAll kind condition xs).Writes U I fun _ => True := by
  induction xs with
  | nil => trivial
  | cons x xs ih =>
      refine writes_seq (fun _ => trivial) fun r => ?_
      cases r with
      | none => exact ih
      | some r => exact writes_seq ih fun _ => trivial

theorem writes_lockedActiveRows (c : ClaimedDelivery) (now : Datetime) :
    (lockedActiveRows c now).Writes U I fun _ => True := by
  refine writes_seq (fun _ => trivial) fun delivery => ?_
  cases delivery with
  | none => trivial
  | some delivery =>
      dsimp only
      split
      · trivial
      split
      · trivial
      refine writes_seq (fun _ => trivial) fun attempt => ?_
      cases attempt with
      | none => trivial
      | some attempt =>
          dsimp only
          split
          · trivial
          refine writes_seq (fun _ => trivial) fun lockedAt => ?_
          split <;> trivial

theorem writes_lockedForEnvelope (envelope : HandoffEnvelope) :
    (lockedForEnvelope envelope).Writes U I fun _ => True := by
  refine writes_seq (fun _ => trivial) fun row => ?_
  cases row with
  | none => trivial
  | some row =>
      dsimp only
      split <;> trivial

theorem writes_lockedExecution (executing : ExecutingHandoff) :
    (lockedExecution executing).Writes U I fun _ => True := by
  refine writes_seq (fun _ => trivial) fun row => ?_
  cases row with
  | none => trivial
  | some row =>
      dsimp only
      split <;> trivial

theorem writes_claimForRow (row : HandoffRow) :
    (claimForRow row).Writes U I fun _ => True := by
  refine writes_seq (fun _ => trivial) fun delivery => ?_
  refine writes_seq (fun _ => trivial) fun attempt => ?_
  cases delivery with
  | none => trivial
  | some delivery =>
      cases attempt with
      | none => trivial
      | some attempt =>
          dsimp only
          split
          · trivial
          refine writes_seq (fun _ => trivial) fun event => ?_
          cases event with
          | none => trivial
          | some event =>
              refine writes_seq (writes_ofExcept fun _ _ => trivial) fun _ => ?_
              refine writes_seq (writes_ofExcept fun _ _ => trivial) fun _ => ?_
              exact writes_seq (writes_ofExcept fun _ _ => trivial) fun _ => trivial

theorem writes_checkInteger (n : ℤ) : (checkInteger n).Writes U I fun _ => True := by
  unfold checkInteger
  split <;> trivial

end Reads

/-! ## What the operations store -/

/-- A program that stores only sound rows, whatever it meets. -/
abbrev StoresSound {α : Type} (p : Tx α) : Prop := p.Writes Row.Sound Row.Sound fun _ => True

section Stores

variable {α β : Type}

/-- What follows a computation of the client may rely on its result. -/
theorem sound_lift {x : Except PyError α} {f : α → Tx β} (hf : ∀ a, x = .ok a → StoresSound (f a)) :
    StoresSound ((Tx.lift x).bind f) :=
  writes_bind.mpr (writes_ofExcept hf)

theorem sound_updateRow {checks : Bool} {r : Row} (hr : checks = true → r.Sound) :
    StoresSound (updateRow checks r) := by
  cases checks
  · trivial
  · exact ⟨hr rfl, trivial⟩

theorem sound_insertOrSkip {checks : Bool} {r : Row} (hr : checks = true → r.Sound) :
    StoresSound (insertOrSkip checks r) := by
  cases checks
  · trivial
  · exact ⟨hr rfl, fun _ => trivial⟩

theorem sound_insertRow {checks : Bool} {r : Row} (hr : checks = true → r.Sound) :
    StoresSound (insertRow checks r) := by
  refine writes_seq (sound_insertOrSkip hr) fun inserted => ?_
  cases inserted <;> trivial

theorem sound_updateAttempt (a : AttemptRow) :
    StoresSound (updateRow (attemptRowChecks a) (.attempt a)) :=
  sound_updateRow fun hchecks => Row.sound_of_delivery? rfl hchecks

theorem sound_updateHandoff (row : HandoffRow) : StoresSound (updateHandoff row) :=
  sound_updateRow fun hchecks => Row.sound_of_delivery? rfl hchecks

theorem sound_updateDelivery {d : DeliveryRow} (hstate : d.state ≠ .leased) :
    StoresSound (updateRow d.checks (.delivery d)) :=
  sound_updateRow (Row.sound_of_ne hstate)

/-! ### Leases -/

/-- A lease is stored for a delivery that has a deadline. -/
theorem sound_leaseOne {delivery : DeliveryRow} (policy : RetryPolicy) (effectiveNow : Datetime)
    (hdeadline : ∃ deadline, delivery.HasDeadline deadline) :
    StoresSound (leaseOne delivery policy effectiveNow) := by
  refine writes_seq (fun _ => trivial) fun token => ?_
  refine writes_seq (fun _ => trivial) fun attemptId => ?_
  refine sound_lift fun leaseExpiresAt _ => writes_seq (writes_checkInteger _) fun _ => ?_
  refine writes_seq (sound_updateRow fun hchecks => Row.sound_delivery hchecks fun _ => hdeadline)
    fun _ => ?_
  refine writes_seq (sound_insertRow fun hchecks => Row.sound_of_delivery? rfl hchecks) fun _ => ?_
  refine writes_seq (fun _ => trivial) fun event => ?_
  cases event with
  | none => trivial
  | some event =>
      exact sound_lift fun _ _ => sound_lift fun _ _ => sound_lift fun _ _ => trivial

theorem sound_claimLoop (effectiveNow : Datetime) (batchSize perTenant : ℤ)
    (candidates : List DeliveryRow) (claimed : List ClaimedDelivery) :
    StoresSound (claimLoop effectiveNow batchSize perTenant candidates claimed) := by
  induction candidates generalizing claimed with
  | nil => trivial
  | cons delivery candidates ih =>
      unfold claimLoop
      split
      · trivial
      split
      · exact ih claimed
      refine sound_lift fun policy hpolicy => sound_lift fun deadline hdeadline => ?_
      dsimp only
      split
      · have hdead : (expiredDelivery delivery effectiveNow).state ≠ .leased := by
          simp [expiredDelivery]
        exact writes_seq (sound_updateDelivery hdead) fun _ => ih claimed
      · exact writes_seq (sound_leaseOne _ _ ⟨deadline, policy, hpolicy, hdeadline⟩) fun _ => ih _

theorem sound_claim (now : Datetime) (batchSize perTenant : ℤ) :
    StoresSound (claim now batchSize perTenant) := by
  refine sound_lift fun _ _ => sound_lift fun _ _ => writes_seq (fun _ => trivial) fun _ => ?_
  refine writes_seq (fun _ => trivial) fun rows => writes_seq (writes_lockUpTo _ _ _ _) fun _ => ?_
  exact writes_seq (fun _ => trivial) fun effectiveNow => sound_claimLoop _ _ _ _ _

theorem sound_succeedInTransaction (c : ClaimedDelivery) (now : Datetime) :
    StoresSound (succeedInTransaction c now) := by
  refine writes_seq (writes_lockedActiveRows c now) fun ⟨delivery, attempt, finishedAt⟩ => ?_
  refine sound_lift fun policy _ => ?_
  split
  · trivial
  refine sound_lift fun deadline _ => ?_
  split
  · trivial
  · refine writes_seq (sound_updateAttempt _) fun _ => writes_seq (sound_updateDelivery ?_) fun _ =>
      trivial
    simp [clearLease]

/-- What a failure assigns leaves no lease. -/
theorem failedRows_state_ne {policy : RetryPolicy} {delivery : DeliveryRow} {attempt : AttemptRow}
    {error : DeliveryError} {finishedAt : Datetime} {retryAfter : Option Timedelta}
    {uniform : ℚ → ℚ → PyFloat} {rows : FailedRows}
    (h : failedRows policy delivery attempt error finishedAt retryAfter uniform = .ok rows) :
    (clearLease rows.delivery finishedAt).state ≠ .leased := by
  rcases hb : retryPermitted policy delivery attempt error finishedAt with e | b
  · unfold failedRows at h
    rw [hb] at h
    cases h
  rcases b with _ | _
  · unfold failedRows at h
    rw [hb] at h
    rw [← Except.ok.inj h]
    simp [clearLease]
  · rw [failedRows_permitted hb] at h
    rcases htimes : retryTimes policy delivery attempt finishedAt retryAfter uniform with e | times
    · rw [htimes] at h
      cases h
    · rw [htimes] at h
      rw [← Except.ok.inj h]
      dsimp only
      split_ifs <;> simp [clearLease]

theorem sound_failInTransaction (c : ClaimedDelivery) (error : DeliveryError) (now : Datetime)
    (retryAfter : Option Timedelta) (uniform : ℚ → ℚ → PyFloat) :
    StoresSound (failInTransaction c error now retryAfter uniform) := by
  refine writes_seq (writes_lockedActiveRows c now) fun ⟨delivery, attempt, finishedAt⟩ => ?_
  refine sound_lift fun policy _ => sound_lift fun rows hrows => ?_
  refine writes_seq (sound_updateAttempt _) fun _ => ?_
  exact writes_seq (sound_updateDelivery (failedRows_state_ne hrows)) fun _ => trivial

/-- A reconciled delivery waits again or is dead. -/
theorem reconciledDelivery_state_ne (delivery : DeliveryRow) (policy : RetryPolicy)
    (effectiveNow : Datetime) (elapsed : Bool) :
    (reconciledDelivery delivery policy effectiveNow elapsed).state ≠ .leased := by
  simp only [reconciledDelivery, clearLease]
  split_ifs <;> simp

theorem sound_reconcileOne (delivery : DeliveryRow) (now : Datetime) :
    StoresSound (reconcileOne delivery now) := by
  refine writes_seq (fun _ => trivial) fun attempts => ?_
  refine writes_seq (writes_lockAll _ _ _) fun locked => ?_
  refine writes_seq (fun _ => trivial) fun effectiveNow => ?_
  refine sound_lift fun policy _ => sound_lift fun deadline _ => ?_
  have hupdate := sound_updateDelivery
    (reconciledDelivery_state_ne delivery policy effectiveNow (deadline ≤ effectiveNow))
  cases locked with
  | nil => exact hupdate
  | cons attempt rest => exact writes_seq (sound_updateAttempt _) fun _ => hupdate

theorem sound_reconcileLoop (now : Datetime) (rows : List DeliveryRow) :
    StoresSound (reconcileLoop now rows) := by
  induction rows with
  | nil => trivial
  | cons delivery rows ih => exact writes_seq (sound_reconcileOne delivery now) fun _ => ih

theorem sound_reconcileExpired (now : Datetime) (batchSize : ℤ) :
    StoresSound (reconcileExpired now batchSize) := by
  refine sound_lift fun _ _ => writes_seq (fun _ => trivial) fun _ => ?_
  refine writes_seq (fun _ => trivial) fun rows => writes_seq (writes_lockUpTo _ _ _ _) fun _ => ?_
  exact writes_seq (sound_reconcileLoop now _) fun _ => trivial

/-! ### Handoffs -/

theorem sound_prepare (c : ClaimedDelivery) (now : Datetime) : StoresSound (prepare c now) := by
  refine writes_seq (fun _ => trivial) fun handoffId => ?_
  refine writes_seq (fun _ => trivial) fun token => ?_
  refine writes_seq (fun _ => trivial) fun preparedAt => ?_
  refine writes_seq (fun _ => trivial) fun delivery => ?_
  refine writes_seq (fun _ => trivial) fun attempt => ?_
  split
  · trivial
  refine writes_seq (sound_insertOrSkip fun hchecks => Row.sound_of_delivery? rfl hchecks)
    fun inserted => writes_seq (fun _ => trivial) fun rows => ?_
  split
  · trivial
  · split <;> trivial

theorem sound_markEnqueued (envelope : HandoffEnvelope) (now : Datetime) :
    StoresSound (markEnqueued envelope now) := by
  refine writes_seq (writes_lockedForEnvelope envelope) fun row => ?_
  refine writes_seq (fun _ => trivial) fun enqueuedAt => ?_
  split
  · split
    · exact writes_seq (sound_updateHandoff _) fun _ => trivial
    · trivial
  · exact writes_seq (sound_updateHandoff _) fun _ => trivial

theorem sound_enqueueFailed (envelope : HandoffEnvelope) (now : Datetime)
    (uniform : ℚ → ℚ → PyFloat) : StoresSound (enqueueFailed envelope now uniform) := by
  refine writes_seq (writes_lockedForEnvelope envelope) fun row => ?_
  split
  · trivial
  refine writes_seq (writes_claimForRow row) fun c => ?_
  refine writes_seq (sound_failInTransaction c _ now none uniform) fun outcome => ?_
  exact writes_seq (fun _ => trivial) fun failedAt => writes_seq (sound_updateHandoff _) fun _ =>
    trivial

theorem sound_admitExecution (row : HandoffRow) (c : ClaimedDelivery) (observedAt : Datetime)
    (timeout : Timedelta) (uniform : ℚ → ℚ → PyFloat) :
    StoresSound (admitExecution row c observedAt timeout uniform) := by
  refine writes_seq (fun _ => trivial) fun lockedAt => ?_
  split
  · trivial
  split
  · refine sound_lift fun policy _ => sound_lift fun remaining _ => ?_
    split
    · refine writes_seq (sound_failInTransaction _ _ _ _ _) fun outcome => ?_
      exact writes_seq (sound_updateHandoff _) fun _ => trivial
    · refine writes_seq (fun _ => trivial) fun token => sound_lift fun duration _ => ?_
      refine sound_lift fun deadline _ => writes_seq (writes_checkInteger _) fun _ => ?_
      exact writes_seq (sound_updateHandoff _) fun _ => trivial
  · trivial

theorem sound_claimExecution (envelope : HandoffEnvelope) (now : Datetime) (timeout : Timedelta)
    (uniform : ℚ → ℚ → PyFloat) : StoresSound (claimExecution envelope now timeout uniform) := by
  refine sound_lift fun _ _ => writes_seq (writes_lockedForEnvelope _) fun row => ?_
  refine writes_seq (fun _ => trivial) fun lockedAt => ?_
  split
  · refine writes_seq (writes_tryCatch ?_ ?_) fun claim => ?_
    · exact writes_seq (writes_claimForRow row) fun _ => trivial
    · intro e
      cases e <;> trivial
    · cases claim with
      | none => exact writes_seq (sound_updateHandoff _) fun _ => trivial
      | some c => exact sound_admitExecution _ _ _ _ _
  · trivial

theorem sound_finalizeSuccess (executing : ExecutingHandoff) (now : Datetime) :
    StoresSound (finalizeSuccess executing now) := by
  refine writes_seq (writes_lockedExecution executing) fun row => ?_
  refine writes_seq (sound_succeedInTransaction _ _) fun finishedAt => ?_
  exact writes_seq (sound_updateHandoff _) fun _ => trivial

theorem sound_finalizeFailure (executing : ExecutingHandoff) (error : DeliveryError)
    (now : Datetime) (uniform : ℚ → ℚ → PyFloat) :
    StoresSound (finalizeFailure executing error now uniform) := by
  refine writes_seq (writes_lockedExecution executing) fun row => ?_
  refine writes_seq (sound_failInTransaction _ _ _ _ _) fun outcome => ?_
  exact writes_seq (fun _ => trivial) fun finishedAt => writes_seq (sound_updateHandoff _) fun _ =>
    trivial

theorem sound_recoverLoop (now : Datetime) (uniform : ℕ → ℚ → ℚ → PyFloat) (i : ℕ)
    (rows : List HandoffRow) : StoresSound (recoverLoop now uniform i rows) := by
  induction rows generalizing i with
  | nil => trivial
  | cons row rows ih =>
      refine writes_seq (writes_seq (writes_tryCatch ?_ ?_) fun outcome => ?_) fun _ => ih (i + 1)
      · exact writes_seq (writes_claimForRow row) fun c => sound_failInTransaction _ _ _ _ _
      · intro e
        cases e <;> trivial
      · exact writes_seq (fun _ => trivial) fun _ => sound_updateHandoff _

theorem sound_recoverExpired (now : Datetime) (timeout : Timedelta) (batchSize : ℤ)
    (uniform : ℕ → ℚ → ℚ → PyFloat) :
    StoresSound (recoverExpired now timeout batchSize uniform) := by
  refine sound_lift fun _ _ => sound_lift fun _ _ => writes_seq (fun _ => trivial) fun _ => ?_
  refine writes_seq (fun _ => trivial) fun rows => writes_seq (writes_lockUpTo _ _ _ _) fun _ => ?_
  exact writes_seq (sound_recoverLoop now uniform 0 _) fun _ => trivial

end Stores

/-! ### Creation -/

section Creation

variable [Platform]

/-- The deliveries of an event are pending. -/
theorem pending_deliveryRows {U I : Row → Prop} (tenantId eventId : UUID) (now : Datetime)
    (routes : List RouteSpecification) :
    (deliveryRows tenantId eventId now routes).Writes U I fun rows =>
      ∀ r ∈ rows, r.state = .pending := by
  induction routes with
  | nil => exact fun r hr => absurd hr List.not_mem_nil
  | cons route routes ih =>
      simp only [deliveryRows, Prog.bind_eq, writes_bind]
      intro deliveryId
      refine writes_ofExcept fun snapshot _ => writes_ofExcept fun bytes _ => ?_
      refine writes_mono (fun _ h => h) (fun _ h => h) (fun rows hrows r hr => ?_) ih
      rcases List.mem_cons.mp hr with rfl | hr
      · rfl
      · exact hrows r hr

omit [Platform] in
theorem sound_insertDeliveries {rows : List DeliveryRow} (hrows : ∀ r ∈ rows, r.state = .pending) :
    StoresSound (insertDeliveries rows) := by
  induction rows with
  | nil => trivial
  | cons r rows ih =>
      refine sound_lift fun _ _ => ?_
      have hstate : r.state ≠ .leased := by simp [hrows r List.mem_cons_self]
      exact writes_seq (sound_insertRow (Row.sound_of_ne hstate)) fun _ =>
        ih fun r' hr' => hrows r' (List.mem_cons_of_mem _ hr')

theorem sound_publish (principal : PrincipalEnvelope) (event : Event)
    (routes : List RouteSpecification) (now : Datetime) (dedupe : Option DedupeIdentity) :
    StoresSound (publish principal event routes now dedupe) := by
  refine sound_lift fun _ _ => sound_lift fun canonical _ => ?_
  refine writes_seq (fun _ => trivial) fun id => ?_
  refine sound_lift fun _ _ => writes_seq
    (sound_insertOrSkip fun hchecks => Row.sound_of_delivery? rfl hchecks) fun inserted => ?_
  cases inserted
  · -- the event was there already
    cases dedupe with
    | none => trivial
    | some identity =>
        refine writes_seq (writes_seq (fun _ => trivial) fun rows => ?_) fun existing => ?_
        · dsimp only
          split <;> trivial
        · split
          · trivial
          · exact writes_ofExcept fun _ _ => trivial
  · refine writes_bind.mpr (writes_mono (fun _ h => h) (fun _ h => h) (fun rows hrows => ?_)
      (pending_deliveryRows principal.tenantId id now routes))
    exact writes_seq (sound_insertDeliveries hrows) fun _ => writes_ofExcept fun _ _ => trivial

omit [Platform] in
theorem sound_replay (tenantId deliveryId : UUID) (actor reason : Str) (now : Datetime)
    (kind : Option Str) : StoresSound (replay tenantId deliveryId actor reason now kind) := by
  refine sound_lift fun _ _ => sound_lift fun _ _ => writes_seq ?_ fun _ => ?_
  · unfold lockRetention
    split <;> trivial
  refine writes_seq (fun _ => trivial) fun replayId => ?_
  refine writes_seq (fun _ => trivial) fun original => ?_
  cases original with
  | none => trivial
  | some original =>
      dsimp only
      split
      · have hstate : (replayedDelivery original replayId actor reason now).state ≠ .leased := by
          simp [replayedDelivery]
        exact writes_seq (sound_insertRow (Row.sound_of_ne hstate)) fun _ =>
          writes_ofExcept fun _ _ => trivial
      · trivial

end Creation

/-! ## Runs -/

section Runs

variable [Platform]

/-- Every operation stores only sound rows. -/
theorem sound_prog (op : Op) : StoresSound op.prog := by
  cases op with
  | publish principal event routes now dedupe =>
      exact writes_seq (sound_publish principal event routes now dedupe) fun _ => trivial
  | claim now batchSize perTenant =>
      exact writes_seq (sound_claim now batchSize perTenant) fun _ => trivial
  | succeed c now =>
      refine writes_seq (writes_seq (sound_succeedInTransaction c now) fun _ => ?_) fun _ => trivial
      trivial
  | fail c error now retryAfter uniform =>
      refine writes_seq (writes_seq (sound_failInTransaction _ _ _ _ _) fun _ => ?_)
        fun _ => trivial
      exact writes_seq (fun _ => trivial) fun _ => trivial
  | reconcileExpired now batchSize =>
      exact writes_seq (sound_reconcileExpired now batchSize) fun _ => trivial
  | replay tenantId deliveryId actor reason now kind =>
      exact writes_seq (sound_replay tenantId deliveryId actor reason now kind) fun _ => trivial
  | prepare c now => exact writes_seq (sound_prepare c now) fun _ => trivial
  | markEnqueued envelope now => exact writes_seq (sound_markEnqueued envelope now) fun _ => trivial
  | enqueueFailed envelope now uniform =>
      exact writes_seq (sound_enqueueFailed envelope now uniform) fun _ => trivial
  | claimExecution envelope now timeout uniform =>
      exact writes_seq (sound_claimExecution envelope now timeout uniform) fun _ => trivial
  | finalizeSuccess ex now => exact writes_seq (sound_finalizeSuccess ex now) fun _ => trivial
  | finalizeFailure ex error now uniform =>
      exact writes_seq (sound_finalizeFailure ex error now uniform) fun _ => trivial
  | recoverExpired now timeout batchSize uniform =>
      exact writes_seq (sound_recoverExpired now timeout batchSize uniform) fun _ => trivial

/-- Every row a run stores is sound. -/
theorem sound_of_reachable {now : Datetime} {w : RuntimeWorld}
    (hreach : Reachable runtime (RuntimeWorld.start now) w) : ∀ r ∈ w.store.db.rows, r.Sound := by
  have hidle : ∀ t, (RuntimeWorld.start now).txn t = none := fun t => by
    simp [RuntimeWorld.start, World.txn]
  refine (Reachable.written sound_prog (fun r hr => ?_) hidle hreach).1
  cases hr

end Runs

end FastapiEffects
