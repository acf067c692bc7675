import FastapiEffects.Runtime.Ready

/-! # What stops the relay

`claim` and `reconcile_expired` work on the deliveries of all tenants in one transaction, so an
error at one delivery stops the relay for every tenant. In a state the runtime reaches, only one
thing does: a retry policy whose deadline or lease leaves the range of `datetime`, and only for
`claim`.
-/

namespace FastapiEffects

open Python ReadCommitted

/-! ## Reconciling -/

section Reconciling

variable {s : Session Key Row UUID} {α : Type}

/-- Locking rows one by one returns rows that are stored. -/
theorem returns_lockUpTo {kind : Row → Option α} {condition : α → Bool} (n : ℕ) (xs : List Key) :
    s.Returns (lockUpTo kind condition n xs) fun rs s' =>
      s' = s ∧ ∀ r ∈ rs, condition r = true ∧ ∃ x, (s.visible.get x).bind kind = some r := by
  have hnone : ∀ r ∈ ([] : List α),
      condition r = true ∧ ∃ x, (s.visible.get x).bind kind = some r := by
    intro r hr
    cases hr
  induction xs generalizing n with
  | nil =>
      cases n <;> exact Session.returns_ret.mpr ⟨rfl, hnone⟩
  | cons x xs ih =>
      cases n with
      | zero => exact Session.returns_ret.mpr ⟨rfl, hnone⟩
      | succ n =>
          refine Session.returns_bind.mpr (Session.returns_tryLock.mpr (Session.returns_ret.mpr ?_))
          cases hrow : (s.visible.get x).bind kind with
          | none => exact ih (n + 1)
          | some r =>
              by_cases hcondition : condition r = true
              · simp only [hcondition, if_true]
                refine Session.returns_bind.mpr ((ih n).mono ?_)
                rintro rs s' ⟨rfl, hrs⟩
                refine Session.returns_ret.mpr ⟨rfl, List.forall_mem_cons.mpr ⟨?_, hrs⟩⟩
                exact ⟨hcondition, x, hrow⟩
              · simp only [hcondition]
                exact ih (n + 1)

theorem returns_lockAll {kind : Row → Option α} {condition : α → Bool} (xs : List Key) :
    s.Returns (lockAll kind condition xs) fun rs s' =>
      s' = s ∧ ∀ r ∈ rs, ∃ x, (s.visible.get x).bind kind = some r := by
  induction xs with
  | nil =>
      refine Session.returns_ret.mpr ⟨rfl, ?_⟩
      intro r hr
      cases hr
  | cons x xs ih =>
      refine Session.returns_bind.mpr (Session.returns_lock.mpr (Session.returns_ret.mpr ?_))
      cases hrow : (s.visible.get x).bind kind with
      | none => exact ih
      | some r =>
          refine Session.returns_bind.mpr (ih.mono ?_)
          rintro rs s' ⟨rfl, hrs⟩
          refine Session.returns_ret.mpr ⟨rfl, ?_⟩
          split_ifs
          · exact List.forall_mem_cons.mpr ⟨⟨x, hrow⟩, hrs⟩
          · exact hrs

/-- An abandoned attempt passes the checks of its table. -/
theorem attemptRowChecks_abandoned {attempt : AttemptRow} (h : attemptRowChecks attempt = true)
    (now : Datetime) (elapsed : Bool) :
    attemptRowChecks (abandonedAttempt attempt now elapsed) = true := by
  have hpos := attempt_pos h
  cases elapsed <;> simp [abandonedAttempt, failedAttempt, attemptRowChecks, hpos]

/-- So does a reconciled delivery. -/
theorem checks_reconciled {d : DeliveryRow} (h : d.checks = true) (policy : RetryPolicy)
    (now : Datetime) (elapsed : Bool) :
    (reconciledDelivery d policy now elapsed).checks = true := by
  obtain ⟨hversion, hcount, -, hreplay⟩ := of_decide_eq_true h
  have hleased : (reconciledDelivery d policy now elapsed).state = .leased ↔
      (reconciledDelivery d policy now elapsed).leaseToken.isSome ∧
        (reconciledDelivery d policy now elapsed).leaseExpiresAt.isSome := by
    refine iff_of_false (reconciledDelivery_state_ne d policy now elapsed) ?_
    rintro ⟨htoken, -⟩
    cases htoken
  exact decide_eq_true ⟨hversion, hcount, hleased, hreplay⟩

/-- One lease is taken back. -/
theorem returns_reconcileOne {d : DeliveryRow} (hchecks : d.checks = true)
    (hdeadline : ∃ deadline, d.HasDeadline deadline) (hrows : ∀ r ∈ s.visible.rows, r.Sound)
    (now : Datetime) : s.Returns (reconcileOne d now) fun _ _ => True := by
  rcases hdeadline with ⟨deadline, policy, hpolicy, hdeadline⟩
  refine Session.returns_bind.mpr (Session.returns_scan.mpr (Session.returns_ret.mpr ?_))
  refine Session.returns_bind.mpr ((returns_lockAll _).mono ?_)
  rintro locked s' ⟨rfl, hlocked⟩
  refine Session.returns_bind.mpr (Session.returns_clock.mpr (Session.returns_ret.mpr ?_))
  refine Session.returns_bind.mpr (Session.returns_ofExcept.mpr ⟨policy, hpolicy, ?_⟩)
  refine Session.returns_bind.mpr (Session.returns_ofExcept.mpr ⟨deadline, hdeadline, ?_⟩)
  have hreconciled := fun now' elapsed => checks_reconciled hchecks policy now' elapsed
  cases locked with
  | nil => exact (returns_updateRow (hreconciled _ _)).mpr trivial
  | cons attempt rest =>
      rcases hlocked attempt List.mem_cons_self with ⟨x, hx⟩
      have hrow := Table.mem_of_get (Row.bind_attempt?.mp hx)
      refine Session.returns_bind.mpr ((returns_updateRow ?_).mpr ?_)
      · exact attemptRowChecks_abandoned (hrows _ hrow).1 _ _
      · exact (returns_updateRow (hreconciled _ _)).mpr trivial

theorem returns_reconcileLoop {rows : List DeliveryRow}
    (hleased : ∀ d ∈ rows, d.checks = true ∧ ∃ deadline, d.HasDeadline deadline)
    (hrows : ∀ r ∈ s.visible.rows, r.Sound) (now : Datetime) :
    s.Returns (reconcileLoop now rows) fun _ _ => True := by
  induction rows generalizing s with
  | nil => exact Session.returns_ret.mpr trivial
  | cons d rows ih =>
      rcases List.forall_mem_cons.mp hleased with ⟨⟨hchecks, hdeadline⟩, hrest⟩
      refine Session.returns_bind.mpr
        (((returns_reconcileOne hchecks hdeadline hrows now).keeps (sound_reconcileOne d now)
          hrows).mono ?_)
      rintro _ s' ⟨-, hrows'⟩
      exact ih hrest hrows'

/-- Nothing stops the reconciler where the rows are sound. -/
theorem returns_reconcileExpired {batchSize : ℤ} (hbatch : 1 ≤ batchSize)
    (hrows : ∀ r ∈ s.visible.rows, r.Sound) (now : Datetime) :
    s.Returns (reconcileExpired now batchSize) fun _ _ => True := by
  refine Session.returns_bind.mpr (Session.returns_ofExcept.mpr ⟨(), ?_, ?_⟩)
  · exact check_eq_ok.mpr (decide_eq_true hbatch)
  refine Session.returns_bind.mpr (Session.returns_clock.mpr (Session.returns_ret.mpr ?_))
  refine Session.returns_bind.mpr (Session.returns_scan.mpr (Session.returns_ret.mpr ?_))
  refine Session.returns_bind.mpr ((returns_lockUpTo _ _).mono ?_)
  rintro locked s' ⟨rfl, hlocked⟩
  have hleased : ∀ d ∈ locked, d.checks = true ∧ ∃ deadline, d.HasDeadline deadline := by
    intro d hd
    rcases hlocked d hd with ⟨hexpired, x, hx⟩
    rcases (hrows _ (Table.mem_of_get (Row.bind_delivery?.mp hx))).of_delivery with
      ⟨hchecks, hdeadline⟩
    exact ⟨hchecks, hdeadline (of_decide_eq_true hexpired).1⟩
  refine Session.returns_bind.mpr (Session.Returns.mono (returns_reconcileLoop hleased ?_ now) ?_)
  · exact hrows
  · exact fun _ _ _ => Session.returns_ret.mpr trivial

end Reconciling

/-! ## Stopping the relay -/

/-- What stops the relay: in every state of a run, and with no other transaction in their way,
taking back leases returns, and claiming returns exactly when the deadline of every selected
delivery and the lease it would get are in range. The selection is of all tenants, so one delivery
out of range keeps every other from being claimed. -/
theorem relay_stops_out_of_range [Platform] {start : Datetime} {w : RuntimeWorld}
    (hreach : Reachable runtime (RuntimeWorld.start start) w)
    (hcreated : ∀ d, Row.delivery d ∈ w.store.db.rows → Datetime.min ≤ d.createdAt)
    {s : Session Key Row UUID} (hs : s.visible = w.store.db) (hnow : w.store.now ≤ s.clock 0)
    (hclock : s.clock 0 ≤ s.clock 1) {batchSize perTenant : ℤ} (hbatch : 1 ≤ batchSize)
    (htenant : 1 ≤ perTenant) (hids : NewIds s (2 * batchSize.toNat)) (now : Datetime) :
    ((∃ claims s', s.run (claim now batchSize perTenant) = .ok (claims, s')) ↔
      ∀ d ∈ claimSelection w.store.db (s.clock 0) batchSize perTenant, ∃ policy,
        snapshotPolicy d.routeSnapshot = .ok policy ∧ d.InRange policy (s.clock 1)) ∧
    ∃ n s', s.run (reconcileExpired now batchSize) = .ok (n, s') := by
  rw [← hs] at hcreated ⊢
  have hsound : ∀ r ∈ s.visible.rows, r.Sound := by
    rw [hs]
    exact sound_of_reachable hreach
  constructor
  · rw [← Session.returns_iff_run]
    refine returns_claim hbatch htenant (fun d hd => ?_) hids
    have hselection := selection_claimCandidates s.visible (s.clock 0) hbatch htenant
    have hrow := hselection.stored d hd
    have hdue := hselection.due d hd
    rw [hs] at hrow ⊢
    exact leasable_of_reachable hreach hrow (hcreated d (hs ▸ hrow)) hdue hnow hclock
  · exact Session.returns_iff_run.mp (returns_reconcileExpired hbatch hsound now)

namespace FarDeadline

open Scenario

/-- Its deadline is 10¹² seconds away. -/
def policy : RetryPolicy :=
  ⟨{ Scenario.policy.toRetryPolicyArgs with maximumElapsedSeconds := 1000000000000 },
    by decide +kernel⟩

def routeArgs : RouteArgs := { Scenario.routeArgs with retryPolicy := policy }

def route : RouteSpecification := ⟨routeArgs, routeArgs, by rfl⟩

/-- Another tenant. -/
def principal : PrincipalEnvelope := { Scenario.principal with tenantId := 2 }

/-- Delivery 101 of tenant 1 and delivery 111 of tenant 2, with the far deadline, are stored. -/
def published : List (Act UUID Op) :=
  Scenario.published ++ [.start (.publish principal event [route] 0 none), .mint 1 110, .step 1,
    .mint 1 111, .step 1, .step 1]

def session (w : RuntimeWorld) : Session Key Row UUID :=
  ⟨w.store.db, fun _ => 10, fun n => BitVec.ofNat 128 (200 + n), []⟩

/-- Whether the deadline of a delivery is out of range. -/
def late (d : DeliveryRow) : Bool :=
  match snapshotPolicy d.routeSnapshot with
  | .ok p => Datetime.max < d.createdAt + p.maximumElapsedSeconds * 1000000
  | .error _ => false

end FarDeadline

open Scenario in
/-- The deadline of tenant 2 stops the claim of what is due for tenant 1, and does not stop
the reconciler. -/
theorem relay_stops_out_of_range_tenants : ∃ w : RuntimeWorld,
    Reachable runtime (RuntimeWorld.start 0) w ∧
    (∃ d ∈ claimSelection w.store.db 10 5 5, d.tenantId = 1) ∧
    (¬ ∃ claims s', (FarDeadline.session w).run (claim 0 5 5) = .ok (claims, s')) ∧
    ∃ n s', (FarDeadline.session w).run (reconcileExpired 0 5) = .ok (n, s') := by
  have hrun : ((RuntimeWorld.start 0).run runtime FarDeadline.published).any (fun w =>
      (claimSelection w.store.db 10 5 5).any (fun d => d.tenantId = 1) ∧
        (claimSelection w.store.db 10 5 5).any FarDeadline.late ∧ w.store.now = 0 ∧
        w.store.db.rows.all fun r => r.attempt? = none ∧
          r.delivery?.all fun d => Datetime.min ≤ d.createdAt) = true := by
    decide +kernel
  simp only [Option.any_eq_true, decide_eq_true_eq, List.any_eq_true, List.all_eq_true] at hrun
  rcases hrun with ⟨w, hw, hdue, ⟨d, hd, hlate⟩, hnow, hrows⟩
  have hreach := World.run_reachable hw
  have hcreated : ∀ d, Row.delivery d ∈ w.store.db.rows → Datetime.min ≤ d.createdAt := by
    intro d hd
    have hall := (hrows _ hd).2
    rwa [Row.delivery?, Option.all_some, decide_eq_true_eq] at hall
  have hids : NewIds (FarDeadline.session w) (2 * (5 : ℤ).toNat) := by
    constructor
    · show ∀ i < 10, ∀ j < 10, BitVec.ofNat 128 (200 + i) = BitVec.ofNat 128 (200 + j) → i = j
      decide
    · intro i hi t
      refine Table.get_eq_none_iff.mpr fun r hr hkey => ?_
      have hnone := (hrows r hr).1
      cases r <;> simp [Schema.key, Row.key, Row.attempt?] at hkey hnone
  have hclock : w.store.now ≤ 10 := by
    rw [hnow]
    decide
  have hstops := relay_stops_out_of_range hreach hcreated (s := FarDeadline.session w) rfl hclock
    (le_refl _) (by decide : (1 : ℤ) ≤ 5) (by decide : (1 : ℤ) ≤ 5) hids 0
  refine ⟨w, hreach, hdue, fun hreturns => ?_, hstops.2⟩
  rcases hstops.1.mp hreturns d hd with ⟨policy, hpolicy, hrange⟩
  simp only [FarDeadline.late, hpolicy, decide_eq_true_eq] at hlate
  exact absurd hrange.deadline (not_le.mpr hlate)

end FastapiEffects
