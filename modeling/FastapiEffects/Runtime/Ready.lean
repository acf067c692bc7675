import FastapiEffects.Core.Snapshots
import FastapiEffects.ReadCommitted.Returns
import FastapiEffects.Runtime.Leases
import FastapiEffects.Runtime.Stored

/-! # What a claim needs

A claim decodes the snapshots of a whole batch and computes their deadlines and leases. It returns
exactly when every delivery it selects is in range (`returns_claim`), and in a state the runtime
reaches nothing else stands in its way (`leasable_of_reachable`).
-/

namespace FastapiEffects

open Python ReadCommitted

/-! ## Times in range -/

/-- A number of seconds from a time on, as the deadline functions add it. -/
theorem addSeconds_eq_ok {t u : Datetime} {q : ℚ} (ht : Datetime.min ≤ t) (hq : 0 ≤ q) :
    (do
      let duration ← orRaise (Timedelta.ofSeconds? q) .overflow
      orRaise (t.add? duration) .overflow : Except PyError Datetime) = .ok u ↔
      t + roundHalfEven (q * 1000000) ≤ Datetime.max ∧ u = t + roundHalfEven (q * 1000000) := by
  have hnonneg : 0 ≤ roundHalfEven (q * 1000000) := roundHalfEven_nonneg (by positivity)
  simp only [bind_eq_ok, orRaise_eq_ok]
  constructor
  · rintro ⟨duration, hduration, hadd⟩
    obtain rfl := Timedelta.ofSeconds?_eq_some hduration
    rcases Datetime.add?_eq_some_iff.mp hadd with ⟨hvalid, rfl⟩
    exact ⟨hvalid.2, rfl⟩
  · rintro ⟨hle, rfl⟩
    -- no `datetime` is far enough from another one for the duration to leave its own range
    have hspan : roundHalfEven (q * 1000000) ≤ Datetime.max - Datetime.min := by linarith
    have hduration : Timedelta.ofSeconds? q = some (roundHalfEven (q * 1000000)) :=
      if_pos ⟨le_trans (by decide) hnonneg, hspan.trans (by decide)⟩
    refine ⟨roundHalfEven (q * 1000000), hduration, Datetime.add?_eq_some_iff.mpr ⟨⟨?_, hle⟩, rfl⟩⟩
    exact ht.trans (le_add_of_nonneg_right hnonneg)

/-- What a claim needs of the policy of a delivery: the deadline is a `datetime`, and unless it has
passed, so is the end of the lease, and one more attempt fits its column. -/
structure DeliveryRow.InRange (d : DeliveryRow) (policy : RetryPolicy) (effectiveNow : Datetime) :
    Prop where
  deadline : d.createdAt + policy.maximumElapsedSeconds * 1000000 ≤ Datetime.max
  lease : effectiveNow < d.createdAt + policy.maximumElapsedSeconds * 1000000 →
    effectiveNow + roundHalfEven (policy.leaseDurationSeconds.value * 1000000) ≤ Datetime.max ∧
      d.attemptsStarted < maxInteger

theorem DeliveryRow.inRange_iff {d : DeliveryRow} {policy : RetryPolicy} {now : Datetime} :
    d.InRange policy now ↔ d.createdAt + policy.maximumElapsedSeconds * 1000000 ≤ Datetime.max ∧
      (now < d.createdAt + policy.maximumElapsedSeconds * 1000000 →
        now + roundHalfEven (policy.leaseDurationSeconds.value * 1000000) ≤ Datetime.max ∧
          d.attemptsStarted < maxInteger) :=
  ⟨fun h => ⟨h.deadline, h.lease⟩, fun h => ⟨h.1, h.2⟩⟩

theorem deliveryDeadline_eq_ok {policy : RetryPolicy} {createdAt deadline : Datetime}
    (hcreated : Datetime.min ≤ createdAt) : deliveryDeadline policy createdAt = .ok deadline ↔
      createdAt + policy.maximumElapsedSeconds * 1000000 ≤ Datetime.max ∧
        deadline = createdAt + policy.maximumElapsedSeconds * 1000000 := by
  have hpos := (RetryPolicyArgs.postInit_counts policy.valid).2.2
  have hround : roundHalfEven ((policy.maximumElapsedSeconds : ℚ) * 1000000) =
      policy.maximumElapsedSeconds * 1000000 := by
    rw [← roundHalfEven_intCast (policy.maximumElapsedSeconds * 1000000)]
    push_cast
    rfl
  rw [← hround]
  exact addSeconds_eq_ok hcreated (by exact_mod_cast hpos.le)

theorem leaseExpiry_eq_ok {policy : RetryPolicy} {effectiveNow leaseExpiresAt : Datetime}
    (hnow : Datetime.min ≤ effectiveNow) (hlease : 0 ≤ policy.leaseDurationSeconds.value) :
    leaseExpiry policy effectiveNow = .ok leaseExpiresAt ↔
      effectiveNow + roundHalfEven (policy.leaseDurationSeconds.value * 1000000) ≤ Datetime.max ∧
        leaseExpiresAt =
          effectiveNow + roundHalfEven (policy.leaseDurationSeconds.value * 1000000) :=
  addSeconds_eq_ok hnow hlease

/-- A lease lasts for some time, where its policy was read from a snapshot. -/
theorem RetryPolicy.lease_pos {policy : RetryPolicy} {f : PyFloat}
    (h : policy.leaseDurationSeconds = .float f) : 0 < policy.leaseDurationSeconds.value := by
  have hvalid := policy.valid
  unfold RetryPolicyArgs.postInit at hvalid
  simp only [bind_eq_ok, check_eq_ok, decide_eq_true_eq] at hvalid
  obtain ⟨-, -, -, -, -, -, base, -, maximum, -, timeout, -, lease, hlease, -, -, -, ⟨-, hpos⟩,
    -⟩ := hvalid
  rw [h] at hlease ⊢
  obtain rfl := finiteNumber_float hlease
  exact hpos

/-! ## What a claim relies on -/

/-- A delivery that a claim may take, as far as the rows of its tables go. -/
structure DeliveryRow.Leasable (d : DeliveryRow) (t : Db) (effectiveNow : Datetime) : Prop where
  stored : t.get d.key = some (.delivery d)
  checks : d.checks = true
  waits : d.state ≠ .leased
  created : Datetime.min ≤ d.createdAt
  reached : d.createdAt ≤ effectiveNow
  policy : ∃ policy, snapshotPolicy d.routeSnapshot = .ok policy ∧
    0 ≤ policy.leaseDurationSeconds.value
  event : ∃ v record, eventAt t d.tenantId d.eventId = some v ∧ eventFromRow v = .ok record
  attempts : ∀ a, Row.attempt a ∈ t.rows → a.tenantId = d.tenantId → a.deliveryId = d.deliveryId →
    a.attemptNumber ≤ d.attemptsStarted
  decodes : ∀ token leaseExpiresAt,
    ∃ record, deliveryFromRow (leasedDelivery d token leaseExpiresAt effectiveNow) = .ok record

namespace DeliveryRow.Leasable

variable {d : DeliveryRow} {t : Db} {now : Datetime}

theorem event_put {r : Row} (hr : ∀ v, r ≠ .event v) {t' v' : UUID} :
    eventAt (t.put r) t' v' = eventAt t t' v' := by
  have hne : r.key ≠ .event t' v' := by
    cases r with
    | event v => exact absurd rfl (hr v)
    | delivery d => simp [Row.key]
    | attempt a => simp [Row.key]
    | handoff h => simp [Row.key]
  unfold eventAt
  rw [Table.get_put]
  exact congrArg (fun row => Option.bind row Row.event?) (if_neg hne)

/-- Another delivery is written. -/
theorem put_delivery (h : d.Leasable t now) {d' : DeliveryRow} (hne : d'.key ≠ d.key) :
    d.Leasable (t.put (.delivery d')) now :=
  { h with
    stored := by
      rw [Table.get_put]
      exact (if_neg hne).trans h.stored
    event := by
      rcases h.event with ⟨v, record, hv, hrecord⟩
      exact ⟨v, record, (event_put (by simp)).trans hv, hrecord⟩
    attempts := by
      intro a ha
      rcases Table.mem_put.mp ha with heq | ⟨hold, -⟩
      · cases heq
      · exact h.attempts a hold }

/-- An attempt of another delivery is written. -/
theorem put_attempt (h : d.Leasable t now) {a' : AttemptRow}
    (hne : ¬ (a'.tenantId = d.tenantId ∧ a'.deliveryId = d.deliveryId)) :
    d.Leasable (t.put (.attempt a')) now :=
  { h with
    stored := by
      rw [Table.get_put]
      exact (if_neg (by simp [Schema.key, Row.key, DeliveryRow.key])).trans h.stored
    event := by
      rcases h.event with ⟨v, record, hv, hrecord⟩
      exact ⟨v, record, (event_put (by simp)).trans hv, hrecord⟩
    attempts := by
      intro a ha ht hd
      rcases Table.mem_put.mp ha with heq | ⟨hold, -⟩
      · cases heq
        exact absurd ⟨ht, hd⟩ hne
      · exact h.attempts a hold ht hd }

/-- The next attempt conflicts with no stored row. -/
theorem no_conflict (h : d.Leasable t now) {d' : DeliveryRow} {id token : UUID}
    (hnew : t.get (.attempt d.tenantId id) = none) :
    (t.put (.delivery d')).rows.any
      (Session.conflict (κ := Key) (.attempt (startedAttempt d id token now))) = false := by
  rw [List.any_eq_false]
  intro r hr hconflict
  rcases Table.mem_put.mp hr with rfl | ⟨hold, -⟩
  · rcases of_decide_eq_true hconflict with hkey | hclash
    · cases hkey
    · cases hclash
  rcases of_decide_eq_true hconflict with hkey | hclash
  · exact Table.get_eq_none_iff.mp hnew r hold hkey.symm
  · cases r with
    | attempt a =>
        obtain ⟨ht, hd, hnumber⟩ : (startedAttempt d id token now).tenantId = a.tenantId ∧
          (startedAttempt d id token now).deliveryId = a.deliveryId ∧
          (startedAttempt d id token now).attemptNumber = a.attemptNumber :=
            of_decide_eq_true hclash
        have hle := h.attempts a hold ht.symm hd.symm
        simp only [startedAttempt] at hnumber
        omega
    | event v => cases hclash
    | delivery d' => cases hclash
    | handoff r => cases hclash

theorem checks_expired (h : d.Leasable t now) : (expiredDelivery d now).checks = true := by
  obtain ⟨hversion, hcount, hlease, hreplay⟩ := of_decide_eq_true h.checks
  refine decide_eq_true ⟨hversion, hcount, ?_, hreplay⟩
  have hnone := hlease.not.mp h.waits
  simpa [expiredDelivery] using hnone

theorem checks_leased (h : d.Leasable t now) (token : UUID) (leaseExpiresAt : Datetime) :
    (leasedDelivery d token leaseExpiresAt now).checks = true := by
  obtain ⟨hversion, hcount, -, hreplay⟩ := of_decide_eq_true h.checks
  refine decide_eq_true ⟨hversion, ?_, by simp [leasedDelivery], hreplay⟩
  exact Int.add_nonneg hcount (by decide)

end DeliveryRow.Leasable

theorem attemptRowChecks_started {d : DeliveryRow} (h : 0 ≤ d.attemptsStarted) (id token : UUID)
    (now : Datetime) : attemptRowChecks (startedAttempt d id token now) = true := by
  have hpos : 0 < d.attemptsStarted + 1 := by omega
  simp [attemptRowChecks, startedAttempt, hpos]

theorem exists_attemptFromRow_started {d : DeliveryRow} (h : 0 ≤ d.attemptsStarted)
    (id token : UUID) (now : Datetime) :
    ∃ record, attemptFromRow (startedAttempt d id token now) = .ok record := by
  have hpos : 0 < d.attemptsStarted + 1 := by omega
  have hvalid : (startedAttempt d id token now).postInit = .ok () := by
    simp [AttemptRecordArgs.postInit, startedAttempt, hpos, check, bind, Except.bind]
  unfold attemptFromRow AttemptRecord.make
  split
  · exact ⟨_, rfl⟩
  · rename_i e he
    rw [hvalid] at he
    cases he

/-- The next identifiers of a session are new ones. -/
structure NewIds (s : Session Key Row UUID) (n : ℕ) : Prop where
  distinct : ∀ i < n, ∀ j < n, s.supply i = s.supply j → i = j
  unused : ∀ i < n, ∀ t, s.visible.get (.attempt t (s.supply i)) = none

theorem NewIds.mono {s : Session Key Row UUID} {m n : ℕ} (h : NewIds s n) (hm : m ≤ n) :
    NewIds s m :=
  ⟨fun i hi j hj => h.distinct i (hi.trans_le hm) j (hj.trans_le hm),
    fun i hi => h.unused i (hi.trans_le hm)⟩

/-! ## One delivery -/

section Claiming

variable {s : Session Key Row UUID} {d : DeliveryRow} {policy : RetryPolicy} {now : Datetime}

theorem returns_updateRow {checks : Bool} {r : Row} {Q : Unit → Session Key Row UUID → Prop}
    (hchecks : checks = true) : s.Returns (updateRow checks r) Q ↔ Q () (s.change (.put r)) := by
  rw [updateRow, if_pos hchecks]
  exact Session.returns_ret

theorem returns_insertRow {checks : Bool} {r : Row} {Q : Unit → Session Key Row UUID → Prop}
    (hchecks : checks = true) (hnew : s.visible.rows.any (Session.conflict (κ := Key) r) = false) :
    s.Returns (insertRow checks r) Q ↔ Q () (s.change (.put r)) := by
  rw [insertRow, insertOrSkip, if_pos hchecks, Prog.bind_eq, Session.returns_bind,
    Session.returns_insert hnew, Session.returns_ret]
  exact Session.returns_ret

theorem returns_checkInteger {n : ℤ} {Q : Unit → Session Key Row UUID → Prop}
    (hn : n ≤ maxInteger) : s.Returns (checkInteger n) Q ↔ Q () s := by
  rw [checkInteger, if_pos hn]
  exact Session.returns_ret

theorem returns_selectOne {α : Type} {kind : Row → Option α} {x : Key} {a : α}
    {Q : Option α → Session Key Row UUID → Prop} (hrow : (s.visible.get x).bind kind = some a) :
    s.Returns (selectOne kind x) Q ↔ Q (some a) s := by
  rw [selectOne, Session.returns_read, Session.returns_ret, hrow]

/-- What a claim does when it leases a delivery. -/
structure LeasedOne (s : Session Key Row UUID) (d : DeliveryRow) (now leaseExpiresAt : Datetime)
    (c : ClaimedDelivery) (s' : Session Key Row UUID) : Prop where
  delivery : c.deliveryKey = d.key
  supply : s'.supply = fun n => s.supply (n + 1 + 1)
  visible : s'.visible =
    (s.visible.put (.delivery (leasedDelivery d (s.supply 0) leaseExpiresAt now))).put
      (.attempt (startedAttempt d (s.supply 1) (s.supply 0) now))

/-- A delivery is leased when the end of its lease can be computed and its attempts fit. -/
theorem returns_leaseOne {leaseExpiresAt : Datetime} (hd : d.Leasable s.visible now) {n : ℕ}
    (hids : NewIds s (n + 2)) (hexpiry : leaseExpiry policy now = .ok leaseExpiresAt)
    (hcount : d.attemptsStarted < maxInteger) :
    s.Returns (leaseOne d policy now) (LeasedOne s d now leaseExpiresAt) := by
  have hstarted := (of_decide_eq_true hd.checks).2.1
  rcases hd.event with ⟨v, event, hv, hevent⟩
  rcases hd.decodes (s.supply 0) leaseExpiresAt with ⟨delivery, hdelivery⟩
  rcases exists_attemptFromRow_started hstarted (s.supply 1) (s.supply 0) now with
    ⟨attempt, hattempt⟩
  refine Session.returns_bind.mpr (Session.returns_fresh.mpr (Session.returns_ret.mpr ?_))
  refine Session.returns_bind.mpr (Session.returns_fresh.mpr (Session.returns_ret.mpr ?_))
  refine Session.returns_bind.mpr (Session.returns_ofExcept.mpr ⟨leaseExpiresAt, hexpiry, ?_⟩)
  refine Session.returns_bind.mpr ((returns_checkInteger hcount).mpr ?_)
  refine Session.returns_bind.mpr ((returns_updateRow (hd.checks_leased _ _)).mpr ?_)
  have hnew : s.visible.get (.attempt d.tenantId (s.supply 1)) = none :=
    hids.unused 1 (by omega) d.tenantId
  refine Session.returns_bind.mpr ((returns_insertRow (attemptRowChecks_started hstarted _ _ _)
    ?_).mpr ?_)
  · rw [Session.visible_put]
    exact hd.no_conflict hnew
  have hread : eventAt ((s.visible.put (.delivery (leasedDelivery d (s.supply 0) leaseExpiresAt
      now))).put (.attempt (startedAttempt d (s.supply 1) (s.supply 0) now))) d.tenantId d.eventId =
        some v := by
    rw [DeliveryRow.Leasable.event_put (by simp), DeliveryRow.Leasable.event_put (by simp), hv]
  refine Session.returns_bind.mpr ((returns_selectOne (a := v) ?_).mpr ?_)
  · rw [Session.visible_put, Session.visible_put]
    exact hread
  refine Session.returns_bind.mpr (Session.returns_ofExcept.mpr ⟨event, hevent, ?_⟩)
  refine Session.returns_bind.mpr (Session.returns_ofExcept.mpr ⟨delivery, hdelivery, ?_⟩)
  refine Session.returns_bind.mpr (Session.returns_ofExcept.mpr ⟨attempt, hattempt, ?_⟩)
  refine Session.returns_ret.mpr ⟨?_, rfl, ?_⟩
  · rcases deliveryFromRow_eq_ok hdelivery with ⟨hid, htenant, -, -⟩
    rw [ClaimedDelivery.deliveryKey, hid, htenant]
    rfl
  · rw [Session.visible_put, Session.visible_put]
    rfl

/-- Nothing else leases it. -/
theorem of_returns_leaseOne {Q : ClaimedDelivery → Session Key Row UUID → Prop}
    (h : s.Returns (leaseOne d policy now) Q) :
    (∃ leaseExpiresAt, leaseExpiry policy now = .ok leaseExpiresAt) ∧
      d.attemptsStarted < maxInteger := by
  rcases h with ⟨c, s', hexec, -⟩
  rcases Session.exec_bind_eq_ok hexec with ⟨token, s₁, -, hexec⟩
  rcases Session.exec_bind_eq_ok hexec with ⟨attemptId, s₂, -, hexec⟩
  rcases Session.exec_bind_eq_ok hexec with ⟨leaseExpiresAt, s₃, hlease, hexec⟩
  rcases Session.exec_bind_eq_ok hexec with ⟨u, s₄, hinteger, -⟩
  refine ⟨⟨leaseExpiresAt, (exec_lift_eq_ok hlease).1⟩, ?_⟩
  unfold checkInteger at hinteger
  split_ifs at hinteger with hle
  · simp only [leasedDelivery] at hle
    omega
  · cases hinteger

section LeasedOne

variable {leaseExpiresAt : Datetime} {c : ClaimedDelivery} {s' : Session Key Row UUID}

/-- The identifiers that are left are new ones still. -/
theorem LeasedOne.newIds (h : LeasedOne s d now leaseExpiresAt c s') {n : ℕ}
    (hids : NewIds s (n + 2)) : NewIds s' n := by
  constructor
  · intro i hi j hj heq
    rw [h.supply] at heq
    have hsame := hids.distinct (i + 1 + 1) (by omega) (j + 1 + 1) (by omega) heq
    omega
  · intro i hi t
    have hne : s.supply 1 ≠ s.supply (i + 1 + 1) := by
      intro heq
      have hsame := hids.distinct 1 (by omega) (i + 1 + 1) (by omega) heq
      omega
    rw [h.visible, h.supply, Table.get_put, Table.get_put, if_neg, if_neg]
    · exact hids.unused (i + 1 + 1) (by omega) t
    · simp [Schema.key, Row.key]
    · simp only [Schema.key, Row.key, startedAttempt, Key.attempt.injEq, not_and]
      exact fun _ => hne

/-- Other deliveries may be taken still. -/
theorem LeasedOne.leasable (h : LeasedOne s d now leaseExpiresAt c s') {d' : DeliveryRow}
    (hne : d.key ≠ d'.key) (hd' : d'.Leasable s.visible now) : d'.Leasable s'.visible now := by
  have hkey : (leasedDelivery d (s.supply 0) leaseExpiresAt now).key ≠ d'.key := hne
  rw [h.visible]
  refine (hd'.put_delivery hkey).put_attempt ?_
  rintro ⟨ht, hid⟩
  exact hne (congrArg₂ Key.delivery ht hid)

end LeasedOne

theorem NewIds.expire {n : ℕ} {d' : DeliveryRow} (hids : NewIds s n) :
    NewIds (s.change (.put (.delivery d'))) n := by
  constructor
  · exact hids.distinct
  · intro i hi t
    rw [Session.visible_put, Table.get_put, if_neg (by simp [Schema.key, Row.key])]
    exact hids.unused i hi t

/-- A claim of candidates that stand in their tables returns exactly when all of them are in
range. -/
theorem returns_claimLoop {batchSize perTenant : ℤ} {candidates : List DeliveryRow}
    {claimed : List ClaimedDelivery}
    (hready : ∀ d ∈ candidates, d.Leasable s.visible now)
    (hdistinct : candidates.Pairwise fun d d' => d.key ≠ d'.key)
    (hbatch : ((claimed.length + candidates.length : ℕ) : ℤ) ≤ batchSize)
    (htenant : ∀ tenantId, ((claimed.countP (fun c => c.delivery.tenantId = tenantId) +
      candidates.countP (fun d => d.tenantId = tenantId) : ℕ) : ℤ) ≤ perTenant)
    (hids : NewIds s (2 * candidates.length)) :
    (s.Returns (claimLoop now batchSize perTenant candidates claimed) fun _ _ => True) ↔
      ∀ d ∈ candidates, ∃ policy, snapshotPolicy d.routeSnapshot = .ok policy ∧
        d.InRange policy now := by
  induction candidates generalizing s claimed with
  | nil => simp [claimLoop]
  | cons d candidates ih =>
      rcases List.pairwise_cons.mp hdistinct with ⟨hd, hrest⟩
      have hleasable := hready d List.mem_cons_self
      rcases hleasable.policy with ⟨policy, hpolicy, hlease⟩
      -- the bounds of the query keep the counters of the loop below theirs
      have hbelow : ¬ batchSize ≤ claimed.length := by
        rw [List.length_cons] at hbatch
        omega
      have hbelow' : ¬ perTenant ≤
          (claimed.countP fun c => c.delivery.tenantId = d.tenantId : ℕ) := by
        have hcount := htenant d.tenantId
        rw [List.countP_cons_of_pos (by simp)] at hcount
        omega
      have hrange : (∃ policy', snapshotPolicy d.routeSnapshot = .ok policy' ∧
          d.InRange policy' now) ↔ d.InRange policy now := by
        simp only [hpolicy, Except.ok.injEq, exists_eq_left']
      rw [List.forall_mem_cons, hrange, DeliveryRow.inRange_iff, claimLoop, if_neg hbelow,
        if_neg hbelow']
      simp only [Prog.bind_eq, Session.returns_bind, Session.returns_ofExcept, hpolicy,
        Except.ok.injEq, exists_eq_left', deliveryDeadline_eq_ok hleasable.created, and_assoc,
        exists_and_left, exists_eq_left]
      refine and_congr_right fun _ => ?_
      rw [List.length_cons] at hbatch hids
      split_ifs with hlate
      · -- past its deadline the delivery is written off
        rw [Session.returns_bind, returns_updateRow hleasable.checks_expired]
        have hloop := @ih (s.change (.put (.delivery (expiredDelivery d now)))) claimed ?_ hrest ?_
          ?_ (hids.mono (by omega)).expire
        · rw [hloop]
          exact ⟨fun h => ⟨fun hearly => absurd hlate hearly.not_ge, h⟩, And.right⟩
        · intro d' hd'
          rw [Session.visible_put]
          exact (hready d' (List.mem_cons_of_mem d hd')).put_delivery (hd d' hd')
        · omega
        · intro tenantId
          have hcount := htenant tenantId
          rw [List.countP_cons] at hcount
          omega
      · -- else it is leased, if that does not raise
        have hearly : now < d.createdAt + policy.maximumElapsedSeconds * 1000000 := not_le.mp hlate
        rw [Session.returns_bind]
        have htwo : NewIds s (2 * candidates.length + 2) := hids.mono (by omega)
        have hnext : ∀ leaseExpiresAt c s', LeasedOne s d now leaseExpiresAt c s' →
            ((s'.Returns (claimLoop now batchSize perTenant candidates (claimed ++ [c]))
              fun _ _ => True) ↔ ∀ d ∈ candidates, ∃ policy,
                snapshotPolicy d.routeSnapshot = .ok policy ∧ d.InRange policy now) := by
          intro leaseExpiresAt c s' hleased
          have htenantId : c.delivery.tenantId = d.tenantId := (Key.delivery.inj hleased.delivery).1
          refine ih ?_ hrest ?_ ?_ (hleased.newIds htwo)
          · intro d' hd'
            exact hleased.leasable (hd d' hd') (hready d' (List.mem_cons_of_mem d hd'))
          · rw [List.length_append, List.length_singleton]
            omega
          · intro tenantId
            have hcount := htenant tenantId
            rw [List.countP_cons] at hcount
            rw [List.countP_append, List.countP_singleton, htenantId]
            omega
        have hnow : Datetime.min ≤ now := hleasable.created.trans hleasable.reached
        constructor
        · intro hreturns
          rcases of_returns_leaseOne hreturns with ⟨⟨leaseExpiresAt, hends⟩, hfits⟩
          rcases (returns_leaseOne hleasable htwo hends hfits).and hreturns with
            ⟨c, s', -, hleased, hloop⟩
          exact ⟨fun _ => ⟨((leaseExpiry_eq_ok hnow hlease).mp hends).1, hfits⟩,
            (hnext leaseExpiresAt c s' hleased).mp hloop⟩
        · rintro ⟨hinRange, hrestRange⟩
          rcases hinRange hearly with ⟨hends, hfits⟩
          have hexpiry := (leaseExpiry_eq_ok hnow hlease).mpr ⟨hends, rfl⟩
          refine (returns_leaseOne hleasable htwo hexpiry hfits).mono ?_
          intro c s' hleased
          exact (hnext _ c s' hleased).mpr hrestRange

/-- The deliveries a claim locks in a store. -/
def claimSelection (t : Db) (selectionTime : Datetime) (batchSize perTenant : ℤ) :
    List DeliveryRow :=
  (claimCandidates selectionTime perTenant.toNat (t.rows.filterMap Row.delivery?)).take
    batchSize.toNat

/-- A claim returns exactly when all it selects is in range. -/
theorem returns_claim {observedAt : Datetime} {batchSize perTenant : ℤ} (hbatch : 1 ≤ batchSize)
    (htenant : 1 ≤ perTenant)
    (hready : ∀ d ∈ claimSelection s.visible (s.clock 0) batchSize perTenant,
      d.Leasable s.visible (s.clock 1))
    (hids : NewIds s (2 * batchSize.toNat)) :
    (s.Returns (claim observedAt batchSize perTenant) fun _ _ => True) ↔
      ∀ d ∈ claimSelection s.visible (s.clock 0) batchSize perTenant, ∃ policy,
        snapshotPolicy d.routeSnapshot = .ok policy ∧ d.InRange policy (s.clock 1) := by
  have hselection := selection_claimCandidates s.visible (s.clock 0) hbatch htenant
  obtain ⟨s₁, hs₁⟩ : ∃ s₁ : Session Key Row UUID,
    s₁ = { s with clock := fun n => s.clock (n + 1) } := ⟨_, rfl⟩
  obtain ⟨s₂, hs₂⟩ : ∃ s₂ : Session Key Row UUID,
    s₂ = { s with clock := fun n => s.clock (n + 1 + 1) } := ⟨_, rfl⟩
  have hlock : s₁.exec (lockUpTo Row.delivery? (fun _ => true) batchSize.toNat
      ((claimCandidates (s.clock 0) perTenant.toNat
        (s.visible.rows.filterMap Row.delivery?)).map DeliveryRow.key)) =
      (.ok (claimSelection s.visible (s.clock 0) batchSize perTenant), s₁) := by
    refine exec_lockUpTo s₁ _ fun d hd => ?_
    rw [hs₁]
    exact Table.mem_iff_get.mp (mem_deliveries.mp (mem_claimCandidates hd).1)
  have hclaim : (s.Returns (claim observedAt batchSize perTenant) fun _ _ => True) ↔
      s₂.Returns (claimLoop (s.clock 1) batchSize perTenant
        (claimSelection s.visible (s.clock 0) batchSize perTenant) []) fun _ _ => True := by
    unfold claim positive databaseNow selectAll
    simp only [Prog.bind_eq, Session.returns_bind, Session.returns_ofExcept, check_eq_ok,
      decide_eq_true_eq, hbatch, htenant, true_and, exists_const, Session.returns_clock,
      Session.returns_ret, Session.returns_scan]
    rw [hs₁] at hlock
    rw [hs₂]
    exact Session.returns_of_exec hlock
  have hcounters : ∀ tenantId, ((([] : List ClaimedDelivery).countP
      (fun c => c.delivery.tenantId = tenantId) +
        (claimSelection s.visible (s.clock 0) batchSize perTenant).countP
          (fun d => d.tenantId = tenantId) : ℕ) : ℤ) ≤ perTenant := by
    intro tenantId
    rw [List.countP_nil, Nat.zero_add]
    exact hselection.fair tenantId
  have hlength := hselection.overall
  rw [hclaim]
  refine returns_claimLoop ?_ hselection.distinct ?_ hcounters ?_
  · rw [hs₂]
    exact hready
  · rw [List.length_nil, Nat.zero_add]
    exact hlength
  · rw [hs₂]
    have hle : (claimSelection s.visible (s.clock 0) batchSize perTenant).length ≤
        batchSize.toNat := List.length_take_le _ _
    have hfew := hids.mono (Nat.mul_le_mul_left 2 hle)
    exact ⟨hfew.distinct, hfew.unused⟩

end Claiming

/-! ## What runs store -/

section Runs

variable [Platform]

/-- The snapshot of a stored delivery decodes, to a policy whose leases last. -/
theorem Origin.lasting {t : Db} {d : DeliveryRow} (h : Origin t d) :
    ∃ policy, snapshotPolicy d.routeSnapshot = .ok policy ∧
      0 ≤ policy.leaseDurationSeconds.value := by
  rcases h.route with ⟨route, hsnapshot, -⟩
  rcases snapshotPolicy_toSnapshot hsnapshot with
    ⟨base, maximum, timeout, lease, -, -, hvalid, hpolicy⟩
  exact ⟨_, hpolicy, (RetryPolicy.lease_pos rfl).le⟩

omit [Platform] in
theorem DeliveryRecord.exists_make {d : DeliveryRecordArgs} (h : d.postInit = .ok ()) :
    ∃ record, DeliveryRecord.make d = .ok record := by
  unfold DeliveryRecord.make
  split
  · exact ⟨_, rfl⟩
  · rename_i e he
    rw [h] at he
    cases he

/-- A stored delivery decodes under a lease. -/
theorem Origin.decodes_leased {t : Db} {d : DeliveryRow} (h : Origin t d)
    (hchecks : d.checks = true) (token : UUID) {leaseExpiresAt now : Datetime}
    (hreached : d.createdAt ≤ now) :
    ∃ record, deliveryFromRow (leasedDelivery d token leaseExpiresAt now) = .ok record := by
  obtain ⟨hversion, hcount, -, -⟩ := of_decide_eq_true hchecks
  rcases h.route with ⟨route, hsnapshot, hbytes, hroute, -, hkind, hkey⟩
  have haccepted := route.accepted
  have hnonempty : d.routeSnapshotBytes ≠ [] := by
    intro hnil
    obtain ⟨snapshot, -, hcanonical⟩ := bind_eq_ok.mp hbytes
    have hloads := loads_canonicalJsonBytes hcanonical
    rw [hnil] at hloads
    cases hloads
  have hstarted : 0 ≤ d.attemptsStarted + 1 := by omega
  refine DeliveryRecord.exists_make ?_
  simp only [DeliveryRecordArgs.postInit, bind_eq_ok, check_eq_ok, leasedDelivery]
  exact ⟨(), hroute ▸ haccepted.routeKey, (), hkind ▸ haccepted.destinationKind, (),
    hkey ▸ haccepted.destinationKey, (), decide_eq_true hversion, (), decide_eq_true hstarted, (),
    decide_eq_true hnonempty, (), rfl, (), rfl, (), rfl, (), h.replay _ rfl rfl rfl rfl,
    decide_eq_true hreached⟩

variable {now : Datetime} {w : RuntimeWorld}

/-- What a claim selects in a state of a run is ready for it. -/
theorem leasable_of_reachable (hreach : Reachable runtime (RuntimeWorld.start now) w)
    {d : DeliveryRow} (hd : Row.delivery d ∈ w.store.db.rows)
    (hcreated : Datetime.min ≤ d.createdAt) {selectionTime effectiveNow : Datetime}
    (hdue : d.Due selectionTime) (hselection : w.store.now ≤ selectionTime)
    (hnow : selectionTime ≤ effectiveNow) :
    d.Leasable w.store.db effectiveNow := by
  have hfree : Reachable Mode.free.protocol (RuntimeWorld.start now) w := by
    rw [Mode.free_protocol]
    exact hreach
  have hget := Table.mem_iff_get.mp hd
  have hat : deliveryAt w.store.db d.tenantId d.deliveryId = some d := deliveryAt_eq_some.mpr hget
  have horigin := (Mode.worldInv hfree).inv.origin _ _ d hat
  have hlive := Mode.live hfree hat
  rcases (sound_of_reachable hreach _ hd).of_delivery with ⟨hchecks, -⟩
  have hreached : d.createdAt ≤ effectiveNow := by
    by_cases hpending : d.state = .pending
    · have hnext := (hlive.waiting hpending).2
      have hcome := hdue.2
      rw [hnext] at hcome
      exact hcome.trans hnow
    · exact ((hlive.created.trans (hlive.updated hpending)).trans hselection).trans hnow
  exact {
    stored := hget
    checks := hchecks
    waits := by
      intro hleased
      have hclaimable := hdue.1
      simp [DeliveryRow.claimable, hleased] at hclaimable
    created := hcreated
    reached := hreached
    policy := horigin.lasting
    event := horigin.event
    attempts := by
      intro a ha htenant hid
      have hrow : attemptAt w.store.db d.tenantId a.attemptId = some a := by
        rw [← htenant]
        exact attemptAt_eq_some.mpr (Table.mem_iff_get.mp ha)
      exact (hlive.numbered _ a (cellAt_attempts.mpr ⟨hrow, hid⟩)).2
    decodes := fun token leaseExpiresAt => horigin.decodes_leased hchecks token hreached }

end Runs

end FastapiEffects
