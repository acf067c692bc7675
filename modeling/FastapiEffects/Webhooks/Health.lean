import FastapiEffects.Webhooks.Versions

/-! # Subscription health

`Health` says what automatic pausing is for: it counts the consecutive failures recorded in
an active period, and pauses the subscription when they reach the threshold. The stored head
follows it as long as a subscription is reactivated only when its streak is zero, which
nothing in the code sees to.
-/

namespace FastapiEffects

open Python ReadCommitted

/-! ## What pausing is for -/

/-- The health of a subscription: its state, the consecutive failures of its active period,
the threshold, and how often it was paused automatically. -/
structure Health where
  state : SubscriptionState
  consecutive : ℤ
  threshold : ℤ
  autoPauses : ℕ

namespace Health

/-- A new subscription. -/
def new (threshold : ℤ) : Health := ⟨.active, 0, threshold, 0⟩

/-- Setting the state; a new active period starts without failures. -/
def setState (h : Health) (state : SubscriptionState) : Health :=
  if state = .active ∧ h.state ≠ .active then { h with state, consecutive := 0 }
  else { h with state }

theorem setState_keeps (h : Health) (state : SubscriptionState) :
    (h.setState state).state = state ∧ (h.setState state).threshold = h.threshold ∧
      (h.setState state).autoPauses = h.autoPauses := by
  unfold setState
  split_ifs
  · exact ⟨rfl, rfl, rfl⟩
  · exact ⟨rfl, rfl, rfl⟩

/-- A success ends the run of failures. -/
def success (h : Health) : Health := { h with consecutive := 0 }

/-- A failure counts in an active period, and the one that reaches the threshold pauses. -/
def failure (h : Health) : Health :=
  if h.state = .active then
    if h.threshold ≤ h.consecutive + 1 then
      { h with state := .paused, consecutive := h.consecutive + 1, autoPauses := h.autoPauses + 1 }
    else { h with consecutive := h.consecutive + 1 }
  else h

/-- Failures below the threshold leave a subscription active. -/
theorem iterate_failure {h : Health} (hactive : h.state = .active) (k : ℕ)
    (hk : h.consecutive + k < h.threshold) :
    failure^[k] h = { h with consecutive := h.consecutive + k } := by
  induction k with
  | zero => simp
  | succ k ih =>
      have hbelow : h.consecutive + k < h.threshold := by
        push_cast at hk
        omega
      rw [Function.iterate_succ_apply', ih hbelow]
      unfold failure
      simp only [hactive, if_true]
      push_cast at hk ⊢
      rw [if_neg (by omega), add_assoc]

/-- A reactivated subscription tolerates one failure less than its threshold. -/
theorem reactivated {h : Health} (hpaused : h.state ≠ .active) (hthreshold : 0 < h.threshold) :
    (∀ k : ℕ, k < h.threshold → (failure^[k] (h.setState .active)).state = .active) ∧
      (failure^[h.threshold.toNat] (h.setState .active)).state = .paused := by
  have hset : h.setState .active = { h with state := .active, consecutive := 0 } := by
    unfold setState
    rw [if_pos ⟨rfl, hpaused⟩]
  rw [hset]
  have hbelow : ∀ k : ℕ, k < h.threshold →
      failure^[k] { h with state := .active, consecutive := 0 } =
        { h with state := .active, consecutive := (0 : ℤ) + k } := by
    intro k hk
    exact iterate_failure rfl k (by simpa using hk)
  refine ⟨fun k hk => by rw [hbelow k hk], ?_⟩
  obtain ⟨n, hn⟩ : ∃ n, h.threshold.toNat = n + 1 := ⟨h.threshold.toNat - 1, by omega⟩
  rw [hn, Function.iterate_succ_apply', hbelow n (by omega)]
  unfold failure
  simp only [if_true]
  rw [if_pos (by omega)]

end Health

/-! ## What a commit means for the health of a subscription -/

section Tracked

variable (tenantId id : UUID)

/-- The health after an operation that returned; `fresh` when it created the subscription. -/
def WebhookOp.health (fresh : Bool) (h : Option Health) : WebhookOp → Option Health
  | .create _ _ _ _ _ _ threshold => if fresh then some (.new threshold) else h
  | .setState principal target _ state _ _ =>
      if principal.tenantId = tenantId ∧ target = id then h.map fun h => h.setState state else h
  | .recordSuccess tenant target _ =>
      if tenant = tenantId ∧ target = id then h.map Health.success else h
  | .recordFailure tenant target _ =>
      if tenant = tenantId ∧ target = id then h.map Health.failure else h
  | _ => h

/-- The health after a transaction that took the rows from `db` to `db'`. -/
def healthAfter (e : Entry WebhookKey WebhookRow PyError WebhookOp WebhookOutcome) (db db' : WebhookDb)
    (h : Option Health) : Option Health :=
  match e.result with
  | .ok _ => e.op.health tenantId id
      ((headAt db tenantId id).isNone && (headAt db' tenantId id).isSome) h
  | .error _ => h

/-- Whether the details of an audit row are those of an automatic pause. -/
def isPauseDetails : Json → Bool
  | .obj [(key, .int _)] => key = "failure_streak"
  | _ => false

/-- The audit row of an automatic pause of the subscription. -/
def isPauseAudit : WebhookRow → Bool
  | .audit r => r.tenantId = tenantId ∧ r.targetId = id ∧ isPauseDetails r.details
  | _ => false

theorem isPauseDetails_streak (n : ℤ) : isPauseDetails (.obj [("failure_streak", .int n)]) = true := by
  simp [isPauseDetails]

theorem isPauseDetails_of_ne {key : Str} {n : ℤ} (h : key ≠ "failure_streak") :
    isPauseDetails (.obj [(key, .int n)]) = false := decide_eq_false h

variable {tenantId id} in
theorem isPauseAudit_of_details {row : WebhookAuditRow} (h : isPauseDetails row.details = false) :
    isPauseAudit tenantId id (.audit row) = false := by
  refine decide_eq_false fun hpause => ?_
  rw [h] at hpause
  cases hpause.2.2

/-- The number of audit rows of automatic pauses. -/
def pauseAudits (db : WebhookDb) : ℕ := db.rows.countP (isPauseAudit tenantId id)

/-- The stored head has the health `h`. -/
def HasHealth (db : WebhookDb) : Option Health → Prop
  | none => headAt db tenantId id = none ∧ pauseAudits tenantId id db = 0
  | some h => ∃ head, headAt db tenantId id = some head ∧ head.state = h.state ∧
      head.autoPauseThreshold = h.threshold ∧ 0 < h.threshold ∧
      pauseAudits tenantId id db = h.autoPauses ∧
      (head.state = .active → head.failureStreak = h.consecutive ∧
        head.failureStreak < head.autoPauseThreshold)

end Tracked

/-! ## Counting pauses -/

section Count

variable {tenantId id : UUID} {db : WebhookDb}

theorem pauseAudits_put {row : WebhookRow}
    (hkeep : ∀ r ∈ db.rows, isPauseAudit tenantId id r = true → r.key ≠ row.key) :
    pauseAudits tenantId id (db.put row) =
      pauseAudits tenantId id db + if isPauseAudit tenantId id row then 1 else 0 := by
  have hcount : (db.rows.filter fun r => Schema.key r ≠ (Schema.key row : WebhookKey)).countP
      (isPauseAudit tenantId id) = db.rows.countP (isPauseAudit tenantId id) := by
    rw [List.countP_filter]
    refine List.countP_congr fun r hr => ?_
    simp only [Bool.and_eq_true, decide_eq_true_eq, and_iff_left_iff_imp]
    exact hkeep r hr
  change (row :: db.rows.filter _).countP _ = _
  rw [List.countP_cons, hcount]
  rfl

/-- Other rows than audit rows do not count. -/
theorem pauseAudits_put_other {row : WebhookRow} (h : row.audit? = none) :
    pauseAudits tenantId id (db.put row) = pauseAudits tenantId id db := by
  rw [pauseAudits_put, if_neg, add_zero]
  · cases row with
    | audit r => cases h
    | _ => simp [isPauseAudit]
  · intro r _ hpause hkey
    cases r with
    | audit r =>
        cases row with
        | audit row => cases h
        | _ => cases hkey
    | _ => cases hpause

/-- A new audit row counts when it is about a pause. -/
theorem pauseAudits_put_audit {row : WebhookAuditRow}
    (hfree : db.get (.audit row.tenantId row.auditId) = none) :
    pauseAudits tenantId id (db.put (.audit row)) =
      pauseAudits tenantId id db + if isPauseAudit tenantId id (.audit row) then 1 else 0 := by
  refine pauseAudits_put fun r hr _ => ?_
  exact Table.get_eq_none_iff.mp hfree r hr

end Count

/-! ## The stored head follows -/

section Follows

variable {tenantId id : UUID} {db : WebhookDb}

/-- A head of another subscription, or a row that is neither a head nor an audit row. -/
theorem HasHealth.put_other {h : Option Health} (hh : HasHealth tenantId id db h) {row : WebhookRow}
    (haudit : row.audit? = none) (hhead : headAt (db.put row) tenantId id = headAt db tenantId id) :
    HasHealth tenantId id (db.put row) h := by
  cases h with
  | none => exact ⟨hhead.trans hh.1, (pauseAudits_put_other haudit).trans hh.2⟩
  | some h =>
      obtain ⟨head, hget, hstate, hthreshold, hpositive, hpauses, hactive⟩ := hh
      exact ⟨head, hhead.trans hget, hstate, hthreshold, hpositive,
        (pauseAudits_put_other haudit).trans hpauses, hactive⟩

/-- An audit row that is not about an automatic pause of the subscription. -/
theorem HasHealth.put_audit {h : Option Health} (hh : HasHealth tenantId id db h)
    {row : WebhookAuditRow} (hfree : db.get (.audit row.tenantId row.auditId) = none)
    (hpause : isPauseAudit tenantId id (.audit row) = false) :
    HasHealth tenantId id (db.put (.audit row)) h := by
  have hcount : pauseAudits tenantId id (db.put (.audit row)) = pauseAudits tenantId id db := by
    rw [pauseAudits_put_audit hfree, hpause]
    rfl
  cases h with
  | none => exact ⟨(headAt_put_other rfl).trans hh.1, hcount.trans hh.2⟩
  | some h =>
      obtain ⟨head, hget, hstate, hthreshold, hpositive, hpauses, hactive⟩ := hh
      exact ⟨head, (headAt_put_other rfl).trans hget, hstate, hthreshold, hpositive,
        hcount.trans hpauses, hactive⟩

/-- A head of another subscription. -/
theorem HasHealth.put_otherHead {h : Option Health} (hh : HasHealth tenantId id db h)
    {head : WebhookSubscriptionRow} (hne : ¬ (head.tenantId = tenantId ∧ head.subscriptionId = id)) :
    HasHealth tenantId id (db.put (.subscription head)) h := by
  refine hh.put_other rfl ?_
  rw [headAt_put_head, if_neg hne]

/-- The head itself, under its new health. -/
theorem HasHealth.put_head {h h' : Health} (hh : HasHealth tenantId id db (some h))
    {head' : WebhookSubscriptionRow} (htenant : head'.tenantId = tenantId)
    (hid : head'.subscriptionId = id) (hstate : head'.state = h'.state)
    (hthreshold : head'.autoPauseThreshold = h'.threshold) (hkept : h'.threshold = h.threshold)
    (hpauses : h'.autoPauses = h.autoPauses)
    (hactive : head'.state = .active →
      head'.failureStreak = h'.consecutive ∧ head'.failureStreak < head'.autoPauseThreshold) :
    HasHealth tenantId id (db.put (.subscription head')) (some h') := by
  obtain ⟨head, -, -, -, hpositive, hcount, -⟩ := hh
  refine ⟨head', ?_, hstate, hthreshold, hkept ▸ hpositive, ?_, hactive⟩
  · rw [headAt_put_head, if_pos ⟨htenant, hid⟩]
  · rw [pauseAudits_put_other rfl, hcount, hpauses]

/-- What is known of a stored head. -/
theorem HasHealth.head {h : Option Health} (hh : HasHealth tenantId id db h)
    {head : WebhookSubscriptionRow} (hget : headAt db tenantId id = some head) :
    ∃ k, h = some k ∧ head.state = k.state ∧ head.autoPauseThreshold = k.threshold ∧
      0 < k.threshold ∧ pauseAudits tenantId id db = k.autoPauses ∧
      (head.state = .active → head.failureStreak = k.consecutive ∧
        head.failureStreak < head.autoPauseThreshold) := by
  cases h with
  | none =>
      rw [hh.1] at hget
      cases hget
  | some k =>
      obtain ⟨head', hget', hrest⟩ := hh
      cases hget.symm.trans hget'
      exact ⟨k, rfl, hrest⟩

theorem hasHealth_install_deliveries {h : Option Health} {rows : List DeliveryRow} {db : WebhookDb}
    (hh : HasHealth tenantId id db h) :
    HasHealth tenantId id (db.install (rows.map fun r => .put (.delivery r))) h := by
  induction rows generalizing db with
  | nil => exact hh
  | cons r rows ih => exact ih (hh.put_other rfl (headAt_put_other rfl))

end Follows

/-! ## The condition -/

/-- A reactivation finds the streak at zero. -/
def WebhookOp.Resets (db : WebhookDb) : WebhookOp → Prop
  | .setState principal id _ .active _ _ => ∀ head, headAt db principal.tenantId id = some head →
      head.state ≠ .active → head.failureStreak = 0
  | _ => True

section Effect

variable [Urllib] {tenantId id : UUID} {db db' : WebhookDb} {op : WebhookOp} {h : Option Health}

open SubscriptionRepository in
theorem WebhookOp.Effect.health_create {principal : Principal} {types : List Str} {url : Str}
    {policy : RetryPolicy} {set : UUID} {now : Datetime} {threshold : ℤ}
    (heffect : (WebhookOp.create principal types url policy set now threshold).Effect db db')
    (hh : HasHealth tenantId id db h) :
    HasHealth tenantId id db' (if (headAt db tenantId id).isNone && (headAt db' tenantId id).isSome
      then some (.new threshold) else h) := by
  obtain ⟨target, auditId, eventTypes, endpoint, json, -, hpositive, hfree, -, haudit, hdb⟩ := heffect
  have hfresh : ∀ v : WebhookSubscriptionVersionRow,
      ((db.put (.subscription (newHead principal target threshold now))).put (.version v)).get
        (.audit principal.tenantId auditId) = none := by
    intro v
    rw [get_audit_put_other rfl, get_audit_put_other rfl, haudit]
  have hhead : headAt db' tenantId id = if principal.tenantId = tenantId ∧ target = id then
      some (newHead principal target threshold now) else headAt db tenantId id := by
    rw [hdb, headAt_put_other rfl, headAt_put_other rfl, headAt_put_head]
    rfl
  by_cases hsame : principal.tenantId = tenantId ∧ target = id
  · rw [if_pos hsame] at hhead
    obtain ⟨rfl, rfl⟩ := hsame
    have hnone : headAt db principal.tenantId target = none := headAt_eq_none.mpr hfree
    have hcount : pauseAudits principal.tenantId target db = 0 := by
      cases h with
      | none => exact hh.2
      | some h =>
          obtain ⟨head, hget, -⟩ := hh
          rw [hnone] at hget
          cases hget
    have hnew : HasHealth principal.tenantId target
        (db.put (.subscription (newHead principal target threshold now))) (some (.new threshold)) := by
      refine ⟨newHead principal target threshold now, ?_, rfl, rfl, ?_, ?_, fun _ => ⟨rfl, ?_⟩⟩
      · rw [headAt_put_head]
        exact if_pos ⟨rfl, rfl⟩
      · exact Int.lt_of_lt_of_le zero_lt_one hpositive
      · rw [pauseAudits_put_other rfl, hcount]
        rfl
      · exact Int.lt_of_lt_of_le zero_lt_one hpositive
    rw [hhead, hnone]
    change HasHealth _ _ db' (some (.new threshold))
    rw [hdb]
    exact HasHealth.put_audit (hnew.put_other rfl (headAt_put_other rfl)) (hfresh _)
      (isPauseAudit_of_details (isPauseDetails_of_ne (by decide)))
  · rw [if_neg hsame] at hhead
    rw [hhead, if_neg (by cases headAt db tenantId id <;> simp), hdb]
    refine HasHealth.put_audit (HasHealth.put_other (hh.put_otherHead hsame) rfl
      (headAt_put_other rfl)) (hfresh _) ?_
    exact isPauseAudit_of_details (isPauseDetails_of_ne (by decide))

open SubscriptionRepository in
theorem WebhookOp.Effect.health_update {principal : Principal} {target : UUID} {revision : ℤ}
    {types : List Str} {url : Str} {policy : RetryPolicy} {set : UUID} {now : Datetime}
    (heffect : (WebhookOp.update principal target revision types url policy set now).Effect db db')
    (hh : HasHealth tenantId id db h) : HasHealth tenantId id db' h := by
  obtain ⟨head, auditId, eventTypes, endpoint, json, -, hget, -, -, haudit, rfl⟩ := heffect
  obtain ⟨-, htenant, hid⟩ := get_of_headAt hget
  refine HasHealth.put_audit (HasHealth.put_other ?_ rfl (headAt_put_other rfl)) ?_ ?_
  · by_cases hsame : principal.tenantId = tenantId ∧ target = id
    · obtain ⟨rfl, rfl⟩ := hsame
      obtain ⟨k, rfl, hstate, hthreshold, -, -, hactive⟩ := hh.head hget
      exact hh.put_head htenant hid hstate hthreshold rfl rfl hactive
    · refine hh.put_otherHead fun heq => hsame ?_
      exact ⟨htenant.symm.trans heq.1, hid.symm.trans heq.2⟩
  · rw [get_audit_put_other rfl, get_audit_put_other rfl]
    exact haudit
  · exact isPauseAudit_of_details (isPauseDetails_of_ne (by decide))

open SubscriptionRepository in
theorem WebhookOp.Effect.health_setState {principal : Principal} {target : UUID} {revision : ℤ}
    {state : SubscriptionState} {now : Datetime} {action : Option Str}
    (heffect : (WebhookOp.setState principal target revision state now action).Effect db db')
    (hresets : (WebhookOp.setState principal target revision state now action).Resets db)
    (hh : HasHealth tenantId id db h) :
    HasHealth tenantId id db' (if principal.tenantId = tenantId ∧ target = id
      then h.map fun h => h.setState state else h) := by
  obtain ⟨head, auditId, hget, -, haudit, rfl⟩ := heffect
  obtain ⟨-, htenant, hid⟩ := get_of_headAt hget
  refine HasHealth.put_audit ?_ ?_ ?_
  · by_cases hsame : principal.tenantId = tenantId ∧ target = id
    · obtain ⟨rfl, rfl⟩ := hsame
      obtain ⟨k, rfl, hstate, hthreshold, hpositive, -, hactive⟩ := hh.head hget
      rw [if_pos ⟨rfl, rfl⟩]
      change HasHealth _ _ _ (some (k.setState state))
      obtain ⟨hset, hkept, hpauses⟩ := k.setState_keeps state
      refine hh.put_head htenant hid hset.symm (hthreshold.trans hkept.symm) hkept hpauses ?_
      intro hnew
      change state = .active at hnew
      change head.failureStreak = (k.setState state).consecutive ∧
        head.failureStreak < head.autoPauseThreshold
      by_cases hwas : head.state = .active
      · unfold Health.setState
        rw [if_neg fun hchange => hchange.2 (hstate ▸ hwas)]
        exact hactive hwas
      · subst hnew
        have hzero := hresets head hget hwas
        unfold Health.setState
        rw [if_pos ⟨rfl, hstate ▸ hwas⟩, hzero, hthreshold]
        exact ⟨rfl, hpositive⟩
    · rw [if_neg hsame]
      refine hh.put_otherHead fun heq => hsame ?_
      exact ⟨htenant.symm.trans heq.1, hid.symm.trans heq.2⟩
  · rw [get_audit_put_other rfl]
    exact haudit
  · exact isPauseAudit_of_details (isPauseDetails_of_ne (by decide))

theorem WebhookOp.Effect.health_recordSuccess {tenant target : UUID} {now : Datetime}
    (heffect : (WebhookOp.recordSuccess tenant target now).Effect db db')
    (hh : HasHealth tenantId id db h) :
    HasHealth tenantId id db'
      (if tenant = tenantId ∧ target = id then h.map Health.success else h) := by
  obtain ⟨head, hget, hdb⟩ := heffect
  obtain ⟨-, htenant, hid⟩ := get_of_headAt hget
  by_cases hsame : tenant = tenantId ∧ target = id
  · rw [if_pos hsame]
    obtain ⟨rfl, rfl⟩ := hsame
    obtain ⟨k, rfl, hstate, hthreshold, hpositive, hcount, hactive⟩ := hh.head hget
    change HasHealth _ _ _ (some k.success)
    by_cases hzero : head.failureStreak = 0
    · rw [hdb, if_pos hzero]
      exact ⟨head, hget, hstate, hthreshold, hpositive, hcount,
        fun hs => ⟨hzero, (hactive hs).2⟩⟩
    · rw [hdb, if_neg hzero]
      refine hh.put_head htenant hid hstate hthreshold rfl rfl fun _ => ⟨rfl, ?_⟩
      change 0 < head.autoPauseThreshold
      rw [hthreshold]
      exact hpositive
  · rw [if_neg hsame]
    by_cases hzero : head.failureStreak = 0
    · rw [hdb, if_pos hzero]
      exact hh
    · rw [hdb, if_neg hzero]
      refine hh.put_otherHead fun heq => hsame ?_
      exact ⟨htenant.symm.trans heq.1, hid.symm.trans heq.2⟩

open WebhookHealthRepository in
theorem WebhookOp.Effect.health_recordFailure {tenant target : UUID} {now : Datetime}
    (heffect : (WebhookOp.recordFailure tenant target now).Effect db db')
    (hh : HasHealth tenantId id db h) :
    HasHealth tenantId id db'
      (if tenant = tenantId ∧ target = id then h.map Health.failure else h) := by
  obtain ⟨head, hget, heffect⟩ := heffect
  obtain ⟨-, htenant, hid⟩ := get_of_headAt hget
  by_cases hsame : tenant = tenantId ∧ target = id
  · obtain ⟨rfl, rfl⟩ := hsame
    obtain ⟨k, rfl, hstate, hthreshold, hpositive, hcount, hactive⟩ := hh.head hget
    rw [if_pos ⟨rfl, rfl⟩]
    split_ifs at heffect with hpauses
    · -- the failure that reaches the threshold
      obtain ⟨auditId, haudit, rfl⟩ := heffect
      obtain ⟨hwas, hreached⟩ : head.state = .active ∧
        head.autoPauseThreshold ≤ head.failureStreak + 1 := of_decide_eq_true hpauses
      obtain ⟨hstreak, -⟩ := hactive hwas
      have hfailure : k.failure = { k with
          state := .paused, consecutive := k.consecutive + 1, autoPauses := k.autoPauses + 1 } := by
        unfold Health.failure
        rw [if_pos (hstate ▸ hwas), if_pos (by rw [← hthreshold, ← hstreak]; exact hreached)]
      have hfree : (db.put (.subscription { failed head now with state := .paused })).get
          (.audit head.tenantId auditId) = none := by
        rw [get_audit_put_other rfl, htenant]
        exact haudit
      refine ⟨{ failed head now with state := .paused }, ?_, ?_, ?_, ?_, ?_, fun hs => ?_⟩
      · rw [headAt_put_other rfl, headAt_put_head]
        exact if_pos ⟨htenant, hid⟩
      · rw [hfailure]
      · rw [hfailure]
        exact hthreshold
      · rw [hfailure]
        exact hpositive
      · have hpause : isPauseAudit tenant target
            (.audit (pauseAudit (failed head now) auditId now)) = true :=
          decide_eq_true ⟨htenant, hid, isPauseDetails_streak _⟩
        rw [pauseAudits_put_audit hfree, hpause, pauseAudits_put_other rfl, hcount, hfailure]
        rfl
      · cases hs
    · rw [heffect]
      have hkept : k.failure.state = k.state ∧ k.failure.threshold = k.threshold ∧
          k.failure.autoPauses = k.autoPauses ∧
          (head.state = .active → head.failureStreak + 1 = k.failure.consecutive ∧
            head.failureStreak + 1 < head.autoPauseThreshold) := by
        unfold Health.failure
        by_cases hwas : k.state = .active
        · have hbelow : ¬ head.autoPauseThreshold ≤ head.failureStreak + 1 :=
            fun hreached => hpauses (decide_eq_true ⟨hstate.trans hwas, hreached⟩)
          obtain ⟨hstreak, -⟩ := hactive (hstate.trans hwas)
          rw [if_pos hwas, if_neg (by rw [← hthreshold, ← hstreak]; exact hbelow)]
          exact ⟨rfl, rfl, rfl, fun _ => ⟨congrArg (· + 1) hstreak, not_le.mp hbelow⟩⟩
        · rw [if_neg hwas]
          exact ⟨rfl, rfl, rfl, fun hs => absurd (hstate ▸ hs) hwas⟩
      obtain ⟨hstate', hthreshold', hpauses', hactive'⟩ := hkept
      exact hh.put_head htenant hid (hstate.trans hstate'.symm) (hthreshold.trans hthreshold'.symm)
        hthreshold' hpauses' hactive'
  · rw [if_neg hsame]
    have hother : ¬ (head.tenantId = tenantId ∧ head.subscriptionId = id) :=
      fun heq => hsame ⟨htenant.symm.trans heq.1, hid.symm.trans heq.2⟩
    split_ifs at heffect with hpauses
    · obtain ⟨auditId, haudit, rfl⟩ := heffect
      refine HasHealth.put_audit ?_ ?_ ?_
      · exact hh.put_otherHead hother
      · change (db.put _).get (.audit head.tenantId auditId) = none
        rw [get_audit_put_other rfl, htenant]
        exact haudit
      · exact decide_eq_false fun hpause => hother ⟨hpause.1, hpause.2.1⟩
    · rw [heffect]
      exact hh.put_otherHead hother

/-- One effect. -/
theorem WebhookOp.Effect.health (heffect : op.Effect db db') (hresets : op.Resets db)
    (hh : HasHealth tenantId id db h) :
    HasHealth tenantId id db' (op.health tenantId id
      ((headAt db tenantId id).isNone && (headAt db' tenantId id).isSome) h) := by
  cases op with
  | addSecretSet row =>
      obtain ⟨-, rfl⟩ := heffect
      exact hh.put_other rfl (headAt_put_other rfl)
  | create principal types url policy set now threshold => exact heffect.health_create hh
  | update principal target revision types url policy set now => exact heffect.health_update hh
  | setState principal target revision state now action => exact heffect.health_setState hresets hh
  | recordSuccess tenant target now => exact heffect.health_recordSuccess hh
  | recordFailure tenant target now => exact heffect.health_recordFailure hh
  | publish tenant eventId eventType now =>
      obtain ⟨rows, -, rfl⟩ := heffect
      exact hasHealth_install_deliveries hh

end Effect

/-! ## Every run that meets the condition -/

section Runs

variable [Platform] [Urllib]

/-- The end of a transaction that returned meets the condition. -/
def Meets (w w' : WebhookWorld) : Prop :=
  ∀ e a, w'.store.log = w.store.log ++ [e] → e.result = .ok a → e.op.Resets w.store.db

/-- The health of a subscription along a run. -/
inductive Tracked (tenantId id : UUID) (now : Datetime) : WebhookWorld → Option Health → Prop where
  | start : Tracked tenantId id now (WebhookWorld.start now) none
  | silent {w w' h} (hw : Tracked tenantId id now w h) (hstep : Step webhooks w w')
      (hlog : w'.store.log = w.store.log) : Tracked tenantId id now w' h
  | ended {w w' h e} (hw : Tracked tenantId id now w h) (hstep : Step webhooks w w')
      (hlog : w'.store.log = w.store.log ++ [e]) :
      Tracked tenantId id now w' (healthAfter tenantId id e w.store.db w'.store.db h)

/-- In a run that meets the condition the stored heads have the health their history gives them. -/
theorem health_tracked {now : Datetime} {w : WebhookWorld}
    (hreach : Relation.ReflTransGen (fun w w' => Step webhooks w w' ∧ Meets w w')
      (WebhookWorld.start now) w) :
    Reachable webhooks (WebhookWorld.start now) w ∧
    ∀ tenantId id, ∃ h, Tracked tenantId id now w h ∧ HasHealth tenantId id w.store.db h := by
  induction hreach with
  | refl => exact ⟨.refl, fun tenantId id => ⟨none, .start, rfl, rfl⟩⟩
  | @tail w w' _ hstep ih =>
      obtain ⟨hreach, ih⟩ := ih
      obtain ⟨hstep, hmeets⟩ := hstep
      refine ⟨hreach.tail hstep, fun tenantId id => ?_⟩
      obtain ⟨h, htracked, hh⟩ := ih tenantId id
      rcases applies_of_step (webhooks_worldInv hreach) hstep with ⟨hdb, hlog⟩ | ⟨e, hlog, he⟩
      · refine ⟨h, htracked.silent hstep hlog, ?_⟩
        rw [hdb]
        exact hh
      · refine ⟨_, htracked.ended hstep hlog, ?_⟩
        unfold Applies at he
        unfold healthAfter
        cases hresult : e.result with
        | ok a =>
            rw [hresult] at he
            exact WebhookOp.Effect.health he (hmeets e a hlog hresult) hh
        | error err =>
            rw [hresult] at he
            rw [he]
            exact hh

/-- In every run that reactivates a subscription only when its streak is zero, an active
subscription is below its threshold; the stored head has the health its history gives it, so that
the failure which reaches the threshold pauses, with one audit row; and a reactivated one tolerates
one failure less than its threshold. -/
theorem subscription_health {now : Datetime} {w : WebhookWorld}
    (hreach : Relation.ReflTransGen (fun w w' => Step webhooks w w' ∧ Meets w w')
      (WebhookWorld.start now) w) (tenantId id : UUID) :
    (∀ head, headAt w.store.db tenantId id = some head → head.state = .active →
      head.failureStreak < head.autoPauseThreshold) ∧
    ∃ h, Tracked tenantId id now w h ∧ HasHealth tenantId id w.store.db h ∧
      ∀ k, h = some k → k.state ≠ .active →
        (∀ n : ℕ, n < k.threshold → (Health.failure^[n] (k.setState .active)).state = .active) ∧
          (Health.failure^[k.threshold.toNat] (k.setState .active)).state = .paused := by
  obtain ⟨h, htracked, hh⟩ := (health_tracked hreach).2 tenantId id
  refine ⟨fun head hget hactive => ?_, h, htracked, hh, ?_⟩
  · obtain ⟨k, -, -, -, -, -, hbelow⟩ := hh.head hget
    exact (hbelow hactive).2
  · rintro k rfl hpaused
    obtain ⟨head, -, -, -, hpositive, -⟩ := hh
    exact Health.reactivated hpaused hpositive

/-- Whether an operation sets a subscription active. -/
def WebhookOp.reactivates : WebhookOp → Bool
  | .setState _ _ _ .active _ _ => true
  | _ => false

/-- A run without reactivations meets the condition. -/
theorem meets_of_log {now : Datetime} {w : WebhookWorld}
    (hreach : Reachable webhooks (WebhookWorld.start now) w)
    (hlog : ∀ e ∈ w.store.log, e.op.reactivates = false) :
    Relation.ReflTransGen (fun w w' => Step webhooks w w' ∧ Meets w w') (WebhookWorld.start now) w := by
  induction hreach with
  | refl => exact .refl
  | @tail w w' hreach hstep ih =>
      have hkept : w.store.log ⊆ w'.store.log := by
        rcases applies_of_step (webhooks_worldInv hreach) hstep with ⟨-, hsame⟩ | ⟨e, hadds, -⟩
        · rw [hsame]
          exact List.Subset.refl _
        · rw [hadds]
          exact List.subset_append_left _ _
      refine .tail (ih fun e he => hlog e (hkept he)) ⟨hstep, fun e a hadds _ => ?_⟩
      have hop := hlog e (hadds ▸ List.mem_append_right _ List.mem_cons_self)
      cases hcase : e.op with
      | setState principal target revision state now action =>
          rw [hcase] at hop
          cases state with
          | active => cases hop
          | paused => trivial
          | disabled => trivial
      | _ => trivial

end Runs

namespace Subscribing

/-- A failure of subscription 3, whose threshold is 1. -/
def failing : List (Act UUID WebhookOp) :=
  created ++ [.start (.recordFailure 1 3 0), .step 2, .mint 2 5, .step 2, .step 2, .step 2]

/-- After the failure it is set active again. -/
def reactivating : List (Act UUID WebhookOp) :=
  failing ++ [.start (.setState principal 3 2 .active 0 none), .step 3, .step 3, .step 3, .mint 3 6,
    .step 3, .step 3]

end Subscribing

open Checksum Subscribing in
/-- The failure pauses the subscription, with one audit row. -/
theorem subscription_health_failing : ∃ (w : WebhookWorld) (head : WebhookSubscriptionRow) (h : Health),
    headAt w.store.db 1 3 = some head ∧ head.state = .paused ∧ pauseAudits 1 3 w.store.db = 1 ∧
      Tracked 1 3 0 w (some h) ∧ h.state = .paused ∧ h.autoPauses = 1 := by
  have hrun : ((WebhookWorld.start 0).run webhooks failing).any (fun w =>
      (headAt w.store.db 1 3).any fun head => head.state = .paused ∧
        pauseAudits 1 3 w.store.db = 1 ∧ w.store.log.all fun e => e.op.reactivates = false) = true := by
    decide +kernel
  simp only [Option.any_eq_true, decide_eq_true_eq, List.all_eq_true] at hrun
  obtain ⟨w, hw, head, hhead, hpaused, hcount, hlog⟩ := hrun
  obtain ⟨-, h, htracked, hh, -⟩ :=
    subscription_health (meets_of_log (World.run_reachable hw) hlog) 1 3
  obtain ⟨k, rfl, hstate, -, -, hpauses, -⟩ := hh.head hhead
  exact ⟨w, head, k, hhead, hpaused, hcount, htracked, hstate.symm.trans hpaused,
    hpauses.symm.trans hcount⟩

open Checksum Subscribing in
/-- A subscription that was paused and set active again is active at its threshold. -/
theorem reactivated_at_threshold : ¬ ∀ (w : WebhookWorld),
    Reachable webhooks (WebhookWorld.start 0) w → ∀ tenantId id head,
      headAt w.store.db tenantId id = some head → head.state = .active →
        head.failureStreak < head.autoPauseThreshold := by
  intro hclaim
  have hrun : ((WebhookWorld.start 0).run webhooks reactivating).any (fun w =>
      (headAt w.store.db 1 3).any fun head => head.state = .active ∧
        head.failureStreak = 1 ∧ head.autoPauseThreshold = 1) = true := by
    decide +kernel
  simp only [Option.any_eq_true, decide_eq_true_eq] at hrun
  obtain ⟨w, hw, head, hhead, hactive, hstreak, hthreshold⟩ := hrun
  have hbelow := hclaim w (World.run_reachable hw) 1 3 head hhead hactive
  rw [hstreak, hthreshold] at hbelow
  exact absurd hbelow (lt_irrefl 1)

end FastapiEffects
