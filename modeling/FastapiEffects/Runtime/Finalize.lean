import FastapiEffects.Runtime.Statements

/-! # Ending a lease

`_locked_active_rows` and the two ways a lease is finalized under its locks. Each
ends in one `close` move of the delivery.
-/

namespace FastapiEffects

open Python ReadCommitted

variable [Platform]

/-- What `_locked_active_rows` returns, of a claim: both rows, locked and live at `τ`. -/
structure Locked (m : Mode) (cd : ClaimedDelivery) (c : RuntimeCtx) (s : RuntimeStore)
    (r : DeliveryRow) (a : AttemptRow) (τ : Datetime) : Prop where
  heldDelivery : .delivery cd.delivery.tenantId cd.delivery.deliveryId ∈ c.held
  heldAttempt : .attempt cd.attempt.tenantId cd.attempt.attemptId ∈ c.held
  delivery : deliveryAt (c.visible s.db) cd.delivery.tenantId cd.delivery.deliveryId = some r
  attempt : attemptAt (c.visible s.db) cd.attempt.tenantId cd.attempt.attemptId = some a
  leased : r.state = .leased
  token : r.leaseToken = some cd.leaseToken
  attemptToken : a.leaseToken = cd.leaseToken
  started : a.outcome = .started
  expiry : ∃ x, r.leaseExpiresAt = some x ∧ τ < x
  time : τ ≤ s.now
  inv : (cd.cell s.db).Inv m.fenced τ

section Locked

variable {m : Mode} {op : Op} {cd : ClaimedDelivery} {c c' : RuntimeCtx} {s s' : RuntimeStore}
  {r : DeliveryRow} {a : AttemptRow} {τ : Datetime}
  {E : PyError → RuntimeCtx → RuntimeStore → Prop}

theorem deliveryAt_env (henv : m.discipline.Env c s s') {t d : UUID}
    (hheld : .delivery t d ∈ c.held) :
    deliveryAt (c.visible s'.db) t d = deliveryAt (c.visible s.db) t d := by
  rw [deliveryAt, henv.visible_get hheld, ← deliveryAt]

theorem attemptAt_env (henv : m.discipline.Env c s s') {t i : UUID}
    (hheld : .attempt t i ∈ c.held) :
    attemptAt (c.visible s'.db) t i = attemptAt (c.visible s.db) t i := by
  rw [attemptAt, henv.visible_get hheld, ← attemptAt]

theorem Locked.env (h : Locked m cd c s r a τ) (henv : m.discipline.Env c s s') :
    Locked m cd c s' r a τ :=
  { h with
    delivery := by rw [deliveryAt_env henv h.heldDelivery, h.delivery]
    attempt := by rw [attemptAt_env henv h.heldAttempt, h.attempt]
    time := h.time.trans henv.time
    inv := by
      rw [ClaimedDelivery.cell, henv.rely _ h.heldDelivery]
      exact h.inv }

/-- `_locked_active_rows`: the rows of a live lease, or `LeaseLost` with nothing changed. -/
theorem wp_lockedActiveRows {now : Datetime}
    {Q : DeliveryRow × AttemptRow × Datetime → RuntimeCtx → RuntimeStore → Prop}
    (hlost : ∀ c' s', m.discipline.Env c s s' → Grown c c' →
      E (.leaseLost cd.delivery.deliveryId) c' s')
    (hQ : ∀ r a τ c' s', m.discipline.Env c s s' → Grown c c' → Locked m cd c' s' r a τ →
      s.now ≤ τ → c'.clocks = c.clocks ++ [τ] → Q (r, a, τ) c' s') :
    m.discipline.wp op Q E (lockedActiveRows cd now) c s := by
  simp only [lockedActiveRows, Prog.bind_eq, Discipline.wp_bind]
  refine wp_selectForUpdate (fun c₁ s₁ henv hgrown _ _ => hlost _ _ henv hgrown) ?_
  intro r c₁ s₁ henv₁ hgrown₁ hclocks₁ hheld hr
  have hr₁ : deliveryAt (c₁.visible s₁.db) _ _ = some r := hr
  cases hx : r.leaseExpiresAt with
  | none =>
      simp only [hx]
      exact hlost _ _ henv₁ hgrown₁
  | some x =>
      simp only [hx]
      split_ifs with hstale
      · exact hlost _ _ henv₁ hgrown₁
      obtain ⟨hleased, htoken⟩ := not_or.mp hstale
      rw [not_not] at hleased htoken
      simp only [Discipline.wp_bind]
      refine wp_selectForUpdate (fun c₂ s₂ henv hgrown _ _ =>
        hlost _ _ (henv₁.trans (hgrown₁.env henv)) (hgrown₁.trans hgrown)) ?_
      intro a c₂ s₂ henv₂ hgrown₂ hclocks₂ hheld' ha
      have ha₂ : attemptAt (c₂.visible s₂.db) _ _ = some a := ha
      have henv₁₂ := henv₁.trans (hgrown₁.env henv₂)
      have hgrown₁₂ := hgrown₁.trans hgrown₂
      have hr₂ := hr₁
      rw [← deliveryAt_env henv₂ hheld, ← hgrown₂.visible] at hr₂
      dsimp only
      split_ifs with hother
      · exact hlost _ _ henv₁₂ hgrown₁₂
      obtain ⟨htoken', hstarted⟩ := not_or.mp hother
      rw [not_not] at htoken' hstarted
      simp only [Discipline.wp_bind]
      -- the clock is read under both locks
      refine wp_databaseNow fun s₃ henv₃ => ?_
      have henv₁₃ := henv₁₂.trans (hgrown₁₂.env henv₃)
      have hgrown₁₃ := hgrown₁₂.trans (Grown.tell c₂ s₃.now)
      split_ifs with hlate
      · exact hlost _ _ henv₁₃ hgrown₁₃
      refine hQ r a s₃.now _ s₃ henv₁₃ hgrown₁₃ ?_ henv₁₃.time ?_
      · have hinv : RuntimeInv m s₃ := henv₃.inv
        exact
          { heldDelivery := hgrown₂.held hheld
            heldAttempt := hheld'
            delivery := (deliveryAt_env henv₃ (hgrown₂.held hheld)).trans hr₂
            attempt := (attemptAt_env henv₃ hheld').trans ha₂
            leased := hleased
            token := htoken
            attemptToken := htoken'
            started := hstarted
            expiry := ⟨x, hx, not_le.mp hlate⟩
            time := le_refl _
            inv := hinv.cells _ _ }
      · simp [Ctx.tell, hclocks₂, hclocks₁]

/-- A lock on the rows of the claim a transaction reports on. -/
theorem Locked.reporting {x : RuntimeTxn} (h : Locked m cd c' s' r a τ) (hbegan : Began m x s)
    (henv : m.discipline.Env c s s') (hgrown : Grown c c') (hτ : s.now ≤ τ)
    (hclocks : c'.clocks = c.clocks ++ [τ])
    (hreports : ∀ cd', x.op.reportsOn = some cd' → cd' = cd ∧ c.clocks = [] ∧ c.writes = []) :
    Reporting m x c' s' where
  toBegan := hbegan.env henv
  live := by
    intro cd' hcd'
    obtain ⟨rfl, hnoclocks, hnowrites⟩ := hreports cd' hcd'
    obtain ⟨expiry, hexpiry, hlt⟩ := h.expiry
    refine ⟨h.heldDelivery, r, expiry, τ, ?_, h.token, hexpiry, ?_, hbegan.time.trans hτ, hlt⟩
    · have hr := h.delivery
      rw [Ctx.visible, hgrown.writes, hnowrites] at hr
      exact hr
    · rw [hclocks, hnoclocks]
      rfl

end Locked

/-! ## One close move -/

/-- Both rows of a lease, locked at `τ`, with an attempt of the delivery under way. -/
structure LeaseRows (m : Mode) (t d : UUID) (c : RuntimeCtx) (s : RuntimeStore)
    (r : DeliveryRow) (a : AttemptRow) (τ : Datetime) : Prop where
  heldDelivery : .delivery t d ∈ c.held
  heldAttempt : .attempt t a.attemptId ∈ c.held
  delivery : deliveryAt (c.visible s.db) t d = some r
  attempt : attemptAt (c.visible s.db) t a.attemptId = some a
  home : a.deliveryId = d
  leased : r.state = .leased
  token : r.leaseToken = some a.leaseToken
  started : a.outcome = .started
  time : τ ≤ s.now
  inv : (cellAt s.db t d).Inv m.fenced τ

/-- The lease of an attempt has ended in the pending changes. -/
structure Ended (t d i : UUID) (c : RuntimeCtx) (s : RuntimeStore) (won : Prop) : Prop where
  held : .delivery t d ∈ c.held
  ends : Finalizes s.db (c.visible s.db) t d i won

/-- The context after a lease was closed. -/
def closedCtx (c : RuntimeCtx) (a : AttemptRow) (r : DeliveryRow) : RuntimeCtx :=
  (c.change (.put (.attempt a))).change (.put (.delivery r))

section Close

variable {m : Mode} {sc : Scope} {op : Op} {t d i : UUID} {c c' : RuntimeCtx}
  {s s' : RuntimeStore} {r : DeliveryRow} {a : AttemptRow} {τ : Datetime} {won : Prop}
  {E : PyError → RuntimeCtx → RuntimeStore → Prop}

theorem Ended.env (h : Ended t d i c s won) (henv : m.discipline.Env c s s') :
    Ended t d i c s' won where
  held := h.held
  ends := by
    have hcell : cellAt s'.db t d = cellAt s.db t d := henv.rely _ h.held
    have hvisible : cellAt (c.visible s'.db) t d = cellAt (c.visible s.db) t d :=
      cellAt_install_congr hcell c.writes
    unfold Finalizes
    rw [hcell, hvisible]
    exact h.ends

theorem Ended.congr (h : Ended t d i c s won) (hwrites : c'.writes = c.writes)
    (hheld : c.held ⊆ c'.held) : Ended t d i c' s won where
  held := hheld h.held
  ends := by
    rw [Ctx.visible, hwrites]
    exact h.ends

theorem LeaseRows.env (h : LeaseRows m t d c s r a τ) (henv : m.discipline.Env c s s') :
    LeaseRows m t d c s' r a τ :=
  { h with
    delivery := by rw [deliveryAt_env henv h.heldDelivery, h.delivery]
    attempt := by rw [attemptAt_env henv h.heldAttempt, h.attempt]
    time := h.time.trans henv.time
    inv := by
      rw [henv.rely _ h.heldDelivery]
      exact h.inv }

/-- Both rows of the lease, as committed. -/
theorem LeaseRows.cell (h : LeaseRows m t d c s r a τ)
    (hsame : cellAt (c.visible s.db) t d = cellAt s.db t d) :
    (cellAt s.db t d).delivery = some r ∧ (cellAt s.db t d).attempts a.attemptId = some a := by
  rw [← hsame]
  exact ⟨h.delivery, cellAt_attempts.mpr ⟨h.attempt, h.home⟩⟩

/-- The attempt under way is the last one. -/
theorem LeaseRows.last (h : LeaseRows m t d c s r a τ)
    (hsame : cellAt (c.visible s.db) t d = cellAt s.db t d) :
    a.attemptNumber = r.attemptsStarted := by
  obtain ⟨hdelivery, hattempt⟩ := h.cell hsame
  have hinv := h.inv
  rw [Cell.Inv, hdelivery] at hinv
  exact Live.last hinv hattempt h.token

/-- Closing the lease: the attempt and then the delivery are updated. -/
theorem wp_closeLease {Q : RuntimeCtx → RuntimeStore → Prop} {x : RuntimeTxn}
    {state : DeliveryState} {outcome : AttemptOutcome} {next : Datetime} {code summary : Option Str}
    {a' : AttemptRow} {r' : DeliveryRow} (hp : Pending m sc c s)
    (hsame : ∀ s', m.discipline.Env c s s' → cellAt (c.visible s'.db) t d = cellAt s'.db t d)
    (hl : LeaseRows m t d c s r a τ) (ha' : a' = finishedAttempt a outcome τ code summary)
    (hr' : r' = closedDelivery r state next τ) (hcloses : Closes (sc.wins t) τ r a state outcome)
    (hrep : Reporting m x c s) (herr : ∀ c' s', Reporting m x c' s' → E .integrity c' s')
    (hk : ∀ s', m.discipline.Env c s s' → Pending m sc (closedCtx c a' r') s' →
      Ended t d a.attemptId (closedCtx c a' r') s' (outcome = .succeeded) →
      (∀ t' d', ¬ (t' = t ∧ d' = d) → cellAt ((closedCtx c a' r').visible s'.db) t' d' =
        cellAt (c.visible s'.db) t' d') → Q (closedCtx c a' r') s') :
    m.discipline.wp op
      (fun _ c s => m.discipline.wp op (fun _ => Q) E (updateRow r'.checks (.delivery r')) c s) E
      (updateRow (attemptRowChecks a') (.attempt a')) c s := by
  obtain ⟨hat, -⟩ := attemptAt_key hl.attempt
  obtain ⟨hrt, hrd⟩ := deliveryAt_key hl.delivery
  have hkeyA : (Row.attempt a').key = .attempt t a.attemptId := by
    simp [Row.key, ha', finishedAttempt, hat]
  have hkeyD : (Row.delivery r').key = .delivery t d := by
    simp [Row.key, hr', closedDelivery, hrt, hrd]
  have hidA : (Row.attempt a').identity = (Row.attempt a).identity := by
    simp [Row.identity, ha']
  have hidD : (Row.delivery r').identity = (Row.delivery r).identity := by
    simp [Row.identity, hr']
  refine wp_updateRow (fun _ s₁ henv₁ => ?_) (herr _ _ hrep)
  have hl₁ := hl.env henv₁
  refine ⟨⟨.attempt a, by rw [hkeyA]; exact attemptAt_eq_some.mp hl₁.attempt, hidA⟩, ?_⟩
  refine wp_updateRow (fun _ s₂ henv₂ => ?_)
    (herr _ _ ((hrep.env henv₁).congr (List.subset_cons_self _ _) (List.prefix_refl _)))
  have henv₁₂ := henv₁.trans henv₂.of_change
  have hl₂ := hl.env henv₁₂
  have hp₂ := hp.env henv₁₂
  have hsame₂ := hsame s₂ henv₁₂
  obtain ⟨hdelivery, hattempt⟩ := hl₂.cell hsame₂
  have hcell : cellAt s₂.db t d = ⟨some r, (cellAt s₂.db t d).attempts⟩ := Cell.ext hdelivery rfl
  have hrows : ∀ row ∈ [Row.attempt a', .delivery r'], row.key ∈ (closedCtx c a' r').held ∧
      row.cell = some (t, d) ∧ row.Replaces (c.visible s₂.db) := by
    intro row hrow
    simp only [List.mem_cons, List.not_mem_nil, or_false] at hrow
    rcases hrow with rfl | rfl
    · refine ⟨by simp [closedCtx, Ctx.change, Write.target, Schema.key], ?_, Or.inr ⟨_, ?_, hidA⟩⟩
      · simp [Row.cell, ha', finishedAttempt, hat, hl.home]
      · rw [hkeyA]
        exact attemptAt_eq_some.mp hl₂.attempt
    · refine ⟨by simp [closedCtx, Ctx.change, Write.target, Schema.key], ?_, Or.inr ⟨_, ?_, hidD⟩⟩
      · simp [Row.cell, hr', closedDelivery, hrt, hrd]
      · rw [hkeyD]
        exact deliveryAt_eq_some.mp hl₂.delivery
  -- what the two changes make of the cell
  have hmove : ([.attempt a', .delivery r'].map Write.put).foldl (Cell.change t d)
      (cellAt s₂.db t d) =
      ⟨some r', Function.update (cellAt s₂.db t d).attempts a.attemptId (some a')⟩ := by
    simp [Cell.change, ha', hr', finishedAttempt, closedDelivery, hat, hl.home, hrt, hrd]
  have hvisible : (closedCtx c a' r').visible s₂.db =
      (c.visible s₂.db).install ([.attempt a', .delivery r'].map Write.put) := by
    simp [closedCtx, Ctx.visible, Ctx.change]
  have hp' : Pending m sc (closedCtx c a' r') s₂ := by
    refine hp₂.cellStep [.attempt a', .delivery r'] (by simp [closedCtx, Ctx.change])
      (fun y hy => by simp [closedCtx, Ctx.change, hy]) (List.Subset.refl _) hrows
      (by simp [closedCtx, Ctx.change, hl.heldDelivery]) hsame₂ hl₂.time hl₂.inv ?_
    rw [hmove]
    have hclose := Cell.Step.close (m := sc.moves m (closedCtx c a' r') t) r
      (cellAt s₂.db t d).attempts a state outcome next code summary hattempt hcloses
    rwa [← ha', ← hr', ← hcell] at hclose
  refine ⟨⟨.delivery r, ?_, hidD⟩, hk s₂ henv₁₂ hp' ?_ ?_⟩
  · have hne : (Row.attempt a').key ≠ (Row.delivery r').key := by simp [Row.key]
    have hget := deliveryAt_eq_some.mp hl₂.delivery
    rw [show (c.change (.put (.attempt a'))).visible s₂.db =
      (c.visible s₂.db).put (.attempt a') by simp [Ctx.visible, Ctx.change],
      Pending.get_put_of_ne hne, hkeyD, hget]
  · refine ⟨by simp [closedCtx, Ctx.change, hl.heldDelivery], a, a', hattempt, hl.started, ?_, ?_,
      ?_⟩
    · rw [hvisible, cellAt_install, hsame₂, hmove]
      simp
    · simp [ha', finishedAttempt, hcloses.finished]
    · simp [ha', finishedAttempt]
  · intro t' d' hne
    exact Pending.cell_other [.attempt a', .delivery r']
      (by simp [closedCtx, Ctx.change]) (fun row hrow => (hrows row hrow).2) hne

end Close

/-! ## Success and failure -/

omit [Platform] in
/-- What a failure makes of the rows of a live lease. -/
theorem failedRows_eq_ok {policy : RetryPolicy} {r : DeliveryRow} {a : AttemptRow}
    {error : DeliveryError} {τ : Datetime} {after : Option Timedelta} {uniform : ℚ → ℚ → PyFloat}
    {rows : FailedRows} (h : failedRows policy r a error τ after uniform = .ok rows) :
    ∃ state outcome next code summary, rows.attempt = finishedAttempt a outcome τ code summary ∧
      clearLease rows.delivery τ = closedDelivery r state next τ ∧ rows.outcome = state ∧
      (state = .retryWait ∨ state = .dead) ∧ outcome ≠ .started ∧ outcome ≠ .succeeded ∧
      (state = .retryWait → a.attemptNumber < policy.maxAttempts) := by
  unfold failedRows at h
  obtain ⟨permitted, hpermitted, h⟩ := bind_eq_ok.mp h
  cases permitted with
  | false =>
      simp only [Bool.false_eq_true, if_false, pure, Except.pure, Except.ok.injEq] at h
      subst h
      refine ⟨.dead, if error.retryable then .retryable else .terminal, r.nextAttemptAt,
        some error.code, some error.summary, rfl, rfl, rfl, Or.inr rfl, ?_, ?_, by simp⟩ <;>
        split_ifs <;> simp
  | true =>
      -- a retry was permitted, so attempts are left
      have hbudget : a.attemptNumber < policy.maxAttempts := by
        unfold retryPermitted at hpermitted
        split_ifs at hpermitted
        · obtain ⟨-, -, hp⟩ := bind_eq_ok.mp hpermitted
          simp only [pure, Except.pure, Except.ok.injEq, decide_eq_true_eq] at hp
          exact hp.1
        · cases hpermitted
      simp only [if_true] at h
      obtain ⟨jittered, -, h⟩ := bind_eq_ok.mp h
      obtain ⟨delay, -, h⟩ := bind_eq_ok.mp h
      obtain ⟨maximum, -, h⟩ := bind_eq_ok.mp h
      obtain ⟨scheduledAt, -, h⟩ := bind_eq_ok.mp h
      obtain ⟨deadline, -, h⟩ := bind_eq_ok.mp h
      split_ifs at h <;> simp only [pure, Except.pure, Except.ok.injEq] at h <;> subst h
      · exact ⟨.retryWait, .retryable, scheduledAt, some error.code, some error.summary, rfl, rfl,
          rfl, Or.inl rfl, by simp, by simp, fun _ => hbudget⟩
      · exact ⟨.dead, .retryable, τ, _, _, rfl, rfl, rfl, Or.inr rfl, by simp, by simp, by simp⟩

section SuccessAndFailure

variable {m : Mode} {sc : Scope} {op : Op} {cd : ClaimedDelivery} {c : RuntimeCtx}
  {s : RuntimeStore} {x : RuntimeTxn} {now : Datetime}
  {E : PyError → RuntimeCtx → RuntimeStore → Prop}

/-- What the finalization of a claim needs: nothing leased so far, and an attempt that
belongs to the claim's delivery. -/
structure Finalizable (m : Mode) (sc : Scope) (cd : ClaimedDelivery) (x : RuntimeTxn)
    (c : RuntimeCtx) (s : RuntimeStore) : Prop where
  pending : Pending m sc c s
  ids : c.ids = []
  home : ∀ c' s' a, m.discipline.Env c s s' → Grown c c' →
    attemptAt (c'.visible s'.db) cd.attempt.tenantId cd.attempt.attemptId = some a →
    cd.attempt.tenantId = cd.delivery.tenantId ∧ a.deliveryId = cd.delivery.deliveryId
  began : Began m x s
  reports : ∀ cd', x.op.reportsOn = some cd' → cd' = cd ∧ c.clocks = [] ∧ c.writes = []

/-- The rows of a live lease, for the claim's delivery. -/
theorem Locked.leaseRows {c' : RuntimeCtx} {s' : RuntimeStore} {r : DeliveryRow} {a : AttemptRow}
    {τ : Datetime} (h : Locked m cd c' s' r a τ)
    (hhome : cd.attempt.tenantId = cd.delivery.tenantId ∧ a.deliveryId = cd.delivery.deliveryId) :
    LeaseRows m cd.delivery.tenantId cd.delivery.deliveryId c' s' r a τ ∧
      a.attemptId = cd.attempt.attemptId := by
  obtain ⟨-, hai⟩ := attemptAt_key h.attempt
  refine ⟨?_, hai⟩
  exact
    { heldDelivery := h.heldDelivery
      heldAttempt := by rw [← hhome.1, hai]; exact h.heldAttempt
      delivery := h.delivery
      attempt := by rw [← hhome.1, hai]; exact h.attempt
      home := hhome.2
      leased := h.leased
      token := h.token.trans (congrArg some h.attemptToken.symm)
      started := h.started
      time := h.time
      inv := h.inv }

/-- `succeed_in_transaction`. -/
theorem wp_succeedInTransaction {Q : Datetime → RuntimeCtx → RuntimeStore → Prop}
    (hf : Finalizable m sc cd x c s) (hwins : sc.wins cd.attempt.tenantId cd.attempt.attemptId)
    (hlost : ∀ c' s', m.discipline.Env c s s' → Grown c c' →
      E (.leaseLost cd.delivery.deliveryId) c' s')
    (herr : ∀ e c' s', Reporting m x c' s' → E e c' s')
    (hQ : ∀ τ c' s', m.discipline.Env c s s' → c.held ⊆ c'.held → c'.ids = c.ids →
      Pending m sc c' s' →
      Ended cd.delivery.tenantId cd.delivery.deliveryId cd.attempt.attemptId c' s' True →
      Reporting m x c' s' → s.now ≤ τ → τ ≤ s'.now → Q τ c' s') :
    m.discipline.wp op Q E (succeedInTransaction cd now) c s := by
  simp only [succeedInTransaction, Prog.bind_eq, Discipline.wp_bind]
  refine wp_lockedActiveRows hlost fun r a τ c₁ s₁ henv₁ hgrown hl hτ hclocks => ?_
  have hrep := hl.reporting hf.began henv₁ hgrown hτ hclocks hf.reports
  have hhome := hf.home c₁ s₁ a henv₁ hgrown hl.attempt
  obtain ⟨hrows, hai⟩ := hl.leaseRows hhome
  have hids : c₁.ids = [] := hgrown.ids.trans hf.ids
  have hp : Pending m sc c₁ s₁ := (hf.pending.env henv₁).grown hgrown
  have hsame := fun s' (henv : m.discipline.Env c₁ s₁ s') =>
    (hp.env henv).cell_leased hids (hl.env henv).delivery hl.leased
  dsimp only
  refine wp_lift (fun policy hpolicy => ?_) (fun e _ => herr e _ _ hrep)
  obtain ⟨expiry, hexpiry, hlive⟩ := hl.expiry
  simp only [hexpiry, Discipline.wp_bind]
  refine wp_lift (fun deadline hdeadline => ?_) (fun e _ => herr e _ _ hrep)
  split_ifs with hlate
  · exact hlost _ _ henv₁ hgrown
  have hcloses : Closes (sc.wins cd.delivery.tenantId) τ r a .succeeded .succeeded :=
    { leased := hl.leased
      token := hrows.token
      started := hl.started
      ended := Or.inl rfl
      finished := by simp
      success := by simp
      retry := by simp
      inTime := fun _ => ⟨by rw [← hhome.1, hai]; exact hwins,
        policy, deadline, expiry, hpolicy, hexpiry, hdeadline, not_le.mp hlate⟩ }
  simp only [Discipline.wp_bind]
  refine wp_closeLease hp hsame hrows rfl rfl hcloses hrep (fun c' s' => herr _ c' s')
    fun s₂ henv₂ hp₂ hended _ => ?_
  refine hQ τ _ s₂ (henv₁.trans (hgrown.env henv₂))
    (fun y hy => by simp [closedCtx, Ctx.change, hgrown.held hy]) hgrown.ids hp₂
    (hai ▸ ⟨hended.held, by simpa using hended.ends⟩) ?_ hτ (hl.time.trans henv₂.time)
  exact (hrep.env henv₂).congr (fun y hy => by simp [closedCtx, Ctx.change, hy])
    (List.prefix_refl _)

/-- `fail_in_transaction`. An error before the first change leaves the context as a lock
grew it. -/
theorem wp_failInTransaction {error : DeliveryError} {after : Option Timedelta}
    {uniform : ℚ → ℚ → PyFloat} {Q : DeliveryState → RuntimeCtx → RuntimeStore → Prop}
    (hf : Finalizable m sc cd x c s)
    (hlost : ∀ c' s', m.discipline.Env c s s' → Grown c c' →
      E (.leaseLost cd.delivery.deliveryId) c' s')
    (herr : ∀ e c' s', m.discipline.Env c s s' → Grown c c' → Reporting m x c' s' → E e c' s')
    (hchecks : ∀ c' s', Reporting m x c' s' → E .integrity c' s')
    (hQ : ∀ state τ c' s', m.discipline.Env c s s' → c.held ⊆ c'.held → c'.ids = c.ids →
      Pending m sc c' s' →
      Ended cd.delivery.tenantId cd.delivery.deliveryId cd.attempt.attemptId c' s' False →
      Reporting m x c' s' → s.now ≤ τ → τ ≤ s'.now → (state = .retryWait ∨ state = .dead) →
      Q state c' s') :
    m.discipline.wp op Q E (failInTransaction cd error now after uniform) c s := by
  simp only [failInTransaction, Prog.bind_eq, Discipline.wp_bind]
  refine wp_lockedActiveRows hlost fun r a τ c₁ s₁ henv₁ hgrown hl hτ hclocks => ?_
  have hrep := hl.reporting hf.began henv₁ hgrown hτ hclocks hf.reports
  have hhome := hf.home c₁ s₁ a henv₁ hgrown hl.attempt
  obtain ⟨hlease, hai⟩ := hl.leaseRows hhome
  have hids : c₁.ids = [] := hgrown.ids.trans hf.ids
  have hp : Pending m sc c₁ s₁ := (hf.pending.env henv₁).grown hgrown
  have hsame := fun s' (henv : m.discipline.Env c₁ s₁ s') =>
    (hp.env henv).cell_leased hids (hl.env henv).delivery hl.leased
  dsimp only
  refine wp_lift (fun policy hpolicy => ?_) (fun e _ => herr e _ _ henv₁ hgrown hrep)
  refine wp_lift (fun rows hrows => ?_) (fun e _ => herr e _ _ henv₁ hgrown hrep)
  obtain ⟨state, outcome, next, code, summary, ha', hr', hstate, hend, hfinished, hfailed,
    hbudget⟩ := failedRows_eq_ok hrows
  have hnumber : a.attemptNumber = r.attemptsStarted :=
    hlease.last (hp.cell_leased hids hl.delivery hl.leased)
  have hcloses : Closes (sc.wins cd.delivery.tenantId) τ r a state outcome :=
    { leased := hl.leased
      token := hlease.token
      started := hl.started
      ended := Or.inr hend
      finished := hfinished
      success := by rcases hend with rfl | rfl <;> simp [hfailed]
      retry := by
        intro hs p hpol
        rw [hpolicy] at hpol
        cases hpol
        exact hnumber ▸ hbudget hs
      inTime := fun h => absurd h hfailed }
  refine wp_closeLease hp hsame hlease ha' hr' hcloses hrep (fun c' s' => hchecks c' s')
    fun s₂ henv₂ hp₂ hended _ => ?_
  refine hQ rows.outcome τ _ s₂ (henv₁.trans (hgrown.env henv₂))
    (fun y hy => by simp [closedCtx, Ctx.change, hgrown.held hy]) hgrown.ids hp₂
    (hai ▸ ⟨hended.held, by simpa [hfailed] using hended.ends⟩) ?_ hτ (hl.time.trans henv₂.time)
    (hstate ▸ hend)
  exact (hrep.env henv₂).congr (fun y hy => by simp [closedCtx, Ctx.change, hy])
    (List.prefix_refl _)

end SuccessAndFailure

end FastapiEffects
