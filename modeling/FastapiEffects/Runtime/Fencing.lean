import FastapiEffects.Postgres.InPlace
import FastapiEffects.ReadCommitted.Walk
import FastapiEffects.Runtime.Leases

/-! # Fencing

A claim is stale when its token has left the row or its lease has run out. Tokens are fresh
when they are issued, so a token that left a row never comes back, and a lease keeps its
expiry: a stale claim stays stale (`Stale.reachable`), and its report finds nothing to
finalize (`stale_report_lost`).
-/

namespace FastapiEffects

open Python ReadCommitted

/-- The token of a claim is not the one of its row, or its lease ran out before `t`. -/
def ClaimedDelivery.Stale (c : ClaimedDelivery) (db : Db) (t : Datetime) : Prop :=
  (∀ r, (c.cell db).delivery = some r → r.leaseToken ≠ some c.leaseToken) ∨
    ∃ expiry, c.delivery.leaseExpiresAt = some expiry ∧ expiry ≤ t

section Stale

variable {c : ClaimedDelivery} {db : Db} {t : Datetime}

/-- Time does not make a stale claim current. -/
theorem ClaimedDelivery.Stale.mono {t' : Datetime} (h : c.Stale db t) (ht : t ≤ t') :
    c.Stale db t' := by
  rcases h with htoken | ⟨expiry, hexpiry, hle⟩
  · exact Or.inl htoken
  · exact Or.inr ⟨expiry, hexpiry, hle.trans ht⟩

/-- The rows of a stale claim are not those of a live lease. -/
theorem ClaimedDelivery.Stale.not_live {r : DeliveryRow} {expiry : Datetime}
    (h : c.Stale db t) (hhanded : Handed (c.cell db) c) (hr : (c.cell db).delivery = some r)
    (htoken : r.leaseToken = some c.leaseToken) (hexpiry : r.leaseExpiresAt = some expiry) :
    expiry ≤ t := by
  rcases h with hlost | ⟨x, hx, hle⟩
  · exact absurd htoken (hlost r hr)
  · obtain ⟨r', a, hr', -, -, -, -, hlease⟩ := hhanded.rows
    rw [hr] at hr'
    cases hr'
    have hsame : r.leaseExpiresAt = c.delivery.leaseExpiresAt := hlease htoken
    rw [hexpiry, hx] at hsame
    exact (Option.some.inj hsame).trans_le hle

/-- A token that is stored with an attempt does not come back to a delivery it has left. -/
theorem Cell.Step.token_stays {m : Moves} {τ : Datetime} {cell cell' : Cell}
    {r r' : DeliveryRow} {k : UUID} (hstep : Cell.Step m τ cell cell')
    (hr : cell.delivery = some r) (hr' : cell'.delivery = some r') (hknown : ¬ m.fresh k)
    (hk : r'.leaseToken = some k) : r.leaseToken = some k := by
  by_contra hne
  exact hknown (hstep.leases hr hr' hk hne).2.1

end Stale

section Runs

variable [Platform] {m : Mode} {now t : Datetime} {w w' : RuntimeWorld} {c : ClaimedDelivery}

/-- The token of a claim that was handed out is stored. -/
theorem Handed.mem_tokens {db : Db} {log : History} (h : Handed (c.cell db) c) :
    c.leaseToken ∈ tokens db log := by
  obtain ⟨r, a, -, ha, htoken, -⟩ := h.rows
  exact Or.inl ⟨_, _, a, (cellAt_attempts.mp ha).1, htoken⟩

/-- A commit leaves a stale claim stale. -/
theorem Commits.stale {s : RuntimeStore} {e : Entry Key Row PyError Op Outcome} {db' : Db}
    (h : Commits m s e db') (hhanded : Handed (c.cell s.db) c) (hstale : c.Stale s.db t) :
    c.Stale db' t := by
  rcases hstale with hlost | hexpired
  · left
    intro r' hr' htoken
    obtain ⟨r, a, hr, -⟩ := hhanded.rows
    obtain ⟨τ, -, -, hmove⟩ := h.cells c.delivery.tenantId c.delivery.deliveryId
    have hknown : ¬ (commitMoves m s e db' c.delivery.tenantId).fresh c.leaseToken :=
      fun hfresh => hfresh hhanded.mem_tokens
    exact hlost r hr (hmove.token_stays hr hr' hknown htoken)
  · exact Or.inr hexpired

/-- What was handed out stays handed out. -/
theorem issued_reachable {P : Protocol Key Row UUID PyError Op Outcome}
    (hissued : issued w.store.log c = true) (hrun : Reachable P w w') :
    issued w'.store.log c = true := by
  obtain ⟨e, he, hc⟩ := issued_iff.mp hissued
  exact issued_iff.mpr ⟨e, (Reachable.log_prefix hrun).subset he, hc⟩

/-- A stale claim stays stale. -/
theorem Stale.reachable (hreach : Reachable m.protocol (RuntimeWorld.start now) w)
    (hissued : issued w.store.log c = true) (hstale : c.Stale w.store.db t)
    (hrun : Reachable m.protocol w w') : c.Stale w'.store.db t := by
  induction hrun with
  | refl => exact hstale
  | @tail w₁ w₂ hprefix hstep ih =>
      have hreach₁ := hreach.trans hprefix
      rcases Mode.step_cases hreach₁ hstep with ⟨hdb, -⟩ | ⟨e, -, hcommits⟩
      · rw [hdb]
        exact ih
      · have hinv := (Mode.worldInv hreach₁).inv
        exact hcommits.stale (RuntimeInv.handed (m := m) hinv (issued_reachable hissued hprefix)) ih

/-! ## Reports -/

/-- The database time an operation went by: its first reading of the clock, or the time it
began when it read none. -/
def checkedAt (e : Entry Key Row PyError Op Outcome) : Datetime := e.clocks.head?.getD e.beganAt

/-- A commit that reports on a stale claim does not exist: the report is refused. -/
theorem Commits.lost {s : RuntimeStore} {e : Entry Key Row PyError Op Outcome} {db' : Db}
    (h : Commits m s e db') (hhanded : Handed (c.cell s.db) c) (hop : e.op.reportsOn = some c)
    (hstale : c.Stale s.db (checkedAt e)) :
    e.result = .error (.leaseLost c.delivery.deliveryId) ∧ db' = s.db := by
  have hlost : e.result = .error (.leaseLost c.delivery.deliveryId) := by
    by_contra hne
    obtain ⟨r, expiry, τ, hr, htoken, hexpiry, hclock, -, hlive⟩ := h.reports.current c hop hne
    have hle := hstale.not_live hhanded hr htoken hexpiry
    rw [checkedAt, hclock, Option.getD_some] at hle
    exact absurd hle (not_le.mpr hlive)
  exact ⟨hlost, h.failed _ hlost⟩

omit [Platform] in
theorem Session.visible_on (db : Db) (clock : ℕ → Int) (supply : ℕ → UUID) :
    (Session.on db clock supply).visible = db := rfl

/-- A report on a stale claim that meets no other transaction raises `LeaseLost`. -/
theorem exec_report_stale {db : Db} {op : Op} (hhanded : Handed (c.cell db) c)
    (hop : op.reportsOn = some c) (hstale : c.Stale db t) (clock : ℕ → Int) (supply : ℕ → UUID)
    (hclock : t ≤ clock 0) :
    ∃ s', (Session.on db clock supply).exec op.prog =
      (.error (.leaseLost c.delivery.deliveryId), s') ∧ s'.visible = db := by
  have hnone : ∀ delivery attempt finishedAt,
      ¬ Held (Session.on db clock supply) c delivery attempt finishedAt := by
    intro delivery attempt finishedAt held
    obtain ⟨expiry, hexpiry, hlive⟩ := held.live
    have hr : (c.cell db).delivery = some delivery := deliveryAt_eq_some.mpr held.delivery_row
    have hle := hstale.not_live hhanded hr held.token hexpiry
    have hlate : expiry ≤ finishedAt := by
      rw [held.time]
      exact hle.trans hclock
    exact absurd hlive (not_lt.mpr hlate)
  have hlocks : ∀ now', ∃ s', s'.visible = db ∧
      (Session.on db clock supply).exec (lockedActiveRows c now') =
        (.error (.leaseLost c.delivery.deliveryId), s') := by
    intro now'
    rcases exec_lockedActiveRows (Session.on db clock supply) c now' with
      ⟨delivery, attempt, s', held, -, -⟩ | ⟨-, hlost⟩
    · exact absurd held (hnone _ _ _)
    · exact hlost
  cases op with
  | succeed claim now' =>
      cases hop
      obtain ⟨s', hvisible, hexec⟩ := hlocks now'
      refine ⟨s', ?_, hvisible⟩
      simp only [Op.prog, succeed, succeedInTransaction, Prog.bind_eq]
      exact Session.exec_bind_error (Session.exec_bind_error (Session.exec_bind_error hexec _) _) _
  | fail claim error now' retryAfter uniform =>
      cases hop
      obtain ⟨s', hvisible, hexec⟩ := hlocks now'
      refine ⟨s', ?_, hvisible⟩
      simp only [Op.prog, fail, failInTransaction, Prog.bind_eq]
      exact Session.exec_bind_error (Session.exec_bind_error (Session.exec_bind_error hexec _) _) _
  | _ => cases hop

/-! ## Finalizations -/

/-- A commit leaves an attempt that has ended as it is. -/
theorem Commits.ended_stays {s : RuntimeStore} {e : Entry Key Row PyError Op Outcome} {db' : Db}
    (h : Commits m s e db') {tenantId i : UUID} {a : AttemptRow}
    (ha : attemptAt s.db tenantId i = some a) (hended : a.outcome ≠ .started) :
    attemptAt db' tenantId i = some a := by
  obtain ⟨τ, -, -, hmove⟩ := h.cells tenantId a.deliveryId
  obtain ⟨a', ha', -, hsame⟩ := hmove.attempt (cellAt_attempts.mpr ⟨ha, rfl⟩)
  rw [hsame hended] at ha'
  exact (cellAt_attempts.mp ha').1

/-- An operation finalizes a claim that was handed out. -/
theorem RuntimeInv.handed_finalized {s : RuntimeStore} {op : Op} (h : RuntimeInv m s)
    (hallowed : op.allowed s = true) (hc : op.finalizes = some c) : Handed (c.cell s.db) c := by
  cases op with
  | succeed claim now' | fail claim error now' retryAfter uniform =>
      cases hc
      exact h.handed hallowed
  | finalizeSuccess ex now' | finalizeFailure ex error now' uniform =>
      cases hc
      exact h.handed_execution hallowed
  | _ => cases hc

/-- Two entries of the log are finalizations of one attempt that both took effect. -/
def EndTwice (e e' : Entry Key Row PyError Op Outcome) : Prop :=
  committed e ∧ committed e' ∧ ∃ c c', e.op.finalizes = some c ∧ e'.op.finalizes = some c' ∧
    c.attempt.tenantId = c'.attempt.tenantId ∧ c.attempt.attemptId = c'.attempt.attemptId

/-- Each attempt that was finalized has ended, and no attempt was finalized twice. -/
structure EndsOnce (s : RuntimeStore) : Prop where
  ended : ∀ e ∈ s.log, committed e → ∀ c, e.op.finalizes = some c →
    ∃ a, attemptAt s.db c.attempt.tenantId c.attempt.attemptId = some a ∧ a.outcome ≠ .started
  once : s.log.Pairwise fun e e' => ¬ EndTwice e e'

/-- A commit finalizes no attempt that has ended. -/
theorem Commits.endsOnce {s : RuntimeStore} {e : Entry Key Row PyError Op Outcome} {db' : Db}
    (h : Commits m s e db') (hinv : RuntimeInv m s) (hends : EndsOnce s) :
    EndsOnce ⟨db', s.now, s.log ++ [e]⟩ := by
  -- the attempt of a finalization was under way before it
  have hfinalizes : ∀ c, e.op.finalizes = some c → committed e →
      ∃ a a', attemptAt s.db c.attempt.tenantId c.attempt.attemptId = some a ∧
        a.outcome = .started ∧
        attemptAt db' c.attempt.tenantId c.attempt.attemptId = some a' ∧ a'.outcome ≠ .started := by
    intro c hc hcommitted
    obtain ⟨a, a', ha, hstarted, ha', hended, -⟩ := h.reports.finalized c hc hcommitted
    have htenant := (hinv.handed_finalized h.allowed hc).tenant
    rw [htenant]
    exact ⟨a, a', (cellAt_attempts.mp ha).1, hstarted, (cellAt_attempts.mp ha').1, hended⟩
  constructor
  · intro e' he' hcommitted c hc
    rcases List.mem_append.mp he' with he' | he'
    · obtain ⟨a, ha, hended⟩ := hends.ended e' he' hcommitted c hc
      exact ⟨a, h.ended_stays ha hended, hended⟩
    · rw [List.mem_singleton.mp he'] at hcommitted hc
      obtain ⟨a, a', -, -, ha', hended⟩ := hfinalizes c hc hcommitted
      exact ⟨a', ha', hended⟩
  · apply List.pairwise_append.mpr
    refine ⟨hends.once, List.pairwise_singleton _ _, ?_⟩
    rintro e₁ he₁ e₂ he₂ ⟨hfirst, hsecond, c₁, c₂, hc₁, hc₂, htenant, hid⟩
    rw [List.mem_singleton.mp he₂] at hsecond hc₂
    obtain ⟨a₁, ha₁, hended⟩ := hends.ended e₁ he₁ hfirst c₁ hc₁
    obtain ⟨a₂, -, ha₂, hstarted, -⟩ := hfinalizes c₂ hc₂ hsecond
    rw [htenant, hid, ha₂] at ha₁
    cases ha₁
    exact hended hstarted

/-- In every run each attempt is finalized at most once. -/
theorem endsOnce_reachable (hreach : Reachable m.protocol (RuntimeWorld.start now) w) :
    EndsOnce w.store := by
  refine Mode.reachable_induction ?_ (fun s τ _ h => ⟨h.ended, h.once⟩) (fun s e db' hinv _ hcommits h => ?_) hreach
  · exact ⟨fun e he => absurd he List.not_mem_nil, List.Pairwise.nil⟩
  · exact hcommits.endsOnce hinv h

/-- An attempt that has ended stays as it is for good. -/
theorem ended_reachable (hreach : Reachable m.protocol (RuntimeWorld.start now) w)
    (hrun : Reachable m.protocol w w') {tenantId i : UUID} {a : AttemptRow}
    (ha : attemptAt w.store.db tenantId i = some a) (hended : a.outcome ≠ .started) :
    attemptAt w'.store.db tenantId i = some a := by
  induction hrun with
  | refl => exact ha
  | tail hprefix hstep ih => exact Mode.step_finished (hreach.trans hprefix) hstep ih hended

end Runs

section Fencing

variable [Platform]

/-- Lease fencing: in every state a run reaches, a report on a stale claim raises `LeaseLost`
and changes no row. Alone it does so at once. Among other transactions, now or later, no
report ends in another way whose claim was stale here by the time it looked at the clock. So
each attempt is finalized at most once, and stays as its finalization left it. -/
theorem stale_report_lost {now : Datetime} {w : RuntimeWorld}
    (hreach : Reachable runtime (RuntimeWorld.start now) w) :
    (∀ c, issued w.store.log c = true →
      (c.Stale w.store.db w.store.now → ∀ op : Op, op.reportsOn = some c →
        ∀ clock supply, w.store.now ≤ clock 0 →
          ∃ s', (Session.on w.store.db clock supply).exec op.prog =
            (.error (.leaseLost c.delivery.deliveryId), s') ∧ s'.visible = w.store.db) ∧
      ∀ w₁ w₂ e, Reachable runtime w w₁ → Step runtime w₁ w₂ →
        w₂.store.log = w₁.store.log ++ [e] → e.op.reportsOn = some c →
        c.Stale w.store.db (checkedAt e) →
        e.result = .error (.leaseLost c.delivery.deliveryId) ∧ w₂.store.db = w₁.store.db) ∧
    w.store.log.Pairwise (fun e e' => ¬ EndTwice e e') ∧
    ∀ w', Reachable runtime w w' → ∀ t i a, attemptAt w.store.db t i = some a →
      a.outcome ≠ .started → attemptAt w'.store.db t i = some a := by
  rw [← Mode.free_protocol] at hreach ⊢
  have hinv := (Mode.worldInv hreach).inv
  refine ⟨fun c hissued => ⟨fun hstale op hop clock supply hclock => ?_, ?_⟩, ?_, ?_⟩
  · exact exec_report_stale (RuntimeInv.handed (m := Mode.free) hinv hissued) hop hstale clock
      supply hclock
  · intro w₁ w₂ e hrun hstep hlog hop hstale
    have hreach₁ := hreach.trans hrun
    have hissued₁ := issued_reachable hissued hrun
    have hstale₁ := Stale.reachable hreach hissued hstale hrun
    rcases Mode.step_cases hreach₁ hstep with ⟨-, hsame, -⟩ | ⟨e', hstore, hcommits⟩
    · rw [hsame] at hlog
      exact absurd hlog (by simp)
    · have hlast : w₂.store.log = w₁.store.log ++ [e'] := by rw [hstore]
      rw [hlog, List.append_cancel_left_eq, List.singleton_inj] at hlast
      subst hlast
      exact hcommits.lost (RuntimeInv.handed (m := Mode.free) (Mode.worldInv hreach₁).inv hissued₁)
        hop hstale₁
  · exact (endsOnce_reachable hreach).once
  · intro w' hrun t i a ha hended
    exact ended_reachable hreach hrun ha hended

end Fencing

open Scenario in
/-- The delivery was leased, and its lease has run out. -/
theorem stale_report_lost_expired : ∃ (w : RuntimeWorld) (c : ClaimedDelivery)
    (s' : Session Key Row UUID), issued w.store.log c = true ∧ c.Stale w.store.db w.store.now ∧
      (Session.on w.store.db (fun _ => w.store.now) (fun _ => 0)).exec (Op.succeed c 0).prog =
        (.error (.leaseLost c.delivery.deliveryId), s') ∧ s'.visible = w.store.db := by
  have hrun : ((RuntimeWorld.start 0).run runtime (leasing ++ [.step 1, .tick 5000000])).any (fun w =>
      (w.store.log.flatMap claimsOf).head?.any fun c => issued w.store.log c = true ∧
        c.delivery.leaseExpiresAt.any (· ≤ w.store.now) = true) = true := by
    decide +kernel
  simp only [Option.any_eq_true, decide_eq_true_eq] at hrun
  obtain ⟨w, hw, c, -, hissued, expiry, hexpiry, hle⟩ := hrun
  have hstale : c.Stale w.store.db w.store.now := Or.inr ⟨expiry, hexpiry, hle⟩
  obtain ⟨hlost, -⟩ := (stale_report_lost (World.run_reachable hw)).1 c hissued
  obtain ⟨s', hexec, hvisible⟩ := hlost hstale (.succeed c 0) rfl (fun _ => w.store.now) (fun _ => 0)
    le_rfl
  exact ⟨w, c, s', hissued, hstale, hexec, hvisible⟩

end FastapiEffects
