import FastapiEffects.Runtime.Finalize

/-! # The relay's reports

`succeed` and `fail` keep the discipline: what both have in common is that they act on
a claim that was handed out.
-/

namespace FastapiEffects

open Python ReadCommitted

variable [Platform]

/-- An operation keeps the discipline whenever it is started. -/
def OpSound (m : Mode) (op : Op) : Prop :=
  ∀ s, RuntimeInv m s → op.allowed s = true → (op.relays → m.relay) →
    m.discipline.wp op
      (m.discipline.returns (Txn.begin op s op.prog)) (m.discipline.raises (Txn.begin op s op.prog))
      op.prog (Ctx.init s.db.rows) s

/-- A transaction of an operation may be taken as any that has just begun. -/
theorem opSound_of_began {m : Mode} {op : Op}
    (h : ∀ (s : RuntimeStore) (x : RuntimeTxn), RuntimeInv m s → op.allowed s = true → x.op = op →
      Began m x s → m.discipline.wp op (m.discipline.returns x) (m.discipline.raises x) op.prog
        (Ctx.init s.db.rows) s) : OpSound m op :=
  fun s hinv hallowed hrelay => h s _ hinv hallowed rfl ⟨le_refl _, hallowed, hrelay⟩

section Issued

variable {m : Mode} {s s' : RuntimeStore} {c : RuntimeCtx} {cd : ClaimedDelivery}
  {ex : ExecutingHandoff}

/-- A claim that was handed out still describes its rows. -/
theorem RuntimeInv.handed (h : RuntimeInv m s) (hissued : issued s.log cd = true) :
    Handed (cd.cell s.db) cd := by
  obtain ⟨e, he, hc⟩ := issued_iff.mp hissued
  exact h.claims e he cd hc

/-- So does the claim of an execution that was admitted. -/
theorem RuntimeInv.handed_execution (h : RuntimeInv m s) (hadmitted : admitted s.log ex = true) :
    Handed (ex.claim.cell s.db) ex.claim := by
  obtain ⟨e, he, hex⟩ := admitted_iff.mp hadmitted
  exact h.executions e he ex hex

omit [Platform] in
/-- The attempt of a claim belongs to its delivery. -/
theorem Handed.home {db : Db} (h : Handed (cd.cell db) cd) {a : AttemptRow}
    (ha : attemptAt db cd.attempt.tenantId cd.attempt.attemptId = some a) :
    cd.attempt.tenantId = cd.delivery.tenantId ∧ a.deliveryId = cd.delivery.deliveryId := by
  obtain ⟨r, b, -, hb, -⟩ := h.rows
  obtain ⟨hat, hd⟩ := cellAt_attempts.mp hb
  rw [← h.tenant, ha] at hat
  cases hat
  exact ⟨h.tenant, hd⟩

end Issued

section Begin

variable {m : Mode} {op : Op} {s : RuntimeStore} {cd : ClaimedDelivery}

theorem began_begin (hallowed : op.allowed s = true) (hrelay : op.relays → m.relay) :
    Began m (Txn.begin op s op.prog) s :=
  ⟨le_refl _, hallowed, hrelay⟩

/-- A fresh transaction may finalize a claim whose attempt belongs to its delivery. -/
theorem finalizable_begin (op : Op) (sc : Scope) (hbegan : Began m (Txn.begin op s op.prog) s)
    (hhanded : ∀ c s', m.discipline.Env c s s' → Handed (cd.cell s'.db) cd)
    (hreports : ∀ cd', op.reportsOn = some cd' → cd' = cd) :
    Finalizable m sc cd (Txn.begin op s op.prog) (Ctx.init s.db.rows) s where
  pending := .of_writes_nil rfl
  ids := rfl
  home := by
    intro c' s' a henv hgrown ha
    rw [hgrown.visible] at ha
    exact (hhanded _ s' henv).home ha
  began := hbegan
  reports := fun cd' hcd' => ⟨hreports cd' hcd', rfl, rfl⟩

end Begin

/-- The lease that is reported on, at the end of the transaction. -/
theorem Reporting.current {m : Mode} {x : RuntimeTxn} {c : RuntimeCtx} {s : RuntimeStore}
    {cd : ClaimedDelivery} {res : Except PyError Outcome} (h : Reporting m x c s)
    (hcd : x.op.reportsOn = some cd) : Current s ⟨x.op, x.beganDb, x.beganAt, c.clocks, res⟩ cd := by
  obtain ⟨-, r, expiry, t, hlive⟩ := h.live cd hcd
  exact ⟨r, expiry, t, hlive⟩

/-- The end of an operation that reports on a claim. -/
theorem closing_of_ended {m : Mode} {sc : Scope} {x : RuntimeTxn} {c : RuntimeCtx}
    {s : RuntimeStore} {cd : ClaimedDelivery} {a : Outcome} {won : Prop}
    (hrep : Reporting m x c s)
    (hended : Ended cd.delivery.tenantId cd.delivery.deliveryId cd.attempt.attemptId c s won)
    (hfinalizes : x.op.finalizes = some cd) (hcompletes : x.op.completes = none)
    (hwon : x.op.wins cd.attempt.tenantId cd.attempt.attemptId → won)
    (hclaims : ∀ cs, a ≠ .claims cs) (hexec : ∀ ex, a ≠ .execution ex)
    (hsc : sc = { wins := x.op.wins }) :
    Pending.Closing m sc c s ⟨x.op, x.beganDb, x.beganAt, c.clocks, .ok a⟩ := by
  have hnoclaims : claimsOf ⟨x.op, x.beganDb, x.beganAt, c.clocks, .ok a⟩ = [] := by
    cases a <;> simp_all [claimsOf]
  have hnoexec : executionOf ⟨x.op, x.beganDb, x.beganAt, c.clocks, .ok a⟩ = none := by
    cases a <;> simp_all [executionOf]
  subst hsc
  exact
    { wins := fun _ _ h => h
      new := fun _ h => h.elim
      settles := fun _ _ h => h.elim
      runs := fun _ _ _ _ _ h => h.elim
      prepares := fun _ h => h.elim
      tokens := by simp [hnoexec]
      reports :=
        { claims := by simp [hnoclaims]
          executions := by simp [hnoexec]
          current := fun cd' hcd' _ => hrep.current hcd'
          finalized := by
            intro cd' hcd' _
            cases hfinalizes.symm.trans hcd'
            obtain ⟨b, b', hb, hstarted, hb', hend, hsucc⟩ := hended.ends
            exact ⟨b, b', hb, hstarted, hb', hend, fun h => hsucc (hwon h)⟩
          completed := by simp [hcompletes] } }

/-- The report of an operation that says nothing about claims or executions. -/
theorem reports_silent {x : RuntimeTxn} {c : RuntimeCtx} {s : RuntimeStore} {a : Outcome} (db' : Db)
    (hreports : x.op.reportsOn = none) (hfinalizes : x.op.finalizes = none)
    (hcompletes : x.op.completes = none) (hclaims : ∀ cs, a ≠ .claims cs)
    (hexec : ∀ ex, a ≠ .execution (some ex)) :
    executionOf ⟨x.op, x.beganDb, x.beganAt, c.clocks, .ok a⟩ = none ∧
      Reports s ⟨x.op, x.beganDb, x.beganAt, c.clocks, .ok a⟩ db' := by
  have hnoclaims : claimsOf ⟨x.op, x.beganDb, x.beganAt, c.clocks, .ok a⟩ = [] := by
    cases a <;> simp_all [claimsOf]
  have hnoexec : executionOf ⟨x.op, x.beganDb, x.beganAt, c.clocks, .ok a⟩ = none := by
    cases a with
    | execution ex => cases ex <;> simp_all [executionOf]
    | _ => simp [executionOf]
  exact ⟨hnoexec,
    { claims := by simp [hnoclaims]
      executions := by simp [hnoexec]
      current := by simp [hreports]
      finalized := by simp [hfinalizes]
      completed := by simp [hcompletes] }⟩

/-- The end of such an operation. -/
theorem closing_silent {m : Mode} {sc : Scope} {x : RuntimeTxn} {c : RuntimeCtx} {s : RuntimeStore}
    {a : Outcome} {new : DeliveryRow → Prop} (hreports : x.op.reportsOn = none) (hfinalizes : x.op.finalizes = none)
    (hcompletes : x.op.completes = none) (hclaims : ∀ cs, a ≠ .claims cs)
    (hexec : ∀ ex, a ≠ .execution (some ex))
    (hnew : ∀ r, new r → Origin (c.visible s.db) r) (hsc : sc = { new := new }) :
    Pending.Closing m sc c s ⟨x.op, x.beganDb, x.beganAt, c.clocks, .ok a⟩ := by
  obtain ⟨hnoexec, hsilent⟩ := reports_silent (x := x) (c := c) (s := s) (c.visible s.db)
    hreports hfinalizes hcompletes hclaims hexec
  subst hsc
  exact
    { wins := fun _ _ h => h.elim
      new := hnew
      settles := fun _ _ h => h.elim
      runs := fun _ _ _ _ _ h => h.elim
      prepares := fun _ h => h.elim
      tokens := by simp [hnoexec]
      reports := hsilent }

/-- An operation that creates nothing and says nothing may return. -/
theorem returns_silent {m : Mode} {x : RuntimeTxn} {c : RuntimeCtx} {s : RuntimeStore} {a : Outcome}
    (hp : Pending m {} c s) (hbegan : Began m x s) (hreports : x.op.reportsOn = none)
    (hfinalizes : x.op.finalizes = none) (hcompletes : x.op.completes = none)
    (hclaims : ∀ cs, a ≠ .claims cs) (hexec : ∀ ex, a ≠ .execution (some ex)) :
    m.discipline.returns x a c s :=
  hp.returns hbegan fun _ _ => closing_silent hreports hfinalizes hcompletes hclaims hexec
    (fun _ h => h.elim) rfl

theorem succeed_sound (m : Mode) (cd : ClaimedDelivery) (now : Datetime) :
    OpSound m (.succeed cd now) := by
  intro s hinv hallowed hrelay
  have hhanded : ∀ c s', m.discipline.Env c s s' → Handed (cd.cell s'.db) cd :=
    fun c s' henv => RuntimeInv.handed (m := m) henv.inv (Op.allowed_mono henv.log hallowed)
  have hf := finalizable_begin (.succeed cd now) { wins := (Op.succeed cd now).wins }
    (began_begin hallowed hrelay) hhanded (by simp [Op.reportsOn])
  simp only [Op.prog, succeed, Prog.bind_eq, Discipline.wp_bind]
  refine wp_succeedInTransaction hf ⟨rfl, rfl⟩ ?_ (fun e c' s' hrep => hrep.raises e) ?_
  · intro c' s' henv hgrown
    exact (hf.began.env henv).raises_lost (by simp [Txn.begin, Op.reportsOn])
  · intro τ c' s' henv hheld hids hp hended hrep hτ hτ'
    refine hp.returns hrep.toBegan fun s₂ henv₂ => ?_
    exact closing_of_ended (hrep.env henv₂) (hended.env henv₂) rfl rfl (fun _ => trivial)
      (by simp) (by simp) rfl

theorem fail_sound (m : Mode) (cd : ClaimedDelivery) (error : DeliveryError) (now : Datetime)
    (after : Option Timedelta) (uniform : ℚ → ℚ → PyFloat) :
    OpSound m (.fail cd error now after uniform) := by
  intro s hinv hallowed hrelay
  have hhanded : ∀ c s', m.discipline.Env c s s' → Handed (cd.cell s'.db) cd :=
    fun c s' henv => RuntimeInv.handed (m := m) henv.inv (Op.allowed_mono henv.log hallowed)
  have hf := finalizable_begin (.fail cd error now after uniform)
    { wins := (Op.fail cd error now after uniform).wins }
    (began_begin hallowed hrelay) hhanded
    (by simp [Op.reportsOn])
  simp only [Op.prog, fail, Prog.bind_eq, Discipline.wp_bind]
  refine wp_failInTransaction hf ?_ (fun e c' s' _ _ hrep => hrep.raises e)
    (fun c' s' hrep => hrep.raises _) ?_
  · intro c' s' henv hgrown
    exact (hf.began.env henv).raises_lost (by simp [Txn.begin, Op.reportsOn])
  · intro state τ c' s' henv hheld hids hp hended hrep hτ hτ' hstate
    refine wp_databaseNow fun s₂ henv₂ => ?_
    have hgrown := Grown.tell c' s₂.now
    have hrep₂ := (hrep.env henv₂).congr hgrown.held
      (List.prefix_append _ _)
    have hended₂ := (hended.env henv₂).congr hgrown.writes hgrown.held
    refine ((hp.env henv₂).grown hgrown).returns hrep₂.toBegan fun s₃ henv₃ => ?_
    exact closing_of_ended (hrep₂.env henv₃) (hended₂.env henv₃) rfl rfl
      (fun h => h.elim) (by simp) (by simp) rfl

end FastapiEffects
