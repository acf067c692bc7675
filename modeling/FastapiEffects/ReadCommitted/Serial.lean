import FastapiEffects.ReadCommitted.Rules
import FastapiEffects.ReadCommitted.Runner

/-! # Serial runs

A run is serial when a transaction starts only while no other is running. In such a
run nothing is committed between a snapshot and what follows it, so the run is one
of every protocol whose guard accepts rows that have not changed.
-/

namespace ReadCommitted

variable {κ ρ ι ε o α : Type} [DecidableEq κ] [DecidableEq ι] [Schema κ ρ]

/-- Nothing is running. -/
def World.Quiet (w : World κ ρ ι ε o α) : Prop := ∀ t, w.txn t = none

/-- A step that starts a transaction only while nothing is running. -/
def SerialStep (P : Protocol κ ρ ι ε o α) (w w' : World κ ρ ι ε o α) : Prop :=
  Step P w w' ∧ (w.txns.length < w'.txns.length → w.Quiet)

/-- Every world some serial steps lead to from `w₀`. -/
def SerialReachable (P : Protocol κ ρ ι ε o α) (w₀ w : World κ ρ ι ε o α) : Prop :=
  Relation.ReflTransGen (SerialStep P) w₀ w

/-- At most one transaction is running, and its snapshot is current. -/
def World.Current (w : World κ ρ ι ε o α) : Prop :=
  ∀ t x, w.txn t = some x → x.ctx.seen = w.store.db.rows ∧ ∀ u, u ≠ t → w.txn u = none

namespace World

variable {w : World κ ρ ι ε o α} {t : ℕ} {x x' : Txn κ ρ ι ε o α}

omit [DecidableEq κ] [DecidableEq ι] in
theorem Idle.current (h : w.Idle) : w.Current := by
  intro t x hx
  simp [txn, h.txns] at hx

variable (x') in
omit [DecidableEq κ] [DecidableEq ι] in
/-- Moving the running transaction on. -/
theorem Current.advance (h : w.Current) {w' : World κ ρ ι ε o α} (hx : w.txn t = some x)
    (hdb : w'.store.db = w.store.db)
    (htxn : ∀ u, w'.txn u = if u = t then some x' else w.txn u)
    (hseen : x'.ctx.seen = x.ctx.seen ∨ x'.ctx.seen = w.store.db.rows) : w'.Current := by
  obtain ⟨hcur, halone⟩ := h t x hx
  intro u y hy
  rw [htxn u] at hy
  by_cases hu : u = t
  · rw [if_pos hu] at hy
    cases hy
    refine ⟨?_, fun v hv => ?_⟩
    · rw [hdb]
      exact hseen.elim (fun h => h.trans hcur) id
    · have hvt : v ≠ t := hu ▸ hv
      rw [htxn v, if_neg hvt, halone v hvt]
  · rw [if_neg hu, halone u hu] at hy
    cases hy

omit [DecidableEq ι] in
/-- Taking a row lock. -/
theorem Current.advance_ownRow (h : w.Current) {z : κ} {r : Option ρ} {p : Prog κ ρ ι ε α}
    (hx : w.txn t = some x) :
    ((w.ownRow t z r).set t (x.next p (x.ctx.holdRow z r))).Current := by
  refine h.advance (x.next p (x.ctx.holdRow z r)) hx (by simp [set]) (fun u => ?_)
    (Or.inl ?_)
  · rw [txn_set (by simpa using hx), ownRow_txn]
  · cases r <;> rfl

omit [DecidableEq κ] [DecidableEq ι] in
/-- Ending the running transaction. -/
theorem Current.finish (h : w.Current) {w' : World κ ρ ι ε o α} (hx : w.txn t = some x)
    (htxn : ∀ u, w'.txn u = if u = t then none else w.txn u) : w'.Current := by
  intro u y hy
  rw [htxn u] at hy
  by_cases hu : u = t
  · rw [if_pos hu] at hy
    cases hy
  · rw [if_neg hu, (h t x hx).2 u hu] at hy
    cases hy

/-- Serial steps keep snapshots current. -/
theorem Current.step {P : Protocol κ ρ ι ε o α} {w' : World κ ρ ι ε o α} (h : w.Current)
    (hstep : SerialStep P w w') : w'.Current := by
  obtain ⟨hstep, hquiet⟩ := hstep
  cases hstep with
  | tick t ht => exact h
  | start op hop =>
      have hnone : w.Quiet := hquiet (by simp)
      intro u y hy
      rw [txn_start] at hy
      split_ifs at hy with hlast
      · cases hy
        refine ⟨rfl, fun v hv => ?_⟩
        rw [txn_start, if_neg (hlast ▸ hv), hnone v]
      · rw [hnone u] at hy
        cases hy
  | scan rows hx hp hrows => exact h.advance _ hx rfl (fun u => txn_set hx) (Or.inr rfl)
  | lock hx hp hfree => exact h.advance_ownRow hx
  | grant hx hp hfree hguard => exact h.advance_ownRow hx
  | commit hx hp => exact h.finish hx fun u => txn_close
  | fail hx hp => exact h.finish hx fun u => txn_close
  | abort hx => exact h.finish hx fun u => txn_close
  | clock hx hp => exact h.advance _ hx rfl (fun u => txn_set hx) (Or.inl rfl)
  | fresh i hx hp hi => exact h.advance _ hx rfl (fun u => txn_set hx) (Or.inl rfl)
  | read hx hp => exact h.advance _ hx rfl (fun u => txn_set hx) (Or.inl rfl)
  | skip hx hp hfree => exact h.advance _ hx rfl (fun u => txn_set hx) (Or.inl rfl)
  | advisory hx hp hfree =>
      exact h.advance _ hx rfl (fun u => txn_set (w := w.own _ _) hx) (Or.inl rfl)
  | put hx hp hfree =>
      exact h.advance _ hx rfl (fun u => txn_set (w := w.own _ _) hx) (Or.inl rfl)
  | insert hx hp hfree hwait hnew =>
      exact h.advance _ hx rfl (fun u => txn_set (w := w.own _ _) hx) (Or.inl rfl)
  | refuse hx hp hwait hold => exact h.advance _ hx rfl (fun u => txn_set hx) (Or.inl rfl)
  | erase hx hp hfree =>
      exact h.advance _ hx rfl (fun u => txn_set (w := w.own _ _) hx) (Or.inl rfl)

end World

/-! ## Running a serial schedule -/

section Run

variable {P : Protocol κ ρ ι ε o α} [∀ s op, Decidable (P.allowed s op)]
  [∀ op seen y r, Decidable (P.guard op seen y r)]

/-- Carry out a schedule that starts a transaction only while nothing is running. -/
def World.runSerial (P : Protocol κ ρ ι ε o α) [∀ s op, Decidable (P.allowed s op)]
    [∀ op seen y r, Decidable (P.guard op seen y r)] (w : World κ ρ ι ε o α) :
    List (Act ι o) → Option (World κ ρ ι ε o α)
  | [] => some w
  | a :: as => (w.act P a).bind fun w' =>
      if w.txns.length < w'.txns.length → w.txns.all Option.isNone then w'.runSerial P as else none

omit [DecidableEq κ] [DecidableEq ι] in
theorem World.quiet_of_all {w : World κ ρ ι ε o α} (h : w.txns.all Option.isNone) : w.Quiet := by
  intro t
  cases ht : w.txns[t]? with
  | none => simp [World.txn, ht]
  | some x =>
      have hnone := List.all_eq_true.mp h x (List.mem_of_getElem? ht)
      simp [World.txn, ht, Option.isNone_iff_eq_none.mp hnone]

/-- What a serial schedule leads to is reached serially. -/
theorem World.runSerial_reachable {w w' : World κ ρ ι ε o α} {as : List (Act ι o)}
    (h : w.runSerial P as = some w') : SerialReachable P w w' := by
  induction as generalizing w with
  | nil =>
      cases h
      exact .refl
  | cons a as ih =>
      obtain ⟨w₁, hstep, hrest⟩ := Option.bind_eq_some_iff.mp h
      split_ifs at hrest with hquiet
      exact .head ⟨World.step_of_act hstep, fun hlt => World.quiet_of_all (hquiet hlt)⟩ (ih hrest)

end Run

/-- The protocol with another guard. -/
def Protocol.withGuard (P : Protocol κ ρ ι ε o α) (guard : o → List ρ → κ → Option ρ → Prop) :
    Protocol κ ρ ι ε o α := { P with guard }

/-- A step under a guard that holds whenever the snapshot is current. -/
theorem SerialStep.withGuard {P : Protocol κ ρ ι ε o α}
    {guard : o → List ρ → κ → Option ρ → Prop}
    (hguard : ∀ op (db : Table κ ρ) y, guard op db.rows y (db.get y)) {w w' : World κ ρ ι ε o α}
    (hcur : w.Current) (hstep : SerialStep P w w') : Step (P.withGuard guard) w w' := by
  obtain ⟨hstep, -⟩ := hstep
  cases hstep with
  | tick t ht => exact .tick t ht
  | start op hop => exact .start (P := P.withGuard guard) op hop
  | clock hx hp => exact .clock hx hp
  | fresh i hx hp hi => exact .fresh i hx hp hi
  | scan rows hx hp hrows => exact .scan rows hx hp hrows
  | read hx hp => exact .read hx hp
  | lock hx hp hfree => exact .lock hx hp hfree
  | @grant t x y k hx hp hfree _ =>
      refine .grant hx hp hfree ?_
      rw [(hcur t x hx).1]
      exact hguard x.op w.store.db y
  | skip hx hp hfree => exact .skip hx hp hfree
  | advisory hx hp hfree => exact .advisory hx hp hfree
  | put hx hp hfree => exact .put hx hp hfree
  | insert hx hp hfree hwait hnew => exact .insert hx hp hfree hwait hnew
  | refuse hx hp hwait hold => exact .refuse hx hp hwait hold
  | erase hx hp hfree => exact .erase hx hp hfree
  | commit hx hp => exact .commit hx hp
  | fail hx hp => exact .fail hx hp
  | abort hx => exact .abort hx

/-- A serial run obeys every guard that accepts unchanged rows. -/
theorem SerialReachable.withGuard {P : Protocol κ ρ ι ε o α}
    {guard : o → List ρ → κ → Option ρ → Prop}
    (hguard : ∀ op (db : Table κ ρ) y, guard op db.rows y (db.get y)) {w₀ w : World κ ρ ι ε o α}
    (hidle : w₀.Idle) (hreach : SerialReachable P w₀ w) :
    Reachable (P.withGuard guard) w₀ w ∧ w.Current := by
  induction hreach with
  | refl => exact ⟨.refl, hidle.current⟩
  | tail _ hstep ih => exact ⟨.tail ih.1 (hstep.withGuard hguard ih.2), ih.2.step hstep⟩

end ReadCommitted
