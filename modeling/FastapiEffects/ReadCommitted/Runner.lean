import FastapiEffects.ReadCommitted.World

/-! # Running a schedule

`World.run` executes a schedule, the list of what happens in which order, and
stops when an action is not possible. Every world it returns is reachable
(`run_reachable`), so a concrete interleaving is exhibited by its schedule.
-/

namespace ReadCommitted

/-- One entry of a schedule. -/
inductive Act (ι o : Type) where
  | tick (t : Int)
  | start (op : o)
  /-- The next statement of a transaction, or its end. -/
  | step (t : ℕ)
  /-- The next statement of a transaction, which asks for an identifier. -/
  | mint (t : ℕ) (i : ι)
  | abort (t : ℕ)

namespace World

variable {κ ρ ι ε o α : Type} [DecidableEq κ] [DecidableEq ι] [Schema κ ρ]
  (P : Protocol κ ρ ι ε o α)

/-- The next statement of transaction `t`, which runs `x`. A scan shows the rows
in table order. -/
def advance [∀ op seen y r, Decidable (P.guard op seen y r)] (w : World κ ρ ι ε o α) (t : ℕ)
    (x : Txn κ ρ ι ε o α) : Option (World κ ρ ι ε o α) :=
  let see := x.ctx.visible w.store.db
  match x.prog with
  | .ret a => some { w.close t with store := w.store.commit (x.entry (.ok a)) x.ctx.writes }
  | .raise e => some { w.close t with store := w.store.commit (x.entry (.error e)) [] }
  | .clock k => some (w.set t (x.next (k w.store.now) (x.ctx.tell w.store.now)))
  | .fresh _ => none
  | .scan k => some (w.set t (x.next (k see.rows) (x.ctx.see w.store.db.rows)))
  | .read y k => some (w.set t (x.next (k (see.get y)) x.ctx))
  | .lock y k =>
      if w.free t y then
        some ((w.ownRow t y (see.get y)).set t
          (x.next (k (see.get y)) (x.ctx.holdRow y (see.get y))))
      else none
  | .tryLock y k =>
      if w.free t y then
        if P.guard x.op x.ctx.seen y (w.store.db.get y) then
          some ((w.ownRow t y (see.get y)).set t
            (x.next (k (see.get y)) (x.ctx.holdRow y (see.get y))))
        else none
      else some (w.set t (x.next (k none) x.ctx))
  | .advisory y k =>
      if w.free t y then some ((w.own t y).set t (x.next k (x.ctx.hold y))) else none
  | .put r k =>
      if w.free t (Schema.key r) then
        some ((w.own t (Schema.key r)).set t (x.next k (x.ctx.change (.put r))))
      else none
  | .insert r k =>
      if w.pendingConflict t r then none
      else if see.rows.any (Session.conflict (κ := κ) r) then some (w.set t (x.next (k false) x.ctx))
      else if w.free t (Schema.key r) then
        some ((w.own t (Schema.key r)).set t (x.next (k true) (x.ctx.insert r)))
      else none
  | .erase y k =>
      if w.free t y then some ((w.own t y).set t (x.next k (x.ctx.change (.erase y)))) else none

/-- Hand transaction `t`, which runs `x`, the identifier `i`. -/
def handOut (w : World κ ρ ι ε o α) (t : ℕ) (x : Txn κ ρ ι ε o α) (i : ι) :
    Option (World κ ρ ι ε o α) :=
  match x.prog with
  | .fresh k =>
      if w.minted i = none then
        some { w.set t (x.next (k i) (x.ctx.mint i)) with
          minted := Function.update w.minted i (some t) }
      else none
  | _ => none

variable [∀ s op, Decidable (P.allowed s op)] [∀ op seen y r, Decidable (P.guard op seen y r)]

/-- Carry out one entry of a schedule. -/
def act (w : World κ ρ ι ε o α) : Act ι o → Option (World κ ρ ι ε o α)
  | .tick t => if w.store.now ≤ t then some { w with store := w.store.atTime t } else none
  | .start op =>
      if P.allowed w.store op then
        some { w with txns := w.txns ++ [some (Txn.begin op w.store (P.prog op))] }
      else none
  | .step t => (w.txn t).bind fun x => w.advance P t x
  | .mint t i => (w.txn t).bind fun x => w.handOut t x i
  | .abort t => (w.txn t).map fun _ => w.close t

/-- Carry out a schedule. -/
def run (w : World κ ρ ι ε o α) : List (Act ι o) → Option (World κ ρ ι ε o α)
  | [] => some w
  | a :: as => (w.act P a).bind fun w' => w'.run as

/-- Carry out a schedule as long as the worlds it meets pass a check. -/
def runWhile (check : World κ ρ ι ε o α → Bool) (w : World κ ρ ι ε o α) :
    List (Act ι o) → Option (World κ ρ ι ε o α)
  | [] => some w
  | a :: as => if check w then (w.act P a).bind fun w' => w'.runWhile check as else none

variable {P}

omit [∀ s op, Decidable (P.allowed s op)] in
theorem step_of_advance {w w' : World κ ρ ι ε o α} {t : ℕ} {x : Txn κ ρ ι ε o α}
    (hx : w.txn t = some x) (h : w.advance P t x = some w') : Step P w w' := by
  unfold advance at h
  cases hp : x.prog with
  | ret a =>
      simp only [hp, Option.some.injEq] at h
      exact h ▸ .commit hx hp
  | raise e =>
      simp only [hp, Option.some.injEq] at h
      exact h ▸ .fail hx hp
  | clock k =>
      simp only [hp, Option.some.injEq] at h
      exact h ▸ .clock hx hp
  | fresh k => simp [hp] at h
  | scan k =>
      simp only [hp, Option.some.injEq] at h
      exact h ▸ .scan _ hx hp (List.Perm.refl _)
  | read y k =>
      simp only [hp, Option.some.injEq] at h
      exact h ▸ .read hx hp
  | lock y k =>
      simp only [hp, Option.ite_none_right_eq_some, Option.some.injEq] at h
      exact h.2 ▸ .lock hx hp h.1
  | tryLock y k =>
      simp only [hp] at h
      by_cases hfree : w.free t y
      · simp only [hfree, if_true, Option.ite_none_right_eq_some, Option.some.injEq] at h
        exact h.2 ▸ .grant hx hp hfree h.1
      · simp only [hfree, if_false, Option.some.injEq] at h
        exact h ▸ .skip hx hp hfree
  | advisory y k =>
      simp only [hp, Option.ite_none_right_eq_some, Option.some.injEq] at h
      exact h.2 ▸ .advisory hx hp h.1
  | put r k =>
      simp only [hp, Option.ite_none_right_eq_some, Option.some.injEq] at h
      exact h.2 ▸ .put hx hp h.1
  | insert r k =>
      simp only [hp] at h
      by_cases hwait : w.pendingConflict t r = true
      · simp [hwait] at h
      have hwait' : w.pendingConflict t r = false := by simpa using hwait
      by_cases hold : (x.ctx.visible w.store.db).rows.any (Session.conflict (κ := κ) r) = true
      · simp only [hwait', hold, Bool.false_eq_true, if_false, if_true, Option.some.injEq] at h
        exact h ▸ .refuse hx hp hwait' hold
      · simp only [hwait', hold, Bool.false_eq_true, if_false, Option.ite_none_right_eq_some,
          Option.some.injEq] at h
        exact h.2 ▸ .insert hx hp h.1 hwait' (by simpa using hold)
  | erase y k =>
      simp only [hp, Option.ite_none_right_eq_some, Option.some.injEq] at h
      exact h.2 ▸ .erase hx hp h.1

omit [∀ s op, Decidable (P.allowed s op)] [∀ op seen y r, Decidable (P.guard op seen y r)] in
theorem step_of_handOut {w w' : World κ ρ ι ε o α} {t : ℕ} {x : Txn κ ρ ι ε o α} {i : ι}
    (hx : w.txn t = some x) (h : w.handOut t x i = some w') : Step P w w' := by
  unfold handOut at h
  split at h
  · rename_i k hp
    simp only [Option.ite_none_right_eq_some, Option.some.injEq] at h
    exact h.2 ▸ .fresh i hx hp h.1
  · cases h

theorem step_of_act {w w' : World κ ρ ι ε o α} {a : Act ι o} (h : w.act P a = some w') :
    Step P w w' := by
  cases a with
  | tick t =>
      simp only [act, Option.ite_none_right_eq_some, Option.some.injEq] at h
      exact h.2 ▸ .tick t h.1
  | start op =>
      simp only [act, Option.ite_none_right_eq_some, Option.some.injEq] at h
      exact h.2 ▸ .start op h.1
  | step t =>
      obtain ⟨x, hx, hstep⟩ := Option.bind_eq_some_iff.mp h
      exact step_of_advance hx hstep
  | mint t i =>
      obtain ⟨x, hx, hstep⟩ := Option.bind_eq_some_iff.mp h
      exact step_of_handOut hx hstep
  | abort t =>
      obtain ⟨x, hx, rfl⟩ := Option.map_eq_some_iff.mp h
      exact .abort hx

/-- What a schedule leads to is reachable. -/
theorem run_reachable {w w' : World κ ρ ι ε o α} {as : List (Act ι o)}
    (h : w.run P as = some w') : Reachable P w w' := by
  induction as generalizing w with
  | nil =>
      cases h
      exact .refl
  | cons a as ih =>
      obtain ⟨w₁, hstep, hrest⟩ := Option.bind_eq_some_iff.mp h
      exact .head (step_of_act hstep) (ih hrest)

/-- What a checked schedule leads to is reached by steps from worlds that pass the check. -/
theorem run_of_runWhile {check : World κ ρ ι ε o α → Bool} {w w' : World κ ρ ι ε o α}
    {as : List (Act ι o)} (h : w.runWhile P check as = some w') :
    Relation.ReflTransGen (fun v v' => Step P v v' ∧ check v = true) w w' := by
  induction as generalizing w with
  | nil =>
      cases h
      exact .refl
  | cons a as ih =>
      simp only [runWhile, Option.ite_none_right_eq_some] at h
      obtain ⟨hcheck, hrun⟩ := h
      obtain ⟨w₁, hstep, hrest⟩ := Option.bind_eq_some_iff.mp hrun
      exact .head ⟨step_of_act hstep, hcheck⟩ (ih hrest)

end World

end ReadCommitted
