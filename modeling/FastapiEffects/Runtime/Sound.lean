import FastapiEffects.Runtime.Creation
import FastapiEffects.Runtime.Handoffs
import FastapiEffects.Runtime.Reconcile

/-! # Every run keeps the discipline

The runtime starts on empty tables. Whatever its operations do from there, and in
whichever order their statements run, the committed store changes only by the passing
of time and by commits that satisfy `Commits` (`Mode.reachable_induction`).
-/

namespace FastapiEffects

open Python ReadCommitted

variable [Platform]

/-- Every operation keeps the discipline. -/
theorem Op.sound (m : Mode) (op : Op) : OpSound m op := by
  cases op with
  | publish principal event routes now dedupe =>
      exact publish_sound m principal event routes now dedupe
  | claim now batchSize perTenant => exact claim_sound m now batchSize perTenant
  | succeed c now => exact succeed_sound m c now
  | fail c error now retryAfter uniform => exact fail_sound m c error now retryAfter uniform
  | reconcileExpired now batchSize => exact reconcileExpired_sound m now batchSize
  | replay tenantId deliveryId actor reason now kind =>
      exact replay_sound m tenantId deliveryId actor reason now kind
  | prepare c now => exact prepare_sound m c now
  | markEnqueued envelope now => exact markEnqueued_sound m envelope now
  | enqueueFailed envelope now uniform => exact enqueueFailed_sound m envelope now uniform
  | claimExecution envelope now timeout uniform =>
      exact claimExecution_sound m envelope now timeout uniform
  | finalizeSuccess ex now => exact finalizeSuccess_sound m ex now
  | finalizeFailure ex error now uniform => exact finalizeFailure_sound m ex error now uniform
  | recoverExpired now timeout batchSize uniform =>
      exact recoverExpired_sound m now timeout batchSize uniform

theorem Mode.sound (m : Mode) : m.discipline.Sound :=
  fun op s hinv hallowed => Op.sound m op s hinv hallowed.1 hallowed.2

/-! ## The start -/

omit [Platform] in
theorem cellAt_empty (t d : UUID) : cellAt (Table.empty : Db) t d = ⟨none, fun _ => none⟩ := by
  simp [cellAt, deliveryAt, attemptAt]

theorem runtimeInv_start (m : Mode) (now : Datetime) :
    RuntimeInv m (RuntimeWorld.start now).store where
  cells := by
    intro t d
    simp [RuntimeWorld.start, cellAt_empty, Cell.Inv]
  origin := by
    intro t d r hr
    simp [RuntimeWorld.start, deliveryAt] at hr
  claims := by simp [RuntimeWorld.start]
  executions := by simp [RuntimeWorld.start]

theorem worldInv_start (m : Mode) (now : Datetime) :
    WorldInv m.discipline (RuntimeWorld.start now) where
  inv := runtimeInv_start m now
  minted := by
    rintro i (⟨t, j, a, ha, -⟩ | ⟨e, he, -⟩)
    · simp [RuntimeWorld.start, attemptAt] at ha
    · simp [RuntimeWorld.start] at he
  txn := by simp [RuntimeWorld.start, World.txn]

theorem unique_start (now : Datetime) : Unique (RuntimeWorld.start now) where
  committed := by simp [RuntimeWorld.start, Table.Unclashed, Table.empty]
  txn := by simp [RuntimeWorld.start, World.txn]
  apart := by simp [RuntimeWorld.start, World.txn]

theorem RuntimeWorld.start_idle (now : Datetime) : (RuntimeWorld.start now).Idle :=
  ⟨rfl, fun _ => rfl⟩

/-! ## Runs -/

section Runs

variable {m : Mode} {now : Datetime} {w w' : RuntimeWorld}

/-- What every world of a run keeps. -/
theorem Mode.worldInv (hreach : Reachable m.protocol (RuntimeWorld.start now) w) :
    WorldInv m.discipline w :=
  (worldInv_start m now).reachable (D := m.discipline) m.sound hreach

/-- The unique constraints of the tables. -/
theorem Mode.unclashed (hreach : Reachable m.protocol (RuntimeWorld.start now) w) :
    w.store.db.Unclashed :=
  (Unique.reachable (D := m.discipline) m.sound (worldInv_start m now) (unique_start now)
    hreach).committed

/-- A step lets time pass, or it commits. -/
theorem Mode.step_cases (hreach : Reachable m.protocol (RuntimeWorld.start now) w)
    (hstep : Step m.protocol w w') :
    (w'.store.db = w.store.db ∧ w'.store.log = w.store.log ∧ w.store.now ≤ w'.store.now) ∨
      ∃ e, w'.store = ⟨w'.store.db, w.store.now, w.store.log ++ [e]⟩ ∧
        Commits m w.store e w'.store.db := by
  have hsteps := WorldInv.step_trans (D := m.discipline) (Mode.worldInv hreach) hstep
  rcases hsteps with ⟨hdb, hlog⟩ | ⟨hnow, e, hlog, hcommits⟩
  · refine Or.inl ⟨hdb, hlog, ?_⟩
    cases hstep with
    | tick t ht => exact ht
    | _ => simp [World.set, World.own, Store.commit, World.close]
  · refine Or.inr ⟨e, ?_, hcommits⟩
    rw [← hnow, ← hlog]

/-- What holds at the start, and is kept by the passing of time and by commits, holds of
every store a run reaches. -/
theorem Mode.reachable_induction {P : RuntimeStore → Prop}
    (hstart : P (RuntimeWorld.start now).store)
    (htick : ∀ s t, s.now ≤ t → P s → P (s.atTime t))
    (hcommit : ∀ s e db', RuntimeInv m s → db'.Unclashed → Commits m s e db' → P s →
      P ⟨db', s.now, s.log ++ [e]⟩)
    (hreach : Reachable m.protocol (RuntimeWorld.start now) w) : P w.store := by
  induction hreach with
  | refl => exact hstart
  | @tail w w' hprefix hstep ih =>
      rcases Mode.step_cases hprefix hstep with ⟨hdb, hlog, hnow⟩ | ⟨e, hstore, hcommits⟩
      · have hstore : w'.store = w.store.atTime w'.store.now := by
          rw [Store.atTime, ← hdb, ← hlog]
        rw [hstore]
        exact htick _ _ hnow ih
      · rw [hstore]
        exact hcommit _ e _ (Mode.worldInv hprefix).inv (Mode.unclashed (.tail hprefix hstep))
          hcommits ih

end Runs

end FastapiEffects
