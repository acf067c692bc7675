import FastapiEffects.ReadCommitted.Prog

/-! # Programs in a transaction of their caller

`Session.run` drops the changes of a program that raises, as a transaction of its own does.
A part of a longer transaction does not: `Session.exec` returns the session next to the result,
so a caller that handles the error goes on with what the part left pending.
-/

namespace ReadCommitted

namespace Session

variable {κ ρ ι ε α β : Type} [DecidableEq κ] [Schema κ ρ]

/-- Run a part of a transaction without any other transaction in the way. -/
def exec (s : Session κ ρ ι) : Prog κ ρ ι ε α → Except ε α × Session κ ρ ι
  | .ret a => (.ok a, s)
  | .raise e => (.error e, s)
  | .clock k => exec { s with clock := fun n => s.clock (n + 1) } (k (s.clock 0))
  | .fresh k => exec { s with supply := fun n => s.supply (n + 1) } (k (s.supply 0))
  | .scan k => exec s (k s.visible.rows)
  | .read x k => exec s (k (s.visible.get x))
  | .lock x k => exec s (k (s.visible.get x))
  | .tryLock x k => exec s (k (s.visible.get x))
  | .advisory _ k => exec s k
  | .put r k => exec (s.change (.put r)) k
  | .insert r k =>
      if s.visible.rows.any (conflict (κ := κ) r) then exec s (k false)
      else exec (s.change (.put r)) (k true)
  | .erase x k => exec (s.change (.erase x)) k

/-- A part that raises leaves the rows of its caller as they were. -/
def Atomic (s : Session κ ρ ι) (p : Prog κ ρ ι ε α) : Prop :=
  ∀ e, (s.exec p).1 = .error e → ∀ x, (s.exec p).2.visible.get x = s.visible.get x

/-- A transaction of its own is a part that is kept when it returns. -/
theorem run_eq_exec (s : Session κ ρ ι) (p : Prog κ ρ ι ε α) :
    s.run p = (s.exec p).1.map fun a => (a, (s.exec p).2) := by
  induction p generalizing s with
  | ret a => rfl
  | raise e => rfl
  | clock k ih => exact ih _ _
  | fresh k ih => exact ih _ _
  | scan k ih => exact ih _ _
  | read x k ih => exact ih _ _
  | lock x k ih => exact ih _ _
  | tryLock x k ih => exact ih _ _
  | advisory x k ih => exact ih _
  | put r k ih => exact ih _
  | insert r k ih =>
      unfold run exec
      split_ifs
      · exact ih _ _
      · exact ih _ _
  | erase x k ih => exact ih _

/-- The second part of two starts where the first one ends. -/
theorem exec_bind (s : Session κ ρ ι) (p : Prog κ ρ ι ε α) (f : α → Prog κ ρ ι ε β) :
    s.exec (p.bind f) = match s.exec p with
      | (.ok a, s') => s'.exec (f a)
      | (.error e, s') => (.error e, s') := by
  induction p generalizing s with
  | ret a => rfl
  | raise e => rfl
  | clock k ih => exact ih _ _
  | fresh k ih => exact ih _ _
  | scan k ih => exact ih _ _
  | read x k ih => exact ih _ _
  | lock x k ih => exact ih _ _
  | tryLock x k ih => exact ih _ _
  | advisory x k ih => exact ih _
  | put r k ih => exact ih _
  | insert r k ih =>
      simp only [Prog.bind, exec]
      split_ifs
      · exact ih _ _
      · exact ih _ _
  | erase x k ih => exact ih _

/-- A handler starts from what the part left pending when it raised. -/
theorem exec_tryCatch (s : Session κ ρ ι) (p : Prog κ ρ ι ε α) (h : ε → Prog κ ρ ι ε α) :
    s.exec (p.tryCatch h) = match s.exec p with
      | (.ok a, s') => (.ok a, s')
      | (.error e, s') => s'.exec (h e) := by
  induction p generalizing s with
  | ret a => rfl
  | raise e => rfl
  | clock k ih => exact ih _ _
  | fresh k ih => exact ih _ _
  | scan k ih => exact ih _ _
  | read x k ih => exact ih _ _
  | lock x k ih => exact ih _ _
  | tryLock x k ih => exact ih _ _
  | advisory x k ih => exact ih _
  | put r k ih => exact ih _
  | insert r k ih =>
      simp only [Prog.tryCatch, exec]
      split_ifs
      · exact ih _ _
      · exact ih _ _
  | erase x k ih => exact ih _

theorem exec_bind_ok {s s' : Session κ ρ ι} {p : Prog κ ρ ι ε α} {a : α}
    (h : s.exec p = (.ok a, s')) (f : α → Prog κ ρ ι ε β) : s.exec (p.bind f) = s'.exec (f a) := by
  rw [exec_bind, h]

theorem exec_bind_error {s s' : Session κ ρ ι} {p : Prog κ ρ ι ε α} {e : ε}
    (h : s.exec p = (.error e, s')) (f : α → Prog κ ρ ι ε β) :
    s.exec (p.bind f) = (.error e, s') := by
  rw [exec_bind, h]

/-- A program that returns returned from its first part. -/
theorem exec_bind_eq_ok {s s' : Session κ ρ ι} {p : Prog κ ρ ι ε α} {f : α → Prog κ ρ ι ε β} {b : β}
    (h : s.exec (p.bind f) = (.ok b, s')) :
    ∃ a s₁, s.exec p = (.ok a, s₁) ∧ s₁.exec (f a) = (.ok b, s') := by
  rw [exec_bind] at h
  rcases hp : s.exec p with ⟨e | a, s₁⟩
  · rw [hp] at h
    cases h
  · rw [hp] at h
    exact ⟨a, s₁, rfl, h⟩

/-- A computation of the client leaves the session. -/
theorem exec_ofExcept (s : Session κ ρ ι) (x : Except ε α) :
    s.exec (.ofExcept x : Prog κ ρ ι ε α) = (x, s) := by
  cases x <;> rfl

@[simp] theorem visible_put (s : Session κ ρ ι) (r : ρ) :
    (s.change (.put r)).visible = s.visible.put r := by
  simp [visible, change]

@[simp] theorem visible_clock (s : Session κ ρ ι) (clock : ℕ → Int) :
    ({ s with clock := clock } : Session κ ρ ι).visible = s.visible := rfl

@[simp] theorem visible_supply (s : Session κ ρ ι) (supply : ℕ → ι) :
    ({ s with supply := supply } : Session κ ρ ι).visible = s.visible := rfl

/-- What raises before it changes a row is atomic. -/
theorem atomic_of_visible_eq {s : Session κ ρ ι} {p : Prog κ ρ ι ε α}
    (h : (s.exec p).2.visible = s.visible) : s.Atomic p := by
  intro e _ x
  rw [h]

/-- What returns is atomic. -/
theorem atomic_of_ok {s : Session κ ρ ι} {p : Prog κ ρ ι ε α} {a : α}
    (h : (s.exec p).1 = .ok a) : s.Atomic p := by
  intro e he
  rw [h] at he
  cases he

end Session

end ReadCommitted
