import FastapiEffects.ReadCommitted.Walk

/-! # What a run writes

A program that writes only rows with a property, whatever the database answers, leaves only
such rows behind: no interleaving, retry or rollback makes another one. `Prog.Writes` is the
condition on programs, statement by statement, and `Reachable.written` the invariant of runs.
-/

namespace ReadCommitted

variable {κ ρ ι ε o α β γ : Type}

/-! ## Programs -/

/-- Whatever the database answers, the program puts only rows in `U`, inserts only rows in `I`
and returns only results in `Q`. -/
def Prog.Writes (U I : ρ → Prop) (Q : β → Prop) : Prog κ ρ ι ε β → Prop
  | .ret a => Q a
  | .raise _ => True
  | .clock k => ∀ t, (k t).Writes U I Q
  | .fresh k => ∀ i, (k i).Writes U I Q
  | .scan k => ∀ rows, (k rows).Writes U I Q
  | .read _ k | .lock _ k | .tryLock _ k => ∀ r, (k r).Writes U I Q
  | .advisory _ k | .erase _ k => k.Writes U I Q
  | .put r k => U r ∧ k.Writes U I Q
  | .insert r k => I r ∧ ∀ b, (k b).Writes U I Q

section Writes

variable {U U' I I' : ρ → Prop} {Q Q' : β → Prop}

/-- Consequence. -/
theorem writes_mono (hU : ∀ r, U r → U' r) (hI : ∀ r, I r → I' r) (hQ : ∀ a, Q a → Q' a)
    {p : Prog κ ρ ι ε β} (h : p.Writes U I Q) : p.Writes U' I' Q' := by
  induction p with
  | ret a => exact hQ a h
  | raise e => trivial
  | clock k ih => exact fun t => ih t (h t)
  | fresh k ih => exact fun i => ih i (h i)
  | scan k ih => exact fun rows => ih rows (h rows)
  | read x k ih => exact fun r => ih r (h r)
  | lock x k ih => exact fun r => ih r (h r)
  | tryLock x k ih => exact fun r => ih r (h r)
  | advisory x k ih => exact ih h
  | put r k ih => exact ⟨hU r h.1, ih h.2⟩
  | insert r k ih => exact ⟨hI r h.1, fun b => ih b (h.2 b)⟩
  | erase x k ih => exact ih h

/-- Sequencing. -/
theorem writes_bind {p : Prog κ ρ ι ε γ} {f : γ → Prog κ ρ ι ε β} :
    (p.bind f).Writes U I Q ↔ p.Writes U I fun a => (f a).Writes U I Q := by
  induction p with
  | ret a => rfl
  | raise e => rfl
  | clock k ih => simp only [Prog.bind, Prog.Writes, ih]
  | fresh k ih => simp only [Prog.bind, Prog.Writes, ih]
  | scan k ih => simp only [Prog.bind, Prog.Writes, ih]
  | read x k ih => simp only [Prog.bind, Prog.Writes, ih]
  | lock x k ih => simp only [Prog.bind, Prog.Writes, ih]
  | tryLock x k ih => simp only [Prog.bind, Prog.Writes, ih]
  | advisory x k ih => simp only [Prog.bind, Prog.Writes, ih]
  | put r k ih => simp only [Prog.bind, Prog.Writes, ih]
  | insert r k ih => simp only [Prog.bind, Prog.Writes, ih]
  | erase x k ih => simp only [Prog.bind, Prog.Writes, ih]

/-- Sequencing, when the second program is fine after any result of the first. -/
theorem writes_seq {p : Prog κ ρ ι ε γ} {f : γ → Prog κ ρ ι ε β} (hp : p.Writes U I fun _ => True)
    (hf : ∀ a, (f a).Writes U I Q) : (p.bind f).Writes U I Q :=
  writes_bind.mpr (writes_mono (fun _ h => h) (fun _ h => h) (fun a _ => hf a) hp)

/-- A handler may write too. -/
theorem writes_tryCatch {p : Prog κ ρ ι ε β} {h : ε → Prog κ ρ ι ε β} (hp : p.Writes U I Q)
    (hh : ∀ e, (h e).Writes U I Q) : (p.tryCatch h).Writes U I Q := by
  induction p with
  | ret a => exact hp
  | raise e => exact hh e
  | clock k ih => exact fun t => ih t (hp t)
  | fresh k ih => exact fun i => ih i (hp i)
  | scan k ih => exact fun rows => ih rows (hp rows)
  | read x k ih => exact fun r => ih r (hp r)
  | lock x k ih => exact fun r => ih r (hp r)
  | tryLock x k ih => exact fun r => ih r (hp r)
  | advisory x k ih => exact ih hp
  | put r k ih => exact ⟨hp.1, ih hp.2⟩
  | insert r k ih => exact ⟨hp.1, fun b => ih b (hp.2 b)⟩
  | erase x k ih => exact ih hp

/-- A computation of the client writes nothing. -/
theorem writes_ofExcept {x : Except ε β} (h : ∀ a, x = .ok a → Q a) :
    (Prog.ofExcept x : Prog κ ρ ι ε β).Writes U I Q := by
  cases x with
  | ok a => exact h a rfl
  | error e => trivial

/-- What a program writes includes what it inserts. -/
theorem Prog.Writes.inserts {p : Prog κ ρ ι ε β} (h : p.Writes U I Q) :
    p.Inserts I Q fun _ => True := by
  induction p with
  | ret a => exact h
  | raise e => trivial
  | clock k ih => exact fun t => ih t (h t)
  | fresh k ih => exact fun i => ih i (h i)
  | scan k ih => exact fun rows => ih rows (h rows)
  | read x k ih => exact fun r => ih r (h r)
  | lock x k ih => exact fun r => ih r (h r)
  | tryLock x k ih => exact fun r => ih r (h r)
  | advisory x k ih => exact ih h
  | put r k ih => exact ih h.2
  | insert r k ih => exact ⟨h.1, fun b => ih b (h.2 b)⟩
  | erase x k ih => exact ih h

end Writes

/-! ## Runs -/

section Runs

variable [DecidableEq κ] [Schema κ ρ] {R : ρ → Prop}

/-- The rows of a table and of the changes that are installed on it. -/
theorem mem_install {t : Table κ ρ} {ws : List (Write κ ρ)} {r : ρ}
    (h : r ∈ (t.install ws).rows) : r ∈ t.rows ∨ Write.put r ∈ ws := by
  induction ws generalizing t with
  | nil => exact Or.inl h
  | cons v ws ih =>
      cases v with
      | put r' =>
          rw [Table.install_put] at h
          rcases ih h with hrow | hlater
          · rcases Table.mem_put.mp hrow with heq | ⟨hold, -⟩
            · exact Or.inr (by rw [heq]; exact List.mem_cons_self)
            · exact Or.inl hold
          · exact Or.inr (List.mem_cons_of_mem _ hlater)
      | erase x =>
          rw [Table.install_erase] at h
          rcases ih h with hrow | hlater
          · exact Or.inl (Table.mem_erase.mp hrow).1
          · exact Or.inr (List.mem_cons_of_mem _ hlater)

/-- A transaction that has written only rows in `R` and will write no others. -/
structure Txn.Written (R : ρ → Prop) (x : Txn κ ρ ι ε o α) : Prop where
  rest : x.prog.Writes R R fun _ => True
  writes : ∀ r, Write.put r ∈ x.ctx.writes → R r

/-- One statement keeps it. -/
theorem Answers.written {s : Store κ ρ ε o α} {x x' : Txn κ ρ ι ε o α} {stmt : Stmt κ ρ}
    (ha : Answers s x.prog x.ctx stmt x'.prog x'.ctx) (h : x.Written R) : x'.Written R := by
  obtain ⟨hrest, hwrites⟩ := h
  have hrow : ∀ (c : Ctx κ ρ ι) (y : κ) (r : Option ρ), (c.holdRow y r).writes = c.writes := by
    intro c y r
    cases r <;> rfl
  have hput : ∀ {c : Ctx κ ρ ι} {r : ρ}, R r → (∀ r', Write.put r' ∈ c.writes → R r') →
      ∀ r', Write.put r' ∈ c.writes ++ [Write.put r] → R r' := by
    intro c r hr hc r' hr'
    rcases List.mem_append.mp hr' with hold | hnew
    · exact hc r' hold
    · rw [Write.put.inj (List.mem_singleton.mp hnew)]
      exact hr
  generalize x.prog = p at ha hrest
  generalize x.ctx = c at ha hwrites
  generalize hp' : x'.prog = p' at ha
  generalize hc' : x'.ctx = c' at ha
  suffices hnext : p'.Writes R R (fun _ => True) ∧ ∀ r, Write.put r ∈ c'.writes → R r by
    exact ⟨hp' ▸ hnext.1, hc' ▸ hnext.2⟩
  cases ha with
  | clock k => exact ⟨hrest _, hwrites⟩
  | fresh k _ i => exact ⟨hrest i, hwrites⟩
  | scan k _ rows hrows => exact ⟨hrest rows, hwrites⟩
  | read y k => exact ⟨hrest _, hwrites⟩
  | lock y k => exact ⟨hrest _, by rwa [hrow]⟩
  | grant y k => exact ⟨hrest _, by rwa [hrow]⟩
  | skip y k => exact ⟨hrest none, hwrites⟩
  | advisory y k => exact ⟨hrest, hwrites⟩
  | put r k => exact ⟨hrest.2, hput hrest.1 hwrites⟩
  | insert r k _ hnew => exact ⟨hrest.2 true, hput hrest.1 hwrites⟩
  | refuse r k _ hold => exact ⟨hrest.2 false, hwrites⟩
  | erase y k =>
      refine ⟨hrest, fun r hr => ?_⟩
      rcases List.mem_append.mp hr with hold | hnew
      · exact hwrites r hold
      · cases List.mem_singleton.mp hnew

variable [DecidableEq ι] {P : Protocol κ ρ ι ε o α} {w₀ w : World κ ρ ι ε o α}

/-- Along every run from such rows, of programs that write only such rows, all stored rows
are in `R`, and so is all that is pending. -/
theorem Reachable.written (hprog : ∀ op, (P.prog op).Writes R R fun _ => True)
    (hrows : ∀ r ∈ w₀.store.db.rows, R r) (hidle : ∀ t, w₀.txn t = none)
    (hreach : Reachable P w₀ w) :
    (∀ r ∈ w.store.db.rows, R r) ∧ ∀ t x, w.txn t = some x → x.Written R := by
  induction hreach with
  | refl =>
      refine ⟨hrows, fun t x hx => ?_⟩
      rw [hidle t] at hx
      cases hx
  | @tail w w' hprefix hstep ih =>
      constructor
      · rcases hstep.ends_cases with ⟨hdb, -⟩ | ⟨t, x, hx, -, ⟨a, -, hstore⟩ | ⟨e, -, hstore⟩⟩
        · rw [hdb]
          exact ih.1
        · -- a commit installs what its transaction wrote
          rw [hstore]
          intro r hr
          rcases mem_install hr with hold | hnew
          · exact ih.1 r hold
          · exact (ih.2 t x hx).writes r hnew
        · rw [hstore]
          exact ih.1
      · intro t x' hx'
        rcases hstep.txn_cases hx' with hsame | ⟨op, rfl⟩ | ⟨x, stmt, hx, ha, -, -, -⟩
        · exact ih.2 t x' hsame
        · exact ⟨hprog op, fun r hr => by cases hr⟩
        · exact ha.written (ih.2 t x hx)

end Runs

end ReadCommitted
