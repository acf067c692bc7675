import FastapiEffects.ReadCommitted.Rules

/-! # Transactions that take effect at once

When every transaction reads what it depends on under locks, its commit does to the
committed rows what it would have done alone at that moment. `Serial` says so of a whole
log: the rows are what its transactions make of the first ones, one after another.
-/

namespace ReadCommitted

variable {κ ρ ι ε o α : Type} [DecidableEq κ] [Schema κ ρ]

/-- What the end of a transaction does to the rows: the effect of its operation, or nothing
when it raised. -/
def Applies (effect : o → α → Table κ ρ → Table κ ρ → Prop) (e : Entry κ ρ ε o α)
    (db db' : Table κ ρ) : Prop :=
  match e.result with
  | .ok a => effect e.op a db db'
  | .error _ => db' = db

/-- The rows after the transactions of a log, one after another. -/
inductive Serial (effect : o → α → Table κ ρ → Table κ ρ → Prop) :
    List (Entry κ ρ ε o α) → Table κ ρ → Prop where
  | nil : Serial effect [] Table.empty
  | snoc {log : List (Entry κ ρ ε o α)} {e : Entry κ ρ ε o α} {db db' : Table κ ρ}
      (h : Serial effect log db) (he : Applies effect e db db') : Serial effect (log ++ [e]) db'

/-- The discipline of transactions that take effect at once. -/
def Protocol.serial (P : Protocol κ ρ ι ε o α) (effect : o → α → Table κ ρ → Table κ ρ → Prop) :
    Discipline κ ρ ι ε o α where
  toProtocol := P
  Inv s := Serial effect s.log s.db
  Trans s s' := ∃ e, s'.log = s.log ++ [e] ∧ Applies effect e s.db s'.db
  grows _ _ := True
  rely _ _ _ := True
  ids _ _ := ∅
  inv_tick _ _ h _ := h
  grows_refl _ := trivial
  grows_trans _ _ _ _ _ := trivial
  rely_refl _ _ := trivial
  rely_trans _ _ _ _ _ _ := trivial
  rely_tick _ _ _ _ := trivial

section Serial

variable {P : Protocol κ ρ ι ε o α} {effect : o → α → Table κ ρ → Table κ ρ → Prop}

/-- A transaction may return when its changes have the effect of its operation, whatever the
others did in the meantime. -/
def Protocol.Effective (P : Protocol κ ρ ι ε o α) (effect : o → α → Table κ ρ → Table κ ρ → Prop)
    (op : o) (a : α) (c : Ctx κ ρ ι) (s : Store κ ρ ε o α) : Prop :=
  ∀ s', (P.serial effect).Env c s s' → effect op a s'.db (s'.db.install c.writes)

theorem Protocol.serial_endOk {c : Ctx κ ρ ι} {s : Store κ ρ ε o α} {e : Entry κ ρ ε o α}
    {ws : List (Write κ ρ)} (hinv : Serial effect s.log s.db)
    (he : Applies effect e s.db (s.db.install ws)) :
    (P.serial effect).EndOk c s (s.commit e ws) where
  inv := .snoc hinv he
  trans := ⟨e, rfl, he⟩
  grows := trivial
  rely _ _ := trivial
  ids _ hi := by cases hi

/-- It is enough that every program ends with the effect of its operation. -/
theorem Protocol.serial_sound
    (h : ∀ op s, P.allowed s op → (P.serial effect).wp op (P.Effective effect op) (fun _ _ _ => True)
      (P.prog op) (Ctx.init s.db.rows) s) : (P.serial effect).Sound := by
  intro op s _ hallowed
  refine Discipline.wp_mono (fun a c s' heffective s'' henv => ?_) (fun e c s' _ s'' henv => ?_)
    (h op s hallowed)
  · exact serial_endOk henv.inv (heffective s'' henv)
  · exact serial_endOk henv.inv rfl

variable [DecidableEq ι]

theorem serial_worldInv {w₀ w : World κ ρ ι ε o α} (hsound : (P.serial effect).Sound)
    (hidle : w₀.Idle) (hdb : w₀.store.db = Table.empty) (hlog : w₀.store.log = [])
    (hreach : Reachable P w₀ w) : WorldInv (P.serial effect) w := by
  have hinv : (P.serial effect).Inv w₀.store := by
    change Serial effect w₀.store.log w₀.store.db
    rw [hdb, hlog]
    exact .nil
  exact (WorldInv.of_idle hidle hinv fun i hi => by cases hi).reachable hsound hreach

/-- A step changes neither rows nor log, or it is the end of a transaction that takes effect. -/
theorem applies_of_step {w w' : World κ ρ ι ε o α} (h : WorldInv (P.serial effect) w)
    (hstep : Step P w w') : (w'.store.db = w.store.db ∧ w'.store.log = w.store.log) ∨
      ∃ e, w'.store.log = w.store.log ++ [e] ∧ Applies effect e w.store.db w'.store.db :=
  h.step_trans hstep

end Serial

/-! ## What a transaction knows -/

/-- A transaction that holds a row knows its committed version. -/
def Knows (c : Ctx κ ρ ι) (s : Store κ ρ ε o α) (x : κ) (r : Option ρ) : Prop :=
  x ∈ c.held ∧ s.db.get x = r

section Knows

variable {D : Discipline κ ρ ι ε o α} {c c' : Ctx κ ρ ι} {s s' : Store κ ρ ε o α} {x : κ}
  {r : Option ρ}

/-- What is known stays. -/
theorem Knows.env (h : Knows c s x r) (henv : D.Env c s s') : Knows c s' x r :=
  ⟨h.1, (henv.rows x h.1).trans h.2⟩

/-- A transaction that holds more knows at least as much. -/
theorem Knows.mono (h : Knows c s x r) (hheld : c.held ⊆ c'.held) : Knows c' s x r :=
  ⟨hheld h.1, h.2⟩

theorem Knows.mint (h : Knows c s x r) (i : ι) : Knows (c.mint i) s x r := h

/-- A row that was found is known from then on. -/
theorem knows_holdRow {row : ρ} (hwrites : c.writes = []) (h : (c.visible s.db).get x = some row) :
    Knows (c.holdRow x ((c.visible s.db).get x)) s x (some row) := by
  have hvisible : c.visible s.db = s.db := by rw [Ctx.visible, hwrites, Table.install_nil]
  rw [h]
  refine ⟨List.mem_cons_self, ?_⟩
  rw [← hvisible]
  exact h

omit [DecidableEq κ] in
theorem held_change (v : Write κ ρ) : c.held ⊆ (c.change v).held := List.subset_cons_self _ _

omit [DecidableEq κ] in
theorem held_insert (v : ρ) : c.held ⊆ (c.insert v).held := List.subset_cons_self _ _

omit [DecidableEq κ] in
theorem writes_mint (i : ι) {l : List (Write κ ρ)} (h : c.writes = l) : (c.mint i).writes = l := h

omit [DecidableEq κ] in
/-- What was written after one more insertion. -/
theorem writes_insert {row : ρ} {l : List ρ} (h : c.writes = l.map Write.put) :
    (c.insert row).writes = (l ++ [row]).map Write.put := by
  rw [List.map_append, ← h]
  rfl

/-- After insertions a key is free when it was free and none of them took it. -/
theorem get_install_puts_eq_none {t : Table κ ρ} {rows : List ρ} :
    (t.install (rows.map Write.put)).get x = none ↔
      t.get x = none ∧ ∀ r ∈ rows, (Schema.key r : κ) ≠ x := by
  induction rows generalizing t with
  | nil => simp
  | cons r rows ih =>
      rw [List.map_cons, Table.install_put, ih, Table.get_put]
      split_ifs with hkey
      · simp [hkey]
      · simp [hkey]

/-- The place of an inserted row is known to be free, when what was written before are rows. -/
theorem knows_insert {row : ρ} {l : List ρ} (hwrites : c.writes = l.map Write.put)
    (hnew : (c.visible s.db).rows.any (Session.conflict (κ := κ) row) = false) :
    Knows (c.insert row) s (Schema.key row) none := by
  refine ⟨List.mem_cons_self, ?_⟩
  have hfree : (s.db.install (l.map Write.put)).get (Schema.key row) = none := by
    rw [← hwrites, Table.get_eq_none_iff]
    intro r hr hkey
    have hclash := List.any_eq_false.mp hnew r hr
    exact hclash (decide_eq_true (Or.inl hkey.symm))
  exact (get_install_puts_eq_none.mp hfree).1

end Knows

end ReadCommitted
