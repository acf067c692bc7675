import FastapiEffects.ReadCommitted.Rules

/-! # What a transaction has done so far

The rules of a discipline look forward, to what a program may still do. `Walk` looks
back: at the statements a running transaction has sent, each annotated with the store
that answered it. Every running transaction of a reachable world has walked its program
over stores the run went through (`WorldInv.walk`), and `Foresees` carries a
postcondition along a walk, statement by statement (`Walk.foresees`).
-/

namespace ReadCommitted

/-- What a transaction sends to the database. -/
inductive Stmt (κ ρ : Type) where
  | clock
  | fresh
  | scan
  | read (x : κ)
  | lock (x : κ)
  | tryLock (x : κ)
  | advisory (x : κ)
  | put (r : ρ)
  | insert (r : ρ)
  | erase (x : κ)

variable {κ ρ ι ε o α : Type} [DecidableEq κ] [Schema κ ρ]

/-! ## Walks -/

/-- A statement and what becomes of the program once the store `s` has answered it. -/
inductive Answers (s : Store κ ρ ε o α) : Prog κ ρ ι ε α → Ctx κ ρ ι → Stmt κ ρ →
    Prog κ ρ ι ε α → Ctx κ ρ ι → Prop where
  | clock (k c) : Answers s (.clock k) c .clock (k s.now) (c.tell s.now)
  | fresh (k c) (i : ι) : Answers s (.fresh k) c .fresh (k i) (c.mint i)
  | scan (k c) (rows : List ρ) (hrows : rows.Perm (c.visible s.db).rows) :
      Answers s (.scan k) c .scan (k rows) (c.see s.db.rows)
  | read (x k c) : Answers s (.read x k) c (.read x) (k ((c.visible s.db).get x)) c
  | lock (x k c) : Answers s (.lock x k) c (.lock x) (k ((c.visible s.db).get x))
      (c.holdRow x ((c.visible s.db).get x))
  | grant (x k c) : Answers s (.tryLock x k) c (.tryLock x) (k ((c.visible s.db).get x))
      (c.holdRow x ((c.visible s.db).get x))
  | skip (x k c) : Answers s (.tryLock x k) c (.tryLock x) (k none) c
  | advisory (x k c) : Answers s (.advisory x k) c (.advisory x) k (c.hold x)
  | put (r k c) : Answers s (.put r k) c (.put r) k (c.change (.put r))
  | insert (r k c) (hnew : (c.visible s.db).rows.any (Session.conflict (κ := κ) r) = false) :
      Answers s (.insert r k) c (.insert r) (k true) (c.insert r)
  | refuse (r k c) (hold : (c.visible s.db).rows.any (Session.conflict (κ := κ) r) = true) :
      Answers s (.insert r k) c (.insert r) (k false) c
  | erase (x k c) : Answers s (.erase x k) c (.erase x) k (c.change (.erase x))

/-- The statements sent from `p` in `c` on, each of which satisfies `V` with the store
that answered it and the context it left. -/
inductive Walk (V : Store κ ρ ε o α → Stmt κ ρ → Ctx κ ρ ι → Prop) (p : Prog κ ρ ι ε α)
    (c : Ctx κ ρ ι) : Prog κ ρ ι ε α → Ctx κ ρ ι → Prop where
  | refl : Walk V p c p c
  | step {p' c' p'' c'' s stmt} (h : Walk V p c p' c') (ha : Answers s p' c' stmt p'' c'')
      (hv : V s stmt c'') : Walk V p c p'' c''

/-- What a transaction holds it keeps. -/
theorem Answers.held {s : Store κ ρ ε o α} {p p' : Prog κ ρ ι ε α} {c c' : Ctx κ ρ ι}
    {stmt : Stmt κ ρ} (h : Answers s p c stmt p' c') : c.held ⊆ c'.held := by
  have hrow : ∀ (y : κ) (r : Option ρ), c.held ⊆ (c.holdRow y r).held := by
    intro y r
    cases r with
    | none => exact List.Subset.refl _
    | some r => exact List.subset_cons_self _ _
  cases h with
  | clock | fresh | scan | read | skip | refuse => exact List.Subset.refl _
  | lock | grant => exact hrow _ _
  | advisory | put | insert | erase => exact List.subset_cons_self _ _

section Walks

variable {V V' : Store κ ρ ε o α → Stmt κ ρ → Ctx κ ρ ι → Prop} {p p' : Prog κ ρ ι ε α}
  {c c' : Ctx κ ρ ι}

theorem Walk.mono (h : Walk V p c p' c') (hV : ∀ s stmt c'', V s stmt c'' →
    c''.held ⊆ c'.held → V' s stmt c'') : Walk V' p c p' c' := by
  induction h with
  | refl => exact .refl
  | @step p' c' p'' c'' s stmt hwalk ha hv ih =>
      have hprefix : Walk V' p c p' c' :=
        ih fun s' stmt' d hd hsub => hV s' stmt' d hd (List.Subset.trans hsub ha.held)
      exact hprefix.step ha (hV _ _ _ hv (List.Subset.refl _))

end Walks

/-! ## Postconditions of walks -/

/-- Every walk of the program that ends by returning ends in `Q`, and every one that
ends by raising in `E`. -/
def Foresees {β : Type} (V : Store κ ρ ε o α → Stmt κ ρ → Ctx κ ρ ι → Prop)
    (Q : β → Ctx κ ρ ι → Prop) (E : ε → Ctx κ ρ ι → Prop) :
    Prog κ ρ ι ε β → Ctx κ ρ ι → Prop
  | .ret a, c => Q a c
  | .raise e, c => E e c
  | .clock k, c => ∀ s, V s .clock (c.tell s.now) → Foresees V Q E (k s.now) (c.tell s.now)
  | .fresh k, c => ∀ s i, V s .fresh (c.mint i) → Foresees V Q E (k i) (c.mint i)
  | .scan k, c => ∀ s rows, rows.Perm (c.visible s.db).rows → V s .scan (c.see s.db.rows) →
      Foresees V Q E (k rows) (c.see s.db.rows)
  | .read x k, c => ∀ s, V s (.read x) c → Foresees V Q E (k ((c.visible s.db).get x)) c
  | .lock x k, c => ∀ s, V s (.lock x) (c.holdRow x ((c.visible s.db).get x)) →
      Foresees V Q E (k ((c.visible s.db).get x)) (c.holdRow x ((c.visible s.db).get x))
  | .tryLock x k, c => ∀ s, (V s (.tryLock x) c → Foresees V Q E (k none) c) ∧
      (V s (.tryLock x) (c.holdRow x ((c.visible s.db).get x)) →
        Foresees V Q E (k ((c.visible s.db).get x)) (c.holdRow x ((c.visible s.db).get x)))
  | .advisory x k, c => ∀ s, V s (.advisory x) (c.hold x) → Foresees V Q E k (c.hold x)
  | .put r k, c => ∀ s, V s (.put r) (c.change (.put r)) → Foresees V Q E k (c.change (.put r))
  | .insert r k, c => ∀ s,
      ((c.visible s.db).rows.any (Session.conflict (κ := κ) r) = true → V s (.insert r) c →
        Foresees V Q E (k false) c) ∧
      ((c.visible s.db).rows.any (Session.conflict (κ := κ) r) = false →
        V s (.insert r) (c.insert r) → Foresees V Q E (k true) (c.insert r))
  | .erase x k, c => ∀ s, V s (.erase x) (c.change (.erase x)) →
      Foresees V Q E k (c.change (.erase x))

section Foresees

variable {V : Store κ ρ ε o α → Stmt κ ρ → Ctx κ ρ ι → Prop} {β γ : Type}

/-- What a program foresees, the rest of it foresees. -/
theorem Walk.foresees {Q : α → Ctx κ ρ ι → Prop} {E : ε → Ctx κ ρ ι → Prop}
    {p p' : Prog κ ρ ι ε α} {c c' : Ctx κ ρ ι} (h : Walk V p c p' c')
    (hp : Foresees V Q E p c) : Foresees V Q E p' c' := by
  induction h with
  | refl => exact hp
  | @step p' c' p'' c'' s stmt hwalk ha hv ih =>
      cases ha with
      | clock k c => exact ih s hv
      | fresh k c i => exact ih s i hv
      | scan k c rows hrows => exact ih s rows hrows hv
      | read x k c => exact ih s hv
      | lock x k c => exact ih s hv
      | grant x k c => exact (ih s).2 hv
      | skip x k c => exact (ih s).1 hv
      | advisory x k c => exact ih s hv
      | put r k c => exact ih s hv
      | insert r k c hnew => exact (ih s).2 hnew hv
      | refuse r k c hold => exact (ih s).1 hold hv
      | erase x k c => exact ih s hv

variable {Q Q' : β → Ctx κ ρ ι → Prop} {E E' : ε → Ctx κ ρ ι → Prop}

/-- Consequence. -/
theorem foresees_mono (hQ : ∀ a c, Q a c → Q' a c) (hE : ∀ e c, E e c → E' e c)
    {p : Prog κ ρ ι ε β} {c : Ctx κ ρ ι} (h : Foresees V Q E p c) : Foresees V Q' E' p c := by
  induction p generalizing c with
  | ret a => exact hQ a c h
  | raise e => exact hE e c h
  | clock k ih => exact fun s hv => ih _ (h s hv)
  | fresh k ih => exact fun s i hv => ih _ (h s i hv)
  | scan k ih => exact fun s rows hrows hv => ih _ (h s rows hrows hv)
  | read x k ih => exact fun s hv => ih _ (h s hv)
  | lock x k ih => exact fun s hv => ih _ (h s hv)
  | tryLock x k ih => exact fun s => ⟨fun hv => ih _ ((h s).1 hv), fun hv => ih _ ((h s).2 hv)⟩
  | advisory x k ih => exact fun s hv => ih (h s hv)
  | put r k ih => exact fun s hv => ih (h s hv)
  | insert r k ih =>
      exact fun s => ⟨fun hold hv => ih _ ((h s).1 hold hv), fun hnew hv => ih _ ((h s).2 hnew hv)⟩
  | erase x k ih => exact fun s hv => ih (h s hv)

/-- Sequencing. -/
theorem foresees_bind {p : Prog κ ρ ι ε γ} {f : γ → Prog κ ρ ι ε β} {c : Ctx κ ρ ι} :
    Foresees V Q E (p.bind f) c ↔ Foresees V (fun a c => Foresees V Q E (f a) c) E p c := by
  induction p generalizing c with
  | ret a => rfl
  | raise e => rfl
  | clock k ih => simp only [Prog.bind, Foresees, ih]
  | fresh k ih => simp only [Prog.bind, Foresees, ih]
  | scan k ih => simp only [Prog.bind, Foresees, ih]
  | read x k ih => simp only [Prog.bind, Foresees, ih]
  | lock x k ih => simp only [Prog.bind, Foresees, ih]
  | tryLock x k ih => simp only [Prog.bind, Foresees, ih]
  | advisory x k ih => simp only [Prog.bind, Foresees, ih]
  | put r k ih => simp only [Prog.bind, Foresees, ih]
  | insert r k ih => simp only [Prog.bind, Foresees, ih]
  | erase x k ih => simp only [Prog.bind, Foresees, ih]

/-- A computation of the client. -/
theorem foresees_ofExcept {x : Except ε β} {c : Ctx κ ρ ι} (hok : ∀ a, x = .ok a → Q a c)
    (herr : ∀ e, x = .error e → E e c) : Foresees V Q E (.ofExcept x) c := by
  cases x with
  | ok a => exact hok a rfl
  | error e => exact herr e rfl

end Foresees

/-! ## What a program inserts -/

/-- Whatever the database answers, the program inserts only rows in `P`, returns only
results in `Q` and raises only errors in `E`. -/
def Prog.Inserts {β : Type} (P : ρ → Prop) (Q : β → Prop) (E : ε → Prop) :
    Prog κ ρ ι ε β → Prop
  | .ret a => Q a
  | .raise e => E e
  | .clock k => ∀ t, (k t).Inserts P Q E
  | .fresh k => ∀ i, (k i).Inserts P Q E
  | .scan k => ∀ rows, (k rows).Inserts P Q E
  | .read _ k | .lock _ k | .tryLock _ k => ∀ r, (k r).Inserts P Q E
  | .advisory _ k | .put _ k | .erase _ k => k.Inserts P Q E
  | .insert r k => P r ∧ ∀ b, (k b).Inserts P Q E

section Inserts

variable {P : ρ → Prop} {β γ : Type} {Q Q' : β → Prop} {E E' : ε → Prop}

omit [DecidableEq κ] [Schema κ ρ] in
theorem inserts_mono (hQ : ∀ a, Q a → Q' a) (hE : ∀ e, E e → E' e) {p : Prog κ ρ ι ε β}
    (h : p.Inserts P Q E) : p.Inserts P Q' E' := by
  induction p with
  | ret a => exact hQ a h
  | raise e => exact hE e h
  | clock k ih => exact fun t => ih t (h t)
  | fresh k ih => exact fun i => ih i (h i)
  | scan k ih => exact fun rows => ih rows (h rows)
  | read x k ih => exact fun r => ih r (h r)
  | lock x k ih => exact fun r => ih r (h r)
  | tryLock x k ih => exact fun r => ih r (h r)
  | advisory x k ih => exact ih h
  | put r k ih => exact ih h
  | insert r k ih => exact ⟨h.1, fun b => ih b (h.2 b)⟩
  | erase x k ih => exact ih h

omit [DecidableEq κ] [Schema κ ρ] in
theorem inserts_bind {p : Prog κ ρ ι ε γ} {f : γ → Prog κ ρ ι ε β} :
    (p.bind f).Inserts P Q E ↔ p.Inserts P (fun a => (f a).Inserts P Q E) E := by
  induction p with
  | ret a => rfl
  | raise e => rfl
  | clock k ih => simp only [Prog.bind, Prog.Inserts, ih]
  | fresh k ih => simp only [Prog.bind, Prog.Inserts, ih]
  | scan k ih => simp only [Prog.bind, Prog.Inserts, ih]
  | read x k ih => simp only [Prog.bind, Prog.Inserts, ih]
  | lock x k ih => simp only [Prog.bind, Prog.Inserts, ih]
  | tryLock x k ih => simp only [Prog.bind, Prog.Inserts, ih]
  | advisory x k ih => simp only [Prog.bind, Prog.Inserts, ih]
  | put r k ih => simp only [Prog.bind, Prog.Inserts, ih]
  | insert r k ih => simp only [Prog.bind, Prog.Inserts, ih]
  | erase x k ih => simp only [Prog.bind, Prog.Inserts, ih]

omit [DecidableEq κ] [Schema κ ρ] in
theorem inserts_tryCatch {p : Prog κ ρ ι ε β} {h : ε → Prog κ ρ ι ε β} :
    (p.tryCatch h).Inserts P Q E ↔ p.Inserts P Q (fun e => (h e).Inserts P Q E) := by
  induction p with
  | ret a => rfl
  | raise e => rfl
  | clock k ih => simp only [Prog.tryCatch, Prog.Inserts, ih]
  | fresh k ih => simp only [Prog.tryCatch, Prog.Inserts, ih]
  | scan k ih => simp only [Prog.tryCatch, Prog.Inserts, ih]
  | read x k ih => simp only [Prog.tryCatch, Prog.Inserts, ih]
  | lock x k ih => simp only [Prog.tryCatch, Prog.Inserts, ih]
  | tryLock x k ih => simp only [Prog.tryCatch, Prog.Inserts, ih]
  | advisory x k ih => simp only [Prog.tryCatch, Prog.Inserts, ih]
  | put r k ih => simp only [Prog.tryCatch, Prog.Inserts, ih]
  | insert r k ih => simp only [Prog.tryCatch, Prog.Inserts, ih]
  | erase x k ih => simp only [Prog.tryCatch, Prog.Inserts, ih]

/-- The rows a walk leaves inserted are among those the program may insert. -/
theorem Prog.Inserts.foresees {V : Store κ ρ ε o α → Stmt κ ρ → Ctx κ ρ ι → Prop}
    {p : Prog κ ρ ι ε β} (h : p.Inserts P Q E) {c : Ctx κ ρ ι} (hc : ∀ r ∈ c.inserted, P r) :
    Foresees V (fun a c => Q a ∧ ∀ r ∈ c.inserted, P r) (fun e _ => E e) p c := by
  have hrow : ∀ {c : Ctx κ ρ ι}, (∀ r ∈ c.inserted, P r) → ∀ (y : κ) (r : Option ρ),
      ∀ r' ∈ (c.holdRow y r).inserted, P r' := by
    intro c hc y r
    cases r with
    | none => exact hc
    | some r => exact hc
  induction p generalizing c with
  | ret a => exact ⟨h, hc⟩
  | raise e => exact h
  | clock k ih => exact fun s _ => ih _ (h _) hc
  | fresh k ih => exact fun s i _ => ih _ (h _) hc
  | scan k ih => exact fun s rows _ _ => ih _ (h _) hc
  | read x k ih => exact fun s _ => ih _ (h _) hc
  | lock x k ih => exact fun s _ => ih _ (h _) (hrow hc _ _)
  | tryLock x k ih =>
      exact fun s => ⟨fun _ => ih _ (h _) hc, fun _ => ih _ (h _) (hrow hc _ _)⟩
  | advisory x k ih => exact fun s _ => ih h hc
  | put r k ih => exact fun s _ => ih h hc
  | insert r k ih =>
      refine fun s => ⟨fun _ _ => ih _ (h.2 _) hc, fun _ _ => ih _ (h.2 _) fun r' hr' => ?_⟩
      rcases List.mem_cons.mp hr' with rfl | hr'
      · exact h.1
      · exact hc r' hr'
  | erase x k ih => exact fun s _ => ih h hc

end Inserts

/-! ## The transactions of a run -/

section Steps

variable [DecidableEq ι] {P : Protocol κ ρ ι ε o α} {w w' : World κ ρ ι ε o α} {t : ℕ}
  {x x' : Txn κ ρ ι ε o α}

omit [DecidableEq κ] [DecidableEq ι] in
theorem World.txn_set_cases {u : ℕ} {y z : Txn κ ρ ι ε o α} (hy : w.txn u = some y)
    (h : (w.set u z).txn t = some x') : (t = u ∧ x' = z) ∨ w.txn t = some x' := by
  rw [World.txn_set hy] at h
  split_ifs at h with ht
  · exact Or.inl ⟨ht, (Option.some.inj h).symm⟩
  · exact Or.inr h

/-- Where a running transaction was one step before: there, about to start, or at the
statement this step answered. -/
theorem Step.txn_cases (hstep : Step P w w') (hx' : w'.txn t = some x') :
    w.txn t = some x' ∨ (∃ op, x' = Txn.begin op w.store (P.prog op)) ∨
      ∃ x stmt, w.txn t = some x ∧
        Answers w.store x.prog x.ctx stmt x'.prog x'.ctx ∧ x'.op = x.op ∧
        x'.beganDb = x.beganDb ∧ w'.store.db = w.store.db := by
  -- transaction `u`, whose program is `q`, sends its next statement
  have hmoved : ∀ (w₁ : World κ ρ ι ε o α) {u : ℕ} {y : Txn κ ρ ι ε o α} {q p c stmt},
      w₁.store = w.store → w₁.txn = w.txn → w.txn u = some y → y.prog = q →
      Answers w.store q y.ctx stmt p c →
      (w₁.set u (y.next p c)).txn t = some x' →
      w.txn t = some x' ∨ (∃ op, x' = Txn.begin op w.store (P.prog op)) ∨
        ∃ x stmt, w.txn t = some x ∧
          Answers w.store x.prog x.ctx stmt x'.prog x'.ctx ∧ x'.op = x.op ∧
          x'.beganDb = x.beganDb ∧ (w₁.set u (y.next p c)).store.db = w.store.db := by
    intro w₁ u y q p c stmt hstore htxn hy hq ha h
    subst hq
    rcases World.txn_set_cases (htxn ▸ hy) h with ⟨rfl, rfl⟩ | h
    · refine Or.inr (Or.inr ⟨y, stmt, hy, ha, rfl, rfl, ?_⟩)
      show w₁.store.db = w.store.db
      rw [hstore]
    · exact Or.inl (htxn ▸ h)
  cases hstep with
  | tick τ ht => exact Or.inl hx'
  | start op hop =>
      rw [World.txn_start] at hx'
      split_ifs at hx' with hlast
      · exact Or.inr (Or.inl ⟨op, (Option.some.inj hx').symm⟩)
      · exact Or.inl hx'
  | clock hx hp => exact hmoved w rfl rfl hx hp (.clock _ _) hx'
  | @fresh u y k i hx hp hi =>
      exact hmoved { w with minted := Function.update w.minted i (some u) } rfl rfl hx hp
        (.fresh _ _ i) hx'
  | scan rows hx hp hrows => exact hmoved w rfl rfl hx hp (.scan _ _ rows hrows) hx'
  | read hx hp => exact hmoved w rfl rfl hx hp (.read _ _ _) hx'
  | lock hx hp hfree =>
      exact hmoved _ (World.ownRow_store _ _) (World.ownRow_txn _ _) hx hp (.lock _ _ _) hx'
  | grant hx hp hfree hguard =>
      exact hmoved _ (World.ownRow_store _ _) (World.ownRow_txn _ _) hx hp (.grant _ _ _) hx'
  | skip hx hp hfree => exact hmoved w rfl rfl hx hp (.skip _ _ _) hx'
  | @advisory u y z k hx hp hfree =>
      exact hmoved (w.own u z) rfl rfl hx hp (.advisory _ _ _) hx'
  | @put u y r k hx hp hfree =>
      exact hmoved (w.own u (Schema.key r)) rfl rfl hx hp (.put _ _ _) hx'
  | @insert u y r k hx hp hfree hwait hnew =>
      exact hmoved (w.own u (Schema.key r)) rfl rfl hx hp (.insert _ _ _ hnew) hx'
  | refuse hx hp hwait hold => exact hmoved w rfl rfl hx hp (.refuse _ _ _ hold) hx'
  | @erase u y z k hx hp hfree =>
      exact hmoved (w.own u z) rfl rfl hx hp (.erase _ _ _) hx'
  | commit hx hp | fail hx hp | abort hx =>
      left
      change (w.close _).txn t = some x' at hx'
      rw [World.txn_close] at hx'
      split_ifs at hx'
      exact hx'

/-- A step either leaves the log alone, and then the rows too, or ends a transaction. -/
theorem Step.ends_cases (hstep : Step P w w') :
    (w'.store.db = w.store.db ∧ w'.store.log = w.store.log) ∨
      ∃ t x, w.txn t = some x ∧ w'.txn t = none ∧
        ((∃ a, x.prog = .ret a ∧ w'.store = w.store.commit (x.entry (.ok a)) x.ctx.writes) ∨
          ∃ e, x.prog = .raise e ∧ w'.store = w.store.commit (x.entry (.error e)) []) := by
  cases hstep with
  | @commit t x a hx hp =>
      refine Or.inr ⟨t, x, hx, ?_, Or.inl ⟨a, hp, rfl⟩⟩
      show (w.close t).txn t = none
      rw [World.txn_close, if_pos rfl]
  | @fail t x e hx hp =>
      refine Or.inr ⟨t, x, hx, ?_, Or.inr ⟨e, hp, rfl⟩⟩
      show (w.close t).txn t = none
      rw [World.txn_close, if_pos rfl]
  | _ => left; simp [World.set, World.own, Store.atTime, World.close]

/-- A step that makes the log longer adds its last entry. -/
theorem Step.log_append {e : Entry κ ρ ε o α} (hstep : Step P w w')
    (hlength : w'.store.log.length = w.store.log.length + 1)
    (hlast : w'.store.log.getLast? = some e) : w'.store.log = w.store.log ++ [e] := by
  rcases hstep.ends_cases with ⟨-, hsame⟩ | ⟨t, x, -, -, hend⟩
  · rw [hsame] at hlength
    omega
  · rcases hend with ⟨a, -, hstore⟩ | ⟨err, -, hstore⟩
    all_goals
      rw [hstore, Store.commit, List.getLast?_concat] at hlast
      rw [hstore, Store.commit, Option.some.inj hlast]

/-- The log only grows. -/
theorem Step.log_prefix (hstep : Step P w w') : w.store.log <+: w'.store.log := by
  rcases hstep.ends_cases with ⟨-, hsame⟩ | ⟨t, x, -, -, hend⟩
  · exact hsame ▸ List.prefix_refl _
  · rcases hend with ⟨a, -, hstore⟩ | ⟨err, -, hstore⟩
    all_goals
      rw [hstore]
      exact List.prefix_append _ _

/-- So it does along a run. -/
theorem Reachable.log_prefix (hrun : Reachable P w w') : w.store.log <+: w'.store.log := by
  induction hrun with
  | refl => exact List.prefix_refl _
  | tail _ hstep ih => exact ih.trans hstep.log_prefix

end Steps

/-- The step from `w` to `w'` answers the statement `stmt` of transaction `t`, which
runs `op`. -/
def Answered (w w' : World κ ρ ι ε o α) (t : ℕ) (op : o) (stmt : Stmt κ ρ) : Prop :=
  ∃ x x', w.txn t = some x ∧ w'.txn t = some x' ∧ x.op = op ∧
    Answers w.store x.prog x.ctx stmt x'.prog x'.ctx

/-- On the way from `w₀` to `w` the store `s` answered the statement `stmt` of transaction
`t`, which runs `op`. The rows the transaction held afterwards are still as they were. -/
structure Visited [DecidableEq ι] (P : Protocol κ ρ ι ε o α) (w₀ w : World κ ρ ι ε o α) (t : ℕ)
    (op : o) (s : Store κ ρ ε o α) (stmt : Stmt κ ρ) (c : Ctx κ ρ ι) : Prop where
  world : ∃ w₁ w₂, Reachable P w₀ w₁ ∧ Step P w₁ w₂ ∧ Reachable P w₂ w ∧
    Answered w₁ w₂ t op stmt ∧ w₁.store = s
  held : ∀ y ∈ c.held, w.store.db.get y = s.db.get y

namespace WorldInv

variable [DecidableEq ι] {D : Discipline κ ρ ι ε o α} {w₀ w : World κ ρ ι ε o α}

/-- Every running transaction has walked its program over stores of the run. -/
theorem walk (hsound : D.Sound) (h₀ : WorldInv D w₀) (hidle : ∀ t, w₀.txn t = none)
    (hreach : Reachable D.toProtocol w₀ w) {t : ℕ} {x : Txn κ ρ ι ε o α} (hx : w.txn t = some x) :
    Walk (Visited D.toProtocol w₀ w t x.op) (D.prog x.op) (Ctx.init x.beganDb.rows) x.prog
      x.ctx := by
  induction hreach generalizing t x with
  | refl =>
      rw [hidle t] at hx
      cases hx
  | @tail w w' hprefix hstep ih =>
      rcases hstep.txn_cases hx with hsame | ⟨op, rfl⟩ | ⟨y, stmt, hy, ha, hop, hbegan, hdb⟩
      · -- another transaction moved, and none changes what this one holds
        refine (ih hsame).mono fun s stmt c hvisited hheld => ⟨?_, fun z hz => ?_⟩
        · obtain ⟨w₁, w₂, hpre, hmove, hpost, hrest⟩ := hvisited.world
          exact ⟨w₁, w₂, hpre, hmove, hpost.tail hstep, hrest⟩
        · rw [(h₀.reachable hsound hprefix).get_of_held hstep hsame hx (hheld hz)]
          exact hvisited.held z hz
      · exact .refl
      · rw [hop, hbegan]
        have hwalk : Walk (Visited D.toProtocol w₀ w' t y.op) (D.prog y.op)
            (Ctx.init y.beganDb.rows) y.prog y.ctx := by
          refine (ih hy).mono fun s stmt c hvisited _ => ⟨?_, fun z hz => ?_⟩
          · obtain ⟨w₁, w₂, hpre, hmove, hpost, hrest⟩ := hvisited.world
            exact ⟨w₁, w₂, hpre, hmove, hpost.tail hstep, hrest⟩
          · rw [hdb]
            exact hvisited.held z hz
        refine hwalk.step ha ⟨⟨w, w', hprefix, hstep, .refl, ⟨y, x, hy, hx, rfl, ha⟩, rfl⟩,
          fun z _ => ?_⟩
        rw [hdb]

/-- What a program foresees holds when its transaction is about to return. -/
theorem foreseen (hsound : D.Sound) (h₀ : WorldInv D w₀) (hidle : ∀ t, w₀.txn t = none)
    (hreach : Reachable D.toProtocol w₀ w) {t : ℕ} {x : Txn κ ρ ι ε o α} {a : α}
    (hx : w.txn t = some x) (hp : x.prog = .ret a) {Q : α → Ctx κ ρ ι → Prop}
    {E : ε → Ctx κ ρ ι → Prop}
    (h : Foresees (Visited D.toProtocol w₀ w t x.op) Q E (D.prog x.op)
      (Ctx.init x.beganDb.rows)) : Q a x.ctx := by
  have hend := (walk hsound h₀ hidle hreach hx).foresees h
  rw [hp] at hend
  exact hend

end WorldInv

end ReadCommitted
