import FastapiEffects.ReadCommitted.Walk

/-! # What a transaction knows when it ends

The invariant of a discipline says of a running transaction that it may end. `Stable`
postconditions say more: whatever the weakest precondition of its program promises of its
context and of the committed rows holds when it is about to return or to raise
(`WorldInv.outcome`), as long as the others cannot take it back.
-/

namespace ReadCommitted

variable {κ ρ ι ε o α : Type} [DecidableEq κ] [Schema κ ρ]

namespace Discipline

/-- A postcondition the others cannot take back. -/
def Stable {β : Type} (D : Discipline κ ρ ι ε o α)
    (Q : β → Ctx κ ρ ι → Store κ ρ ε o α → Prop) : Prop :=
  ∀ a c s s', Q a c s → D.Env c s s' → Q a c s'

/-- What the programs promise: `Q` of their results and `E` of their errors. -/
structure Promises (D : Discipline κ ρ ι ε o α)
    (Q : o → α → Ctx κ ρ ι → Store κ ρ ε o α → Prop)
    (E : o → ε → Ctx κ ρ ι → Store κ ρ ε o α → Prop) : Prop where
  returns : ∀ op, D.Stable (Q op)
  raises : ∀ op, D.Stable (E op)
  progs : ∀ op s, D.Inv s → D.allowed s op →
    D.wp op (Q op) (E op) (D.prog op) (Ctx.init s.db.rows) s

/-- The same discipline in runs whose committed rows always satisfy `J`. -/
def restrict (D : Discipline κ ρ ι ε o α) (J : Table κ ρ → Prop) : Discipline κ ρ ι ε o α :=
  { D with
    Inv := fun s => D.Inv s ∧ J s.db
    inv_tick := fun s t h ht => ⟨D.inv_tick s t h.1 ht, h.2⟩ }

section Restrict

variable {D : Discipline κ ρ ι ε o α} {J : Table κ ρ → Prop} {c : Ctx κ ρ ι}
  {s s' : Store κ ρ ε o α}

theorem Env.restrict (h : D.Env c s s') (hJ : J s'.db) : (D.restrict J).Env c s s' :=
  ⟨⟨h.inv, hJ⟩, h.time, h.grows, h.rows, h.rely, h.ids, h.log⟩

theorem Env.of_restrict (h : (D.restrict J).Env c s s') : D.Env c s s' :=
  ⟨h.inv.1, h.time, h.grows, h.rows, h.rely, h.ids, h.log⟩

variable {β : Type} {op : o} {Q : β → Ctx κ ρ ι → Store κ ρ ε o α → Prop}
  {E : ε → Ctx κ ρ ι → Store κ ρ ε o α → Prop} {p : Prog κ ρ ι ε β}

/-- A program meets less where the invariant says more. -/
theorem wp_mono_inv {Inv₁ Inv₂ : Store κ ρ ε o α → Prop}
    {htick₁ : ∀ s t, Inv₁ s → s.now ≤ t → Inv₁ (s.atTime t)}
    {htick₂ : ∀ s t, Inv₂ s → s.now ≤ t → Inv₂ (s.atTime t)} (hinv : ∀ s, Inv₂ s → Inv₁ s)
    (h : wp { D with Inv := Inv₁, inv_tick := htick₁ } op Q E p c s) :
    wp { D with Inv := Inv₂, inv_tick := htick₂ } op Q E p c s := by
  have hmeets : ∀ {c : Ctx κ ρ ι} {s s' : Store κ ρ ε o α},
      Env { D with Inv := Inv₂, inv_tick := htick₂ } c s s' →
        Env { D with Inv := Inv₁, inv_tick := htick₁ } c s s' := fun henv =>
    ⟨hinv _ henv.inv, henv.time, henv.grows, henv.rows, henv.rely, henv.ids, henv.log⟩
  induction p generalizing c s with
  | ret a => exact h
  | raise e => exact h
  | clock k ih => exact fun s' henv => ih _ (h s' (hmeets henv))
  | fresh k ih => exact fun s' i henv hi hnew => ih _ (h s' i (hmeets henv) hi hnew)
  | scan k ih => exact fun s' rows henv hrows => ih _ (h s' rows (hmeets henv) hrows)
  | read x k ih => exact fun s' henv => ih _ (h s' (hmeets henv))
  | lock x k ih => exact fun s' henv => ih _ (h s' (hmeets henv))
  | tryLock x k ih =>
      exact fun s' henv => ⟨ih _ (h s' (hmeets henv)).1, fun hg => ih _ ((h s' (hmeets henv)).2 hg)⟩
  | advisory x k ih => exact fun s' henv => ih (h s' (hmeets henv))
  | put r k ih => exact fun s' henv => ⟨(h s' (hmeets henv)).1, ih (h s' (hmeets henv)).2⟩
  | insert r k ih =>
      exact fun s' henv => ⟨fun hr => ih _ ((h s' (hmeets henv)).1 hr),
        fun hr => ih _ ((h s' (hmeets henv)).2 hr)⟩
  | erase x k ih => exact fun s' henv => ih (h s' (hmeets henv))

/-- A restricted run is a run. -/
theorem wp_restrict (h : D.wp op Q E p c s) : (D.restrict J).wp op Q E p c s :=
  wp_mono_inv (D := D) (fun _ hs => hs.1) h

/-- A restriction that excludes nothing. -/
theorem wp_of_restrict (hJ : ∀ db, J db) (h : (D.restrict J).wp op Q E p c s) :
    D.wp op Q E p c s :=
  wp_mono_inv (D := D) (fun s hs => ⟨hs, hJ s.db⟩) h

end Restrict

end Discipline

namespace WorldInv

variable [DecidableEq ι] {D : Discipline κ ρ ι ε o α} {w₀ w w' : World κ ρ ι ε o α} {t u : ℕ}
  {x y : Txn κ ρ ι ε o α}

/-- What the end of another transaction is for one that goes on. -/
theorem env_of_endOk (h : WorldInv D w) (h' : WorldInv D w') (hx : w.txn t = some x)
    (hstep : Step D.toProtocol w w') (hy : w.txn u = some y) (hy' : w'.txn u = some y)
    (hne : u ≠ t) (htime : w'.store.now = w.store.now)
    (hok : D.EndOk x.ctx w.store w'.store) : D.Env y.ctx w.store w'.store where
  inv := hok.inv
  time := Int.le_of_eq htime.symm
  grows := hok.grows
  rows := fun _ hz => h.get_of_held hstep hy hy' hz
  rely := by
    intro z hz
    refine hok.rely z fun hz' => hne ?_
    have hmine := (h.txn t x hx).held z hz'
    rw [(h.txn u y hy).held z hz] at hmine
    exact Option.some.inj hmine
  ids := fun i hi => ((h'.txn u y hy').ids i hi).2
  log := hstep.log_prefix

/-- A step is something the others may do, for a transaction that does not move. -/
theorem env_of_step (hsound : D.Sound) (h : WorldInv D w) (hstep : Step D.toProtocol w w')
    (hy : w.txn u = some y) (hy' : w'.txn u = some y) : D.Env y.ctx w.store w'.store := by
  have h' := h.step hsound hstep
  have hsame : w'.store = w.store → D.Env y.ctx w.store w'.store := by
    intro hstore
    rw [hstore]
    exact (h.txn u y hy).env h
  cases hstep with
  | tick τ ht =>
      exact ⟨h'.inv, ht, D.grows_refl _, fun _ _ => rfl, fun z _ => D.rely_tick z _ _ ht,
        fun i hi => ((h'.txn u y hy').ids i hi).2, List.prefix_refl _⟩
  | @commit t x a hx hp =>
      have hne : u ≠ t := by
        rintro rfl
        change (w.close u).txn u = some y at hy'
        rw [World.txn_close, if_pos rfl] at hy'
        cases hy'
      have hsafe := (h.txn t x hx).safe
      simp only [Discipline.Safe, hp, Discipline.wp] at hsafe
      exact h.env_of_endOk h' hx (.commit hx hp) hy hy' hne rfl
        (hsafe w.store ((h.txn t x hx).env h))
  | @fail t x e hx hp =>
      have hne : u ≠ t := by
        rintro rfl
        change (w.close u).txn u = some y at hy'
        rw [World.txn_close, if_pos rfl] at hy'
        cases hy'
      have hsafe := (h.txn t x hx).safe
      simp only [Discipline.Safe, hp, Discipline.wp] at hsafe
      exact h.env_of_endOk h' hx (.fail hx hp) hy hy' hne rfl
        (hsafe w.store ((h.txn t x hx).env h))
  | _ => exact hsame (by simp [World.set, World.own, World.close])

variable {Q : o → α → Ctx κ ρ ι → Store κ ρ ε o α → Prop}
  {E : o → ε → Ctx κ ρ ι → Store κ ρ ε o α → Prop}

/-- One step keeps what the running transactions promise of a restricted run. -/
theorem promised_step {J : Table κ ρ → Prop} (hsound : D.Sound)
    (hprom : (D.restrict J).Promises Q E) (h : WorldInv D w) (hstep : Step D.toProtocol w w')
    (hJ : J w.store.db) (hJ' : J w'.store.db)
    (hw : ∀ t x, w.txn t = some x →
      (D.restrict J).wp x.op (Q x.op) (E x.op) x.prog x.ctx w.store) :
    ∀ t x, w'.txn t = some x →
      (D.restrict J).wp x.op (Q x.op) (E x.op) x.prog x.ctx w'.store := by
  intro u y hy'
  have henv : ∀ {t : ℕ} {x : Txn κ ρ ι ε o α}, w.txn t = some x →
      (D.restrict J).Env x.ctx w.store w.store :=
    fun hx => ((h.txn _ _ hx).env h).restrict hJ
  -- a transaction that does not move
  have hstays : w.txn u = some y →
      (D.restrict J).wp y.op (Q y.op) (E y.op) y.prog y.ctx w'.store :=
    fun hy => Discipline.wp_env (hprom.returns y.op) (hprom.raises y.op) (hw u y hy)
      ((h.env_of_step hsound hstep hy hy').restrict hJ')
  -- a transaction that moves
  have hmoves : ∀ (w₁ : World κ ρ ι ε o α) {t : ℕ} {x x' : Txn κ ρ ι ε o α},
      w₁.txn = w.txn → w'.store = w.store → w'.txn u = (w₁.set t x').txn u →
      w.txn t = some x → (D.restrict J).wp x'.op (Q x'.op) (E x'.op) x'.prog x'.ctx w.store →
      (D.restrict J).wp y.op (Q y.op) (E y.op) y.prog y.ctx w'.store := by
    intro w₁ t x x' htxn hstore hset hx hwp
    rw [hy'] at hset
    rcases World.txn_set_cases (htxn ▸ hx) hset.symm with ⟨-, rfl⟩ | hold
    · rw [hstore]
      exact hwp
    · exact hstays (htxn ▸ hold)
  cases hstep with
  | tick τ ht => exact hstays hy'
  | start op hop =>
      rw [World.txn_start] at hy'
      split_ifs at hy' with hlast
      · cases hy'
        exact hprom.progs op w.store ⟨h.inv, hJ⟩ hop
      · exact hstays hy'
  | @clock t x k hx hp =>
      have hnow := hw t x hx
      rw [hp] at hnow
      exact hmoves w rfl rfl rfl hx (hnow w.store (henv hx))
  | @fresh t x k i hx hp hi =>
      have hnow := hw t x hx
      rw [hp] at hnow
      refine hmoves { w with minted := Function.update w.minted i (some t) } rfl rfl rfl hx
        (hnow w.store i (henv hx) (fun hmem => h.minted i hmem hi) fun hmem => ?_)
      have hmine := ((h.txn t x hx).ids i hmem).1
      rw [hi] at hmine
      cases hmine
  | @scan t x k rows hx hp hrows =>
      have hnow := hw t x hx
      rw [hp] at hnow
      exact hmoves w rfl rfl rfl hx (hnow w.store rows (henv hx) hrows)
  | @read t x z k hx hp =>
      have hnow := hw t x hx
      rw [hp] at hnow
      exact hmoves w rfl rfl rfl hx (hnow w.store (henv hx))
  | @lock t x z k hx hp hfree =>
      have hnow := hw t x hx
      rw [hp] at hnow
      exact hmoves _ (World.ownRow_txn _ _) (World.ownRow_store _ _) rfl hx
        (hnow w.store (henv hx))
  | @grant t x z k hx hp hfree hguard =>
      have hnow := hw t x hx
      rw [hp] at hnow
      exact hmoves _ (World.ownRow_txn _ _) (World.ownRow_store _ _) rfl hx
        ((hnow w.store (henv hx)).2 hguard)
  | @skip t x z k hx hp hfree =>
      have hnow := hw t x hx
      rw [hp] at hnow
      exact hmoves w rfl rfl rfl hx (hnow w.store (henv hx)).1
  | @advisory t x z k hx hp hfree =>
      have hnow := hw t x hx
      rw [hp] at hnow
      exact hmoves (w.own t z) rfl rfl rfl hx (hnow w.store (henv hx))
  | @put t x r k hx hp hfree =>
      have hnow := hw t x hx
      rw [hp] at hnow
      exact hmoves (w.own t (Schema.key r)) rfl rfl rfl hx
        (hnow w.store (henv hx)).2
  | @insert t x r k hx hp hfree hwait hnew =>
      have hnow := hw t x hx
      rw [hp] at hnow
      exact hmoves (w.own t (Schema.key r)) rfl rfl rfl hx
        ((hnow w.store (henv hx)).2 hnew)
  | @refuse t x r k hx hp hwait hold =>
      have hnow := hw t x hx
      rw [hp] at hnow
      exact hmoves w rfl rfl rfl hx ((hnow w.store (henv hx)).1 hold)
  | @erase t x z k hx hp hfree =>
      have hnow := hw t x hx
      rw [hp] at hnow
      exact hmoves (w.own t z) rfl rfl rfl hx (hnow w.store (henv hx))
  | commit hx hp | fail hx hp | abort hx =>
      refine hstays ?_
      change (w.close _).txn u = some y at hy'
      rw [World.txn_close] at hy'
      split_ifs at hy'
      exact hy'

/-- The rule for restricted runs: `J` holds all along when the steps that meet `R` keep it, given
what the running transactions promise as long as `J` holds. -/
theorem promised_of {J : Table κ ρ → Prop} {R : World κ ρ ι ε o α → World κ ρ ι ε o α → Prop}
    (hsound : D.Sound) (hprom : (D.restrict J).Promises Q E) (h₀ : WorldInv D w₀)
    (hidle : ∀ t, w₀.txn t = none) (hJ₀ : J w₀.store.db)
    (hkeep : ∀ w w', WorldInv D w → J w.store.db → Step D.toProtocol w w' → R w w' →
      (∀ t x, w.txn t = some x →
        (D.restrict J).wp x.op (Q x.op) (E x.op) x.prog x.ctx w.store) → J w'.store.db)
    (hrun : Relation.ReflTransGen (fun w w' => Step D.toProtocol w w' ∧ R w w') w₀ w) :
    WorldInv D w ∧ J w.store.db ∧ ∀ t x, w.txn t = some x →
      (D.restrict J).wp x.op (Q x.op) (E x.op) x.prog x.ctx w.store := by
  induction hrun with
  | refl =>
      refine ⟨h₀, hJ₀, fun t x hx => ?_⟩
      rw [hidle t] at hx
      cases hx
  | tail _ hlast ih =>
      obtain ⟨h, hJ, hpromised⟩ := ih
      obtain ⟨hstep, hR⟩ := hlast
      have hJ' := hkeep _ _ h hJ hstep hR hpromised
      exact ⟨h.step hsound hstep, hJ', h.promised_step hsound hprom hstep hJ hJ' hpromised⟩

/-- What the programs promise, every running transaction of a reachable world promises. -/
theorem promised (hsound : D.Sound) (hprom : D.Promises Q E) (h₀ : WorldInv D w₀)
    (hidle : ∀ t, w₀.txn t = none) (hreach : Reachable D.toProtocol w₀ w)
    (hx : w.txn t = some x) : D.wp x.op (Q x.op) (E x.op) x.prog x.ctx w.store := by
  have hprom' : (D.restrict fun _ => True).Promises Q E :=
    ⟨fun op a c s s' hQ henv => hprom.returns op a c s s' hQ henv.of_restrict,
      fun op e c s s' hE henv => hprom.raises op e c s s' hE henv.of_restrict,
      fun op s hinv hop => Discipline.wp_restrict (hprom.progs op s hinv.1 hop)⟩
  have hrun : Relation.ReflTransGen (fun w w' => Step D.toProtocol w w' ∧ True) w₀ w :=
    hreach.lift id fun _ _ hstep => ⟨hstep, trivial⟩
  have hall := promised_of hsound hprom' h₀ hidle trivial (fun _ _ _ _ _ _ _ => trivial) hrun
  exact Discipline.wp_of_restrict (fun _ => trivial) (hall.2.2 t x hx)

/-- A transaction of a reachable world that is about to return keeps its promise. -/
theorem outcome (hsound : D.Sound) (hprom : D.Promises Q E) (h₀ : WorldInv D w₀)
    (hidle : ∀ t, w₀.txn t = none) (hreach : Reachable D.toProtocol w₀ w)
    (hx : w.txn t = some x) {a : α} (hp : x.prog = .ret a) : Q x.op a x.ctx w.store := by
  have hnow := promised hsound hprom h₀ hidle hreach hx
  rw [hp] at hnow
  exact hnow

end WorldInv

end ReadCommitted
