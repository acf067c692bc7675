import FastapiEffects.ReadCommitted.World

/-! # Reasoning about one transaction at a time

A `Discipline` states what a system of transactions keeps: an invariant of the
committed store, a relation every commit satisfies, and, for each lock, what the
others leave alone while it is held. `wp` reads a program as a sequential one
whose every statement meets a store that the others may have changed in the
meantime, as far as the discipline lets them (`Env`). If each operation's program
satisfies its `wp`, every interleaving keeps the discipline (`WorldInv.reachable`).

So an interleaving is proved correct by walking through each program once.
-/

namespace ReadCommitted

variable {κ ρ ι ε o α : Type} [DecidableEq κ] [Schema κ ρ]

/-- What a system of transactions keeps. `ids` are the identifiers a store
mentions; `grows` is what no commit takes back; `rely x` is what a commit by a
transaction without the lock `x` leaves alone, besides the row `x` itself. -/
structure Discipline (κ ρ ι ε o α : Type) [DecidableEq κ] [Schema κ ρ]
    extends Protocol κ ρ ι ε o α where
  Inv : Store κ ρ ε o α → Prop
  Trans : Store κ ρ ε o α → Store κ ρ ε o α → Prop
  grows : Table κ ρ → Table κ ρ → Prop
  rely : κ → Store κ ρ ε o α → Store κ ρ ε o α → Prop
  ids : Table κ ρ → List (Entry κ ρ ε o α) → Set ι
  inv_tick : ∀ s t, Inv s → s.now ≤ t → Inv (s.atTime t)
  grows_refl : ∀ db, grows db db
  grows_trans : ∀ a b c, grows a b → grows b c → grows a c
  rely_refl : ∀ x s, rely x s s
  rely_trans : ∀ x a b c, rely x a b → rely x b c → rely x a c
  rely_tick : ∀ x s t, s.now ≤ t → rely x s (s.atTime t)

namespace Discipline

variable (D : Discipline κ ρ ι ε o α)

/-- What the others may have done between two statements of a transaction that
holds `c`. -/
structure Env (c : Ctx κ ρ ι) (s s' : Store κ ρ ε o α) : Prop where
  inv : D.Inv s'
  time : s.now ≤ s'.now
  grows : D.grows s.db s'.db
  rows : ∀ x ∈ c.held, s'.db.get x = s.db.get x
  rely : ∀ x ∈ c.held, D.rely x s s'
  ids : ∀ i ∈ c.ids, i ∉ D.ids s'.db s'.log
  log : s.log <+: s'.log

/-- What a transaction that holds `c` must show for the store it leaves. -/
structure EndOk (c : Ctx κ ρ ι) (s s' : Store κ ρ ε o α) : Prop where
  inv : D.Inv s'
  trans : D.Trans s s'
  grows : D.grows s.db s'.db
  rely : ∀ x, x ∉ c.held → D.rely x s s'
  ids : ∀ i ∈ D.ids s'.db s'.log, i ∈ c.ids ∨ i ∈ D.ids s.db s.log

/-- Weakest precondition of a program that goes on in `c`, the store having been
`s` at its last statement, for a result in `Q` or an error in `E`. -/
def wp {β : Type} (op : o) (Q : β → Ctx κ ρ ι → Store κ ρ ε o α → Prop)
    (E : ε → Ctx κ ρ ι → Store κ ρ ε o α → Prop) :
    Prog κ ρ ι ε β → Ctx κ ρ ι → Store κ ρ ε o α → Prop
  | .ret a, c, s => Q a c s
  | .raise e, c, s => E e c s
  | .clock k, c, s => ∀ s', D.Env c s s' → wp op Q E (k s'.now) (c.tell s'.now) s'
  | .fresh k, c, s => ∀ s' i, D.Env c s s' → i ∉ D.ids s'.db s'.log → i ∉ c.ids →
      wp op Q E (k i) (c.mint i) s'
  | .scan k, c, s => ∀ s' rows, D.Env c s s' → rows.Perm (c.visible s'.db).rows →
      wp op Q E (k rows) (c.see s'.db.rows) s'
  | .read x k, c, s => ∀ s', D.Env c s s' → wp op Q E (k ((c.visible s'.db).get x)) c s'
  | .lock x k, c, s => ∀ s', D.Env c s s' →
      wp op Q E (k ((c.visible s'.db).get x)) (c.holdRow x ((c.visible s'.db).get x)) s'
  | .tryLock x k, c, s => ∀ s', D.Env c s s' → wp op Q E (k none) c s' ∧
      (D.guard op c.seen x (s'.db.get x) →
        wp op Q E (k ((c.visible s'.db).get x)) (c.holdRow x ((c.visible s'.db).get x)) s')
  | .advisory x k, c, s => ∀ s', D.Env c s s' → wp op Q E k (c.hold x) s'
  | .put r k, c, s => ∀ s', D.Env c s s' →
      (∃ r₀, (c.visible s'.db).get (Schema.key r) = some r₀ ∧ Schema.Keeps r₀ r) ∧
        wp op Q E k (c.change (.put r)) s'
  | .insert r k, c, s => ∀ s', D.Env c s s' →
      ((c.visible s'.db).rows.any (Session.conflict (κ := κ) r) = true →
        wp op Q E (k false) c s') ∧
      ((c.visible s'.db).rows.any (Session.conflict (κ := κ) r) = false →
        wp op Q E (k true) (c.insert r) s')
  | .erase x k, c, s => ∀ s', D.Env c s s' → wp op Q E k (c.change (.erase x)) s'

variable {D}

theorem Env.refl {c : Ctx κ ρ ι} {s : Store κ ρ ε o α} (hinv : D.Inv s)
    (hids : ∀ i ∈ c.ids, i ∉ D.ids s.db s.log) : D.Env c s s where
  inv := hinv
  time := Int.le_refl _
  grows := D.grows_refl _
  rows := fun _ _ => rfl
  rely := fun x _ => D.rely_refl x s
  ids := hids
  log := List.prefix_refl _

theorem Env.trans {c : Ctx κ ρ ι} {s₁ s₂ s₃ : Store κ ρ ε o α} (h₁ : D.Env c s₁ s₂)
    (h₂ : D.Env c s₂ s₃) : D.Env c s₁ s₃ where
  inv := h₂.inv
  time := Int.le_trans h₁.time h₂.time
  grows := D.grows_trans _ _ _ h₁.grows h₂.grows
  rows := fun x hx => (h₂.rows x hx).trans (h₁.rows x hx)
  rely := fun x hx => D.rely_trans x _ _ _ (h₁.rely x hx) (h₂.rely x hx)
  ids := h₂.ids
  log := h₁.log.trans h₂.log

/-- A weaker hold asks less of the others. -/
theorem Env.mono {c c' : Ctx κ ρ ι} {s s' : Store κ ρ ε o α} (h : D.Env c' s s')
    (hheld : c.held ⊆ c'.held) (hids : c.ids ⊆ c'.ids) : D.Env c s s' where
  inv := h.inv
  time := h.time
  grows := h.grows
  rows := fun x hx => h.rows x (hheld hx)
  rely := fun x hx => h.rely x (hheld hx)
  ids := fun i hi => h.ids i (hids hi)
  log := h.log

theorem Env.of_tell {c : Ctx κ ρ ι} {t : Int} {s s' : Store κ ρ ε o α}
    (h : D.Env (c.tell t) s s') : D.Env c s s' :=
  h.mono (List.Subset.refl _) (List.Subset.refl _)

theorem Env.of_mint {c : Ctx κ ρ ι} {i : ι} {s s' : Store κ ρ ε o α}
    (h : D.Env (c.mint i) s s') : D.Env c s s' :=
  h.mono (List.Subset.refl _) (List.subset_cons_self _ _)

theorem Env.of_see {c : Ctx κ ρ ι} {rows : List ρ} {s s' : Store κ ρ ε o α}
    (h : D.Env (c.see rows) s s') : D.Env c s s' :=
  h.mono (List.Subset.refl _) (List.Subset.refl _)

theorem Env.of_hold {c : Ctx κ ρ ι} {x : κ} {s s' : Store κ ρ ε o α}
    (h : D.Env (c.hold x) s s') : D.Env c s s' :=
  h.mono (List.subset_cons_self _ _) (List.Subset.refl _)

theorem Env.of_holdRow {c : Ctx κ ρ ι} {x : κ} {r : Option ρ} {s s' : Store κ ρ ε o α}
    (h : D.Env (c.holdRow x r) s s') : D.Env c s s' := by
  cases r with
  | none => exact h
  | some r => exact h.of_hold

theorem Env.of_change {c : Ctx κ ρ ι} {v : Write κ ρ} {s s' : Store κ ρ ε o α}
    (h : D.Env (c.change v) s s') : D.Env c s s' :=
  h.mono (List.subset_cons_self _ _) (List.Subset.refl _)

theorem Env.of_insert {c : Ctx κ ρ ι} {r : ρ} {s s' : Store κ ρ ε o α}
    (h : D.Env (c.insert r) s s') : D.Env c s s' :=
  h.mono (List.subset_cons_self _ _) (List.Subset.refl _)

/-- What the transaction sees of a row it holds stays. -/
theorem Env.visible_get {c : Ctx κ ρ ι} {s s' : Store κ ρ ε o α} (h : D.Env c s s') {x : κ}
    (hx : x ∈ c.held) : (c.visible s'.db).get x = (c.visible s.db).get x :=
  Table.get_install_congr (h.rows x hx) c.writes

section WpRules

variable {β γ : Type} {op : o} {Q Q' : β → Ctx κ ρ ι → Store κ ρ ε o α → Prop}
  {E E' : ε → Ctx κ ρ ι → Store κ ρ ε o α → Prop}

/-- Consequence. -/
theorem wp_mono (hQ : ∀ a c s, Q a c s → Q' a c s) (hE : ∀ e c s, E e c s → E' e c s)
    {p : Prog κ ρ ι ε β} {c : Ctx κ ρ ι} {s : Store κ ρ ε o α} (h : D.wp op Q E p c s) :
    D.wp op Q' E' p c s := by
  induction p generalizing c s with
  | ret a => exact hQ a c s h
  | raise e => exact hE e c s h
  | clock k ih => exact fun s' henv => ih _ (h s' henv)
  | fresh k ih => exact fun s' i henv hi hnew => ih _ (h s' i henv hi hnew)
  | scan k ih => exact fun s' rows henv hrows => ih _ (h s' rows henv hrows)
  | read x k ih => exact fun s' henv => ih _ (h s' henv)
  | lock x k ih => exact fun s' henv => ih _ (h s' henv)
  | tryLock x k ih =>
      exact fun s' henv => ⟨ih _ (h s' henv).1, fun hg => ih _ ((h s' henv).2 hg)⟩
  | advisory x k ih => exact fun s' henv => ih (h s' henv)
  | put r k ih => exact fun s' henv => ⟨(h s' henv).1, ih (h s' henv).2⟩
  | insert r k ih =>
      exact fun s' henv => ⟨fun hr => ih _ ((h s' henv).1 hr), fun hr => ih _ ((h s' henv).2 hr)⟩
  | erase x k ih => exact fun s' henv => ih (h s' henv)

/-- Sequencing. -/
theorem wp_bind {p : Prog κ ρ ι ε γ} {f : γ → Prog κ ρ ι ε β} {c : Ctx κ ρ ι}
    {s : Store κ ρ ε o α} :
    D.wp op Q E (p.bind f) c s ↔ D.wp op (fun a c s => D.wp op Q E (f a) c s) E p c s := by
  induction p generalizing c s with
  | ret a => rfl
  | raise e => rfl
  | clock k ih => simp only [Prog.bind, wp, ih]
  | fresh k ih => simp only [Prog.bind, wp, ih]
  | scan k ih => simp only [Prog.bind, wp, ih]
  | read x k ih => simp only [Prog.bind, wp, ih]
  | lock x k ih => simp only [Prog.bind, wp, ih]
  | tryLock x k ih => simp only [Prog.bind, wp, ih]
  | advisory x k ih => simp only [Prog.bind, wp, ih]
  | put r k ih => simp only [Prog.bind, wp, ih]
  | insert r k ih => simp only [Prog.bind, wp, ih]
  | erase x k ih => simp only [Prog.bind, wp, ih]

/-- Handling an error. -/
theorem wp_tryCatch {p : Prog κ ρ ι ε β} {h : ε → Prog κ ρ ι ε β} {c : Ctx κ ρ ι}
    {s : Store κ ρ ε o α} :
    D.wp op Q E (p.tryCatch h) c s ↔ D.wp op Q (fun e c s => D.wp op Q E (h e) c s) p c s := by
  induction p generalizing c s with
  | ret a => rfl
  | raise e => rfl
  | clock k ih => simp only [Prog.tryCatch, wp, ih]
  | fresh k ih => simp only [Prog.tryCatch, wp, ih]
  | scan k ih => simp only [Prog.tryCatch, wp, ih]
  | read x k ih => simp only [Prog.tryCatch, wp, ih]
  | lock x k ih => simp only [Prog.tryCatch, wp, ih]
  | tryLock x k ih => simp only [Prog.tryCatch, wp, ih]
  | advisory x k ih => simp only [Prog.tryCatch, wp, ih]
  | put r k ih => simp only [Prog.tryCatch, wp, ih]
  | insert r k ih => simp only [Prog.tryCatch, wp, ih]
  | erase x k ih => simp only [Prog.tryCatch, wp, ih]

/-- A computation of the client. -/
theorem wp_ofExcept {x : Except ε β} {c : Ctx κ ρ ι} {s : Store κ ρ ε o α}
    (hok : ∀ a, x = .ok a → Q a c s) (herr : ∀ e, x = .error e → E e c s) :
    D.wp op Q E (.ofExcept x) c s := by
  cases x with
  | ok a => exact hok a rfl
  | error e => exact herr e rfl

/-- The others may go on between two statements: a precondition survives them
when both postconditions do. -/
theorem wp_env (hQ : ∀ a c s s', Q a c s → D.Env c s s' → Q a c s')
    (hE : ∀ e c s s', E e c s → D.Env c s s' → E e c s')
    {p : Prog κ ρ ι ε β} {c : Ctx κ ρ ι} {s s' : Store κ ρ ε o α} (h : D.wp op Q E p c s)
    (henv : D.Env c s s') : D.wp op Q E p c s' := by
  cases p with
  | ret a => exact hQ a c s s' h henv
  | raise e => exact hE e c s s' h henv
  | clock k => exact fun s'' h' => h s'' (henv.trans h')
  | fresh k => exact fun s'' i h' hi hnew => h s'' i (henv.trans h') hi hnew
  | scan k => exact fun s'' rows h' hrows => h s'' rows (henv.trans h') hrows
  | read x k => exact fun s'' h' => h s'' (henv.trans h')
  | lock x k => exact fun s'' h' => h s'' (henv.trans h')
  | tryLock x k => exact fun s'' h' => h s'' (henv.trans h')
  | advisory x k => exact fun s'' h' => h s'' (henv.trans h')
  | put r k => exact fun s'' h' => h s'' (henv.trans h')
  | insert r k => exact fun s'' h' => h s'' (henv.trans h')
  | erase x k => exact fun s'' h' => h s'' (henv.trans h')

end WpRules

variable (D)

/-- The transaction `x`, which holds `c`, may return `a` now or after the others
have gone on. -/
def returns (x : Txn κ ρ ι ε o α) (a : α) (c : Ctx κ ρ ι) (s : Store κ ρ ε o α) : Prop :=
  ∀ s', D.Env c s s' →
    D.EndOk c s' (s'.commit ⟨x.op, x.beganDb, x.beganAt, c.clocks, .ok a⟩ c.writes)

/-- The transaction `x` may raise `e`. -/
def raises (x : Txn κ ρ ι ε o α) (e : ε) (c : Ctx κ ρ ι) (s : Store κ ρ ε o α) : Prop :=
  ∀ s', D.Env c s s' →
    D.EndOk c s' (s'.commit ⟨x.op, x.beganDb, x.beganAt, c.clocks, .error e⟩ [])

/-- The rest of a running transaction keeps the discipline. -/
def Safe (x : Txn κ ρ ι ε o α) (s : Store κ ρ ε o α) : Prop :=
  D.wp x.op (D.returns x) (D.raises x) x.prog x.ctx s

/-- Every operation keeps the discipline, whenever it is started. -/
def Sound : Prop :=
  ∀ op s, D.Inv s → D.allowed s op →
    D.wp op (D.returns (Txn.begin op s (D.prog op))) (D.raises (Txn.begin op s (D.prog op)))
      (D.prog op) (Ctx.init s.db.rows) s

variable {D}

theorem Safe.env {x : Txn κ ρ ι ε o α} {s s' : Store κ ρ ε o α} (h : D.Safe x s)
    (henv : D.Env x.ctx s s') : D.Safe x s' :=
  wp_env (fun _ _ _ _ hq he s'' h' => hq s'' (he.trans h'))
    (fun _ _ _ _ hq he s'' h' => hq s'' (he.trans h')) h henv

end Discipline

/-! ## The invariant of a world -/

/-- What holds of one running transaction. -/
structure TxnInv (D : Discipline κ ρ ι ε o α) (w : World κ ρ ι ε o α) (t : ℕ)
    (x : Txn κ ρ ι ε o α) : Prop where
  safe : D.Safe x w.store
  held : ∀ y ∈ x.ctx.held, w.owner y = some t
  wrote : ∀ v ∈ x.ctx.writes, v.target ∈ x.ctx.held
  ids : ∀ i ∈ x.ctx.ids, w.minted i = some t ∧ i ∉ D.ids w.store.db w.store.log

/-- What holds of every world a disciplined system reaches. -/
structure WorldInv (D : Discipline κ ρ ι ε o α) (w : World κ ρ ι ε o α) : Prop where
  inv : D.Inv w.store
  minted : ∀ i ∈ D.ids w.store.db w.store.log, w.minted i ≠ none
  txn : ∀ t x, w.txn t = some x → TxnInv D w t x

namespace World

variable {w : World κ ρ ι ε o α} {t u : ℕ} {x y : Txn κ ρ ι ε o α}

omit [DecidableEq κ] in
theorem lt_of_txn (hx : w.txn t = some x) : t < w.txns.length := by
  by_contra hlt
  simp [txn, List.getElem?_eq_none (Nat.le_of_not_lt hlt)] at hx

omit [DecidableEq κ] in
theorem txn_start (w : World κ ρ ι ε o α) (y : Txn κ ρ ι ε o α) (u : ℕ) :
    World.txn { w with txns := w.txns ++ [some y] } u =
      if u = w.txns.length then some y else w.txn u := by
  unfold txn
  rcases Nat.lt_trichotomy u w.txns.length with hlt | rfl | hgt
  · rw [if_neg (Nat.ne_of_lt hlt), List.getElem?_append_left hlt]
  · rw [if_pos rfl, List.getElem?_concat_length, Option.join_some]
  · have hlen : (w.txns ++ [some y]).length ≤ u := by
      rw [List.length_append, List.length_singleton]
      omega
    rw [if_neg (Nat.ne_of_gt hgt), List.getElem?_eq_none hlen, List.getElem?_eq_none (Nat.le_of_lt hgt)]

omit [DecidableEq κ] in
theorem txn_set (hx : w.txn t = some x) : (w.set t y).txn u = if u = t then some y else w.txn u := by
  have hlt := lt_of_txn hx
  by_cases hu : u = t
  · subst hu
    simp [txn, set, hlt]
  · simp [txn, set, hu, Ne.symm hu]

omit [DecidableEq κ] in
theorem txn_close : (w.close t).txn u = if u = t then none else w.txn u := by
  by_cases hu : u = t
  · subst hu
    by_cases hlt : u < w.txns.length
    · simp [txn, close, hlt]
    · simp [txn, close, hlt]
  · simp [txn, close, hu, Ne.symm hu]

@[simp] theorem ownRow_store (z : κ) (r : Option ρ) : (w.ownRow t z r).store = w.store := by
  cases r <;> rfl

@[simp] theorem ownRow_minted (z : κ) (r : Option ρ) : (w.ownRow t z r).minted = w.minted := by
  cases r <;> rfl

@[simp] theorem ownRow_txn (z : κ) (r : Option ρ) : (w.ownRow t z r).txn = w.txn := by
  cases r <;> rfl

theorem own_owner (hfree : w.free t z) (v : κ) :
    (w.own t z).owner v = w.owner v ∨ (w.free t v ∧ (w.own t z).owner v = some t) := by
  by_cases hv : v = z
  · subst hv
    exact Or.inr ⟨hfree, by simp [own]⟩
  · exact Or.inl (by simp [own, hv])

theorem ownRow_owner (hfree : w.free t z) (r : Option ρ) (v : κ) :
    (w.ownRow t z r).owner v = w.owner v ∨ (w.free t v ∧ (w.ownRow t z r).owner v = some t) := by
  cases r with
  | none => exact Or.inl rfl
  | some r => exact own_owner hfree v

end World

namespace TxnInv

variable {D : Discipline κ ρ ι ε o α} {w w' : World κ ρ ι ε o α} {t u : ℕ} {x y : Txn κ ρ ι ε o α}

/-- A transaction may take its own next statement at once. -/
theorem env (h : TxnInv D w t x) (hw : WorldInv D w) : D.Env x.ctx w.store w.store :=
  Discipline.Env.refl hw.inv fun i hi => (h.ids i hi).2

/-- The transaction `u` does not notice `t` taking a free lock or a new
identifier. -/
theorem other (h : TxnInv D w u y) (hu : u ≠ t) (hstore : w'.store = w.store)
    (howner : ∀ v, w'.owner v = w.owner v ∨ (w.free t v ∧ w'.owner v = some t))
    (hminted : ∀ i, w'.minted i = w.minted i ∨ w.minted i = none) : TxnInv D w' u y where
  safe := hstore ▸ h.safe
  held := by
    intro v hv
    rcases howner v with hsame | ⟨hfree, -⟩
    · rw [hsame, h.held v hv]
    · rcases hfree with hnone | hmine
      · rw [h.held v hv] at hnone
        cases hnone
      · rw [h.held v hv] at hmine
        exact absurd (Option.some.inj hmine) hu
  wrote := h.wrote
  ids := by
    intro i hi
    obtain ⟨hmint, hnew⟩ := h.ids i hi
    rcases hminted i with hsame | hnone
    · exact ⟨hsame.trans hmint, hstore ▸ hnew⟩
    · rw [hmint] at hnone
      cases hnone

end TxnInv

namespace WorldInv

variable {D : Discipline κ ρ ι ε o α} {w w' : World κ ρ ι ε o α} {t : ℕ} {x x' : Txn κ ρ ι ε o α}

/-- A step that only moves transaction `t` keeps the invariant when what is left
of `t` does. -/
theorem advance (h : WorldInv D w) (hstore : w'.store = w.store)
    (howner : ∀ v, w'.owner v = w.owner v ∨ (w.free t v ∧ w'.owner v = some t))
    (hminted : ∀ i, w'.minted i = w.minted i ∨ (w.minted i = none ∧ w'.minted i = some t))
    (htxn : ∀ u, w'.txn u = if u = t then some x' else w.txn u) (hnew : TxnInv D w' t x') :
    WorldInv D w' where
  inv := hstore ▸ h.inv
  minted := by
    intro i hi
    rw [hstore] at hi
    rcases hminted i with hsame | ⟨hnone, -⟩
    · exact hsame ▸ h.minted i hi
    · exact absurd hnone (h.minted i hi)
  txn := by
    intro u y hy
    rw [htxn u] at hy
    by_cases hu : u = t
    · rw [if_pos hu] at hy
      cases hy
      exact hu ▸ hnew
    · rw [if_neg hu] at hy
      exact (h.txn u y hy).other hu hstore howner fun i => (hminted i).imp_right And.left

/-- The common case: nothing new is owned or minted. -/
theorem advance_set (h : WorldInv D w) (hx : w.txn t = some x)
    (hsafe : D.Safe x' w.store) (hheld : x'.ctx.held = x.ctx.held)
    (hwrites : x'.ctx.writes = x.ctx.writes) (hids : x'.ctx.ids = x.ctx.ids) :
    WorldInv D (w.set t x') := by
  have hold := h.txn t x hx
  refine h.advance rfl (fun v => Or.inl rfl) (fun i => Or.inl rfl) (fun u => World.txn_set hx) ?_
  exact ⟨hsafe, hheld ▸ hold.held, hwrites ▸ hheld ▸ hold.wrote, hids ▸ hold.ids⟩

/-- Taking a lock. -/
theorem advance_own (h : WorldInv D w) {z : κ} (hx : w.txn t = some x) (hfree : w.free t z)
    (hsafe : D.Safe x' w.store) (hheld : x'.ctx.held = z :: x.ctx.held)
    (hwrites : ∀ v ∈ x'.ctx.writes, v ∈ x.ctx.writes ∨ v.target = z)
    (hids : x'.ctx.ids = x.ctx.ids) : WorldInv D ((w.own t z).set t x') := by
  have hold := h.txn t x hx
  refine h.advance rfl (World.own_owner hfree) (fun i => Or.inl rfl)
    (fun u => World.txn_set (w := w.own t z) hx) ?_
  refine ⟨hsafe, ?_, ?_, hids ▸ hold.ids⟩
  · intro v hv
    rw [hheld] at hv
    rcases World.own_owner hfree v with hsame | ⟨-, hmine⟩
    · rcases List.mem_cons.mp hv with rfl | hv
      · simp [World.set, World.own]
      · exact hsame.trans (hold.held v hv)
    · exact hmine
  · intro v hv
    rw [hheld]
    rcases hwrites v hv with hv | hv
    · exact List.mem_cons_of_mem _ (hold.wrote v hv)
    · rw [hv]
      exact List.mem_cons_self

/-- Taking a row lock, when there is a row. -/
theorem advance_ownRow (h : WorldInv D w) {z : κ} {r : Option ρ} {p : Prog κ ρ ι ε α}
    (hx : w.txn t = some x) (hfree : w.free t z)
    (hsafe : D.Safe (x.next p (x.ctx.holdRow z r)) w.store) :
    WorldInv D ((w.ownRow t z r).set t (x.next p (x.ctx.holdRow z r))) := by
  cases r with
  | none => exact h.advance_set hx hsafe rfl rfl rfl
  | some r => exact h.advance_own hx hfree hsafe rfl (fun v hv => Or.inl hv) rfl

/-- A transaction that ends leaves the others a store they can go on with. -/
theorem finish (h : WorldInv D w) (hx : w.txn t = some x) {e : Entry κ ρ ε o α}
    {ws : List (Write κ ρ)} (hws : ws ⊆ x.ctx.writes)
    (hok : D.EndOk x.ctx w.store (w.store.commit e ws)) :
    WorldInv D { w.close t with store := w.store.commit e ws } := by
  have hold := h.txn t x hx
  refine ⟨hok.inv, ?_, ?_⟩
  · intro i hi
    rcases hok.ids i hi with hmine | hdb
    · intro hnone
      have hmint := (hold.ids i hmine).1
      rw [show w.minted i = none from hnone] at hmint
      cases hmint
    · exact h.minted i hdb
  · intro u y hy
    have hy' : (if u = t then none else w.txn u) = some y := by
      rw [← World.txn_close]
      exact hy
    by_cases hu : u = t
    · rw [if_pos hu] at hy'
      cases hy'
    rw [if_neg hu] at hy'
    have hother := h.txn u y hy'
    have hnotmine : ∀ z ∈ y.ctx.held, z ∉ x.ctx.held := by
      intro z hz hz'
      have := (hother.held z hz).symm.trans (hold.held z hz')
      exact hu (Option.some.inj this)
    have hnew : ∀ i ∈ y.ctx.ids, i ∉ D.ids (w.store.commit e ws).db (w.store.commit e ws).log := by
      intro i hi hmem
      rcases hok.ids i hmem with hmine | hdb
      · have := (hother.ids i hi).1.symm.trans (hold.ids i hmine).1
        exact hu (Option.some.inj this)
      · exact (hother.ids i hi).2 hdb
    have henv : D.Env y.ctx w.store (w.store.commit e ws) :=
      { inv := hok.inv
        time := Int.le_refl _
        grows := hok.grows
        rows := by
          intro z hz
          refine Table.get_install_of_forall_ne fun v hv htarget => ?_
          exact hnotmine z hz (htarget ▸ hold.wrote v (hws hv))
        rely := fun z hz => hok.rely z (hnotmine z hz)
        ids := hnew
        log := List.prefix_append _ _ }
    refine ⟨hother.safe.env henv, ?_, hother.wrote, fun i hi => ⟨(hother.ids i hi).1, hnew i hi⟩⟩
    intro z hz
    have hne : w.owner z ≠ some t := by
      rw [hother.held z hz]
      exact fun h => hu (Option.some.inj h)
    show (if w.owner z = some t then none else w.owner z) = some u
    rw [if_neg hne, hother.held z hz]

/-- A database nobody is connected to. -/
theorem of_idle (hw : w.Idle) (hinv : D.Inv w.store)
    (hminted : ∀ i ∈ D.ids w.store.db w.store.log, w.minted i ≠ none) : WorldInv D w := by
  refine ⟨hinv, hminted, fun t x hx => ?_⟩
  simp [World.txn, hw.txns] at hx

variable [DecidableEq ι]

/-- One step of a sound system keeps the invariant. -/
theorem step (hsound : D.Sound) (h : WorldInv D w) (hstep : Step D.toProtocol w w') :
    WorldInv D w' := by
  cases hstep with
  | tick t ht =>
      refine ⟨D.inv_tick _ _ h.inv ht, h.minted, ?_⟩
      intro u y hy
      have hother := h.txn u y hy
      have henv : D.Env y.ctx w.store (w.store.atTime t) :=
        { inv := D.inv_tick _ _ h.inv ht
          time := ht
          grows := D.grows_refl _
          rows := fun _ _ => rfl
          rely := fun x _ => D.rely_tick x _ _ ht
          ids := fun i hi => (hother.ids i hi).2
          log := List.prefix_refl _ }
      exact ⟨hother.safe.env henv, hother.held, hother.wrote, hother.ids⟩
  | start op hop =>
      refine ⟨h.inv, h.minted, ?_⟩
      intro u y hy
      rw [World.txn_start] at hy
      split_ifs at hy with hlast
      · cases hy
        exact ⟨hsound op w.store h.inv hop, by simp [Txn.begin, Ctx.init],
          by simp [Txn.begin, Ctx.init], by simp [Txn.begin, Ctx.init]⟩
      · exact ⟨(h.txn u y hy).safe, (h.txn u y hy).held, (h.txn u y hy).wrote,
          (h.txn u y hy).ids⟩
  | @clock t x k hx hp =>
      have hold := h.txn t x hx
      have hsafe := hold.safe
      simp only [Discipline.Safe, hp, Discipline.wp] at hsafe
      exact h.advance_set hx (hsafe w.store (hold.env h)) rfl rfl rfl
  | @fresh t x k i hx hp hi =>
      have hold := h.txn t x hx
      have hsafe := hold.safe
      simp only [Discipline.Safe, hp, Discipline.wp] at hsafe
      have hnew : i ∉ D.ids w.store.db w.store.log := fun hmem => h.minted i hmem hi
      have hmine : i ∉ x.ctx.ids := by
        intro hmem
        have := (hold.ids i hmem).1
        rw [hi] at this
        cases this
      refine h.advance rfl (fun v => Or.inl rfl) ?_ (fun u => World.txn_set hx)
        ⟨hsafe w.store i (hold.env h) hnew hmine, hold.held, hold.wrote, ?_⟩
      · intro j
        by_cases hj : j = i
        · subst hj
          exact Or.inr ⟨hi, by simp⟩
        · exact Or.inl (by simp [hj])
      · intro j hj
        rcases List.mem_cons.mp hj with rfl | hj
        · exact ⟨by simp, hnew⟩
        · obtain ⟨hmint, hnot⟩ := hold.ids j hj
          have hne : j ≠ i := by
            intro heq
            rw [heq, hi] at hmint
            cases hmint
          exact ⟨by simpa [hne] using hmint, hnot⟩
  | @scan t x k rows hx hp hrows =>
      have hold := h.txn t x hx
      have hsafe := hold.safe
      simp only [Discipline.Safe, hp, Discipline.wp] at hsafe
      exact h.advance_set hx (hsafe w.store rows (hold.env h) hrows) rfl rfl rfl
  | @read t x y k hx hp =>
      have hold := h.txn t x hx
      have hsafe := hold.safe
      simp only [Discipline.Safe, hp, Discipline.wp] at hsafe
      exact h.advance_set hx (hsafe w.store (hold.env h)) rfl rfl rfl
  | @lock t x y k hx hp hfree =>
      have hold := h.txn t x hx
      have hsafe := hold.safe
      simp only [Discipline.Safe, hp, Discipline.wp] at hsafe
      exact h.advance_ownRow hx hfree (hsafe w.store (hold.env h))
  | @grant t x y k hx hp hfree hguard =>
      have hold := h.txn t x hx
      have hsafe := hold.safe
      simp only [Discipline.Safe, hp, Discipline.wp] at hsafe
      exact h.advance_ownRow hx hfree ((hsafe w.store (hold.env h)).2 hguard)
  | @skip t x y k hx hp hfree =>
      have hold := h.txn t x hx
      have hsafe := hold.safe
      simp only [Discipline.Safe, hp, Discipline.wp] at hsafe
      exact h.advance_set hx (hsafe w.store (hold.env h)).1 rfl rfl rfl
  | @advisory t x y k hx hp hfree =>
      have hold := h.txn t x hx
      have hsafe := hold.safe
      simp only [Discipline.Safe, hp, Discipline.wp] at hsafe
      exact h.advance_own hx hfree (hsafe w.store (hold.env h)) rfl (fun v hv => Or.inl hv) rfl
  | @put t x r k hx hp hfree =>
      have hold := h.txn t x hx
      have hsafe := hold.safe
      simp only [Discipline.Safe, hp, Discipline.wp] at hsafe
      refine h.advance_own hx hfree (hsafe w.store (hold.env h)).2 rfl (fun v hv => ?_) rfl
      rcases List.mem_append.mp hv with hv | hv
      · exact Or.inl hv
      · exact Or.inr (by rw [List.mem_singleton.mp hv]; rfl)
  | @insert t x r k hx hp hfree hwait hnew =>
      have hold := h.txn t x hx
      have hsafe := hold.safe
      simp only [Discipline.Safe, hp, Discipline.wp] at hsafe
      refine h.advance_own hx hfree ((hsafe w.store (hold.env h)).2 hnew) rfl (fun v hv => ?_) rfl
      rcases List.mem_append.mp hv with hv | hv
      · exact Or.inl hv
      · exact Or.inr (by rw [List.mem_singleton.mp hv]; rfl)
  | @refuse t x r k hx hp hwait hconf =>
      have hold := h.txn t x hx
      have hsafe := hold.safe
      simp only [Discipline.Safe, hp, Discipline.wp] at hsafe
      exact h.advance_set hx ((hsafe w.store (hold.env h)).1 hconf) rfl rfl rfl
  | @erase t x y k hx hp hfree =>
      have hold := h.txn t x hx
      have hsafe := hold.safe
      simp only [Discipline.Safe, hp, Discipline.wp] at hsafe
      refine h.advance_own hx hfree (hsafe w.store (hold.env h)) rfl (fun v hv => ?_) rfl
      rcases List.mem_append.mp hv with hv | hv
      · exact Or.inl hv
      · exact Or.inr (by rw [List.mem_singleton.mp hv]; rfl)
  | @commit t x a hx hp =>
      have hold := h.txn t x hx
      have hsafe := hold.safe
      simp only [Discipline.Safe, hp, Discipline.wp] at hsafe
      exact h.finish hx (List.Subset.refl _) (hsafe w.store (hold.env h))
  | @fail t x e hx hp =>
      have hold := h.txn t x hx
      have hsafe := hold.safe
      simp only [Discipline.Safe, hp, Discipline.wp] at hsafe
      exact h.finish hx (List.nil_subset _) (hsafe w.store (hold.env h))
  | @abort t x hx =>
      refine ⟨h.inv, h.minted, ?_⟩
      intro u y hy
      rw [World.txn_close] at hy
      by_cases hu : u = t
      · rw [if_pos hu] at hy
        cases hy
      rw [if_neg hu] at hy
      have hother := h.txn u y hy
      refine ⟨hother.safe, ?_, hother.wrote, hother.ids⟩
      intro z hz
      have hne : w.owner z ≠ some t := by
        rw [hother.held z hz]
        exact fun h => hu (Option.some.inj h)
      show (if w.owner z = some t then none else w.owner z) = some u
      rw [if_neg hne, hother.held z hz]

/-- Every world a sound system reaches keeps the invariant. -/
theorem reachable (hsound : D.Sound) {w₀ : World κ ρ ι ε o α} (h : WorldInv D w₀)
    (hreach : Reachable D.toProtocol w₀ w) : WorldInv D w := by
  induction hreach with
  | refl => exact h
  | tail _ hstep ih => exact ih.step hsound hstep

/-- A step of a sound system changes neither rows nor log, or satisfies `Trans`. -/
theorem step_trans (h : WorldInv D w) (hstep : Step D.toProtocol w w') :
    (w'.store.db = w.store.db ∧ w'.store.log = w.store.log) ∨ D.Trans w.store w'.store := by
  cases hstep with
  | @commit t x a hx hp =>
      have hold := h.txn t x hx
      have hsafe := hold.safe
      simp only [Discipline.Safe, hp, Discipline.wp] at hsafe
      exact Or.inr (hsafe w.store (hold.env h)).trans
  | @fail t x e hx hp =>
      have hold := h.txn t x hx
      have hsafe := hold.safe
      simp only [Discipline.Safe, hp, Discipline.wp] at hsafe
      exact Or.inr (hsafe w.store (hold.env h)).trans
  | _ => left; simp [World.set, World.own, Store.atTime, World.close]

/-- A row stays as it is committed while a transaction that holds it runs. -/
theorem get_of_held (h : WorldInv D w) (hstep : Step D.toProtocol w w') {u : ℕ}
    {y y' : Txn κ ρ ι ε o α} (hy : w.txn u = some y) (hy' : w'.txn u = some y') {z : κ}
    (hz : z ∈ y.ctx.held) : w'.store.db.get z = w.store.db.get z := by
  cases hstep with
  | @commit t x a hx hp =>
      have hne : u ≠ t := by
        rintro rfl
        change (w.close u).txn u = some y' at hy'
        rw [World.txn_close, if_pos rfl] at hy'
        cases hy'
      refine Table.get_install_of_forall_ne fun v hv htarget => hne ?_
      have howner := (h.txn t x hx).held _ ((h.txn t x hx).wrote v hv)
      rw [htarget, (h.txn u y hy).held z hz] at howner
      exact Option.some.inj howner
  | _ => simp [World.set, World.own, Store.atTime, World.close, Store.commit, Table.install]

end WorldInv

end ReadCommitted
