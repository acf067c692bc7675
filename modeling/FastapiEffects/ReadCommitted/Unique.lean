import FastapiEffects.ReadCommitted.Rules

/-! # Unique constraints under concurrency

An insertion waits for every pending change it conflicts with, and fails on a row it
conflicts with. Together with updates that leave the unique columns alone this keeps
the committed rows of every reachable world free of clashes, without any lock the
transactions would have to take (`Unique.reachable`).
-/

namespace ReadCommitted

variable {κ ρ ι ε o α : Type} [DecidableEq κ] [Schema κ ρ]

namespace Schema

omit [DecidableEq κ]

theorem Keeps.refl (r : ρ) : Keeps r r := ⟨rfl, fun _ => rfl⟩

theorem Keeps.trans {r₁ r₂ r₃ : ρ} (h : Keeps r₁ r₂) (h' : Keeps r₂ r₃) : Keeps r₁ r₃ :=
  ⟨h'.1.trans h.1, fun r => (h'.2 r).trans (h.2 r)⟩

theorem Keeps.clash_left {r₀ r : ρ} (h : Keeps r₀ r) (r' : ρ) : clash r r' = clash r₀ r' := h.2 r'

theorem Keeps.clash_right {r₀ r : ρ} (h : Keeps r₀ r) (r' : ρ) : clash r' r = clash r' r₀ := by
  rw [clash_comm r' r, h.2 r', clash_comm r₀ r']

end Schema

open Schema

namespace Table

/-- No two rows clash. -/
def Unclashed (t : Table κ ρ) : Prop :=
  ∀ r ∈ t.rows, ∀ r' ∈ t.rows, clash r r' = true → (Schema.key r : κ) = Schema.key r'

theorem mem_of_get_some {t t' : Table κ ρ} {r : ρ} (h : t.get (Schema.key r) = t'.get (Schema.key r))
    (hr : r ∈ t.rows) : r ∈ t'.rows :=
  mem_iff_get.mpr (h ▸ mem_iff_get.mp hr)

/-- Storing a row that clashes with none keeps a table free of clashes. -/
theorem Unclashed.put {t : Table κ ρ} (h : t.Unclashed) {r : ρ}
    (hr : ∀ r' ∈ t.rows, clash r r' = true → (Schema.key r : κ) = Schema.key r') :
    (t.put r).Unclashed := by
  intro r₁ h₁ r₂ h₂ hclash
  rcases mem_put.mp h₁ with heq₁ | ⟨hold₁, -⟩ <;> rcases mem_put.mp h₂ with heq₂ | ⟨hold₂, -⟩
  · rw [heq₁, heq₂]
  · subst heq₁
    exact hr r₂ hold₂ hclash
  · subst heq₂
    exact (hr r₁ hold₁ (by rwa [clash_comm])).symm
  · exact h r₁ hold₁ r₂ hold₂ hclash

theorem Unclashed.erase {t : Table κ ρ} (h : t.Unclashed) (x : κ) : (t.erase x).Unclashed :=
  fun r₁ h₁ r₂ h₂ hclash => h r₁ (mem_erase.mp h₁).1 r₂ (mem_erase.mp h₂).1 hclash

end Table

/-- A row one of the transaction's insertions or a committed row stands behind. -/
def Ctx.Named (c : Ctx κ ρ ι) (db : Table κ ρ) (r : ρ) : Prop :=
  (∃ r₀ ∈ c.inserted, Keeps r₀ r) ∨ ∃ r₀ ∈ db.rows, Keeps r₀ r

/-- What one running transaction keeps for the unique constraints. -/
structure TxnUnique (db : Table κ ρ) (c : Ctx κ ρ ι) : Prop where
  unclashed : (c.visible db).Unclashed
  named : ∀ r ∈ (c.visible db).rows, c.Named db r
  pending : ∀ r ∈ c.inserted, Write.put r ∈ c.writes

/-- What every reachable world keeps for the unique constraints. -/
structure Unique (w : World κ ρ ι ε o α) : Prop where
  committed : w.store.db.Unclashed
  txn : ∀ t x, w.txn t = some x → TxnUnique w.store.db x.ctx
  apart : ∀ t u x y, t ≠ u → w.txn t = some x → w.txn u = some y →
    ∀ r ∈ x.ctx.inserted, ∀ r' ∈ y.ctx.inserted, clash r r' = false

namespace TxnUnique

variable {db db' : Table κ ρ} {c c' : Ctx κ ρ ι}

/-- A transaction that has changed nothing. -/
theorem of_writes_nil (h : db.Unclashed) (hwrites : c.writes = []) (hinserted : c.inserted = []) :
    TxnUnique db c where
  unclashed := by simpa [Ctx.visible, hwrites] using h
  named := fun r hr => Or.inr ⟨r, by simpa [Ctx.visible, hwrites] using hr, Keeps.refl r⟩
  pending := by simp [hinserted]

/-- Nothing changed. -/
theorem congr (h : TxnUnique db c) (hwrites : c'.writes = c.writes)
    (hinserted : c'.inserted = c.inserted) : TxnUnique db c' where
  unclashed := by simpa [Ctx.visible, hwrites] using h.unclashed
  named := by simpa [Ctx.visible, Ctx.Named, hwrites, hinserted] using h.named
  pending := by simpa [hwrites, hinserted] using h.pending

theorem visible_change (c : Ctx κ ρ ι) (db : Table κ ρ) (v : Write κ ρ) :
    (c.change v).visible db = v.apply (c.visible db) := by
  simp [Ctx.visible, Ctx.change, Table.install]

/-- An update that keeps the unique columns. -/
theorem put (h : TxnUnique db c) {r r₀ : ρ} (hr₀ : (c.visible db).get (Schema.key r) = some r₀)
    (hkeeps : Keeps r₀ r) : TxnUnique db (c.change (.put r)) where
  unclashed := by
    rw [visible_change]
    refine h.unclashed.put fun r' hr' hclash => ?_
    rw [hkeeps.clash_left] at hclash
    exact hkeeps.1.trans (h.unclashed r₀ (Table.mem_of_get hr₀) r' hr' hclash)
  named := by
    rw [visible_change]
    intro r' hr'
    rcases Table.mem_put.mp hr' with rfl | ⟨hr', -⟩
    · rcases h.named r₀ (Table.mem_of_get hr₀) with ⟨r₁, hr₁, hk⟩ | ⟨r₁, hr₁, hk⟩
      · exact Or.inl ⟨r₁, hr₁, hk.trans hkeeps⟩
      · exact Or.inr ⟨r₁, hr₁, hk.trans hkeeps⟩
    · exact h.named r' hr'
  pending := fun r' hr' => List.mem_append_left _ (h.pending r' hr')

/-- An insertion that was not refused. -/
theorem insert (h : TxnUnique db c) {r : ρ}
    (hnew : (c.visible db).rows.any (Session.conflict (κ := κ) r) = false) :
    TxnUnique db (c.insert r) where
  unclashed := by
    show ((c.change (.put r)).visible db).Unclashed
    rw [visible_change]
    refine h.unclashed.put fun r' hr' hclash => ?_
    have := List.any_eq_false.mp hnew r' hr'
    simp [Session.conflict, hclash] at this
  named := by
    show ∀ r' ∈ ((c.change (.put r)).visible db).rows, _
    rw [visible_change]
    intro r' hr'
    rcases Table.mem_put.mp hr' with rfl | ⟨hr', -⟩
    · exact Or.inl ⟨r', List.mem_cons_self, Keeps.refl r'⟩
    · exact (h.named r' hr').imp_left fun ⟨r₁, hr₁, hk⟩ => ⟨r₁, List.mem_cons_of_mem _ hr₁, hk⟩
  pending := by
    intro r' hr'
    rcases List.mem_cons.mp hr' with rfl | hr'
    · exact List.mem_append_right _ (List.mem_singleton.mpr rfl)
    · exact List.mem_append_left _ (h.pending r' hr')

/-- A removal. -/
theorem erase (h : TxnUnique db c) (y : κ) : TxnUnique db (c.change (.erase y)) where
  unclashed := by
    rw [visible_change]
    exact h.unclashed.erase y
  named := by
    rw [visible_change]
    exact fun r' hr' => h.named r' (Table.mem_erase.mp hr').1
  pending := fun r' hr' => List.mem_append_left _ (h.pending r' hr')

/-- A row the transaction sees but has not changed is a committed one. -/
theorem mem_visible_cases {r : ρ} (hr : r ∈ (c.visible db).rows) :
    (∃ v ∈ c.writes, v.target = Schema.key r) ∨
      ((∀ v ∈ c.writes, v.target ≠ Schema.key r) ∧ r ∈ db.rows) := by
  by_cases hmem : ∃ v ∈ c.writes, v.target = (Schema.key r : κ)
  · exact Or.inl hmem
  · have hne : ∀ v ∈ c.writes, v.target ≠ (Schema.key r : κ) := fun v hv heq => hmem ⟨v, hv, heq⟩
    exact Or.inr ⟨hne, Table.mem_of_get_some (Table.get_install_of_forall_ne hne) hr⟩

/-- A transaction with changes `c` sees no clash after another one, with changes
`c'` to other rows, has committed. -/
theorem commit (h : TxnUnique db c) (h' : TxnUnique db c')
    (hdisj : ∀ v ∈ c.writes, ∀ v' ∈ c'.writes, v.target ≠ v'.target)
    (hapart : ∀ r ∈ c.inserted, ∀ r' ∈ c'.inserted, clash r r' = false) :
    TxnUnique (c'.visible db) c := by
  -- a row under one of `c`'s changes is the same on both sides
  have hmine : ∀ r ∈ (c.visible (c'.visible db)).rows,
      (∃ v ∈ c.writes, v.target = (Schema.key r : κ)) → r ∈ (c.visible db).rows :=
    fun r hr hmem => Table.mem_of_get_some (Table.get_install_of_mem hmem) hr
  -- a committed row that `c` changes is left alone by `c'`
  have hkept : ∀ r ∈ db.rows, (∃ v ∈ c.writes, v.target = (Schema.key r : κ)) →
      r ∈ (c'.visible db).rows := by
    rintro r hr ⟨v, hv, heq⟩
    refine Table.mem_of_get_some (Table.get_install_of_forall_ne fun v' hv' => ?_).symm hr
    exact heq ▸ (hdisj v hv v' hv').symm
  -- the mixed case: `r` is under `c`'s changes and `r'` is not
  have hmixed : ∀ r ∈ (c.visible (c'.visible db)).rows, ∀ r' ∈ (c'.visible db).rows,
      (∃ v ∈ c.writes, v.target = (Schema.key r : κ)) →
      (∀ v ∈ c.writes, v.target ≠ (Schema.key r' : κ)) → clash r r' = true →
      (Schema.key r : κ) = Schema.key r' := by
    intro r hr r' hr' hmem hne hclash
    have hold := hmine r hr hmem
    rcases h'.named r' hr' with ⟨r₁', hr₁', hk'⟩ | ⟨r₁', hr₁', hk'⟩
    · rcases h.named r hold with ⟨r₁, hr₁, hk⟩ | ⟨r₁, hr₁, hk⟩
      · rw [hk.clash_left, hk'.clash_right, hapart r₁ hr₁ r₁' hr₁'] at hclash
        cases hclash
      · rw [hk.clash_left] at hclash
        rw [hk.1] at hmem ⊢
        exact h'.unclashed r₁ (hkept r₁ hr₁ hmem) r' hr' hclash
    · rw [hk'.clash_right] at hclash
      rw [hk'.1] at hne ⊢
      have hsame : r₁' ∈ (c.visible db).rows :=
        Table.mem_of_get_some (Table.get_install_of_forall_ne hne).symm hr₁'
      exact h.unclashed r hold r₁' hsame hclash
  refine ⟨?_, ?_, h.pending⟩
  · intro r hr r' hr' hclash
    rcases mem_visible_cases hr with hmem | ⟨hne, hdb⟩ <;>
      rcases mem_visible_cases hr' with hmem' | ⟨hne', hdb'⟩
    · exact h.unclashed r (hmine r hr hmem) r' (hmine r' hr' hmem') hclash
    · exact hmixed r hr r' hdb' hmem hne' hclash
    · rw [clash_comm] at hclash
      exact (hmixed r' hr' r hdb hmem' hne hclash).symm
    · exact h'.unclashed r hdb r' hdb' hclash
  · intro r hr
    rcases mem_visible_cases hr with hmem | ⟨-, hdb⟩
    · rcases h.named r (hmine r hr hmem) with hins | ⟨r₀, hr₀, hk⟩
      · exact Or.inl hins
      · rw [hk.1] at hmem
        exact Or.inr ⟨r₀, hkept r₀ hr₀ hmem, hk⟩
    · exact Or.inr ⟨r, hdb, Keeps.refl r⟩

end TxnUnique

namespace Unique

variable {D : Discipline κ ρ ι ε o α} {w w' : World κ ρ ι ε o α} {t : ℕ} {x x' : Txn κ ρ ι ε o α}

variable (x') in
/-- A step of transaction `t` that commits nothing. -/
theorem advance (h : Unique w) (hx : w.txn t = some x) (hdb : w'.store.db = w.store.db)
    (htxn : ∀ u, w'.txn u = if u = t then some x' else w.txn u)
    (hnew : TxnUnique w.store.db x'.ctx)
    (hins : ∀ r ∈ x'.ctx.inserted, r ∈ x.ctx.inserted ∨
      ∀ u y, u ≠ t → w.txn u = some y → ∀ r' ∈ y.ctx.inserted, clash r r' = false) :
    Unique w' := by
  -- what `t` inserted, against another transaction
  have hpair : ∀ u y, u ≠ t → w.txn u = some y → ∀ r ∈ x'.ctx.inserted, ∀ r' ∈ y.ctx.inserted,
      clash r r' = false := by
    intro u y hu hy r hr r' hr'
    rcases hins r hr with hold | hnew
    · exact h.apart t u x y hu.symm hx hy r hold r' hr'
    · exact hnew u y hu hy r' hr'
  refine ⟨hdb ▸ h.committed, ?_, ?_⟩
  · intro u y hy
    rw [htxn u] at hy
    rw [hdb]
    by_cases hu : u = t
    · rw [if_pos hu] at hy
      cases hy
      exact hnew
    · rw [if_neg hu] at hy
      exact h.txn u y hy
  · intro u v y z huv hy hz r hr r' hr'
    rw [htxn u] at hy
    rw [htxn v] at hz
    by_cases hu : u = t
    · have hv : v ≠ t := fun hv => huv (hu.trans hv.symm)
      rw [if_pos hu] at hy
      rw [if_neg hv] at hz
      cases hy
      exact hpair v z hv hz r hr r' hr'
    · rw [if_neg hu] at hy
      by_cases hv : v = t
      · rw [if_pos hv] at hz
        cases hz
        rw [clash_comm]
        exact hpair u y hu hy r' hr' r hr
      · rw [if_neg hv] at hz
        exact h.apart u v y z huv hy hz r hr r' hr'

variable (x') in
/-- A step that changes no row, committed or pending. -/
theorem advance_same (h : Unique w) (hx : w.txn t = some x) (hdb : w'.store.db = w.store.db)
    (htxn : ∀ u, w'.txn u = if u = t then some x' else w.txn u)
    (hwrites : x'.ctx.writes = x.ctx.writes) (hinserted : x'.ctx.inserted = x.ctx.inserted) :
    Unique w' :=
  h.advance _ hx hdb htxn ((h.txn t x hx).congr hwrites hinserted) fun _ hr => Or.inl (hinserted ▸ hr)

/-- Taking a row lock. -/
theorem advance_ownRow (h : Unique w) {z : κ} {r : Option ρ} {p : Prog κ ρ ι ε α}
    (hx : w.txn t = some x) :
    Unique ((w.ownRow t z r).set t (x.next p (x.ctx.holdRow z r))) := by
  refine h.advance_same (x.next p (x.ctx.holdRow z r)) hx (by simp [World.set])
    (fun u => ?_) ?_ ?_
  · rw [World.txn_set (by simpa using hx), World.ownRow_txn]
  · cases r <;> rfl
  · cases r <;> rfl

/-- The end of a transaction that leaves nothing. -/
theorem finish (h : Unique w) (hdb : w'.store.db = w.store.db)
    (htxn : ∀ u, w'.txn u = if u = t then none else w.txn u) : Unique w' := by
  have hold : ∀ u y, w'.txn u = some y → w.txn u = some y := by
    intro u y hy
    rw [htxn u] at hy
    split_ifs at hy
    exact hy
  exact ⟨hdb ▸ h.committed, fun u y hy => hdb ▸ h.txn u y (hold u y hy),
    fun u v y z huv hy hz => h.apart u v y z huv (hold u y hy) (hold v z hz)⟩

/-- A commit. -/
theorem commit (h : Unique w) (hw : WorldInv D w) (hx : w.txn t = some x)
    (hdb : w'.store.db = x.ctx.visible w.store.db)
    (htxn : ∀ u, w'.txn u = if u = t then none else w.txn u) : Unique w' := by
  have hold : ∀ u y, w'.txn u = some y → u ≠ t ∧ w.txn u = some y := by
    intro u y hy
    rw [htxn u] at hy
    split_ifs at hy with hu
    exact ⟨hu, hy⟩
  have hmine := hw.txn t x hx
  refine ⟨hdb ▸ (h.txn t x hx).unclashed, ?_, ?_⟩
  · intro u y hy
    obtain ⟨hu, hy⟩ := hold u y hy
    have hother := hw.txn u y hy
    rw [hdb]
    refine (h.txn u y hy).commit (h.txn t x hx) ?_ (h.apart u t y x hu hy hx)
    -- two transactions do not hold the same row
    intro v hv v' hv' heq
    have hown := (hother.held _ (hother.wrote v hv)).symm.trans
      (heq ▸ hmine.held _ (hmine.wrote v' hv'))
    exact hu (Option.some.inj hown)
  · intro u v y z huv hy hz
    exact h.apart u v y z huv (hold u y hy).2 (hold v z hz).2

/-- A row that is inserted clashes with no pending insertion of another transaction. -/
theorem of_pendingConflict (h : Unique w) {r : ρ} (hwait : w.pendingConflict t r = false)
    {u : ℕ} {y : Txn κ ρ ι ε o α} (hu : u ≠ t) (hy : w.txn u = some y) :
    ∀ r' ∈ y.ctx.inserted, clash r r' = false := by
  intro r' hr'
  have hput := (h.txn u y hy).pending r' hr'
  have hmem : u ∈ List.range w.txns.length := List.mem_range.mpr (World.lt_of_txn hy)
  have hnone := List.any_eq_false.mp hwait u hmem
  simp only [hu, ne_eq, not_false_eq_true, decide_true, hy, Bool.true_and,
    Bool.not_eq_true] at hnone
  have hfree : ¬ Session.conflict (κ := κ) r r' = true := List.any_eq_false.mp hnone _ hput
  simp only [Session.conflict, decide_eq_true_eq, not_or, Bool.not_eq_true] at hfree
  exact hfree.2

variable [DecidableEq ι]

/-- One step keeps the unique constraints. -/
theorem step (h : Unique w) (hw : WorldInv D w) (hstep : Step D.toProtocol w w') : Unique w' := by
  cases hstep with
  | tick t ht => exact ⟨h.committed, h.txn, h.apart⟩
  | start op hop =>
      -- the new transaction has inserted nothing
      have hcases : ∀ u y, World.txn { w with txns := w.txns ++ [some (Txn.begin op w.store
          (D.prog op))] } u = some y → w.txn u = some y ∨ y = Txn.begin op w.store (D.prog op) := by
        intro u y hy
        rw [World.txn_start] at hy
        split_ifs at hy with hlast
        · exact Or.inr (Option.some.inj hy).symm
        · exact Or.inl hy
      refine ⟨h.committed, ?_, ?_⟩
      · intro u y hy
        rcases hcases u y hy with hold | rfl
        · exact h.txn u y hold
        · exact .of_writes_nil h.committed rfl rfl
      · intro u v y z huv hy hz r hr r' hr'
        rcases hcases u y hy with hold | rfl
        · rcases hcases v z hz with hold' | rfl
          · exact h.apart u v y z huv hold hold' r hr r' hr'
          · simp [Txn.begin, Ctx.init] at hr'
        · simp [Txn.begin, Ctx.init] at hr
  | clock hx hp => exact h.advance_same _ hx rfl (fun u => World.txn_set hx) rfl rfl
  | fresh i hx hp hi => exact h.advance_same _ hx rfl (fun u => World.txn_set hx) rfl rfl
  | scan rows hx hp hrows => exact h.advance_same _ hx rfl (fun u => World.txn_set hx) rfl rfl
  | read hx hp => exact h.advance_same _ hx rfl (fun u => World.txn_set hx) rfl rfl
  | lock hx hp hfree => exact h.advance_ownRow hx
  | grant hx hp hfree hguard => exact h.advance_ownRow hx
  | skip hx hp hfree => exact h.advance_same _ hx rfl (fun u => World.txn_set hx) rfl rfl
  | advisory hx hp hfree =>
      exact h.advance_same _ hx rfl (fun u => World.txn_set (w := w.own _ _) hx) rfl rfl
  | @put t x r k hx hp hfree =>
      have hsafe := (hw.txn t x hx).safe
      simp only [Discipline.Safe, hp, Discipline.wp] at hsafe
      obtain ⟨r₀, hr₀, hkeeps⟩ := (hsafe w.store ((hw.txn t x hx).env hw)).1
      exact h.advance (x.next k (x.ctx.change (.put r))) hx rfl
        (fun u => World.txn_set (w := w.own _ _) hx) ((h.txn t x hx).put hr₀ hkeeps)
        fun r' hr' => Or.inl hr'
  | @insert t x r k hx hp hfree hwait hnew =>
      refine h.advance (x.next (k true) (x.ctx.insert r)) hx rfl
        (fun u => World.txn_set (w := w.own _ _) hx) ((h.txn t x hx).insert hnew) fun r' hr' => ?_
      rcases List.mem_cons.mp hr' with rfl | hr'
      · exact Or.inr fun u y hu hy => h.of_pendingConflict hwait hu hy
      · exact Or.inl hr'
  | refuse hx hp hwait hold => exact h.advance_same _ hx rfl (fun u => World.txn_set hx) rfl rfl
  | @erase t x y k hx hp hfree =>
      exact h.advance (x.next k (x.ctx.change (.erase y))) hx rfl
        (fun u => World.txn_set (w := w.own _ _) hx) ((h.txn t x hx).erase y)
        fun r' hr' => Or.inl hr'
  | commit hx hp => exact h.commit hw hx rfl fun u => World.txn_close
  | fail hx hp => exact h.finish rfl fun u => World.txn_close
  | abort hx => exact h.finish rfl fun u => World.txn_close

/-- Every reachable world keeps the unique constraints. -/
theorem reachable (hsound : D.Sound) {w₀ : World κ ρ ι ε o α} (hw : WorldInv D w₀)
    (h : Unique w₀) (hreach : Reachable D.toProtocol w₀ w) : Unique w := by
  induction hreach with
  | refl => exact h
  | tail hprefix hstep ih => exact ih.step (hw.reachable hsound hprefix) hstep

end Unique

end ReadCommitted
