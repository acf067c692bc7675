import FastapiEffects.Runtime.Pending

/-! # Walking through statements

How the context of a transaction grows, the weakest preconditions of the statements
the repositories share, and what an unfinished transaction must know to raise.
-/

namespace FastapiEffects

open Python ReadCommitted

variable [Platform]

/-! ## Contexts that only hold more -/

/-- `c'` has the changes and the identifiers of `c`, and at least its locks. -/
structure Grown (c c' : RuntimeCtx) : Prop where
  writes : c'.writes = c.writes
  ids : c'.ids = c.ids
  held : c.held ⊆ c'.held

namespace Grown

variable {m : Mode} {sc : Scope} {c c' c'' : RuntimeCtx} {s s' : RuntimeStore}

omit [Platform]

theorem refl (c : RuntimeCtx) : Grown c c := ⟨rfl, rfl, List.Subset.refl _⟩

theorem trans (h : Grown c c') (h' : Grown c' c'') : Grown c c'' :=
  ⟨h'.writes.trans h.writes, h'.ids.trans h.ids, List.Subset.trans h.held h'.held⟩

theorem tell (c : RuntimeCtx) (t : Datetime) : Grown c (c.tell t) :=
  ⟨rfl, rfl, List.Subset.refl _⟩

theorem see (c : RuntimeCtx) (rows : List Row) : Grown c (c.see rows) :=
  ⟨rfl, rfl, List.Subset.refl _⟩

theorem hold (c : RuntimeCtx) (x : Key) : Grown c (c.hold x) :=
  ⟨rfl, rfl, List.subset_cons_self _ _⟩

theorem holdRow (c : RuntimeCtx) (x : Key) (r : Option Row) : Grown c (c.holdRow x r) := by
  cases r with
  | none => exact refl c
  | some r => exact hold c x

theorem visible (h : Grown c c') (db : Db) : c'.visible db = c.visible db := by
  rw [Ctx.visible, Ctx.visible, h.writes]

end Grown

section Grown

variable {m : Mode} {sc : Scope} {c c' : RuntimeCtx} {s s' : RuntimeStore}

theorem Grown.env (h : Grown c c') (henv : m.discipline.Env c' s s') : m.discipline.Env c s s' :=
  henv.mono h.held (h.ids ▸ List.Subset.refl _)

theorem Pending.grown (hp : Pending m sc c s) (h : Grown c c') : Pending m sc c' s :=
  hp.congr h.writes h.held (h.ids ▸ List.Subset.refl _)

end Grown

/-! ## Statements -/

section Statements

variable {m : Mode} {op : Op} {α : Type} {c : RuntimeCtx} {s : RuntimeStore}
  {E : PyError → RuntimeCtx → RuntimeStore → Prop}

theorem wp_lift {x : Except PyError α} {Q : α → RuntimeCtx → RuntimeStore → Prop}
    (hok : ∀ a, x = .ok a → Q a c s) (herr : ∀ e, x = .error e → E e c s) :
    m.discipline.wp op Q E (Tx.lift x) c s :=
  Discipline.wp_ofExcept hok herr

theorem wp_databaseNow {now : Datetime} {Q : Datetime → RuntimeCtx → RuntimeStore → Prop}
    (h : ∀ s', m.discipline.Env c s s' → Q s'.now (c.tell s'.now) s') :
    m.discipline.wp op Q E (databaseNow now) c s :=
  h

theorem wp_newUuid {Q : UUID → RuntimeCtx → RuntimeStore → Prop}
    (h : ∀ s' k, m.discipline.Env c s s' → k ∉ tokens s'.db s'.log → Q k (c.mint k) s') :
    m.discipline.wp op Q E newUuid c s :=
  fun s' k henv hk _ => h s' k henv hk

theorem wp_selectAll {kind : Row → Option α} {Q : List α → RuntimeCtx → RuntimeStore → Prop}
    (h : ∀ s' (rows : List Row), m.discipline.Env c s s' → rows.Perm (c.visible s'.db).rows →
      Q (rows.filterMap kind) (c.see s'.db.rows) s') :
    m.discipline.wp op Q E (selectAll kind) c s :=
  h

theorem wp_selectForUpdate {kind : Row → Option α} {x : Key}
    {Q : Option α → RuntimeCtx → RuntimeStore → Prop}
    (hnone : ∀ c' s', m.discipline.Env c s s' → Grown c c' → c'.clocks = c.clocks →
      ((c'.visible s'.db).get x).bind kind = none → Q none c' s')
    (hsome : ∀ r c' s', m.discipline.Env c s s' → Grown c c' → c'.clocks = c.clocks →
      x ∈ c'.held → ((c'.visible s'.db).get x).bind kind = some r → Q (some r) c' s') :
    m.discipline.wp op Q E (selectForUpdate kind x) c s := by
  intro s' henv
  show Q (((c.visible s'.db).get x).bind kind) (c.holdRow x ((c.visible s'.db).get x)) s'
  have hgrown := Grown.holdRow c x ((c.visible s'.db).get x)
  cases hr : ((c.visible s'.db).get x).bind kind with
  | none =>
      refine hnone _ s' henv hgrown ?_ (by rw [hgrown.visible, hr])
      cases (c.visible s'.db).get x <;> rfl
  | some r =>
      obtain ⟨row, hrow, -⟩ := Option.bind_eq_some_iff.mp hr
      refine hsome r _ s' henv hgrown ?_ ?_ ?_
      · rw [hrow]
        rfl
      · rw [hrow]
        exact List.mem_cons_self
      · rw [hgrown.visible, hr]

theorem wp_selectSkipLocked {kind : Row → Option α} {x : Key}
    {Q : Option α → RuntimeCtx → RuntimeStore → Prop}
    (hskip : ∀ s', m.discipline.Env c s s' → Q none c s')
    (h : ∀ s', m.discipline.Env c s s' → (m.fenced → claimGuard op c.seen x (s'.db.get x)) →
      Q (((c.visible s'.db).get x).bind kind) (c.holdRow x ((c.visible s'.db).get x)) s') :
    m.discipline.wp op Q E (selectSkipLocked kind x) c s :=
  fun s' henv => ⟨hskip s' henv, fun hguard => h s' henv hguard⟩

theorem wp_selectOne {kind : Row → Option α} {x : Key}
    {Q : Option α → RuntimeCtx → RuntimeStore → Prop}
    (h : ∀ s', m.discipline.Env c s s' → Q (((c.visible s'.db).get x).bind kind) c s') :
    m.discipline.wp op Q E (selectOne kind x) c s :=
  h

theorem wp_updateRow {checks : Bool} {r : Row} {Q : Unit → RuntimeCtx → RuntimeStore → Prop}
    (h : checks = true → ∀ s', m.discipline.Env c s s' →
      (∃ r₀, (c.visible s'.db).get r.key = some r₀ ∧ r.identity = r₀.identity) ∧
        Q () (c.change (.put r)) s')
    (herr : E .integrity c s) : m.discipline.wp op Q E (updateRow checks r) c s := by
  cases checks with
  | false => exact herr
  | true =>
      intro s' henv
      obtain ⟨⟨r₀, hr₀, hid⟩, hQ⟩ := h rfl s' henv
      exact ⟨⟨r₀, hr₀, Row.keeps_of_identity hid⟩, hQ⟩

theorem wp_insertOrSkip {checks : Bool} {r : Row} {Q : Bool → RuntimeCtx → RuntimeStore → Prop}
    (hskip : ∀ s', m.discipline.Env c s s' → Q false c s')
    (h : checks = true → ∀ s', m.discipline.Env c s s' → (c.visible s'.db).get r.key = none →
      Q true (c.insert r) s')
    (herr : E .integrity c s) : m.discipline.wp op Q E (insertOrSkip checks r) c s := by
  cases checks with
  | false => exact herr
  | true =>
      refine fun s' henv => ⟨fun _ => hskip s' henv, fun hnew => h rfl s' henv ?_⟩
      rw [Table.get_eq_none_iff]
      intro r' hr' heq
      have := List.any_eq_false.mp hnew r' hr'
      simp only [Session.conflict, heq, decide_eq_true_eq, not_or] at this
      exact this.1 rfl

theorem wp_insertRow {checks : Bool} {r : Row} {Q : Unit → RuntimeCtx → RuntimeStore → Prop}
    (h : checks = true → ∀ s', m.discipline.Env c s s' → (c.visible s'.db).get r.key = none →
      Q () (c.insert r) s')
    (herr : ∀ s', m.discipline.Env c s s' → E .integrity c s') (hnow : E .integrity c s) :
    m.discipline.wp op Q E (insertRow checks r) c s := by
  unfold insertRow
  simp only [Prog.bind_eq, Discipline.wp_bind]
  exact wp_insertOrSkip (fun s' henv => herr s' henv) h hnow

theorem wp_checkInteger {n : ℤ} {Q : Unit → RuntimeCtx → RuntimeStore → Prop}
    (h : n ≤ maxInteger → Q () c s) (herr : E .data c s) :
    m.discipline.wp op Q E (checkInteger n) c s := by
  unfold checkInteger
  split_ifs with hn
  · exact h hn
  · exact herr

end Statements

/-! ## Raising -/

/-- The claim a transaction reports on, if any, is locked and was live when checked. -/
structure Reporting (m : Mode) (x : RuntimeTxn) (c : RuntimeCtx) (s : RuntimeStore) : Prop
    extends Began m x s where
  live : ∀ cd, x.op.reportsOn = some cd →
    .delivery cd.delivery.tenantId cd.delivery.deliveryId ∈ c.held ∧
      ∃ r expiry t, (cd.cell s.db).delivery = some r ∧ r.leaseToken = some cd.leaseToken ∧
        r.leaseExpiresAt = some expiry ∧ c.clocks.head? = some t ∧ x.beganAt ≤ t ∧ t < expiry

section Raising

variable {m : Mode} {x : RuntimeTxn} {c c' : RuntimeCtx} {s s' : RuntimeStore}

theorem Reporting.env (h : Reporting m x c s) (henv : m.discipline.Env c s s') :
    Reporting m x c s' where
  toBegan := h.toBegan.env henv
  live := by
    intro cd hcd
    obtain ⟨hheld, r, expiry, t, hr, hrest⟩ := h.live cd hcd
    refine ⟨hheld, r, expiry, t, ?_, hrest⟩
    rw [ClaimedDelivery.cell, henv.rely _ hheld]
    exact hr

theorem Reporting.congr (h : Reporting m x c s) (hheld : c.held ⊆ c'.held)
    (hclocks : c.clocks <+: c'.clocks) : Reporting m x c' s where
  toBegan := h.toBegan
  live := by
    intro cd hcd
    obtain ⟨hmem, r, expiry, t, hr, htoken, hexpiry, ht, hrest⟩ := h.live cd hcd
    refine ⟨hheld hmem, r, expiry, t, hr, htoken, hexpiry, ?_, hrest⟩
    obtain ⟨more, hmore⟩ := hclocks
    rw [← hmore, List.head?_append, ht]
    rfl

/-- A transaction that reports on no claim. -/
theorem Began.reporting (h : Began m x s) (hnone : x.op.reportsOn = none) : Reporting m x c s :=
  ⟨h, fun cd hcd => by rw [hnone] at hcd; cases hcd⟩

theorem Reporting.raises (h : Reporting m x c s) (e : PyError) :
    m.discipline.raises x e c s := by
  refine raises_of_current h.toBegan fun s' henv cd hcd _ => ?_
  obtain ⟨-, r, expiry, t, hlive⟩ := (h.env henv).live cd hcd
  exact ⟨r, expiry, t, hlive⟩

/-- A transaction that reports on no claim may raise at any time. -/
theorem Began.raises (h : Began m x s) (hnone : x.op.reportsOn = none) (e : PyError) :
    m.discipline.raises x e c s :=
  (h.reporting hnone).raises e

/-- The claim's own lease may be reported as lost at any time. -/
theorem Began.raises_lost (h : Began m x s) {cd : ClaimedDelivery}
    (hcd : ∀ cd', x.op.reportsOn = some cd' → cd' = cd) :
    m.discipline.raises x (.leaseLost cd.delivery.deliveryId) c s := by
  refine raises_of_current h fun s' henv cd' hcd' hne => ?_
  rw [hcd cd' hcd'] at hne
  exact absurd rfl hne

end Raising

end FastapiEffects
