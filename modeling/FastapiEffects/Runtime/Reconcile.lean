import FastapiEffects.Runtime.Claim

/-! # Reconciling

`reconcile_expired` closes the lease of each delivery it locked. Its search for the
attempt cannot fail: a leased delivery has one under way, which nobody else can end
while the delivery is locked.
-/

namespace FastapiEffects

open Python ReadCommitted

variable [Platform]

/-- A locked delivery whose lease ran out, as committed. -/
structure Overdue (c : RuntimeCtx) (s : RuntimeStore) (r : DeliveryRow) : Prop where
  held : .delivery r.tenantId r.deliveryId ∈ c.held
  row : deliveryAt s.db r.tenantId r.deliveryId = some r
  same : cellAt (c.visible s.db) r.tenantId r.deliveryId = cellAt s.db r.tenantId r.deliveryId
  leased : r.state = .leased

section Overdue

variable {m : Mode} {sc : Scope} {op : Op} {x : RuntimeTxn} {c c' : RuntimeCtx}
  {s s' : RuntimeStore} {r : DeliveryRow}

theorem Overdue.env (h : Overdue c s r) (henv : m.discipline.Env c s s') : Overdue c s' r := by
  have hcell : cellAt s'.db r.tenantId r.deliveryId = cellAt s.db r.tenantId r.deliveryId :=
    henv.rely _ h.held
  have hvisible : cellAt (c.visible s'.db) r.tenantId r.deliveryId =
      cellAt (c.visible s.db) r.tenantId r.deliveryId := cellAt_install_congr hcell c.writes
  refine ⟨h.held, ?_, ?_, h.leased⟩
  · exact (congrArg Cell.delivery hcell).trans h.row
  · rw [hvisible, hcell, h.same]

theorem Overdue.other (h : Overdue c s r) (hheld : c.held ⊆ c'.held)
    (hcell : cellAt (c'.visible s.db) r.tenantId r.deliveryId =
      cellAt (c.visible s.db) r.tenantId r.deliveryId) : Overdue c' s r :=
  { h with held := hheld h.held, same := hcell.trans h.same }

theorem Overdue.grown (h : Overdue c s r) (hgrown : Grown c c') : Overdue c' s r :=
  h.other hgrown.held (by rw [hgrown.visible])

/-- The attempt under way. -/
theorem Overdue.current (h : Overdue c s r) (hinv : RuntimeInv m s) :
    ∃ a, attemptAt (c.visible s.db) r.tenantId a.attemptId = some a ∧ a.isCurrent r = true := by
  have hlive : Live m.fenced s.now r (cellAt s.db r.tenantId r.deliveryId).attempts := by
    have := hinv.cells r.tenantId r.deliveryId
    rwa [Cell.Inv, show (cellAt s.db r.tenantId r.deliveryId).delivery = some r from h.row] at this
  obtain ⟨k, hk⟩ := Option.isSome_iff_exists.mp (hlive.leased.mp h.leased)
  obtain ⟨i, a, ha, htoken, hstarted, -⟩ := hlive.current k hk
  have hi := hlive.ident i a ha
  rw [← h.same, ← hi] at ha
  obtain ⟨hat, hd⟩ := cellAt_attempts.mp ha
  exact ⟨a, hat, by simp [AttemptRecordArgs.isCurrent, (attemptAt_key hat).1, hd, hk, htoken,
    hstarted]⟩

/-- `lockAll`: rows under the keys that satisfy the condition, and all of those that
nobody else can change. -/
theorem wp_lockAll {α : Type} {kind : Row → Option α} {condition : α → Bool} {keys : List Key}
    {E : PyError → RuntimeCtx → RuntimeStore → Prop} {Q : List α → RuntimeCtx → RuntimeStore → Prop}
    (hself : m.discipline.Env c s s)
    (hQ : ∀ rs c' s', m.discipline.Env c s s' → Grown c c' → c'.clocks = c.clocks →
      (∀ a ∈ rs, ∃ y, y ∈ c'.held ∧ ((c'.visible s'.db).get y).bind kind = some a ∧
        condition a = true) →
      (∀ y ∈ keys, ∀ a, condition a = true → (∀ c'' s'', m.discipline.Env c s s'' → Grown c c'' →
        ((c''.visible s''.db).get y).bind kind = some a) → a ∈ rs) → Q rs c' s') :
    m.discipline.wp op Q E (lockAll kind condition keys) c s := by
  induction keys generalizing c s Q with
  | nil => exact hQ [] c s hself (Grown.refl c) rfl (by simp) (by simp)
  | cons z zs ih =>
      simp only [lockAll, Prog.bind_eq, Discipline.wp_bind]
      -- what the rest finds is found under the first lock as well
      have hrest : ∀ c₁ s₁, m.discipline.Env c s s₁ → Grown c c₁ →
          ∀ rs : List α, (∀ y ∈ zs, ∀ a, condition a = true → (∀ c'' s'', m.discipline.Env c₁ s₁ s'' →
            Grown c₁ c'' → ((c''.visible s''.db).get y).bind kind = some a) → a ∈ rs) →
          ∀ y ∈ zs, ∀ a, condition a = true → (∀ c'' s'', m.discipline.Env c s s'' →
            Grown c c'' → ((c''.visible s''.db).get y).bind kind = some a) → a ∈ rs := by
        intro c₁ s₁ henv₁ hgrown₁ rs hall y hy a ha hstay
        exact hall y hy a ha fun c'' s'' henv hgrown =>
          hstay c'' s'' (henv₁.trans (hgrown₁.env henv)) (hgrown₁.trans hgrown)
      refine wp_selectForUpdate ?_ ?_
      · intro c₁ s₁ henv₁ hgrown₁ hclocks₁ hnone
        refine ih (Discipline.Env.refl henv₁.inv (hgrown₁.ids ▸ henv₁.ids)) ?_
        intro rs c₂ s₂ henv₂ hgrown₂ hclocks₂ hsome hall
        refine hQ rs c₂ s₂ (henv₁.trans (hgrown₁.env henv₂)) (hgrown₁.trans hgrown₂)
          (hclocks₂.trans hclocks₁) hsome fun y hy a ha hstay => ?_
        rcases List.mem_cons.mp hy with rfl | hy
        · rw [hstay c₁ s₁ henv₁ hgrown₁] at hnone
          cases hnone
        · exact hrest c₁ s₁ henv₁ hgrown₁ rs hall y hy a ha hstay
      · intro b c₁ s₁ henv₁ hgrown₁ hclocks₁ hheld hb
        simp only [Discipline.wp_bind]
        refine ih (Discipline.Env.refl henv₁.inv (hgrown₁.ids ▸ henv₁.ids)) ?_
        intro rs c₂ s₂ henv₂ hgrown₂ hclocks₂ hsome hall
        have henv₁₂ := henv₁.trans (hgrown₁.env henv₂)
        have hb₂ : ((c₂.visible s₂.db).get z).bind kind = some b := by
          rw [hgrown₂.visible, henv₂.visible_get hheld, hb]
        refine hQ _ c₂ s₂ henv₁₂ (hgrown₁.trans hgrown₂) (hclocks₂.trans hclocks₁) ?_ ?_
        · intro a ha
          split_ifs at ha with hcond
          · rcases List.mem_cons.mp ha with rfl | ha
            · exact ⟨z, hgrown₂.held hheld, hb₂, hcond⟩
            · exact hsome a ha
          · exact hsome a ha
        · intro y hy a ha hstay
          rcases List.mem_cons.mp hy with rfl | hy
          · have hab : a = b := Option.some.inj ((hstay c₁ s₁ henv₁ hgrown₁).symm.trans hb)
            simp [← hab, ha]
          · have hmem := hrest c₁ s₁ henv₁ hgrown₁ rs hall y hy a ha hstay
            split_ifs
            · exact List.mem_cons_of_mem b hmem
            · exact hmem

/-- One round of the loop closes the lease. -/
theorem wp_reconcileOne {now : Datetime} {Q : Unit → RuntimeCtx → RuntimeStore → Prop}
    (hp : Pending m sc c s) (hover : Overdue c s r) (hbegan : Began m x s)
    (hnone : x.op.reportsOn = none)
    (hQ : ∀ c' s', m.discipline.Env c s s' → c.held ⊆ c'.held → Pending m sc c' s' →
      (∀ t d, ¬ (t = r.tenantId ∧ d = r.deliveryId) →
        cellAt (c'.visible s'.db) t d = cellAt (c.visible s'.db) t d) → Q () c' s') :
    m.discipline.wp op Q (m.discipline.raises x) (reconcileOne r now) c s := by
  simp only [reconcileOne, Prog.bind_eq, Discipline.wp_bind]
  refine wp_selectAll fun s₁ rows henv₁ hrows => ?_
  have hgrown₁ := Grown.see c s₁.db.rows
  have hover₁ := hover.env henv₁
  refine wp_lockAll (Discipline.Env.refl henv₁.inv henv₁.ids) ?_
  intro locked c₂ s₂ henv₂ hgrown₂ hclocks₂ hsome hall
  refine wp_databaseNow fun s₃ henv₃ => ?_
  have hgrown := (hgrown₁.trans hgrown₂).trans (Grown.tell c₂ s₃.now)
  have henv₂₃ := henv₂.trans (hgrown₂.env henv₃)
  have henv := henv₁.trans henv₂₃.of_see
  have hraise : ∀ e c', m.discipline.raises x e c' s₃ :=
    fun e c' => (hbegan.env henv).raises hnone e
  refine wp_lift (fun policy hpolicy => ?_) (fun e _ => hraise e _)
  refine wp_lift (fun deadline _ => ?_) (fun e _ => hraise e _)
  -- the search finds the attempt under way
  obtain ⟨a, ha, hcurrent⟩ := hover₁.current henv₁.inv
  have hmem : a ∈ locked := by
    have hrow : Row.attempt a ∈ rows :=
      hrows.symm.subset (Table.mem_of_get (attemptAt_eq_some.mp ha))
    refine hall (.attempt a.tenantId a.attemptId) ?_ a hcurrent fun c'' s'' henv'' hgrown'' => ?_
    · refine List.mem_map.mpr ⟨a, List.mem_filter.mpr ⟨?_, hcurrent⟩, rfl⟩
      exact List.mem_filterMap.mpr ⟨.attempt a, hrow, rfl⟩
    · have hcell : cellAt (c''.visible s''.db) r.tenantId r.deliveryId =
          cellAt (c.visible s₁.db) r.tenantId r.deliveryId := by
        rw [hgrown''.visible]
        exact cellAt_install_congr (henv''.rely _ hover.held) c.writes
      have hin : (cellAt (c.visible s₁.db) r.tenantId r.deliveryId).attempts a.attemptId = some a :=
        cellAt_attempts.mpr ⟨ha, by simp [AttemptRecordArgs.isCurrent] at hcurrent; exact hcurrent.2.1⟩
      rw [← hcell] at hin
      rw [(attemptAt_key ha).1]
      exact (cellAt_attempts.mp hin).1
  cases locked with
  | nil => cases hmem
  | cons b bs =>
      obtain ⟨y, hy, hb, hcond⟩ := hsome b List.mem_cons_self
      simp only [AttemptRecordArgs.isCurrent, decide_eq_true_eq] at hcond
      obtain ⟨hbt, hbd, hbtoken, hbstarted⟩ := hcond
      -- the row is stored under its own key
      have hykey : y = .attempt b.tenantId b.attemptId := by
        obtain ⟨row, hrow, hkind⟩ := Option.bind_eq_some_iff.mp hb
        cases row <;> simp [Row.attempt?] at hkind
        subst hkind
        exact (Table.key_of_get hrow).symm
      have hover₃ := (hover.env henv).grown hgrown
      have hp₃ := (hp.env henv).grown hgrown
      have hbrow : attemptAt (c₂.visible s₃.db) r.tenantId b.attemptId = some b := by
        rw [attemptAt_env henv₃ (by rw [← hbt, ← hykey]; exact hy), ← hbt]
        rw [hykey] at hb
        exact hb
      have hlease : LeaseRows m r.tenantId r.deliveryId (c₂.tell s₃.now) s₃ r b s₃.now :=
        { heldDelivery := hover₃.held
          heldAttempt := by rw [← hbt, ← hykey]; exact hy
          delivery := (congrArg Cell.delivery hover₃.same).trans hover₃.row
          attempt := hbrow
          home := hbd
          leased := hover.leased
          token := hbtoken
          started := hbstarted
          time := le_refl _
          inv := RuntimeInv.cells (m := m) henv₃.inv _ _ }
      have hend : ∀ elapsed, ∃ code summary, abandonedAttempt b s₃.now elapsed =
          finishedAttempt b .abandoned s₃.now code summary := by
        intro elapsed
        cases elapsed <;> exact ⟨_, _, rfl⟩
      obtain ⟨code, summary, hfinished⟩ := hend (decide (deadline ≤ s₃.now))
      have hcloses : Closes (sc.wins r.tenantId) s₃.now r b
          (if r.attemptsStarted < policy.maxAttempts ∧ ¬ decide (deadline ≤ s₃.now) then .retryWait
            else .dead) .abandoned :=
        { leased := hover.leased
          token := hbtoken
          started := hbstarted
          ended := by split_ifs <;> simp
          finished := by simp
          success := by split_ifs <;> simp
          retry := by
            intro hretry p hp
            rw [hpolicy] at hp
            cases hp
            split_ifs at hretry with hleft
            exact hleft.1
          inTime := by simp }
      dsimp only
      simp only [Discipline.wp_bind]
      have hclosed : reconciledDelivery r policy s₃.now (decide (deadline ≤ s₃.now)) =
          closedDelivery r (if r.attemptsStarted < policy.maxAttempts ∧
            ¬ decide (deadline ≤ s₃.now) = true then .retryWait else .dead) s₃.now s₃.now := rfl
      refine wp_closeLease (Q := Q ()) hp₃ (fun s' henv' => (hover₃.env henv').same) hlease hfinished hclosed hcloses
        ((hbegan.env henv).reporting hnone) (fun c' s' hrep => hrep.raises _)
        fun s₄ henv₄ hp₄ _ hother => ?_
      refine hQ _ s₄ (henv.trans (hgrown.env henv₄)) ?_ hp₄ fun t d hne => ?_
      · intro z hz
        simp [closedCtx, Ctx.change, hgrown.held hz]
      · rw [hother t d hne, hgrown.visible]

/-- The loop of `reconcile_expired`. -/
theorem wp_reconcileLoop {now : Datetime} {rows : List DeliveryRow}
    {Q : Unit → RuntimeCtx → RuntimeStore → Prop} (hp : Pending m sc c s)
    (hover : ∀ r ∈ rows, Overdue c s r)
    (hdistinct : rows.Pairwise fun r r' => r.key ≠ r'.key) (hbegan : Began m x s)
    (hnone : x.op.reportsOn = none)
    (hQ : ∀ c' s', Pending m sc c' s' → Began m x s' → Q () c' s') :
    m.discipline.wp op Q (m.discipline.raises x) (reconcileLoop now rows) c s := by
  induction rows generalizing c s with
  | nil => exact hQ c s hp hbegan
  | cons r rs ih =>
      obtain ⟨hne, hrest⟩ := List.pairwise_cons.mp hdistinct
      simp only [reconcileLoop, Prog.bind_eq, Discipline.wp_bind]
      refine wp_reconcileOne hp (hover r List.mem_cons_self) hbegan hnone ?_
      intro c' s' henv hheld hp' hcell
      refine ih hp' (fun r' hr' => ?_) hrest (hbegan.env henv)
      refine ((hover r' (List.mem_cons_of_mem _ hr')).env henv).other hheld (hcell _ _ ?_)
      rintro ⟨ht, hd⟩
      exact hne r' hr' (by simp [DeliveryRow.key, ht, hd])

end Overdue

theorem reconcileExpired_sound (m : Mode) (now : Datetime) (batchSize : ℤ) :
    OpSound m (.reconcileExpired now batchSize) := by
  intro s hinv hallowed hrelay
  have hbegan := began_begin hallowed hrelay
  simp only [Op.prog, reconcileExpired, positive, Prog.bind_eq, Discipline.wp_bind]
  refine wp_lift (fun _ _ => ?_) (fun e _ => hbegan.raises rfl e)
  refine wp_databaseNow fun s₁ henv₁ => ?_
  refine wp_selectAll fun s₂ rows henv₂ hrows => ?_
  have henv₁₂ := henv₁.trans henv₂.of_tell
  refine wp_lockUpTo (Discipline.Env.refl henv₂.inv henv₂.ids) ?_
  intro locked keys c₃ s₃ henv₃ hgrown₃ _ _ hsub hgranted
  have hwrites : c₃.writes = [] := hgrown₃.writes
  have hvisible : c₃.visible s₃.db = s₃.db := by simp [Ctx.visible, hwrites]
  have hall : List.Forall₂ (fun x r => x = r.key ∧ Overdue c₃ s₃ r) keys locked := by
    refine hgranted.imp fun y r h => ?_
    obtain ⟨hy, hg⟩ := h
    obtain ⟨r₀, -, hkey⟩ := List.mem_map.mp hy
    have hrow : deliveryAt s₃.db r₀.tenantId r₀.deliveryId = some r := by
      have := hg.row
      rwa [hvisible, ← hkey] at this
    obtain ⟨ht, hd⟩ := deliveryAt_key hrow
    have hykey : y = r.key := by rw [← hkey, DeliveryRow.key, DeliveryRow.key, ht, hd]
    rw [← ht, ← hd] at hrow
    have hsat := hg.satisfies
    simp only [DeliveryRow.leaseExpired, decide_eq_true_eq] at hsat
    exact ⟨hykey, by rw [← DeliveryRow.key, ← hykey]; exact hg.held, hrow, by rw [hvisible], hsat.1⟩
  have hdistinct : locked.Pairwise fun r r' => r.key ≠ r'.key := by
    have hpair := pairwise_key_deliveries hrows
    have hsorted := (List.perm_insertionSort
      (fun a b : DeliveryRow => a.leaseExpiresAt.getD 0 ≤ b.leaseExpiresAt.getD 0) _).symm.pairwise
      (hpair.filter (·.leaseExpired s₁.now)) fun hne => hne.symm
    have hkeys := (List.pairwise_map.mpr hsorted).sublist hsub
    rw [forall₂_key (hall.imp fun _ _ h => h.1), List.pairwise_map] at hkeys
    exact hkeys
  refine wp_reconcileLoop (Pending.of_writes_nil hwrites : Pending m {} c₃ s₃)
    (forall₂_right (hall.imp fun _ _ h => h.2)) hdistinct
    ((hbegan.env henv₁₂).env henv₃.of_see) rfl ?_
  intro c' s' hp' hbegan'
  exact returns_silent hp' hbegan' rfl rfl rfl (by simp) (by simp)

end FastapiEffects
