import FastapiEffects.Runtime.Reports

/-! # Claiming

`claim` makes one move of each delivery it locked: it expires it or leases it. What the
query selected is still known under the locks: a locked row is the one the snapshot
showed, or its state was left by a later commit, which is where the mode matters.
-/

namespace FastapiEffects

open Python ReadCommitted

variable [Platform]

/-! ## Locking in order -/

/-- A row that was locked without waiting. -/
structure Granted {α : Type} (m : Mode) (op : Op) (kind : Row → Option α) (condition : α → Bool)
    (c : RuntimeCtx) (s : RuntimeStore) (x : Key) (r : α) : Prop where
  held : x ∈ c.held
  row : ((c.visible s.db).get x).bind kind = some r
  satisfies : condition r = true
  guard : m.fenced → claimGuard op c.seen x (s.db.get x)

section Granted

variable {α : Type} {m : Mode} {op : Op} {kind : Row → Option α} {condition : α → Bool}
  {c c' : RuntimeCtx} {s s' : RuntimeStore} {x : Key} {r : α}
  {E : PyError → RuntimeCtx → RuntimeStore → Prop}

theorem Granted.env (h : Granted m op kind condition c s x r) (henv : m.discipline.Env c s s') :
    Granted m op kind condition c s' x r where
  held := h.held
  row := by rw [henv.visible_get h.held, h.row]
  satisfies := h.satisfies
  guard := by
    rw [henv.rows x h.held]
    exact h.guard

theorem Granted.grown (h : Granted m op kind condition c s x r) (hgrown : Grown c c')
    (hseen : c'.seen = c.seen) : Granted m op kind condition c' s x r where
  held := hgrown.held h.held
  row := by rw [hgrown.visible, h.row]
  satisfies := h.satisfies
  guard := hseen ▸ h.guard

omit [Platform] in
theorem seen_holdRow (c : RuntimeCtx) (x : Key) (r : Option Row) :
    (c.holdRow x r).seen = c.seen := by
  cases r <;> rfl

omit [Platform] in
theorem clocks_holdRow (c : RuntimeCtx) (x : Key) (r : Option Row) :
    (c.holdRow x r).clocks = c.clocks := by
  cases r <;> rfl

/-- `lockUpTo`: rows under some of the keys, in their order. -/
theorem wp_lockUpTo {n : ℕ} {keys : List Key} {Q : List α → RuntimeCtx → RuntimeStore → Prop}
    (hself : m.discipline.Env c s s)
    (hQ : ∀ rs xs c' s', m.discipline.Env c s s' → Grown c c' → c'.seen = c.seen →
      c'.clocks = c.clocks → xs.Sublist keys →
      List.Forall₂ (fun x r => x ∈ keys ∧ Granted m op kind condition c' s' x r) xs rs →
      Q rs c' s') :
    m.discipline.wp op Q E (lockUpTo kind condition n keys) c s := by
  induction keys generalizing n c s Q with
  | nil =>
      have hnil := hQ [] [] c s hself (Grown.refl c) rfl rfl (List.Sublist.refl _) .nil
      cases n <;> exact hnil
  | cons x xs ih =>
      cases n with
      | zero => exact hQ [] [] c s hself (Grown.refl c) rfl rfl (List.nil_sublist _) .nil
      | succ n =>
          simp only [lockUpTo, Prog.bind_eq, Discipline.wp_bind]
          -- going on with the keys that are left
          have hrest : ∀ n c₁ s₁, m.discipline.Env c s s₁ → Grown c c₁ → c₁.seen = c.seen →
              c₁.clocks = c.clocks → m.discipline.wp op Q E (lockUpTo kind condition n xs) c₁ s₁ := by
            intro n c₁ s₁ henv₁ hgrown₁ hseen₁ hclocks₁
            refine ih (Discipline.Env.refl henv₁.inv (hgrown₁.ids ▸ henv₁.ids)) ?_
            intro rs ys c₂ s₂ henv₂ hgrown₂ hseen₂ hclocks₂ hsub hgranted
            exact hQ rs ys c₂ s₂ (henv₁.trans (hgrown₁.env henv₂)) (hgrown₁.trans hgrown₂)
              (hseen₂.trans hseen₁) (hclocks₂.trans hclocks₁) (hsub.cons x)
              (hgranted.imp fun _ _ h => ⟨List.mem_cons_of_mem x h.1, h.2⟩)
          refine wp_selectSkipLocked (fun s₁ henv₁ => hrest _ _ s₁ henv₁ (Grown.refl c) rfl rfl) ?_
          intro s₁ henv₁ hguard
          have hgrown₁ := Grown.holdRow c x ((c.visible s₁.db).get x)
          have hseen₁ := seen_holdRow c x ((c.visible s₁.db).get x)
          have hclocks₁ := clocks_holdRow c x ((c.visible s₁.db).get x)
          cases hr : ((c.visible s₁.db).get x).bind kind with
          | none => exact hrest _ _ s₁ henv₁ hgrown₁ hseen₁ hclocks₁
          | some r =>
              dsimp only
              split_ifs with hcond
              · -- the row is taken
                have hgranted : Granted m op kind condition
                    (c.holdRow x ((c.visible s₁.db).get x)) s₁ x r := by
                  obtain ⟨row, hrow, -⟩ := Option.bind_eq_some_iff.mp hr
                  refine ⟨?_, by rw [hgrown₁.visible, hr], hcond, fun hf => hseen₁ ▸ hguard hf⟩
                  rw [hrow]
                  exact List.mem_cons_self
                simp only [Discipline.wp_bind]
                refine ih (Discipline.Env.refl henv₁.inv (hgrown₁.ids ▸ henv₁.ids)) ?_
                intro rs ys c₂ s₂ henv₂ hgrown₂ hseen₂ hclocks₂ hsub hall
                exact hQ (r :: rs) (x :: ys) c₂ s₂ (henv₁.trans (hgrown₁.env henv₂))
                  (hgrown₁.trans hgrown₂) (hseen₂.trans hseen₁) (hclocks₂.trans hclocks₁)
                  (hsub.cons_cons x)
                  (.cons ⟨List.mem_cons_self, (hgranted.env henv₂).grown hgrown₂ hseen₂⟩
                    (hall.imp fun _ _ h => ⟨List.mem_cons_of_mem x h.1, h.2⟩))
              · exact hrest _ _ s₁ henv₁ hgrown₁ hseen₁ hclocks₁

end Granted

/-! ## The query -/

section Query

omit [Platform]

theorem withinRank_sublist (perTenant : ℕ) (earlier : List UUID) (rows : List DeliveryRow) :
    (withinRank perTenant earlier rows).Sublist rows := by
  induction rows generalizing earlier with
  | nil => exact List.Sublist.refl _
  | cons r rs ih =>
      simp only [withinRank]
      split_ifs
      · exact (ih _).cons_cons r
      · exact (ih _).cons r

/-- What the query selects waits and is due. -/
theorem mem_claimCandidates {t : Datetime} {perTenant : ℕ} {rows : List DeliveryRow}
    {r : DeliveryRow} (h : r ∈ claimCandidates t perTenant rows) :
    r ∈ rows ∧ r.claimable = true ∧ r.nextAttemptAt ≤ t := by
  unfold claimCandidates at h
  rw [List.mem_insertionSort] at h
  have hsub := (withinRank_sublist _ _ _).subset h
  rw [List.mem_insertionSort] at hsub
  simpa using List.mem_filter.mp hsub

/-- The rows of a table are told apart by their keys. -/
theorem pairwise_key_filterMap {α : Type} {kind : Row → Option α} {key : α → Key}
    (hkey : ∀ row a, kind row = some a → row.key = key a) {db : Db} {rows : List Row}
    (hperm : rows.Perm db.rows) : (rows.filterMap kind).Pairwise fun a b => key a ≠ key b := by
  have hnodup : (rows.map Row.key).Nodup := (hperm.map Row.key).nodup_iff.mpr db.nodup
  rw [List.Nodup, List.pairwise_map] at hnodup
  rw [List.pairwise_filterMap]
  refine hnodup.imp fun {row row'} hne a ha b hb => ?_
  rw [← hkey row a ha, ← hkey row' b hb]
  exact hne

/-- So are the deliveries. -/
theorem pairwise_key_deliveries {db : Db} {rows : List Row} (hperm : rows.Perm db.rows) :
    (rows.filterMap Row.delivery?).Pairwise fun r r' => r.key ≠ r'.key := by
  refine pairwise_key_filterMap (fun row r h => ?_) hperm
  cases row <;> simp [Row.delivery?] at h
  subst h
  rfl

theorem pairwise_claimCandidates (t : Datetime) (perTenant : ℕ) {rows : List DeliveryRow}
    (h : rows.Pairwise fun r r' => r.key ≠ r'.key) :
    (claimCandidates t perTenant rows).Pairwise fun r r' => r.key ≠ r'.key := by
  have hsymm : Std.Symm fun r r' : DeliveryRow => r.key ≠ r'.key := ⟨fun _ _ hne => hne.symm⟩
  have hsort : ∀ (le : DeliveryRow → DeliveryRow → Prop) [DecidableRel le] {l : List DeliveryRow},
      (l.Pairwise fun r r' => r.key ≠ r'.key) →
      (l.insertionSort le).Pairwise fun r r' => r.key ≠ r'.key :=
    fun le _ l hl => (List.perm_insertionSort le l).symm.pairwise hl fun hne => hne.symm
  unfold claimCandidates
  exact hsort _ ((hsort _ (h.filter _)).sublist (withinRank_sublist _ _ _))

end Query

/-! ## One delivery -/

/-- A locked delivery the loop has not come to yet, as committed. -/
structure Candidate (m : Mode) (τ : Datetime) (c : RuntimeCtx) (s : RuntimeStore)
    (r : DeliveryRow) : Prop where
  held : .delivery r.tenantId r.deliveryId ∈ c.held
  row : deliveryAt s.db r.tenantId r.deliveryId = some r
  same : cellAt (c.visible s.db) r.tenantId r.deliveryId = cellAt s.db r.tenantId r.deliveryId
  fence : m.fenced → r.claimable = true
  created : r.createdAt ≤ τ
  inv : (cellAt s.db r.tenantId r.deliveryId).Inv m.fenced τ

/-- A claim the loop has made. -/
structure LeasedClaim (c : RuntimeCtx) (s : RuntimeStore) (cd : ClaimedDelivery) : Prop where
  held : .delivery cd.delivery.tenantId cd.delivery.deliveryId ∈ c.held
  leases : Leases s.db (c.visible s.db) cd

section Loop

variable {m : Mode} {sc : Scope} {op : Op} {x : RuntimeTxn} {c c' : RuntimeCtx}
  {s s' : RuntimeStore} {r : DeliveryRow} {cd : ClaimedDelivery} {τ : Datetime}

theorem Candidate.env (h : Candidate m τ c s r) (henv : m.discipline.Env c s s') :
    Candidate m τ c s' r := by
  have hcell : cellAt s'.db r.tenantId r.deliveryId = cellAt s.db r.tenantId r.deliveryId :=
    henv.rely _ h.held
  have hvisible : cellAt (c.visible s'.db) r.tenantId r.deliveryId =
      cellAt (c.visible s.db) r.tenantId r.deliveryId := cellAt_install_congr hcell c.writes
  refine ⟨h.held, ?_, ?_, h.fence, h.created, hcell ▸ h.inv⟩
  · exact (congrArg Cell.delivery hcell).trans h.row
  · rw [hvisible, hcell, h.same]

/-- Changes of other deliveries leave a candidate alone. -/
theorem Candidate.other (h : Candidate m τ c s r) (hheld : c.held ⊆ c'.held)
    (hcell : cellAt (c'.visible s.db) r.tenantId r.deliveryId =
      cellAt (c.visible s.db) r.tenantId r.deliveryId) : Candidate m τ c' s r :=
  { h with held := hheld h.held, same := hcell.trans h.same }

/-- What is known of a candidate is known of its machine. -/
theorem Candidate.live (h : Candidate m τ c s r) :
    Live m.fenced τ r (cellAt s.db r.tenantId r.deliveryId).attempts := by
  have hinv := h.inv
  have hrow : (cellAt s.db r.tenantId r.deliveryId).delivery = some r := h.row
  rwa [Cell.Inv, hrow] at hinv

theorem LeasedClaim.env (h : LeasedClaim c s cd) (henv : m.discipline.Env c s s') :
    LeasedClaim c s' cd := by
  have hcell : cd.cell s'.db = cd.cell s.db := henv.rely _ h.held
  have hvisible : cd.cell (c.visible s'.db) = cd.cell (c.visible s.db) :=
    cellAt_install_congr hcell c.writes
  refine ⟨h.held, ?_, ?_, ?_⟩
  · rw [hvisible]
    exact h.leases.handed
  · rw [hcell]
    exact h.leases.fresh
  · rw [hvisible]
    exact h.leases.snapshot

theorem LeasedClaim.other (h : LeasedClaim c s cd) (hheld : c.held ⊆ c'.held)
    (hcell : cd.cell (c'.visible s.db) = cd.cell (c.visible s.db)) : LeasedClaim c' s cd := by
  refine ⟨hheld h.held, ?_, h.leases.fresh, ?_⟩
  · rw [hcell]
    exact h.leases.handed
  · rw [hcell]
    exact h.leases.snapshot

/-- A claim is not of a delivery that is still to come. -/
theorem LeasedClaim.ne_candidate (h : LeasedClaim c s cd) (hcand : Candidate m τ c s r) :
    ¬ (cd.delivery.tenantId = r.tenantId ∧ cd.delivery.deliveryId = r.deliveryId) := by
  rintro ⟨ht, hd⟩
  obtain ⟨_, a, -, ha, -⟩ := h.leases.handed.rows
  have hsame : cd.cell (c.visible s.db) = cd.cell s.db := by
    rw [ClaimedDelivery.cell, ClaimedDelivery.cell, ht, hd, hcand.same]
  rw [hsame, h.leases.fresh] at ha
  cases ha

/-- A candidate whose deadline has passed is expired. -/
theorem wp_expire {Q : Unit → RuntimeCtx → RuntimeStore → Prop} (hp : Pending m sc c s)
    (hcand : Candidate m τ c s r) (hτ : τ ≤ s.now) (hbegan : Began m x s)
    (hnone : x.op.reportsOn = none)
    (hQ : ∀ c' s', m.discipline.Env c s s' → c.held ⊆ c'.held → c'.ids = c.ids →
      Pending m sc c' s' → (∀ t d, ¬ (t = r.tenantId ∧ d = r.deliveryId) →
        cellAt (c'.visible s'.db) t d = cellAt (c.visible s'.db) t d) → Q () c' s') :
    m.discipline.wp op Q (m.discipline.raises x)
      (updateRow (expiredDelivery r τ).checks (.delivery (expiredDelivery r τ))) c s := by
  refine wp_updateRow (fun hchecks s₁ henv₁ => ?_) (hbegan.raises hnone _)
  have hcand₁ := hcand.env henv₁
  have hvisible : deliveryAt (c.visible s₁.db) r.tenantId r.deliveryId = some r :=
    (congrArg Cell.delivery hcand₁.same).trans hcand₁.row
  have hcell : cellAt s₁.db r.tenantId r.deliveryId =
      ⟨some r, (cellAt s₁.db r.tenantId r.deliveryId).attempts⟩ := Cell.ext hcand₁.row rfl
  -- the table's checks refuse an expired delivery that keeps a lease
  have hunleased : r.state ≠ .leased := by
    intro hleased
    have hlive := hcand₁.live
    have htoken := hlive.leased.mp hleased
    have hexpiry := hlive.paired.symm.trans htoken
    simp [DeliveryRow.checks, expiredDelivery, htoken, hexpiry] at hchecks
  have hrows : ∀ row ∈ [Row.delivery (expiredDelivery r τ)],
      row.key ∈ (c.change (.put (.delivery (expiredDelivery r τ)))).held ∧
        row.cell = some (r.tenantId, r.deliveryId) ∧ row.Replaces (c.visible s₁.db) := by
    intro row hrow
    rw [List.mem_singleton.mp hrow]
    exact ⟨by simp [Ctx.change, Write.target, Schema.key], rfl,
      Or.inr ⟨.delivery r, deliveryAt_eq_some.mp hvisible, rfl⟩⟩
  refine ⟨⟨.delivery r, deliveryAt_eq_some.mp hvisible, rfl⟩,
    hQ _ s₁ henv₁ (List.subset_cons_self _ _) rfl ?_ ?_⟩
  · refine (hp.env henv₁).cellStep [.delivery (expiredDelivery r τ)] rfl
      (List.subset_cons_self _ _) (List.Subset.refl _) hrows
      (List.mem_cons_of_mem _ hcand.held) hcand₁.same (hτ.trans henv₁.time) hcand₁.inv ?_
    have hmove := Cell.Step.expire
      (m := sc.moves m (c.change (.put (.delivery (expiredDelivery r τ)))) r.tenantId) r
      (cellAt s₁.db r.tenantId r.deliveryId).attempts hcand.fence hunleased hcand.created
    rw [← hcell] at hmove
    simpa [Cell.change, expiredDelivery] using hmove
  · intro t d hne
    exact Pending.cell_other [.delivery (expiredDelivery r τ)] rfl
      (fun row hrow => (hrows row hrow).2) hne

/-- The context after a delivery was leased. -/
def leasedCtx (c : RuntimeCtx) (token id : UUID) (r : DeliveryRow) (a : AttemptRow) : RuntimeCtx :=
  (((c.mint token).mint id).change (.put (.delivery r))).insert (.attempt a)

section LeasedCtx

variable {token id : UUID} {expiry : Datetime}

theorem leasedCtx_rows (hcand : Candidate m τ c s r)
    (hfree : (c.visible s.db).get (.attempt r.tenantId id) = none) :
    ∀ row ∈ [Row.delivery (leasedDelivery r token expiry τ), .attempt (startedAttempt r id token τ)],
      row.key ∈ (leasedCtx c token id (leasedDelivery r token expiry τ)
        (startedAttempt r id token τ)).held ∧
      row.cell = some (r.tenantId, r.deliveryId) ∧ row.Replaces (c.visible s.db) := by
  have hvisible : deliveryAt (c.visible s.db) r.tenantId r.deliveryId = some r :=
    (congrArg Cell.delivery hcand.same).trans hcand.row
  intro row hrow
  simp only [List.mem_cons, List.not_mem_nil, or_false] at hrow
  rcases hrow with rfl | rfl
  · exact ⟨by simp [leasedCtx, Ctx.insert, Ctx.change, Write.target, Schema.key], rfl,
      Or.inr ⟨.delivery r, deliveryAt_eq_some.mp hvisible, rfl⟩⟩
  · exact ⟨by simp [leasedCtx, Ctx.insert, Ctx.change, Write.target, Schema.key], rfl,
      Or.inl hfree⟩

omit [Platform] in
/-- What leasing makes of the cell. -/
theorem leasedRows_move (k : Cell) :
    ([Row.delivery (leasedDelivery r token expiry τ),
      .attempt (startedAttempt r id token τ)].map Write.put).foldl
      (Cell.change r.tenantId r.deliveryId) k =
      ⟨some (leasedDelivery r token expiry τ),
        Function.update k.attempts id (some (startedAttempt r id token τ))⟩ := by
  simp [Cell.change, leasedDelivery, startedAttempt]

omit [Platform] in
theorem leasedCtx_writes (c : RuntimeCtx) (r' : DeliveryRow) (a : AttemptRow) :
    (leasedCtx c token id r' a).writes = c.writes ++ [Row.delivery r', .attempt a].map .put := by
  simp [leasedCtx, Ctx.insert, Ctx.change, Ctx.mint]

omit [Platform] in
theorem leasedCtx_held (token id : UUID) (c : RuntimeCtx) (r' : DeliveryRow) (a : AttemptRow) :
    c.held ⊆ (leasedCtx c token id r' a).held :=
  fun y hy => by simp [leasedCtx, Ctx.insert, Ctx.change, Ctx.mint, hy]

/-- Leasing a candidate under a token nobody used. -/
theorem Pending.lease (hp : Pending m sc c s) (expiry : Datetime) (hcand : Candidate m τ c s r) (hτ : τ ≤ s.now)
    (hfree : (c.visible s.db).get (.attempt r.tenantId id) = none)
    (hunused : token ∉ tokens s.db s.log) :
    Pending m sc (leasedCtx c token id (leasedDelivery r token expiry τ)
      (startedAttempt r id token τ)) s := by
  have hid : (cellAt s.db r.tenantId r.deliveryId).attempts id = none := by
    rw [← hcand.same]
    simp [cellAt, attemptAt_eq_none.mpr hfree]
  have hnew : ∀ i a, (cellAt s.db r.tenantId r.deliveryId).attempts i = some a →
      a.leaseToken ≠ token := fun i a ha heq =>
    hunused (Or.inl ⟨r.tenantId, i, a, (cellAt_attempts.mp ha).1, heq⟩)
  have hcell : cellAt s.db r.tenantId r.deliveryId =
      ⟨some r, (cellAt s.db r.tenantId r.deliveryId).attempts⟩ := Cell.ext hcand.row rfl
  have hheld := leasedCtx_held token id c (leasedDelivery r token expiry τ)
    (startedAttempt r id token τ)
  refine hp.cellStep _ (leasedCtx_writes _ _ _) hheld ?_ (leasedCtx_rows hcand hfree)
    (hheld hcand.held) hcand.same hτ hcand.inv ?_
  · intro k hk
    simp [leasedCtx, Ctx.insert, Ctx.change, Ctx.mint, hk]
  · rw [leasedRows_move]
    have hlease := Cell.Step.lease (m := sc.moves m (leasedCtx c token id
      (leasedDelivery r token expiry τ) (startedAttempt r id token τ)) r.tenantId) r
      (cellAt s.db r.tenantId r.deliveryId).attempts id token expiry hcand.fence hcand.created
      hid (by simp [Scope.moves, leasedCtx, Ctx.insert, Ctx.change, Ctx.mint]) hnew
    rwa [← hcell] at hlease

/-- What a lease looks like in the pending changes. -/
theorem cellAt_leasedCtx (token id : UUID) (expiry : Datetime) (hcand : Candidate m τ c s r) :
    cellAt ((leasedCtx c token id (leasedDelivery r token expiry τ)
      (startedAttempt r id token τ)).visible s.db) r.tenantId r.deliveryId =
      ⟨some (leasedDelivery r token expiry τ),
        Function.update (cellAt s.db r.tenantId r.deliveryId).attempts id
          (some (startedAttempt r id token τ))⟩ := by
  rw [← leasedRows_move, Ctx.visible, leasedCtx_writes, Table.install_append, cellAt_install,
    ← hcand.same]
  rfl

/-- The claim made of a lease. -/
theorem leasedClaim_of_rows (event : EventRecord) (hcand : Candidate m τ c s r)
    (hfree : (c.visible s.db).get (.attempt r.tenantId id) = none)
    {delivery : DeliveryRecord} {attempt : AttemptRecord}
    (hdelivery : deliveryFromRow (leasedDelivery r token expiry τ) = .ok delivery)
    (hattempt : attemptFromRow (startedAttempt r id token τ) = .ok attempt) :
    LeasedClaim (leasedCtx c token id (leasedDelivery r token expiry τ)
      (startedAttempt r id token τ)) s ⟨event, delivery, attempt, r.routeSnapshot⟩ := by
  obtain ⟨hd, ht, hcreated, hexpiry⟩ := deliveryFromRow_eq_ok hdelivery
  have ha := attemptFromRow_eq_ok hattempt
  have hid : attempt.attemptId = id := by rw [ha, startedAttempt]
  have htoken : attempt.leaseToken = token := by rw [ha, startedAttempt]
  have hvisible := cellAt_leasedCtx token id expiry hcand
  simp only [leasedDelivery] at hd ht hcreated hexpiry
  have hcellv : ClaimedDelivery.cell ⟨event, delivery, attempt, r.routeSnapshot⟩
      ((leasedCtx c token id (leasedDelivery r token expiry τ)
        (startedAttempt r id token τ)).visible s.db) =
      ⟨some (leasedDelivery r token expiry τ),
        Function.update (cellAt s.db r.tenantId r.deliveryId).attempts id
          (some (startedAttempt r id token τ))⟩ := by
    rw [ClaimedDelivery.cell, hd, ht, hvisible]
  refine ⟨?_, ⟨?_, by simp [hexpiry], ?_⟩, ?_, ?_⟩
  · rw [hd, ht]
    exact leasedCtx_held _ _ _ _ _ hcand.held
  · rw [ht, ha, startedAttempt]
  · rw [hcellv]
    refine ⟨leasedDelivery r token expiry τ, startedAttempt r id token τ, rfl, ?_, htoken.symm, ?_,
      hcreated.symm, fun _ => hexpiry.symm⟩
    · show Function.update _ _ _ attempt.attemptId = _
      rw [hid, Function.update_self]
    · rw [ha]
  · show (cellAt s.db delivery.tenantId delivery.deliveryId).attempts attempt.attemptId = none
    rw [hid, hd, ht, ← hcand.same]
    simp [cellAt, attemptAt_eq_none.mpr hfree]
  · rw [hcellv]
    exact ⟨_, rfl, rfl⟩

end LeasedCtx

/-- A candidate in time is leased. -/
theorem wp_leaseOne {policy : RetryPolicy} {Q : ClaimedDelivery → RuntimeCtx → RuntimeStore → Prop}
    (hp : Pending m sc c s) (hcand : Candidate m τ c s r) (hτ : τ ≤ s.now) (hbegan : Began m x s)
    (hnone : x.op.reportsOn = none)
    (hQ : ∀ cd c' s', m.discipline.Env c s s' → c.held ⊆ c'.held → Pending m sc c' s' →
      LeasedClaim c' s' cd → (∀ t d, ¬ (t = r.tenantId ∧ d = r.deliveryId) →
        cellAt (c'.visible s'.db) t d = cellAt (c.visible s'.db) t d) → Q cd c' s') :
    m.discipline.wp op Q (m.discipline.raises x) (leaseOne r policy τ) c s := by
  simp only [leaseOne, Prog.bind_eq, Discipline.wp_bind]
  refine wp_newUuid fun s₁ token henv₁ htoken => wp_newUuid fun s₂ id henv₂ _ => ?_
  have henv₁₂ := henv₁.trans henv₂.of_mint
  have hraise : ∀ e c', m.discipline.raises x e c' s₂ :=
    fun e c' => (hbegan.env henv₁₂).raises hnone e
  refine wp_lift (fun expiry _ => ?_) (fun e _ => hraise e _)
  refine wp_checkInteger (fun _ => ?_) (hraise _ _)
  refine wp_updateRow (fun _ s₃ henv₃ => ?_) (hraise _ _)
  have henv₁₃ := henv₁₂.trans henv₃.of_mint.of_mint
  have hcand₃ := hcand.env henv₁₃
  have hvisible₃ : deliveryAt (c.visible s₃.db) r.tenantId r.deliveryId = some r :=
    (congrArg Cell.delivery hcand₃.same).trans hcand₃.row
  refine ⟨⟨.delivery r, deliveryAt_eq_some.mp hvisible₃, rfl⟩, ?_⟩
  refine wp_insertRow (fun _ s₄ henv₄ hnew => ?_)
    (fun s₄ henv₄ => ((hbegan.env henv₁₃).env henv₄.of_change.of_mint.of_mint).raises hnone _)
    ((hbegan.env henv₁₃).raises hnone _)
  have henv₁₄ := henv₁₃.trans henv₄.of_change.of_mint.of_mint
  have hcand₄ := hcand.env henv₁₄
  -- the key of the attempt is free
  have hfree : (c.visible s₄.db).get (.attempt r.tenantId id) = none := by
    have hne : (Row.delivery (leasedDelivery r token expiry τ)).key ≠
      .attempt r.tenantId id := by simp [Row.key]
    rw [← Pending.get_put_of_ne hne]
    simpa [Ctx.visible, Ctx.change, Ctx.mint, Row.key, startedAttempt] using hnew
  have hp₄ := (hp.env henv₁₄).lease expiry hcand₄ (hτ.trans henv₁₄.time) hfree
    (henv₄.ids token (by simp [Ctx.change, Ctx.mint]))
  have hheld := leasedCtx_held token id c (leasedDelivery r token expiry τ)
    (startedAttempt r id token τ)
  have hgrow : ∀ {s₅}, m.discipline.Env (leasedCtx c token id (leasedDelivery r token expiry τ)
      (startedAttempt r id token τ)) s₄ s₅ → m.discipline.Env c s₄ s₅ :=
    fun henv => henv.of_insert.of_change.of_mint.of_mint
  refine wp_selectOne fun s₅ henv₅ => ?_
  have henv₁₅ := henv₁₄.trans (hgrow henv₅)
  have hraise₅ : ∀ e c', m.discipline.raises x e c' s₅ :=
    fun e c' => (hbegan.env henv₁₅).raises hnone e
  split
  · exact hraise₅ _ _
  · simp only [Discipline.wp_bind]
    refine wp_lift (fun event _ => ?_) (fun e _ => hraise₅ e _)
    refine wp_lift (fun delivery hdelivery => ?_) (fun e _ => hraise₅ e _)
    refine wp_lift (fun attempt hattempt => ?_) (fun e _ => hraise₅ e _)
    have hclaim := leasedClaim_of_rows event hcand₄ hfree hdelivery hattempt
    refine hQ _ (leasedCtx c token id (leasedDelivery r token expiry τ)
      (startedAttempt r id token τ)) s₅ henv₁₅ hheld (hp₄.env henv₅) (hclaim.env henv₅) ?_
    intro t d hne
    have hfree₅ : (c.visible s₅.db).get (.attempt r.tenantId id) = none := by
      rw [← hfree]
      refine Table.get_install_congr (henv₅.rows _ ?_) c.writes
      simp [Ctx.insert, Ctx.change, Write.target, Schema.key, Row.key, startedAttempt]
    exact Pending.cell_other _ (leasedCtx_writes _ _ _)
      (fun row hrow => (leasedCtx_rows (hcand.env henv₁₅) hfree₅ row hrow).2) hne

/-- The loop of `claim`. -/
theorem wp_claimLoop {batchSize perTenant : ℤ} {candidates : List DeliveryRow}
    {claimed : List ClaimedDelivery} {Q : List ClaimedDelivery → RuntimeCtx → RuntimeStore → Prop}
    (hp : Pending m sc c s) (hcands : ∀ r ∈ candidates, Candidate m τ c s r)
    (hdistinct : candidates.Pairwise fun r r' => r.key ≠ r'.key)
    (hclaimed : ∀ cd ∈ claimed, LeasedClaim c s cd) (hτ : τ ≤ s.now) (hbegan : Began m x s)
    (hnone : x.op.reportsOn = none)
    (hQ : ∀ claimed' c' s', Pending m sc c' s' → (∀ cd ∈ claimed', LeasedClaim c' s' cd) →
      Began m x s' → Q claimed' c' s') :
    m.discipline.wp op Q (m.discipline.raises x)
      (claimLoop τ batchSize perTenant candidates claimed) c s := by
  induction candidates generalizing claimed c s with
  | nil => exact hQ claimed c s hp hclaimed hbegan
  | cons r rs ih =>
      have hcand := hcands r List.mem_cons_self
      obtain ⟨hne, hrest⟩ := List.pairwise_cons.mp hdistinct
      simp only [claimLoop]
      split_ifs
      · exact hQ claimed c s hp hclaimed hbegan
      · exact ih hp (fun r' hr' => hcands r' (List.mem_cons_of_mem _ hr')) hrest hclaimed hτ hbegan
      · simp only [Prog.bind_eq, Discipline.wp_bind]
        refine wp_lift (fun policy _ => ?_) (fun e _ => hbegan.raises hnone e)
        refine wp_lift (fun deadline _ => ?_) (fun e _ => hbegan.raises hnone e)
        -- the other candidates after a move of `r`
        have hothers : ∀ c' s', m.discipline.Env c s s' → c.held ⊆ c'.held →
            (∀ t d, ¬ (t = r.tenantId ∧ d = r.deliveryId) →
              cellAt (c'.visible s'.db) t d = cellAt (c.visible s'.db) t d) →
            ∀ r' ∈ rs, Candidate m τ c' s' r' := by
          intro c' s' henv hheld hcell r' hr'
          refine ((hcands r' (List.mem_cons_of_mem _ hr')).env henv).other hheld (hcell _ _ ?_)
          rintro ⟨ht, hd⟩
          exact hne r' hr' (by simp [DeliveryRow.key, ht, hd])
        have hkept : ∀ c' s', m.discipline.Env c s s' → c.held ⊆ c'.held →
            (∀ t d, ¬ (t = r.tenantId ∧ d = r.deliveryId) →
              cellAt (c'.visible s'.db) t d = cellAt (c.visible s'.db) t d) →
            ∀ cd ∈ claimed, LeasedClaim c' s' cd := by
          intro c' s' henv hheld hcell cd hcd
          have hlease := (hclaimed cd hcd).env henv
          exact hlease.other hheld (hcell _ _ (hlease.ne_candidate (hcand.env henv)))
        split_ifs
        · simp only [Discipline.wp_bind]
          refine wp_expire hp hcand hτ hbegan hnone fun c' s' henv hheld _ hp' hcell => ?_
          exact ih hp' (hothers c' s' henv hheld hcell) hrest (hkept c' s' henv hheld hcell)
            (hτ.trans henv.time) (hbegan.env henv)
        · simp only [Discipline.wp_bind]
          refine wp_leaseOne hp hcand hτ hbegan hnone fun cd c' s' henv hheld hp' hnew hcell => ?_
          refine ih hp' (hothers c' s' henv hheld hcell) hrest ?_ (hτ.trans henv.time)
            (hbegan.env henv)
          intro cd' hcd'
          rcases List.mem_append.mp hcd' with hcd' | hcd'
          · exact hkept c' s' henv hheld hcell cd' hcd'
          · rw [List.mem_singleton.mp hcd']
            exact hnew

omit [Platform] in
/-- Rows listed under their keys. -/
theorem forall₂_key {keys : List Key} {rows : List DeliveryRow}
    (h : List.Forall₂ (fun x r => x = DeliveryRow.key r) keys rows) :
    keys = rows.map DeliveryRow.key := by
  induction h with
  | nil => rfl
  | cons hx _ ih => rw [hx, ih, List.map_cons]

omit [Platform] in
theorem forall₂_right {α β : Type} {p : β → Prop} {as : List α} {bs : List β}
    (h : List.Forall₂ (fun _ b => p b) as bs) : ∀ b ∈ bs, p b := by
  induction h with
  | nil => simp
  | cons hb _ ih => simpa using ⟨hb, ih⟩

/-- A locked row that the query selected is a candidate. -/
theorem candidate_of_granted {now : Datetime} {batchSize perTenant : ℤ} {s₀ : RuntimeStore}
    {rows : List Row} {xk : Key}
    (hop : op = .claim now batchSize perTenant) (hinv₀ : RuntimeInv m s₀)
    (hrows : rows.Perm s₀.db.rows) (hseen : c.seen = s₀.db.rows) (hwrites : c.writes = [])
    (hstay : DeliveriesStay s₀.db s.db) (hτ₀ : s₀.now ≤ τ) (hinv : RuntimeInv m s) (hnow : s.now = τ)
    {due : Datetime} (hdue : due ≤ s₀.now)
    (hx : xk ∈ (claimCandidates due perTenant.toNat (rows.filterMap Row.delivery?)).map
      DeliveryRow.key)
    (hg : Granted m op Row.delivery? (fun _ => true) c s xk r) :
    xk = r.key ∧ Candidate m τ c s r := by
  obtain ⟨r₀, hr₀, hkey⟩ := List.mem_map.mp hx
  obtain ⟨hmem, hclaimable, hnext⟩ := mem_claimCandidates hr₀
  -- the row of the snapshot
  have hstored : Row.delivery r₀ ∈ s₀.db.rows := by
    obtain ⟨row, hrow, heq⟩ := List.mem_filterMap.mp hmem
    cases row <;> simp [Row.delivery?] at heq
    subst heq
    exact hrows.subset hrow
  have hat₀ : deliveryAt s₀.db r₀.tenantId r₀.deliveryId = some r₀ :=
    deliveryAt_eq_some.mpr (Table.mem_iff_get.mp hstored)
  have hlive₀ : Live m.fenced s₀.now r₀ (cellAt s₀.db r₀.tenantId r₀.deliveryId).attempts := by
    have := hinv₀.cells r₀.tenantId r₀.deliveryId
    rwa [Cell.Inv, show (cellAt s₀.db r₀.tenantId r₀.deliveryId).delivery = some r₀ from hat₀]
      at this
  -- the row under the lock
  have hvisible : c.visible s.db = s.db := by simp [Ctx.visible, hwrites]
  have hrow : deliveryAt s.db r₀.tenantId r₀.deliveryId = some r := by
    have := hg.row
    rwa [hvisible, ← hkey] at this
  obtain ⟨ht, hd⟩ := deliveryAt_key hrow
  have hxkey : xk = r.key := by rw [← hkey, DeliveryRow.key, DeliveryRow.key, ht, hd]
  refine ⟨hxkey, ?_⟩
  rw [← ht, ← hd] at hrow
  have hcreated : r.createdAt = r₀.createdAt := by
    obtain ⟨r', hr', hid⟩ := hstay _ _ _ hat₀
    rw [← ht, ← hd, hrow] at hr'
    cases hr'
    show r.identity.createdAt = r₀.identity.createdAt
    rw [hid]
  refine ⟨by rw [← DeliveryRow.key, ← hxkey]; exact hg.held, hrow, by rw [hvisible], ?_, ?_, hnow ▸ hinv.cells _ _⟩
  · intro hf
    have hguard := hg.guard hf
    rw [hop, claimGuard, hseen, hxkey] at hguard
    rcases hguard r (deliveryAt_eq_some.mp hrow) with hmem | hclaim
    · -- the snapshot showed this very row
      have heq := Table.eq_of_key_eq hmem hstored (by
        simp [Schema.key, Row.key, ht, hd])
      cases heq
      exact hclaimable
    · exact hclaim
  · rw [hcreated]
    by_cases hpending : r₀.state = .pending
    · -- a pending delivery is due from its creation on
      rw [← (hlive₀.waiting hpending).2]
      exact (hnext.trans hdue).trans hτ₀
    · exact (hlive₀.created.trans (hlive₀.updated hpending)).trans hτ₀

end Loop

theorem claim_sound (m : Mode) (now : Datetime) (batchSize perTenant : ℤ) :
    OpSound m (.claim now batchSize perTenant) := by
  intro s hinv hallowed hrelay
  have hbegan := began_begin hallowed hrelay
  simp only [Op.prog, claim, positive, Prog.bind_eq, Discipline.wp_bind]
  refine wp_lift (fun _ _ => ?_) (fun e _ => hbegan.raises rfl e)
  refine wp_lift (fun _ _ => ?_) (fun e _ => hbegan.raises rfl e)
  refine wp_databaseNow fun s₁ henv₁ => ?_
  refine wp_selectAll fun s₂ rows henv₂ hrows => ?_
  have henv₁₂ := henv₁.trans henv₂.of_tell
  have hinv₂ : RuntimeInv m s₂ := henv₂.inv
  refine wp_lockUpTo (Discipline.Env.refl henv₂.inv henv₂.ids) ?_
  intro candidates keys c₃ s₃ henv₃ hgrown₃ hseen₃ hclocks₃ hsub hgranted
  refine wp_databaseNow fun s₄ henv₄ => ?_
  have hstay : DeliveriesStay s₂.db s₄.db :=
    m.discipline.grows_trans _ _ _ henv₃.grows henv₄.grows
  have henv₂₄ := henv₃.trans (hgrown₃.env henv₄)
  have hwrites : (c₃.tell s₄.now).writes = [] := hgrown₃.writes
  -- each row that was locked is a candidate, under its own key
  have hall : List.Forall₂ (fun x r => x = r.key ∧ Candidate m s₄.now (c₃.tell s₄.now) s₄ r)
      keys candidates := by
    refine hgranted.imp fun x r h => ?_
    exact candidate_of_granted rfl hinv₂ hrows hseen₃ hwrites hstay henv₂₄.time henv₄.inv rfl
      henv₂.time h.1 ((h.2.env henv₄).grown (Grown.tell c₃ s₄.now) rfl)
  have hdistinct : candidates.Pairwise fun r r' => r.key ≠ r'.key := by
    have hpair := pairwise_claimCandidates s₁.now perTenant.toNat
      (pairwise_key_deliveries hrows)
    have hkeys := (List.pairwise_map.mpr hpair).sublist hsub
    rw [forall₂_key (hall.imp fun _ _ h => h.1), List.pairwise_map] at hkeys
    exact hkeys
  refine wp_claimLoop (Pending.of_writes_nil hwrites : Pending m {} _ s₄)
    (forall₂_right (hall.imp fun _ _ h => h.2)) hdistinct (by simp) (le_refl _)
    ((hbegan.env henv₁₂).env henv₂₄.of_see) rfl ?_
  intro claimed c' s' hp' hclaimed hbegan'
  refine hp'.returns hbegan' fun s₅ henv₅ => ?_
  exact
    { wins := fun _ _ h => h.elim
      new := fun _ h => h.elim
      settles := fun _ _ h => h.elim
      runs := fun _ _ _ _ _ h => h.elim
      prepares := fun _ h => h.elim
      tokens := by simp [executionOf]
      reports :=
        { claims := fun cd hcd => ((hclaimed cd hcd).env henv₅).leases
          executions := by simp [executionOf]
          current := by simp [Txn.begin, Op.reportsOn]
          finalized := by simp [Txn.begin, Op.finalizes]
          completed := by simp [Txn.begin, Op.completes] } }

end FastapiEffects
