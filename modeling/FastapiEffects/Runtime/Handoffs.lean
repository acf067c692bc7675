import FastapiEffects.Runtime.Claim
import FastapiEffects.Runtime.Creation

/-! # The handoffs

The operations of the handoff store keep the discipline. Each locks its handoff first
and then, where it needs them, the rows of the parent attempt; a handoff makes one move
on top of what is committed.
-/

namespace FastapiEffects

open Python ReadCommitted

variable [Platform]

/-! ## A locked handoff -/

/-- A handoff that is locked, as committed. -/
structure LockedHandoff (c : RuntimeCtx) (s : RuntimeStore) (row : HandoffRow) : Prop where
  held : .handoff row.tenantId row.handoffId ∈ c.held
  row : handoffAt s.db row.tenantId row.handoffId = some row

section LockedHandoff

variable {m : Mode} {sc : Scope} {op : Op} {x : RuntimeTxn} {c c' : RuntimeCtx}
  {s s' : RuntimeStore} {row : HandoffRow} {E : PyError → RuntimeCtx → RuntimeStore → Prop}

theorem LockedHandoff.env (h : LockedHandoff c s row) (henv : m.discipline.Env c s s') :
    LockedHandoff c s' row where
  held := h.held
  row := by rw [handoffAt_congr (henv.rows _ h.held), h.row]

theorem LockedHandoff.mono (h : LockedHandoff c s row) (hheld : c.held ⊆ c'.held) :
    LockedHandoff c' s row :=
  ⟨hheld h.held, h.row⟩

/-- A committed handoff is visible, with its identity. -/
theorem Pending.handoff_visible (hp : Pending m sc c s) {t h : UUID}
    (hrow : handoffAt s.db t h = some row) :
    ∃ row', handoffAt (c.visible s.db) t h = some row' ∧ row'.identity = row.identity := by
  obtain ⟨τ, -, hstep⟩ := hp.handoffs_all t h
  rw [hrow] at hstep
  exact hstep.stays

/-- One move of a locked handoff. -/
theorem wp_updateHandoff {row' : HandoffRow} {τ : Datetime}
    {Q : Unit → RuntimeCtx → RuntimeStore → Prop} (hp : Pending m sc c s)
    (hl : LockedHandoff c s row) (hid : row'.identity = row.identity) (hτ : τ ≤ s.now)
    (hstep : HandoffStep (sc.handoffMoves row.tenantId row.handoffId) τ (some row) (some row'))
    (herr : E .integrity c s)
    (hQ : ∀ s', m.discipline.Env c s s' → LockedHandoff c s' row →
      Pending m sc (c.change (.put (.handoff row'))) s' →
      Q () (c.change (.put (.handoff row'))) s') :
    m.discipline.wp op Q E (updateHandoff row') c s := by
  refine wp_updateRow (fun _ s₁ henv₁ => ?_) herr
  have hl₁ := hl.env henv₁
  have hp₁ := hp.env henv₁
  obtain ⟨row₁, hrow₁, hid₁⟩ := hp₁.handoff_visible hl₁.row
  have ht : row'.identity.tenantId = row.identity.tenantId := by rw [hid]
  have hh : row'.identity.handoffId = row.identity.handoffId := by rw [hid]
  simp only [HandoffRow.identity] at ht hh
  have hget : (c.visible s₁.db).get (Row.handoff row').key = some (.handoff row₁) := by
    rw [Row.key, ht, hh]
    exact handoffAt_eq_some.mp hrow₁
  have hsame : (Row.handoff row').identity = (Row.handoff row₁).identity := by
    simp only [Row.identity, hid, hid₁]
  refine ⟨⟨_, hget, hsame⟩, hQ s₁ henv₁ hl₁ ?_⟩
  refine hp₁.handoffStep rfl (List.subset_cons_self _ _) (List.Subset.refl _) List.mem_cons_self
    (Or.inr ⟨_, hget, hsame⟩) (hτ.trans henv₁.time) ?_
  rw [ht, hh, hl₁.row]
  exact hstep

/-- `_locked_for_envelope`. -/
theorem wp_lockedForEnvelope {envelope : HandoffEnvelope}
    {Q : HandoffRow → RuntimeCtx → RuntimeStore → Prop} (hwrites : c.writes = [])
    (herr : ∀ e c' s', m.discipline.Env c s s' → E e c' s')
    (hQ : ∀ row c' s', m.discipline.Env c s s' → Grown c c' → LockedHandoff c' s' row →
      Q row c' s') :
    m.discipline.wp op Q E (lockedForEnvelope envelope) c s := by
  simp only [lockedForEnvelope, Prog.bind_eq, Discipline.wp_bind]
  refine wp_selectForUpdate (fun c₁ s₁ henv _ _ _ => herr _ _ _ henv) ?_
  intro row c₁ s₁ henv₁ hgrown₁ _ hheld hrow
  dsimp only
  split_ifs
  · refine hQ row c₁ s₁ henv₁ hgrown₁ ?_
    have hat : handoffAt s₁.db envelope.tenantId envelope.handoffId = some row := by
      have hvisible : c₁.visible s₁.db = s₁.db := by simp [Ctx.visible, hgrown₁.writes, hwrites]
      rw [← hvisible]
      exact hrow
    obtain ⟨ht, hh⟩ := handoffAt_key hat
    exact ⟨by rw [ht, hh]; exact hheld, by rw [ht, hh]; exact hat⟩
  · exact herr _ _ _ henv₁

/-- `_locked_execution`. -/
theorem wp_lockedExecution {ex : ExecutingHandoff} {Q : HandoffRow → RuntimeCtx → RuntimeStore → Prop}
    (hwrites : c.writes = []) (herr : ∀ e c' s', m.discipline.Env c s s' → E e c' s')
    (hQ : ∀ row c' s', m.discipline.Env c s s' → Grown c c' → c'.clocks = c.clocks →
      LockedHandoff c' s' row → row.tenantId = ex.record.tenantId →
      row.handoffId = ex.record.handoffId → row.state = .executing →
      row.executionToken = some ex.executionToken → Q row c' s') :
    m.discipline.wp op Q E (lockedExecution ex) c s := by
  simp only [lockedExecution, Prog.bind_eq, Discipline.wp_bind]
  refine wp_selectForUpdate (fun c₁ s₁ henv _ _ _ => herr _ _ _ henv) ?_
  intro row c₁ s₁ henv₁ hgrown₁ hclocks₁ hheld hrow
  dsimp only
  split_ifs with hexecuting
  · have hat : handoffAt s₁.db ex.record.tenantId ex.record.handoffId = some row := by
      have hvisible : c₁.visible s₁.db = s₁.db := by simp [Ctx.visible, hgrown₁.writes, hwrites]
      rw [← hvisible]
      exact hrow
    obtain ⟨ht, hh⟩ := handoffAt_key hat
    exact hQ row c₁ s₁ henv₁ hgrown₁ hclocks₁ ⟨by rw [ht, hh]; exact hheld, by rw [ht, hh]; exact hat⟩
      ht hh hexecuting.1 hexecuting.2
  · exact herr _ _ _ henv₁

end LockedHandoff

/-! ## The claim behind a handoff -/

/-- What `_claim_for_row` found: both rows of the parent attempt, locked. -/
structure ClaimFor (c : RuntimeCtx) (s : RuntimeStore) (row : HandoffRow) (cd : ClaimedDelivery)
    (r : DeliveryRow) (a : AttemptRow) : Prop where
  heldDelivery : .delivery row.tenantId row.deliveryId ∈ c.held
  heldAttempt : .attempt row.tenantId row.attemptId ∈ c.held
  delivery : deliveryAt (c.visible s.db) row.tenantId row.deliveryId = some r
  attempt : attemptAt (c.visible s.db) row.tenantId row.attemptId = some a
  leased : r.state = .leased
  home : a.deliveryId = row.deliveryId
  token : r.leaseToken = some a.leaseToken
  started : a.outcome = .started
  deliveryId : cd.delivery.deliveryId = row.deliveryId
  tenantId : cd.delivery.tenantId = row.tenantId
  createdAt : cd.delivery.createdAt = r.createdAt
  leaseExpiresAt : cd.delivery.leaseExpiresAt = r.leaseExpiresAt
  record : cd.attempt.toAttemptRecordArgs = a
  snapshot : cd.routeSnapshot = row.routeSnapshot

section ClaimFor

variable {m : Mode} {sc : Scope} {op : Op} {x : RuntimeTxn} {c c' : RuntimeCtx}
  {s s' : RuntimeStore} {row : HandoffRow} {cd : ClaimedDelivery} {r : DeliveryRow}
  {a : AttemptRow} {E : PyError → RuntimeCtx → RuntimeStore → Prop}

/-- `_claim_for_row`: it changes nothing. -/
theorem wp_claimForRow {Q : ClaimedDelivery → RuntimeCtx → RuntimeStore → Prop}
    (herr : ∀ e c' s', m.discipline.Env c s s' → Grown c c' → E e c' s')
    (hQ : ∀ cd r a c' s', m.discipline.Env c s s' → Grown c c' → ClaimFor c' s' row cd r a →
      Q cd c' s') :
    m.discipline.wp op Q E (claimForRow row) c s := by
  simp only [claimForRow, Prog.bind_eq, Discipline.wp_bind]
  -- the second lock is taken whatever the first one found
  refine wp_selectForUpdate ?_ ?_
  · intro c₁ s₁ henv₁ hgrown₁ _ _
    refine wp_selectForUpdate ?_ ?_
    · intro c₂ s₂ henv₂ hgrown₂ _ _
      exact herr _ _ _ (henv₁.trans (hgrown₁.env henv₂)) (hgrown₁.trans hgrown₂)
    · intro a c₂ s₂ henv₂ hgrown₂ _ _ _
      exact herr _ _ _ (henv₁.trans (hgrown₁.env henv₂)) (hgrown₁.trans hgrown₂)
  intro r c₁ s₁ henv₁ hgrown₁ _ hheld₁ hr
  refine wp_selectForUpdate ?_ ?_
  · intro c₂ s₂ henv₂ hgrown₂ _ _
    exact herr _ _ _ (henv₁.trans (hgrown₁.env henv₂)) (hgrown₁.trans hgrown₂)
  intro a c₂ s₂ henv₂ hgrown₂ _ hheld₂ ha
  have henv₁₂ := henv₁.trans (hgrown₁.env henv₂)
  have hgrown₁₂ := hgrown₁.trans hgrown₂
  dsimp only
  split_ifs with hstale
  · exact herr _ _ _ henv₁₂ hgrown₁₂
  simp only [not_or, not_not] at hstale
  obtain ⟨hleased, hhome, htoken, hstarted⟩ := hstale
  simp only [Discipline.wp_bind]
  refine wp_selectOne fun s₃ henv₃ => ?_
  have henv₁₃ := henv₁₂.trans (hgrown₁₂.env henv₃)
  split
  · exact herr _ _ _ henv₁₃ hgrown₁₂
  · simp only [Discipline.wp_bind]
    refine wp_lift (fun event _ => ?_) (fun e _ => herr _ _ _ henv₁₃ hgrown₁₂)
    refine wp_lift (fun delivery hdelivery => ?_) (fun e _ => herr _ _ _ henv₁₃ hgrown₁₂)
    refine wp_lift (fun attempt hattempt => ?_) (fun e _ => herr _ _ _ henv₁₃ hgrown₁₂)
    have hr₁ : deliveryAt (c₁.visible s₁.db) row.tenantId row.deliveryId = some r := hr
    have ha₂ : attemptAt (c₂.visible s₂.db) row.tenantId row.attemptId = some a := ha
    have hr₂ : deliveryAt (c₂.visible s₂.db) row.tenantId row.deliveryId = some r := by
      rw [hgrown₂.visible, deliveryAt_env henv₂ hheld₁, hr₁]
    obtain ⟨hd, ht, hcreated, hexpiry⟩ := deliveryFromRow_eq_ok hdelivery
    obtain ⟨hrt, hrd⟩ := deliveryAt_key hr₁
    refine hQ _ r a c₂ s₃ henv₁₃ hgrown₁₂ ?_
    exact
      { heldDelivery := hgrown₂.held hheld₁
        heldAttempt := hheld₂
        delivery := (deliveryAt_env henv₃ (hgrown₂.held hheld₁)).trans hr₂
        attempt := (attemptAt_env henv₃ hheld₂).trans ha₂
        leased := hleased
        home := hhome
        token := htoken
        started := hstarted
        deliveryId := hd.trans hrd
        tenantId := ht.trans hrt
        createdAt := hcreated
        leaseExpiresAt := hexpiry
        record := attemptFromRow_eq_ok hattempt
        snapshot := rfl }

theorem ClaimFor.env (h : ClaimFor c s row cd r a) (henv : m.discipline.Env c s s') :
    ClaimFor c s' row cd r a :=
  { h with
    delivery := (deliveryAt_env henv h.heldDelivery).trans h.delivery
    attempt := (attemptAt_env henv h.heldAttempt).trans h.attempt }

theorem ClaimFor.grown (h : ClaimFor c s row cd r a) (hgrown : Grown c c') :
    ClaimFor c' s row cd r a :=
  { h with
    heldDelivery := hgrown.held h.heldDelivery
    heldAttempt := hgrown.held h.heldAttempt
    delivery := by rw [hgrown.visible, h.delivery]
    attempt := by rw [hgrown.visible, h.attempt] }

/-- The claim's attempt is the handoff's. -/
theorem ClaimFor.attemptKey (h : ClaimFor c s row cd r a) :
    cd.attempt.tenantId = row.tenantId ∧ cd.attempt.attemptId = row.attemptId := by
  rw [h.record]
  exact attemptAt_key h.attempt

/-- The claim behind a handoff may be finalized. -/
theorem ClaimFor.finalizable (h : ClaimFor c s row cd r a) (hp : Pending m sc c s)
    (hids : c.ids = []) (hbegan : Began m x s) (hnone : x.op.reportsOn = none) :
    Finalizable m sc cd x c s where
  pending := hp
  ids := hids
  home := by
    intro c' s' b henv hgrown hb
    obtain ⟨ht, hi⟩ := h.attemptKey
    rw [hgrown.visible, ht, hi, attemptAt_env henv h.heldAttempt, h.attempt] at hb
    cases hb
    exact ⟨ht.trans h.tenantId.symm, h.home.trans h.deliveryId.symm⟩
  began := hbegan
  reports := fun cd' hcd' => by rw [hnone] at hcd'; cases hcd'

end ClaimFor

/-! ## Failing a handoff -/

section Failing

variable {m : Mode} {sc : Scope} {op : Op} {x : RuntimeTxn} {c c' : RuntimeCtx}
  {s s' : RuntimeStore} {row : HandoffRow} {cd : ClaimedDelivery} {r : DeliveryRow}
  {a : AttemptRow} {E : PyError → RuntimeCtx → RuntimeStore → Prop}

omit [Platform] in
/-- `_set_failed` settles an open handoff, never in success. -/
theorem settle_setFailed (hm : HandoffMoves) (hopen : row.isOpen = true) (outcome : DeliveryState)
    (τ : Datetime) (code summary : Str) :
    HandoffStep hm τ (some row) (some (setFailed row outcome τ code summary)) := by
  refine .settle row (if outcome = .retryWait then .retryWait else .dead) (some code) (some summary)
    hopen ?_ ?_ <;> split_ifs <;> simp

/-- `_set_failed` and its update. -/
theorem wp_setFailed {outcome : DeliveryState} {τ : Datetime} {code summary : Str}
    {Q : Unit → RuntimeCtx → RuntimeStore → Prop} (hp : Pending m sc c s)
    (hl : LockedHandoff c s row) (hopen : row.isOpen = true) (hτ : τ ≤ s.now)
    (herr : E .integrity c s)
    (hQ : ∀ s', m.discipline.Env c s s' → LockedHandoff c s' row →
      Pending m sc (c.change (.put (.handoff (setFailed row outcome τ code summary)))) s' →
      Q () (c.change (.put (.handoff (setFailed row outcome τ code summary)))) s') :
    m.discipline.wp op Q E (updateHandoff (setFailed row outcome τ code summary)) c s :=
  wp_updateHandoff hp hl rfl hτ (settle_setFailed _ hopen outcome τ code summary) herr hQ

/-- `fail_in_transaction` on the claim behind a handoff, in a transaction that reports on
no claim of its own. -/
theorem wp_failFor {error : DeliveryError} {now : Datetime} {after : Option Timedelta}
    {uniform : ℚ → ℚ → PyFloat} {Q : DeliveryState → RuntimeCtx → RuntimeStore → Prop}
    (hfor : ClaimFor c s row cd r a) (hp : Pending m sc c s) (hids : c.ids = [])
    (hbegan : Began m x s) (hnone : x.op.reportsOn = none)
    (herr : ∀ e c' s', m.discipline.Env c s s' → Grown c c' → E e c' s')
    (hchecks : ∀ c' s', Began m x s' → E .integrity c' s')
    (hQ : ∀ state c' s', m.discipline.Env c s s' → c.held ⊆ c'.held → c'.ids = [] →
      Pending m sc c' s' → Q state c' s') :
    m.discipline.wp op Q E (failInTransaction cd error now after uniform) c s := by
  refine wp_failInTransaction (hfor.finalizable hp hids hbegan hnone)
    (fun c' s' henv hgrown => herr _ _ _ henv hgrown)
    (fun e c' s' henv hgrown _ => herr e _ _ henv hgrown)
    (fun c' s' hrep => hchecks _ _ hrep.toBegan) ?_
  intro state τ c' s' henv hheld hids' hp' _ _ _ _ _
  exact hQ state c' s' henv hheld (hids'.trans hids) hp'

end Failing

/-! ## Preparation and enqueueing -/

/-- The handoff of the attempt is looked up, whether it was there or not. -/
theorem wp_storedEnvelope {inserted : Bool} {cd : ClaimedDelivery}
    (hp : Pending m { prepares := x.op.prepares } c s) (hbegan : Began m x s)
    (hnone : x.op.reportsOn = none) (hfinalizes : x.op.finalizes = none)
    (hcompletes : x.op.completes = none) :
    m.discipline.wp op (fun rows =>
      m.discipline.wp op (fun envelope => m.discipline.returns x (.envelope envelope))
        (m.discipline.raises x) (match rows.find? (·.isFor cd) with
          | none => .raise .integrity
          | some stored =>
              if !inserted ∧ stored.state ≠ .prepared then
                .raise (.configuration "Taskiq handoff preparation conflicted.")
              else return stored.envelope))
      (m.discipline.raises x) (selectAll Row.handoff?) c s := by
  refine wp_selectAll fun s₁ rows henv₁ _ => ?_
  have hbegan₁ := hbegan.env henv₁
  split
  · exact hbegan₁.raises hnone _
  · split_ifs
    · exact hbegan₁.raises hnone _
    · refine Pending.returns (a := .envelope _) ((hp.env henv₁).grown (Grown.see c _)) hbegan₁
        fun s₂ henv₂ => ?_
      obtain ⟨hnoexec, hsilent⟩ := reports_silent (x := x) (c := c.see s₁.db.rows) (s := s₂)
        (a := .envelope _) ((c.see s₁.db.rows).visible s₂.db)
        hnone hfinalizes hcompletes (by simp) (by simp)
      exact
        { wins := fun _ _ h => h.elim
          new := fun _ h => h.elim
          settles := fun _ _ h => h.elim
          runs := fun _ _ _ _ _ h => h.elim
          prepares := fun _ h => h
          tokens := by simp [executionOf]
          reports := hsilent }

theorem prepare_sound (m : Mode) (cd : ClaimedDelivery) (now : Datetime) :
    OpSound m (.prepare cd now) := by
  refine opSound_of_began fun s x hinv hallowed hx hbegan => ?_
  have hnone : x.op.reportsOn = none := by rw [hx]; rfl
  have hfinalizes : x.op.finalizes = none := by rw [hx]; rfl
  have hcompletes : x.op.completes = none := by rw [hx]; rfl
  simp only [Op.prog, prepare, Prog.bind_eq, Discipline.wp_bind]
  refine wp_newUuid fun s₁ id henv₁ _ => wp_newUuid fun s₂ token henv₂ _ => ?_
  refine wp_databaseNow fun s₃ henv₃ => wp_selectOne fun s₄ henv₄ => wp_selectOne fun s₅ henv₅ => ?_
  have hbegan₅ := ((((hbegan.env henv₁).env henv₂).env henv₃).env henv₄).env henv₅
  split_ifs
  · exact hbegan₅.raises hnone _
  simp only [Discipline.wp_bind]
  refine wp_insertOrSkip (fun s₆ henv₆ => wp_storedEnvelope (.of_writes_nil rfl)
    (hbegan₅.env henv₆) hnone hfinalizes hcompletes)
    (fun _ s₆ henv₆ hfree => wp_storedEnvelope ?_ (hbegan₅.env henv₆) hnone hfinalizes
      hcompletes) (hbegan₅.raises hnone _)
  have hvisible := hfree
  simp only [Ctx.visible, Ctx.tell, Ctx.mint, Ctx.init, Table.install_nil] at hvisible
  refine Pending.handoffStep (r := preparedHandoff cd id token s₃.now)
    (.of_writes_nil rfl) rfl (List.subset_cons_self _ _) (List.Subset.refl _) List.mem_cons_self
    (Or.inl hfree) (le_refl _) ?_
  rw [handoffAt_eq_none.mpr hvisible]
  exact .prepare _ rfl rfl rfl rfl (by rw [hx]; exact ⟨rfl, rfl, rfl, rfl⟩)

theorem markEnqueued_sound (m : Mode) (envelope : HandoffEnvelope) (now : Datetime) :
    OpSound m (.markEnqueued envelope now) := by
  refine opSound_of_began fun s x hinv hallowed hx hbegan => ?_
  have hnone : x.op.reportsOn = none := by rw [hx]; rfl
  simp only [Op.prog, markEnqueued, Prog.bind_eq, Discipline.wp_bind]
  refine wp_lockedForEnvelope rfl (fun e c' s' henv => (hbegan.env henv).raises hnone e) ?_
  intro row c₁ s₁ henv₁ hgrown₁ hl₁
  refine wp_databaseNow fun s₂ henv₂ => ?_
  have hbegan₂ := (hbegan.env henv₁).env henv₂
  have hl₂ := (hl₁.env henv₂).mono (Grown.tell c₁ s₂.now).held
  have hp₂ : Pending m {} (c₁.tell s₂.now) s₂ := .of_writes_nil hgrown₁.writes
  have hreturn : ∀ (record : HandoffRecord) c' s', Pending m {} c' s' → Began m x s' →
      m.discipline.returns x (.handoff record) c' s' := fun record c' s' hp' hbegan' =>
    returns_silent hp' hbegan' hnone (by rw [hx]; rfl) (by rw [hx]; rfl) (by simp) (by simp)
  -- one acknowledgement, whatever state it leaves
  have hack : ∀ state, ((row.state = .prepared ∧ state = .enqueued) ∨
      (row.state ≠ .prepared ∧ state = row.state)) → m.discipline.wp (.markEnqueued envelope now)
        (fun record => m.discipline.returns x (.handoff record)) (m.discipline.raises x)
        ((updateHandoff (acknowledgedHandoff row state s₂.now)).bind fun _ =>
          return (acknowledgedHandoff row state s₂.now).record) (c₁.tell s₂.now) s₂ := by
    intro state hstate
    rw [Discipline.wp_bind]
    refine wp_updateHandoff hp₂ hl₂ rfl (le_refl _) (.acknowledge row state hstate)
      (hbegan₂.raises hnone _) fun s₃ henv₃ _ hp₃ => ?_
    exact hreturn _ _ s₃ hp₃ (hbegan₂.env henv₃)
  split_ifs with hstate
  · exact hack row.state (Or.inr ⟨hstate, rfl⟩)
  · exact hreturn _ _ s₂ hp₂ hbegan₂
  · exact hack .enqueued (Or.inl ⟨not_not.mp hstate, rfl⟩)

theorem enqueueFailed_sound (m : Mode) (envelope : HandoffEnvelope) (now : Datetime)
    (uniform : ℚ → ℚ → PyFloat) : OpSound m (.enqueueFailed envelope now uniform) := by
  refine opSound_of_began fun s x hinv hallowed hx hbegan => ?_
  have hnone : x.op.reportsOn = none := by rw [hx]; rfl
  have hreturn : ∀ (record : HandoffRecord) c' s', Pending m {} c' s' → Began m x s' →
      m.discipline.returns x (.handoff record) c' s' := fun record c' s' hp' hbegan' =>
    returns_silent hp' hbegan' hnone (by rw [hx]; rfl) (by rw [hx]; rfl) (by simp) (by simp)
  simp only [Op.prog, enqueueFailed, Prog.bind_eq, Discipline.wp_bind]
  refine wp_lockedForEnvelope rfl (fun e c' s' henv => (hbegan.env henv).raises hnone e) ?_
  intro row c₁ s₁ henv₁ hgrown₁ hl₁
  have hbegan₁ := hbegan.env henv₁
  have hp₁ : Pending m {} c₁ s₁ := .of_writes_nil hgrown₁.writes
  split_ifs with hstate
  · exact hreturn _ _ s₁ hp₁ hbegan₁
  have hopen : row.isOpen = true := by simp [HandoffRow.isOpen, not_not.mp hstate]
  simp only [Discipline.wp_bind]
  refine wp_claimForRow (fun e c' s' henv _ => (hbegan₁.env henv).raises hnone e) ?_
  intro cd r a c₂ s₂ henv₂ hgrown₂ hfor₂
  have hbegan₂ := hbegan₁.env henv₂
  refine wp_failFor hfor₂ ((hp₁.env henv₂).grown hgrown₂) ((hgrown₁.trans hgrown₂).ids) hbegan₂
    hnone (fun e c' s' henv _ => (hbegan₂.env henv).raises hnone e)
    (fun c' s' hbegan' => hbegan'.raises hnone _) ?_
  intro outcome c₃ s₃ henv₃ hheld₃ _ hp₃
  have hbegan₃ := hbegan₂.env henv₃
  have hl₃ := (((hl₁.env henv₂).mono hgrown₂.held).env henv₃).mono hheld₃
  refine wp_databaseNow fun s₄ henv₄ => ?_
  have hbegan₄ := hbegan₃.env henv₄
  refine wp_setFailed ((hp₃.env henv₄).grown (Grown.tell c₃ s₄.now))
    ((hl₃.env henv₄).mono (List.Subset.refl _)) hopen (le_refl _) (hbegan₄.raises hnone _) ?_
  intro s₅ henv₅ _ hp₅
  exact hreturn _ _ s₅ hp₅ (hbegan₄.env henv₅)

/-! ## Execution -/

section Execution

variable {m : Mode} {sc : Scope} {op : Op} {x : RuntimeTxn} {c c' : RuntimeCtx}
  {s s' : RuntimeStore} {row : HandoffRow} {cd : ClaimedDelivery} {r : DeliveryRow}
  {a : AttemptRow}

omit [Platform]

theorem HandoffRow.admits_mono {τ τ' : Datetime} (h : row.admits τ = true) (hτ : τ ≤ τ') :
    row.admits τ' = true := by
  unfold HandoffRow.admits at h ⊢
  split at h
  · exact h
  · exact h
  · simp only [Option.all_eq_true, decide_eq_true_eq] at h ⊢
    exact fun d hd => (h d hd).trans hτ
  all_goals cases h

theorem HandoffRow.isOpen_of_admits {τ : Datetime} (h : row.admits τ = true) :
    row.isOpen = true := by
  cases hstate : row.state <;> simp [HandoffRow.admits, HandoffRow.isOpen, hstate] at h ⊢

end Execution

section Execution

variable {m : Mode} {sc : Scope} {op : Op} {x : RuntimeTxn} {c c' : RuntimeCtx}
  {s s' : RuntimeStore} {row : HandoffRow} {cd : ClaimedDelivery} {r : DeliveryRow}
  {a : AttemptRow} {token : UUID} {τ deadline : Datetime}

/-- The claim behind a handoff describes its rows. -/
theorem ClaimFor.handed (h : ClaimFor c s row cd r a) (hexpiry : cd.delivery.leaseExpiresAt.isSome) :
    Handed (cd.cell (c.visible s.db)) cd := by
  obtain ⟨ht, hi⟩ := h.attemptKey
  refine ⟨ht.trans h.tenantId.symm, hexpiry, r, a, ?_, ?_, ?_, ?_, h.createdAt.symm,
    fun _ => h.leaseExpiresAt.symm⟩
  · rw [ClaimedDelivery.cell, h.tenantId, h.deliveryId]
    exact h.delivery
  · rw [ClaimedDelivery.cell, h.tenantId, h.deliveryId, hi]
    exact cellAt_attempts.mpr ⟨h.attempt, h.home⟩
  · rw [ClaimedDelivery.leaseToken, h.record]
  · rw [h.record]

/-- The execution a handoff is admitted to. -/
def executionFor (row : HandoffRow) (cd : ClaimedDelivery) (token : UUID) (τ deadline : Datetime) :
    ExecutingHandoff :=
  ⟨(executingHandoff row token τ deadline).record, cd, token, deadline⟩

/-- The scope of one admission. -/
def admission (row : HandoffRow) (token : UUID) (τ deadline : Datetime) : Scope where
  runs t h k s d :=
    t = row.tenantId ∧ h = row.handoffId ∧ k = token ∧ s = τ ∧ d = deadline

/-- The end of a transaction that admits an execution. -/
theorem closing_execution {latest expiry : Datetime} {policy : RetryPolicy}
    (hfor : ClaimFor c s row cd r a) (hwrites : c.writes = [])
    (hc : c' = (c.mint token).change (.put (.handoff (executingHandoff row token τ deadline))))
    (hids : ∀ k ∈ c'.ids, k ∉ tokens s.db s.log)
    (hpolicy : snapshotPolicy cd.routeSnapshot = .ok policy)
    (hexpiry : cd.delivery.leaseExpiresAt = some expiry)
    (hlatest : attemptDeadline policy cd.delivery.createdAt cd.attempt.startedAt expiry = .ok latest)
    (hdeadline : deadline ≤ latest) (hnone : x.op.reportsOn = none)
    (hfinalizes : x.op.finalizes = none) (hcompletes : x.op.completes = none) :
    Pending.Closing m (admission row token τ deadline) c' s
      ⟨x.op, x.beganDb, x.beganAt, c'.clocks,
        .ok (.execution (some (executionFor row cd token τ deadline)))⟩ := by
  have hvisible : c'.visible s.db =
      s.db.put (.handoff (executingHandoff row token τ deadline)) := by
    simp [hc, Ctx.visible, Ctx.change, Ctx.mint, hwrites]
  have hcommitted : c.visible s.db = s.db := by simp [Ctx.visible, hwrites]
  have hcell : cd.cell (c'.visible s.db) = cd.cell (c.visible s.db) := by
    rw [hvisible, hcommitted]
    exact cellAt_apply s.db _ _ (.put (.handoff (executingHandoff row token τ deadline)))
  have hrow : handoffAt (c'.visible s.db) row.tenantId row.handoffId =
      some (executingHandoff row token τ deadline) := by
    rw [hvisible, handoffAt_eq_some]
    exact Table.get_put_self _ (Row.handoff (executingHandoff row token τ deadline))
  have htoken : token ∈ c'.ids := by simp [hc, Ctx.change, Ctx.mint]
  exact
    { wins := fun _ _ h => h.elim
      new := fun _ h => h.elim
      settles := fun _ _ h => h.elim
      runs := by
        rintro t h k τ' d ⟨rfl, rfl, rfl, rfl, rfl⟩
        exact ⟨_, rfl, rfl, rfl, rfl, rfl, rfl⟩
      prepares := fun _ h => h.elim
      tokens := by
        intro ex hex
        cases hex
        exact htoken
      reports :=
        { claims := by simp [claimsOf]
          executions := by
            intro ex hex
            cases hex
            refine ⟨⟨⟨_, hrow, rfl, rfl, rfl, hfor.tenantId.symm, hfor.deliveryId.symm,
              hfor.attemptKey.2.symm, hfor.snapshot.symm⟩, ?_, ?_⟩, hids token htoken⟩
            · show Handed (cd.cell (c'.visible s.db)) cd
              rw [hcell]
              exact hfor.handed (by simp [hexpiry])
            · exact ⟨policy, expiry, latest, hpolicy, hexpiry, hlatest, hdeadline⟩
          current := by simp [hnone]
          finalized := by simp [hfinalizes]
          completed := by simp [hcompletes] } }

/-- Admission under the claim of the parent attempt. -/
theorem wp_admitExecution (now : Datetime) {t₀ : Datetime} {timeout : Timedelta} {uniform : ℚ → ℚ → PyFloat}
    (hl : LockedHandoff c s row) (hfor : ClaimFor c s row cd r a) (hwrites : c.writes = [])
    (hids : c.ids = []) (hadmits : row.admits t₀ = true) (ht₀ : t₀ ≤ s.now) (htimeout : 0 < timeout)
    (hbegan : Began m x s) (hnone : x.op.reportsOn = none) (hfinalizes : x.op.finalizes = none)
    (hcompletes : x.op.completes = none) :
    m.discipline.wp op (fun execution => m.discipline.returns x (.execution execution))
      (m.discipline.raises x) (admitExecution row cd now timeout uniform) c s := by
  simp only [admitExecution, Prog.bind_eq, Discipline.wp_bind]
  refine wp_databaseNow fun s₁ henv₁ => ?_
  have hbegan₁ := hbegan.env henv₁
  have hgrown₁ := Grown.tell c s₁.now
  have hl₁ := (hl.env henv₁).mono hgrown₁.held
  have hfor₁ := (hfor.env henv₁).grown hgrown₁
  have hraise : ∀ e c', m.discipline.raises x e c' s₁ := fun e c' => hbegan₁.raises hnone e
  cases hexpiry : cd.delivery.leaseExpiresAt with
  | none => exact hraise _ _
  | some expiry =>
      dsimp only
      split
      swap
      · exact hraise _ _
      rename_i retry hretry
      simp only [Discipline.wp_bind]
      refine wp_lift (fun policy hpolicy => ?_) (fun e _ => hraise e _)
      refine wp_lift (fun remaining hremaining => ?_) (fun e _ => hraise e _)
      split_ifs with hlate
      · -- too late to start: the attempt fails
        simp only [Discipline.wp_bind]
        refine wp_failFor hfor₁ (.of_writes_nil hwrites : Pending m {} (c.tell s₁.now) s₁) hids hbegan₁ hnone
          (fun e c' s' henv _ => (hbegan₁.env henv).raises hnone e)
          (fun c' s' hbegan' => hbegan'.raises hnone _) ?_
        intro outcome c₂ s₂ henv₂ hheld₂ _ hp₂
        have hbegan₂ := hbegan₁.env henv₂
        refine wp_setFailed hp₂ ((hl₁.env henv₂).mono hheld₂)
          (HandoffRow.isOpen_of_admits hadmits) henv₂.time (hbegan₂.raises hnone _) ?_
        intro s₃ henv₃ _ hp₃
        exact returns_silent hp₃ (hbegan₂.env henv₃) hnone hfinalizes hcompletes (by simp) (by simp)
      · simp only [Discipline.wp_bind]
        refine wp_newUuid fun s₂ token henv₂ htoken => ?_
        have hbegan₂ := hbegan₁.env henv₂
        have hl₂ := (hl₁.env henv₂).mono (List.Subset.refl ((c.tell s₁.now).mint token).held)
        refine wp_lift (fun duration hduration => ?_) (fun e _ => hbegan₂.raises hnone e)
        refine wp_lift (fun deadline hdeadline => ?_) (fun e _ => hbegan₂.raises hnone e)
        refine wp_checkInteger (fun _ => ?_) (hbegan₂.raises hnone _)
        have hpositive := not_le.mp hlate
        have hduration' : Timedelta.ofSeconds? remaining = some duration := orRaise_eq_ok.mp hduration
        have hadd := Datetime.add?_eq_some (orRaise_eq_ok.mp hdeadline)
        obtain ⟨latest, hlatest, -⟩ := remainingAttemptSeconds_eq_ok hremaining
        have hle : deadline ≤ latest := by
          rw [hadd]
          exact add_remaining_le hremaining hpositive hduration' hlatest
        have hlt : s₁.now < deadline := by
          rw [hadd]
          exact lt_add_of_pos_right _
            (remaining_duration_pos hremaining hpositive htimeout hduration')
        have hp₂ : Pending m (admission row token s₁.now deadline) ((c.tell s₁.now).mint token) s₂ :=
          .of_writes_nil hwrites
        refine wp_updateHandoff hp₂ hl₂ rfl henv₂.time ?_ (hbegan₂.raises hnone _) ?_
        · exact .execute row token deadline
            (HandoffRow.admits_mono hadmits (ht₀.trans henv₁.time)) hlt ⟨rfl, rfl, rfl, rfl, rfl⟩
        · intro s₃ henv₃ _ hp₃
          refine Pending.returns (a := .execution (some (executionFor row cd token s₁.now deadline)))
            hp₃ (hbegan₂.env henv₃) fun s₄ henv₄ => ?_
          have hfor₄ := ((hfor₁.env henv₂).env henv₃.of_mint).env henv₄.of_change.of_mint
          exact closing_execution hfor₄ hwrites rfl henv₄.ids
            (by rw [snapshotPolicy, hretry]; exact hpolicy) hexpiry hlatest hle hnone hfinalizes
            hcompletes

theorem claimExecution_sound (m : Mode) (envelope : HandoffEnvelope) (now : Datetime)
    (timeout : Timedelta) (uniform : ℚ → ℚ → PyFloat) :
    OpSound m (.claimExecution envelope now timeout uniform) := by
  refine opSound_of_began fun s x hinv hallowed hx hbegan => ?_
  have hnone : x.op.reportsOn = none := by rw [hx]; rfl
  have hfinalizes : x.op.finalizes = none := by rw [hx]; rfl
  have hcompletes : x.op.completes = none := by rw [hx]; rfl
  simp only [Op.prog, claimExecution, Prog.bind_eq, Discipline.wp_bind]
  refine wp_lift (fun _ htimeout => ?_) (fun e _ => hbegan.raises hnone e)
  rw [check_eq_ok, decide_eq_true_eq] at htimeout
  refine wp_lockedForEnvelope rfl (fun e c' s' henv => (hbegan.env henv).raises hnone e) ?_
  intro row c₁ s₁ henv₁ hgrown₁ hl₁
  refine wp_databaseNow fun s₂ henv₂ => ?_
  have hbegan₂ := (hbegan.env henv₁).env henv₂
  have hgrown₂ := hgrown₁.trans (Grown.tell c₁ s₂.now)
  have hl₂ := (hl₁.env henv₂).mono (Grown.tell c₁ s₂.now).held
  split_ifs with hadmits
  · simp only [Discipline.wp_bind, Discipline.wp_tryCatch]
    refine wp_claimForRow ?_ ?_
    · intro e c₃ s₃ henv₃ hgrown₃
      have hbegan₃ := hbegan₂.env henv₃
      -- only a lost lease settles the handoff
      cases e with
      | leaseLost id =>
          dsimp only
          simp only [Discipline.wp, Discipline.wp_bind]
          refine wp_setFailed (.of_writes_nil (hgrown₂.trans hgrown₃).writes : Pending m {} c₃ s₃)
            ((hl₂.env henv₃).mono hgrown₃.held) (HandoffRow.isOpen_of_admits hadmits) henv₃.time
            (hbegan₃.raises hnone _) ?_
          intro s₄ henv₄ _ hp₄
          exact returns_silent hp₄ (hbegan₃.env henv₄) hnone hfinalizes hcompletes (by simp)
            (by simp)
      | _ => exact hbegan₃.raises hnone _
    · intro cd r a c₃ s₃ henv₃ hgrown₃ hfor₃
      exact wp_admitExecution s₂.now ((hl₂.env henv₃).mono hgrown₃.held) hfor₃
        (hgrown₂.trans hgrown₃).writes (hgrown₂.trans hgrown₃).ids hadmits henv₃.time htimeout.1 (hbegan₂.env henv₃) hnone
        hfinalizes hcompletes
  · exact returns_silent (.of_writes_nil hgrown₂.writes) hbegan₂ hnone hfinalizes hcompletes
      (by simp) (by simp)

end Execution

/-! ## Finalization -/

section Finalization

variable {m : Mode} {sc : Scope} {op : Op} {x : RuntimeTxn} {c c' : RuntimeCtx}
  {s s' : RuntimeStore} {row row' : HandoffRow} {ex : ExecutingHandoff} {won : Prop}

/-- A change of a handoff leaves what ended ended. -/
theorem Ended.change {t d i : UUID} (h : Ended t d i c s won) (row' : HandoffRow) :
    Ended t d i (c.change (.put (.handoff row'))) s won where
  held := List.mem_cons_of_mem _ h.held
  ends := by
    have hvisible : (c.change (.put (.handoff row'))).visible s.db =
        Write.apply (c.visible s.db) (.put (.handoff row')) := by
      simp [Ctx.visible, Ctx.change, Write.apply]
    have hcell : cellAt ((c.change (.put (.handoff row'))).visible s.db) t d =
        cellAt (c.visible s.db) t d := by
      rw [hvisible, cellAt_apply]
      rfl
    unfold Finalizes
    rw [hcell]
    exact h.ends

/-- The end of an operation that finalizes an execution. -/
theorem closing_finalized {τ : Datetime} {state : HandoffState} {code summary : Option Str}
    (hl : LockedHandoff c s row) (ht : row.tenantId = ex.record.tenantId)
    (hh : row.handoffId = ex.record.handoffId) (hexecuting : row.state = .executing)
    (htoken : row.executionToken = some ex.executionToken)
    (hended : Ended ex.claim.delivery.tenantId ex.claim.delivery.deliveryId
      ex.claim.attempt.attemptId c s won)
    (hrow' : row' = settledHandoff row state τ code summary)
    (hend : state = .succeeded ∨ state = .retryWait ∨ state = .dead)
    (hc : c' = c.change (.put (.handoff row'))) (hnone : x.op.reportsOn = none)
    (hfinalizes : x.op.finalizes = some ex.claim) (hcompletes : x.op.completes = some ex)
    (hwon : x.op.wins ex.claim.attempt.tenantId ex.claim.attempt.attemptId → won)
    (hsettles : x.op.settles ex.record.tenantId ex.record.handoffId → state = .succeeded) :
    Pending.Closing m { wins := x.op.wins, settles := x.op.settles } c' s
      ⟨x.op, x.beganDb, x.beganAt, c'.clocks, .ok (.handoff row'.record)⟩ := by
  have hvisible : handoffAt (c'.visible s.db) ex.record.tenantId ex.record.handoffId = some row' := by
    have hput : c'.visible s.db = (c.visible s.db).put (.handoff row') := by
      simp [hc, Ctx.visible, Ctx.change]
    rw [hput, handoffAt_eq_some, ← ht, ← hh]
    have hself := Table.get_put_self (c.visible s.db) (Row.handoff row')
    rwa [show Schema.key (Row.handoff row') = Key.handoff row.tenantId row.handoffId by
      rw [hrow']; rfl] at hself
  have hclosed : row'.isOpen = false := by
    rw [hrow']
    rcases hend with rfl | rfl | rfl <;> simp [HandoffRow.isOpen, settledHandoff, clearExecution]
  exact
    { wins := fun _ _ h => h
      new := fun _ h => h.elim
      settles := fun _ _ h => h
      runs := fun _ _ _ _ _ h => h.elim
      prepares := fun _ h => h.elim
      tokens := by simp [executionOf]
      reports :=
        { claims := by simp [claimsOf]
          executions := by simp [executionOf]
          current := by simp [hnone]
          finalized := by
            intro cd hcd _
            cases hfinalizes.symm.trans hcd
            subst hc
            obtain ⟨b, b', hb, hstarted, hb', hfin, hsucc⟩ := (hended.change row').ends
            exact ⟨b, b', hb, hstarted, hb', hfin, fun h => hsucc (hwon h)⟩
          completed := by
            intro ex' hex' _
            cases hcompletes.symm.trans hex'
            refine ⟨row, row', ?_, hexecuting, htoken, hvisible, hclosed, fun h => ?_⟩
            · rw [← ht, ← hh]
              exact hl.row
            · rw [hrow']
              exact hsettles h } }

/-- A worker may finalize the claim of an execution it was admitted to. -/
theorem finalizable_execution
    (hstay : ∀ c' s', m.discipline.Env c s s' → Grown c c' → Handed (ex.claim.cell s'.db) ex.claim)
    (hwrites : c.writes = []) (hids : c.ids = []) (hbegan : Began m x s)
    (hnone : x.op.reportsOn = none) : Finalizable m sc ex.claim x c s where
  pending := .of_writes_nil hwrites
  ids := hids
  home := by
    intro c' s' a henv hgrown ha
    rw [hgrown.visible, Ctx.visible, hwrites, Table.install_nil] at ha
    exact (hstay c' s' henv hgrown).home ha
  began := hbegan
  reports := fun cd' hcd' => by rw [hnone] at hcd'; cases hcd'

end Finalization

theorem finalizeSuccess_sound (m : Mode) (ex : ExecutingHandoff) (now : Datetime) :
    OpSound m (.finalizeSuccess ex now) := by
  refine opSound_of_began fun s x hinv hallowed hx hbegan => ?_
  have hnone : x.op.reportsOn = none := by rw [hx]; rfl
  have hhanded : ∀ c s', m.discipline.Env c s s' → Handed (ex.claim.cell s'.db) ex.claim :=
    fun c s' henv => RuntimeInv.handed_execution (m := m) henv.inv
      (Op.allowed_mono henv.log hallowed)
  simp only [Op.prog, finalizeSuccess, Prog.bind_eq, Discipline.wp_bind]
  refine wp_lockedExecution rfl (fun e c' s' henv => (hbegan.env henv).raises hnone e) ?_
  intro row c₁ s₁ henv₁ hgrown₁ _ hl₁ ht hh hexecuting htoken
  have hbegan₁ := hbegan.env henv₁
  have hf : Finalizable m { wins := x.op.wins, settles := x.op.settles } ex.claim x c₁ s₁ :=
    finalizable_execution
      (fun c' s' henv _ => hhanded _ _ (henv₁.trans (hgrown₁.env henv)))
      hgrown₁.writes hgrown₁.ids hbegan₁ hnone
  refine wp_succeedInTransaction hf (by rw [hx]; exact ⟨rfl, rfl⟩)
    (fun c' s' henv _ => (hbegan₁.env henv).raises hnone _)
    (fun e c' s' hrep => hrep.toBegan.raises hnone e) ?_
  intro τ c₂ s₂ henv₂ hheld₂ _ hp₂ hended₂ hrep₂ _ hτ
  have hl₂ := (hl₁.env henv₂).mono hheld₂
  have hopen : row.isOpen = true := by simp [HandoffRow.isOpen, hexecuting]
  refine wp_updateHandoff hp₂ hl₂ rfl hτ ?_ (hrep₂.toBegan.raises hnone _) ?_
  · exact .settle row .succeeded row.failureCode row.failureSummary hopen (Or.inl rfl)
      fun _ => by rw [hx]; exact ⟨ht.symm, hh.symm⟩
  · intro s₃ henv₃ hl₃ hp₃
    refine hp₃.returns (hrep₂.toBegan.env henv₃) fun s₄ henv₄ => ?_
    exact closing_finalized (hl₃.env henv₄.of_change) ht hh hexecuting htoken
      ((hended₂.env henv₃).env henv₄.of_change) rfl (Or.inl rfl) rfl hnone
      (by rw [hx]; rfl) (by rw [hx]; rfl) (fun _ => trivial) (fun _ => rfl)

theorem finalizeFailure_sound (m : Mode) (ex : ExecutingHandoff) (error : DeliveryError)
    (now : Datetime) (uniform : ℚ → ℚ → PyFloat) :
    OpSound m (.finalizeFailure ex error now uniform) := by
  refine opSound_of_began fun s x hinv hallowed hx hbegan => ?_
  have hnone : x.op.reportsOn = none := by rw [hx]; rfl
  have hhanded : ∀ c s', m.discipline.Env c s s' → Handed (ex.claim.cell s'.db) ex.claim :=
    fun c s' henv => RuntimeInv.handed_execution (m := m) henv.inv
      (Op.allowed_mono henv.log hallowed)
  simp only [Op.prog, finalizeFailure, Prog.bind_eq, Discipline.wp_bind]
  refine wp_lockedExecution rfl (fun e c' s' henv => (hbegan.env henv).raises hnone e) ?_
  intro row c₁ s₁ henv₁ hgrown₁ _ hl₁ ht hh hexecuting htoken
  have hbegan₁ := hbegan.env henv₁
  have hf : Finalizable m { wins := x.op.wins, settles := x.op.settles } ex.claim x c₁ s₁ :=
    finalizable_execution
      (fun c' s' henv _ => hhanded _ _ (henv₁.trans (hgrown₁.env henv)))
      hgrown₁.writes hgrown₁.ids hbegan₁ hnone
  refine wp_failInTransaction hf (fun c' s' henv _ => (hbegan₁.env henv).raises hnone _)
    (fun e c' s' henv _ _ => (hbegan₁.env henv).raises hnone e)
    (fun c' s' hrep => hrep.toBegan.raises hnone _) ?_
  intro outcome τ c₂ s₂ henv₂ hheld₂ _ hp₂ hended₂ hrep₂ _ _ _
  have hopen : row.isOpen = true := by simp [HandoffRow.isOpen, hexecuting]
  refine wp_databaseNow fun s₃ henv₃ => ?_
  have hgrown₃ := Grown.tell c₂ s₃.now
  have hbegan₃ := hrep₂.toBegan.env henv₃
  have hl₃ := (((hl₁.env henv₂).mono hheld₂).env henv₃).mono hgrown₃.held
  have hended₃ := (hended₂.env henv₃).congr hgrown₃.writes hgrown₃.held
  refine wp_setFailed ((hp₂.env henv₃).grown hgrown₃) hl₃ hopen (le_refl _)
    (hbegan₃.raises hnone _) ?_
  intro s₄ henv₄ hl₄ hp₄
  refine hp₄.returns (hbegan₃.env henv₄) fun s₅ henv₅ => ?_
  exact closing_finalized (hl₄.env henv₅.of_change) ht hh hexecuting htoken
    ((hended₃.env henv₄).env henv₅.of_change) rfl (by split_ifs <;> simp) rfl hnone
    (by rw [hx]; rfl) (by rw [hx]; rfl) (by rw [hx]; exact fun h => h.elim)
    (by rw [hx]; exact fun h => h.elim)

/-! ## Recovery -/

section Recovery

variable {m : Mode} {sc : Scope} {op : Op} {x : RuntimeTxn} {c c' : RuntimeCtx}
  {s s' : RuntimeStore} {row : HandoffRow}

/-- One round of the loop of `recover_expired`. -/
theorem wp_recoverOne {now : Datetime} {uniform : ℚ → ℚ → PyFloat}
    {Q : Unit → RuntimeCtx → RuntimeStore → Prop} (hp : Pending m sc c s) (hids : c.ids = [])
    (hl : LockedHandoff c s row) (hopen : row.isOpen = true) (hbegan : Began m x s)
    (hnone : x.op.reportsOn = none)
    (hQ : ∀ c' s', m.discipline.Env c s s' → c.held ⊆ c'.held → c'.ids = [] → Pending m sc c' s' →
      Q () c' s') :
    m.discipline.wp op Q (m.discipline.raises x) (recoverOne row now uniform) c s := by
  simp only [recoverOne, Prog.bind_eq, Discipline.wp_bind, Discipline.wp_tryCatch]
  -- whatever became of the parent attempt, the handoff is settled
  have hsettle : ∀ outcome c₁ s₁, m.discipline.Env c s s₁ → c.held ⊆ c₁.held → c₁.ids = [] →
      Pending m sc c₁ s₁ → m.discipline.wp op (fun recoveredAt => m.discipline.wp op Q
        (m.discipline.raises x) (updateHandoff (setFailed row outcome recoveredAt
          "executor.handoff_expired" handoffFailedSummary))) (m.discipline.raises x)
        (databaseNow now) c₁ s₁ := by
    intro outcome c₁ s₁ henv₁ hheld₁ hids₁ hp₁
    refine wp_databaseNow fun s₂ henv₂ => ?_
    have hgrown₂ := Grown.tell c₁ s₂.now
    have hl₂ := (((hl.env henv₁).mono hheld₁).env henv₂).mono hgrown₂.held
    have henv₁₂ := henv₁.trans (henv₂.mono hheld₁ (by simp [hids]))
    refine wp_setFailed ((hp₁.env henv₂).grown hgrown₂) hl₂ hopen (le_refl _)
      ((hbegan.env henv₁₂).raises hnone _) ?_
    intro s₃ henv₃ _ hp₃
    exact hQ _ s₃ (henv₁₂.trans (henv₃.mono hheld₁ (by simp [hids])))
      (List.Subset.trans hheld₁ (List.subset_cons_self _ _)) hids₁ hp₃
  refine wp_claimForRow (fun e c₁ s₁ henv₁ hgrown₁ => ?_) ?_
  · cases e with
    | leaseLost id =>
        exact hsettle .dead c₁ s₁ henv₁ hgrown₁.held (hgrown₁.ids.trans hids)
          ((hp.env henv₁).grown hgrown₁)
    | _ => exact (hbegan.env henv₁).raises hnone _
  intro cd r a c₁ s₁ henv₁ hgrown₁ hfor₁
  have hp₁ := (hp.env henv₁).grown hgrown₁
  refine wp_failFor hfor₁ hp₁ (hgrown₁.ids.trans hids) (hbegan.env henv₁) hnone ?_ ?_ ?_
  · intro e c₂ s₂ henv₂ hgrown₂
    have henv₁₂ := henv₁.trans (hgrown₁.env henv₂)
    have hgrown₁₂ := hgrown₁.trans hgrown₂
    cases e with
    | leaseLost id =>
        exact hsettle .dead c₂ s₂ henv₁₂ hgrown₁₂.held (hgrown₁₂.ids.trans hids)
          ((hp₁.env henv₂).grown hgrown₂)
    | _ => exact (hbegan.env henv₁₂).raises hnone _
  · intro c₂ s₂ hbegan₂
    exact hbegan₂.raises hnone _
  · intro outcome c₂ s₂ henv₂ hheld₂ hids₂ hp₂
    exact hsettle outcome c₂ s₂ (henv₁.trans (hgrown₁.env henv₂))
      (List.Subset.trans hgrown₁.held hheld₂) hids₂ hp₂

/-- The loop of `recover_expired`. -/
theorem wp_recoverLoop {now : Datetime} {uniform : ℕ → ℚ → ℚ → PyFloat} {i : ℕ}
    {rows : List HandoffRow} {Q : Unit → RuntimeCtx → RuntimeStore → Prop} (hp : Pending m sc c s)
    (hids : c.ids = []) (hrows : ∀ row ∈ rows, LockedHandoff c s row ∧ row.isOpen = true)
    (hbegan : Began m x s) (hnone : x.op.reportsOn = none)
    (hQ : ∀ c' s', Pending m sc c' s' → Began m x s' → Q () c' s') :
    m.discipline.wp op Q (m.discipline.raises x) (recoverLoop now uniform i rows) c s := by
  induction rows generalizing i c s with
  | nil => exact hQ c s hp hbegan
  | cons row rows ih =>
      simp only [recoverLoop, Prog.bind_eq, Discipline.wp_bind]
      obtain ⟨hl, hopen⟩ := hrows row List.mem_cons_self
      refine wp_recoverOne hp hids hl hopen hbegan hnone fun c' s' henv hheld hids' hp' => ?_
      refine ih hp' hids' (fun row' hrow' => ?_) (hbegan.env henv)
      obtain ⟨hl', hopen'⟩ := hrows row' (List.mem_cons_of_mem _ hrow')
      exact ⟨(hl'.env henv).mono hheld, hopen'⟩

end Recovery

omit [Platform] in
/-- What recovery selects is open. -/
theorem HandoffRow.isOpen_of_expired {row : HandoffRow} {τ : Datetime} {timeout : Timedelta}
    (h : row.expired τ timeout = true) : row.isOpen = true := by
  simp only [HandoffRow.expired, HandoffRow.isOpen, decide_eq_true_eq] at h ⊢
  rcases h with ⟨h | h, -⟩ | ⟨h, -⟩
  · exact Or.inl h
  · exact Or.inr (Or.inl h)
  · exact Or.inr (Or.inr h)

theorem recoverExpired_sound (m : Mode) (now : Datetime) (timeout : Timedelta) (batchSize : ℤ)
    (uniform : ℕ → ℚ → ℚ → PyFloat) :
    OpSound m (.recoverExpired now timeout batchSize uniform) := by
  refine opSound_of_began fun s x hinv hallowed hx hbegan => ?_
  have hnone : x.op.reportsOn = none := by rw [hx]; rfl
  simp only [Op.prog, recoverExpired, Prog.bind_eq, Discipline.wp_bind]
  refine wp_lift (fun _ _ => ?_) (fun e _ => hbegan.raises hnone e)
  refine wp_lift (fun _ _ => ?_) (fun e _ => hbegan.raises hnone e)
  refine wp_databaseNow fun s₁ henv₁ => ?_
  refine wp_selectAll fun s₂ rows henv₂ hrows => ?_
  have hbegan₂ := (hbegan.env henv₁).env henv₂
  refine wp_lockUpTo (Discipline.Env.refl henv₂.inv henv₂.ids) ?_
  intro locked keys c₃ s₃ henv₃ hgrown₃ _ _ hsub hgranted
  have hwrites : c₃.writes = [] := hgrown₃.writes
  have hvisible : c₃.visible s₃.db = s₃.db := by simp [Ctx.visible, hwrites]
  have hall : List.Forall₂ (fun _ row => LockedHandoff c₃ s₃ row ∧ row.isOpen = true) keys
      locked := by
    refine hgranted.imp fun y row h => ?_
    obtain ⟨hy, hg⟩ := h
    obtain ⟨row₀, -, hkey⟩ := List.mem_map.mp hy
    have hrow : handoffAt s₃.db row₀.tenantId row₀.handoffId = some row := by
      have := hg.row
      rwa [hvisible, ← hkey] at this
    obtain ⟨ht, hh⟩ := handoffAt_key hrow
    refine ⟨⟨?_, ?_⟩, HandoffRow.isOpen_of_expired hg.satisfies⟩
    · rw [ht, hh, hkey]
      exact hg.held
    · rw [ht, hh]
      exact hrow
  refine wp_recoverLoop (.of_writes_nil hwrites : Pending m {} c₃ s₃) hgrown₃.ids (forall₂_right hall)
    (hbegan₂.env henv₃.of_see) hnone ?_
  intro c' s' hp' hbegan'
  exact returns_silent hp' hbegan' hnone (by rw [hx]; rfl) (by rw [hx]; rfl) (by simp) (by simp)

end FastapiEffects
