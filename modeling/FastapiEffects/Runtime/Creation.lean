import FastapiEffects.Runtime.Reports

/-! # Creating deliveries

`publish` and `replay` store deliveries under identifiers that were free, each with its
origin.
-/

namespace FastapiEffects

open Python ReadCommitted

variable [Platform]

section Create

variable {m : Mode} {sc : Scope} {op : Op} {x : RuntimeTxn} {c : RuntimeCtx} {s : RuntimeStore}

/-- A delivery the transaction does not see is not stored either. -/
theorem Pending.cell_none (hp : Pending m sc c s) {t d : UUID}
    (hnone : deliveryAt (c.visible s.db) t d = none) :
    cellAt (c.visible s.db) t d = cellAt s.db t d := by
  by_cases htouch : touches c t d
  · obtain ⟨τ, -, -, hstep⟩ := hp.cells t d htouch
    generalize cellAt s.db t d = k at hstep ⊢
    generalize hc' : cellAt (c.visible s.db) t d = k' at hstep ⊢
    have hr' : k'.delivery = none := hc' ▸ hnone
    cases hstep with
    | same => rfl
    | create r as hnone hcreated hnew => cases hr'
    | expire r as hfence hstate htime => cases hr'
    | lease r as id token expiry hfence htime hid hfresh htoken => cases hr'
    | close r as a state outcome next code summary ha hcloses => cases hr'
  · exact hp.cell_untouched htouch

/-- Storing a new delivery. -/
theorem wp_insertDelivery {row : DeliveryRow} {Q : Unit → RuntimeCtx → RuntimeStore → Prop}
    (hp : Pending m sc c s) (hcreated : Created row) (hnew : sc.new row) (hbegan : Began m x s)
    (hnone : x.op.reportsOn = none)
    (hQ : ∀ s', m.discipline.Env c s s' → (c.visible s'.db).get (Row.delivery row).key = none →
      Pending m sc (c.insert (.delivery row)) s' → Q () (c.insert (.delivery row)) s') :
    m.discipline.wp op Q (m.discipline.raises x) (insertRow row.checks (.delivery row)) c s := by
  refine wp_insertRow (fun _ s₁ henv₁ hfree => hQ s₁ henv₁ hfree ?_)
    (fun s₁ henv₁ => (hbegan.env henv₁).raises hnone _) (hbegan.raises hnone _)
  have hp₁ := hp.env henv₁
  have hinv : RuntimeInv m s₁ := henv₁.inv
  have hsame := hp₁.cell_none (deliveryAt_eq_none.mpr hfree)
  have hdelivery : (cellAt s₁.db row.tenantId row.deliveryId).delivery = none := by
    rw [← hsame]
    exact deliveryAt_eq_none.mpr hfree
  have hattempts : ∀ i, (cellAt s₁.db row.tenantId row.deliveryId).attempts i = none := by
    have := hinv.cells row.tenantId row.deliveryId
    rwa [Cell.Inv, hdelivery] at this
  have hcell : cellAt s₁.db row.tenantId row.deliveryId =
      ⟨none, (cellAt s₁.db row.tenantId row.deliveryId).attempts⟩ := Cell.ext hdelivery rfl
  refine hp₁.cellStep [.delivery row] rfl (List.subset_cons_self _ _)
    (List.Subset.refl _) ?_ List.mem_cons_self hsame (le_refl _) (hinv.cells _ _) ?_
  · intro r hr
    rw [List.mem_singleton.mp hr]
    exact ⟨List.mem_cons_self, rfl, Or.inl hfree⟩
  · have hcreate := Cell.Step.create (m := sc.moves m (c.insert (.delivery row)) row.tenantId)
      (τ := s₁.now) row (cellAt s₁.db row.tenantId row.deliveryId).attempts hattempts hcreated hnew
    rw [← hcell] at hcreate
    simpa [Cell.change] using hcreate

end Create

/-! ## Replay -/

omit [Platform] in
theorem created_replayedDelivery (original : DeliveryRow) (id : UUID) (actor reason : Str)
    (now : Datetime) : Created (replayedDelivery original id actor reason now) :=
  ⟨rfl, rfl, rfl, rfl, rfl, rfl⟩

omit [Platform] in
/-- What the constructor of a detached delivery checks of its replay columns. -/
theorem DeliveryRecordArgs.postInit_replay {d : DeliveryRecordArgs} (h : d.postInit = .ok ()) :
    d.replayCheck = .ok () := by
  unfold DeliveryRecordArgs.postInit at h
  simp only [bind_eq_ok, check_eq_ok] at h
  grind

omit [Platform] in
/-- The replay columns of a row that can be detached. -/
theorem replayCheck_of_deliveryFromRow {row : DeliveryRow} {record : DeliveryRecord}
    (h : deliveryFromRow row = .ok record) (args : DeliveryRecordArgs)
    (hid : args.deliveryId = row.deliveryId) (hof : args.replayOf = row.replayOf)
    (hactor : args.replayActor = row.replayActor) (hreason : args.replayReason = row.replayReason) :
    args.replayCheck = .ok () := by
  unfold deliveryFromRow DeliveryRecord.make at h
  split at h
  · rename_i hvalid
    have hcheck := DeliveryRecordArgs.postInit_replay hvalid
    unfold DeliveryRecordArgs.replayCheck at hcheck ⊢
    simpa only [hid, hof, hactor, hreason] using hcheck
  · cases h

/-- A replay has the origin of the delivery it replays. -/
theorem origin_replayedDelivery {m : Mode} {sc : Scope} {c : RuntimeCtx} {s : RuntimeStore}
    {original stored : DeliveryRow} {id : UUID} {actor reason : Str} {now : Datetime}
    {record : DeliveryRecord} (hp : Pending m sc c s) (hinv : RuntimeInv m s) {t d : UUID}
    (hstored : deliveryAt s.db t d = some stored) (hid : stored.identity = original.identity)
    (hrecord : deliveryFromRow (replayedDelivery original id actor reason now) = .ok record) :
    Origin (c.visible s.db) (replayedDelivery original id actor reason now) := by
  have horigin := (hinv.origin t d stored hstored).of_identity hid.symm
    (fun _ _ _ h => h)
  refine ⟨horigin.route, ?_, replayCheck_of_deliveryFromRow hrecord⟩
  obtain ⟨v, event, hv, hevent⟩ := horigin.event
  exact ⟨v, event, hp.events hv, hevent⟩

omit [Platform] in
theorem visible_insert_self {c : RuntimeCtx} {db : Db} (r : Row) :
    ((c.insert r).visible db).get r.key = some r := by
  rw [show (c.insert r).visible db = (c.visible db).put r by
    simp [Ctx.visible, Ctx.insert, Ctx.change]]
  exact Table.get_put_self _ r

theorem replay_sound (m : Mode) (tenantId deliveryId : UUID) (actor reason : Str) (now : Datetime)
    (kind : Option Str) : OpSound m (.replay tenantId deliveryId actor reason now kind) := by
  refine opSound_of_began fun s x hinv hallowed hx hbegan => ?_
  have hnone : x.op.reportsOn = none := by rw [hx]; rfl
  simp only [Op.prog, replay, Prog.bind_eq, Discipline.wp_bind]
  refine wp_lift (fun _ _ => ?_) (fun e _ => hbegan.raises hnone e)
  refine wp_lift (fun _ _ => ?_) (fun e _ => hbegan.raises hnone e)
  -- with or without the retention lock
  suffices hrest : ∀ c₁ s₁, c₁.writes = [] → m.discipline.Env (Ctx.init s.db.rows) s s₁ →
      m.discipline.wp (.replay tenantId deliveryId actor reason now kind) _ _ _ c₁ s₁ by
    unfold lockRetention
    split_ifs
    · exact fun s₁ henv₁ => hrest _ s₁ rfl henv₁
    · exact hrest _ s rfl (Discipline.Env.refl hinv (by simp [Ctx.init]))
  intro c₁ s₁ hwrites₁ henv₁
  refine wp_newUuid fun s₂ id henv₂ _ => ?_
  refine wp_selectOne fun s₃ henv₃ => ?_
  have hbegan₃ := ((hbegan.env henv₁).env henv₂).env henv₃.of_mint
  have hvisible : (c₁.mint id).visible s₃.db = s₃.db := by simp [Ctx.visible, Ctx.mint, hwrites₁]
  cases horig : (((c₁.mint id).visible s₃.db).get (.delivery tenantId deliveryId)).bind
      Row.delivery? with
  | none => exact hbegan₃.raises hnone _
  | some original =>
      have horiginal : deliveryAt s₃.db tenantId deliveryId = some original := by
        rw [hvisible] at horig
        exact horig
      dsimp only
      split_ifs
      · simp only [Discipline.wp_bind]
        have hp₃ : Pending m { new := fun r => r = replayedDelivery original id actor reason now }
            (c₁.mint id) s₃ := .of_writes_nil hwrites₁
        refine wp_insertDelivery hp₃ (created_replayedDelivery _ _ _ _ _) rfl hbegan₃ hnone ?_
        intro s₄ henv₄ _ hp₄
        have hbegan₄ := hbegan₃.env henv₄
        refine wp_lift (fun record hrecord => ?_) (fun e _ => hbegan₄.raises hnone e)
        refine hp₄.returns hbegan₄ fun s₅ henv₅ => ?_
        refine closing_silent hnone (by rw [hx]; rfl) (by rw [hx]; rfl) (by simp)
          (by simp) ?_ rfl
        rintro r rfl
        obtain ⟨stored, hstored, hid⟩ := m.discipline.grows_trans _ _ _ henv₄.grows
          henv₅.of_insert.grows _ _ _ horiginal
        exact origin_replayedDelivery (hp₄.env henv₅) henv₅.inv hstored hid hrecord
      · exact hbegan₃.raises hnone _

/-! ## Publishing -/

/-- A delivery `publish` makes of a route. -/
def IsPublished (tenantId eventId : UUID) (now : Datetime) (r : DeliveryRow) : Prop :=
  ∃ (route : RouteSpecification) (deliveryId : UUID) (snapshot : Json) (bytes : Bytes),
    route.toSnapshot = .ok snapshot ∧ route.snapshotBytes = .ok bytes ∧
      r = publishedDelivery tenantId eventId deliveryId now route snapshot bytes

theorem IsPublished.created {tenantId eventId : UUID} {now : Datetime} {r : DeliveryRow}
    (h : IsPublished tenantId eventId now r) : Created r := by
  obtain ⟨route, deliveryId, snapshot, bytes, -, -, rfl⟩ := h
  exact ⟨rfl, rfl, rfl, rfl, rfl, rfl⟩

theorem IsPublished.origin {tenantId eventId : UUID} {now : Datetime} {r : DeliveryRow} {db : Db}
    {event : EventRow} {record : EventRecord} (h : IsPublished tenantId eventId now r)
    (hevent : eventAt db tenantId eventId = some event) (hrecord : eventFromRow event = .ok record) :
    Origin db r := by
  obtain ⟨route, deliveryId, snapshot, bytes, hsnapshot, hbytes, rfl⟩ := h
  refine ⟨⟨route, hsnapshot, hbytes, rfl, rfl, rfl, rfl⟩, ⟨event, record, hevent, hrecord⟩, ?_⟩
  intro args _ hof hactor hreason
  rw [DeliveryRecordArgs.replayCheck, hof, hactor, hreason]
  rfl

section Publish

variable {m : Mode} {sc : Scope} {op : Op} {x : RuntimeTxn} {c : RuntimeCtx} {s : RuntimeStore}
  {tenantId eventId : UUID} {now : Datetime}

/-- The rows of an event's deliveries; only identifiers are made. -/
theorem wp_deliveryRows {routes : List RouteSpecification}
    {E : PyError → RuntimeCtx → RuntimeStore → Prop}
    {Q : List DeliveryRow → RuntimeCtx → RuntimeStore → Prop}
    (hself : m.discipline.Env c s s)
    (herr : ∀ e c' s', m.discipline.Env c s s' → E e c' s')
    (hQ : ∀ rows c' s', m.discipline.Env c s s' → m.discipline.Env c' s' s' →
      c'.writes = c.writes → c'.held = c.held → c.ids ⊆ c'.ids →
      (∀ r ∈ rows, IsPublished tenantId eventId now r) → Q rows c' s') :
    m.discipline.wp op Q E (deliveryRows tenantId eventId now routes) c s := by
  induction routes generalizing c s Q with
  | nil => exact hQ [] c s hself hself rfl rfl (List.Subset.refl _) (by simp)
  | cons route routes ih =>
      simp only [deliveryRows, Prog.bind_eq, Discipline.wp_bind]
      refine wp_newUuid fun s₁ id henv₁ hnew => ?_
      refine wp_lift (fun snapshot hsnapshot => ?_) (fun e _ => herr e _ _ henv₁)
      refine wp_lift (fun bytes hbytes => ?_) (fun e _ => herr e _ _ henv₁)
      have hself₁ : m.discipline.Env (c.mint id) s₁ s₁ := by
        refine Discipline.Env.refl henv₁.inv fun i hi => ?_
        rcases List.mem_cons.mp hi with rfl | hi
        · exact hnew
        · exact henv₁.ids i hi
      refine ih hself₁ (fun e c' s' henv => herr e c' s' (henv₁.trans henv.of_mint)) ?_
      intro rows c₂ s₂ henv₂ hself₂ hwrites hheld hids hrows
      refine hQ _ c₂ s₂ (henv₁.trans henv₂.of_mint) hself₂ hwrites hheld
        (fun i hi => hids (List.mem_cons_of_mem id hi)) fun r hr => ?_
      rcases List.mem_cons.mp hr with rfl | hr
      · exact ⟨route, id, snapshot, bytes, hsnapshot, hbytes, rfl⟩
      · exact hrows r hr

/-- Storing the deliveries of an event, which stays stored. -/
theorem wp_insertDeliveries {rows : List DeliveryRow} {event : EventRow}
    {Q : Unit → RuntimeCtx → RuntimeStore → Prop} (hp : Pending m sc c s)
    (hheld : .event tenantId eventId ∈ c.held)
    (hevent : eventAt (c.visible s.db) tenantId eventId = some event)
    (hrows : ∀ r ∈ rows, IsPublished tenantId eventId now r ∧ sc.new r) (hbegan : Began m x s)
    (hnone : x.op.reportsOn = none)
    (hQ : ∀ c' s', Pending m sc c' s' → .event tenantId eventId ∈ c'.held →
      eventAt (c'.visible s'.db) tenantId eventId = some event → Began m x s' → Q () c' s') :
    m.discipline.wp op Q (m.discipline.raises x) (insertDeliveries rows) c s := by
  induction rows generalizing c s with
  | nil => exact hQ c s hp hheld hevent hbegan
  | cons r rs ih =>
      obtain ⟨hpublished, hnew⟩ := hrows r List.mem_cons_self
      simp only [insertDeliveries, Prog.bind_eq, Discipline.wp_bind]
      refine wp_lift (fun _ _ => ?_) (fun e _ => hbegan.raises hnone e)
      refine wp_insertDelivery hp hpublished.created hnew hbegan hnone ?_
      intro s₁ henv₁ _ hp₁
      refine ih hp₁ (List.mem_cons_of_mem _ hheld) ?_
        (fun r' hr' => hrows r' (List.mem_cons_of_mem _ hr')) (hbegan.env henv₁)
      have hvisible : (c.insert (.delivery r)).visible s₁.db =
          (c.visible s₁.db).put (.delivery r) := by
        simp [Ctx.visible, Ctx.insert, Ctx.change]
      rw [hvisible, eventAt, Pending.get_put_of_ne (by simp [Row.key]), henv₁.visible_get hheld]
      exact hevent

/-- A new event, its deliveries and the record that is returned. -/
theorem wp_publishNew {row : EventRow} {routes : List RouteSpecification}
    (hwrites : c.writes = []) (hfree : (c.visible s.db).get (Row.event row).key = none)
    (hinv : RuntimeInv m s) (hids : ∀ i ∈ c.ids, i ∉ tokens s.db s.log) (hbegan : Began m x s)
    (hnone : x.op.reportsOn = none) (hfinalizes : x.op.finalizes = none)
    (hcompletes : x.op.completes = none) :
    m.discipline.wp op (fun record => m.discipline.returns x (.event record))
      (m.discipline.raises x)
      (do
        let rows ← deliveryRows row.tenantId row.eventId now routes
        insertDeliveries rows
        Tx.lift (eventFromRow row))
      (c.insert (.event row)) s := by
  simp only [Prog.bind_eq, Discipline.wp_bind]
  have hp : Pending m { new := IsPublished row.tenantId row.eventId now } (c.insert (.event row)) s :=
    (Pending.of_writes_nil hwrites).insertEvent (Or.inl hfree)
  refine wp_deliveryRows (Discipline.Env.refl hinv hids)
    (fun e c' s' henv => (hbegan.env henv).raises hnone e) ?_
  intro rows c₁ s₁ henv₁ hself₁ hwrites₁ hheld₁ hids₁ hrows
  have hheld : .event row.tenantId row.eventId ∈ c₁.held := by
    rw [hheld₁]
    exact List.mem_cons_self
  have hevent : eventAt (c₁.visible s₁.db) row.tenantId row.eventId = some row := by
    rw [Ctx.visible, hwrites₁, ← Ctx.visible, eventAt_eq_some]
    exact visible_insert_self _
  refine wp_insertDeliveries ((hp.env henv₁).congr hwrites₁ (hheld₁ ▸ List.Subset.refl _) hids₁)
    hheld hevent (fun r hr => ⟨hrows r hr, hrows r hr⟩) (hbegan.env henv₁) hnone ?_
  intro c₂ s₂ hp₂ hheld₂ hevent₂ hbegan₂
  refine wp_lift (fun record hrecord => ?_) (fun e _ => hbegan₂.raises hnone e)
  refine hp₂.returns hbegan₂ fun s₃ henv₃ => ?_
  refine closing_silent hnone hfinalizes hcompletes (by simp) (by simp) ?_ rfl
  intro r hr
  refine hr.origin ?_ hrecord
  rw [eventAt, henv₃.visible_get hheld₂]
  exact hevent₂

end Publish

theorem publish_sound (m : Mode) (principal : PrincipalEnvelope) (event : Event)
    (routes : List RouteSpecification) (now : Datetime) (dedupe : Option DedupeIdentity) :
    OpSound m (.publish principal event routes now dedupe) := by
  refine opSound_of_began fun s x hinv hallowed hx hbegan => ?_
  have hnone : x.op.reportsOn = none := by rw [hx]; rfl
  have hfinalizes : x.op.finalizes = none := by rw [hx]; rfl
  have hcompletes : x.op.completes = none := by rw [hx]; rfl
  simp only [Op.prog, publish, Prog.bind_eq, Discipline.wp_bind]
  refine wp_lift (fun _ _ => ?_) (fun e _ => hbegan.raises hnone e)
  refine wp_lift (fun canonical _ => ?_) (fun e _ => hbegan.raises hnone e)
  refine wp_newUuid fun s₁ eventId henv₁ _ => ?_
  have hbegan₁ := hbegan.env henv₁
  refine wp_lift (fun _ _ => ?_) (fun e _ => hbegan₁.raises hnone e)
  have hwrites₁ : ((Ctx.init s.db.rows : RuntimeCtx).mint eventId).writes = [] := rfl
  refine wp_insertOrSkip ?_ ?_ (hbegan₁.raises hnone _)
  · -- the event was published before
    intro s₂ henv₂
    have hbegan₂ := hbegan₁.env henv₂
    cases dedupe with
    | none => exact hbegan₂.raises hnone _
    | some identity =>
        simp only [Bool.false_eq_true, if_false, eventForDedupe, Prog.bind_eq, Discipline.wp_bind]
        refine wp_selectAll fun s₃ rows henv₃ _ => ?_
        have hbegan₃ := hbegan₂.env henv₃
        split
        · show m.discipline.wp _ _ _ (ite _ _ _) _ _
          split_ifs
          · exact hbegan₃.raises hnone _
          · refine wp_lift (fun record _ => ?_) (fun e _ => hbegan₃.raises hnone e)
            have hp : Pending m {} (((Ctx.init s.db.rows).mint eventId).see s₃.db.rows) s₃ :=
              .of_writes_nil rfl
            exact returns_silent hp hbegan₃ hnone hfinalizes hcompletes (by simp) (by simp)
        · exact hbegan₃.raises hnone _
  · -- the event is new, and its deliveries follow
    intro _ s₂ henv₂ hfree
    simp only [if_true]
    exact wp_publishNew hwrites₁ hfree henv₂.inv henv₂.ids (hbegan₁.env henv₂) hnone hfinalizes
      hcompletes

end FastapiEffects
