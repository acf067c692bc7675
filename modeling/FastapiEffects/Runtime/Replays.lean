import FastapiEffects.Runtime.Leases
import FastapiEffects.Runtime.Writes

/-! # Replay accountability

Only `publish` and `replay` insert deliveries (`Op.creates`). A replay that returns has
read a terminal delivery and has inserted one copy of its work, and nothing else. So the
deliveries of every reachable database form chains that end in a published one.
-/

namespace FastapiEffects

open Python ReadCommitted

section Accountability

variable [Platform]

/-! ## Operations that insert no delivery -/

/-- A program that inserts no delivery, whatever it meets. -/
def Quiet {α : Type} (p : Tx α) : Prop :=
  p.Inserts (fun r => r.delivery? = none) (fun _ => True) fun _ => True

/-- Every operation but `publish` and `replay` inserts no delivery. -/
theorem quiet_prog (op : Op) (h : ¬ op.creates) : Quiet op.prog := (steady_prog op h).inserts

/-! ## What publishing inserts -/

/-- A result of `publish` for which it inserted the delivery `r`. -/
def Publishes (outcome : Outcome) (r : DeliveryRow) : Prop :=
  r.replayOf = none ∧ ∃ record, outcome = .event record ∧ record.tenantId = r.tenantId ∧
    record.eventId = r.eventId

omit [Platform] in
theorem inserts_lift {α : Type} {P : Row → Prop} {Q : α → Prop} {x : Except PyError α}
    (hQ : ∀ a, x = .ok a → Q a) : (Tx.lift x).Inserts P Q fun _ => True := by
  cases x with
  | error e => trivial
  | ok a => exact hQ a rfl

/-- The deliveries of an event are its own, and none is a replay. -/
theorem inserts_deliveryRows {P : Row → Prop} (tenantId eventId : UUID) (now : Datetime)
    (routes : List RouteSpecification) :
    (deliveryRows tenantId eventId now routes).Inserts P (fun rows => ∀ r ∈ rows,
      r.replayOf = none ∧ r.tenantId = tenantId ∧ r.eventId = eventId) fun _ => True := by
  induction routes with
  | nil => exact fun r hr => absurd hr List.not_mem_nil
  | cons route routes ih =>
      simp only [deliveryRows, Prog.bind_eq, inserts_bind]
      intro deliveryId
      refine inserts_lift fun snapshot _ => inserts_lift fun bytes _ => inserts_mono
        (fun rows hrows => ?_) (fun _ _ => trivial) ih
      intro r hr
      rcases List.mem_cons.mp hr with rfl | hr
      · exact ⟨rfl, rfl, rfl⟩
      · exact hrows r hr

omit [Platform] in
theorem inserts_insertDeliveries {P : Row → Prop} {rows : List DeliveryRow}
    (hrows : ∀ r ∈ rows, P (.delivery r)) :
    (insertDeliveries rows).Inserts P (fun _ => True) fun _ => True := by
  induction rows with
  | nil => trivial
  | cons r rows ih =>
      have hrest := ih fun r' hr' => hrows r' (List.mem_cons_of_mem _ hr')
      simp only [insertDeliveries, insertRow, Prog.bind_eq, inserts_bind]
      cases hcolumns : deliveryColumns r with
      | error e => trivial
      | ok _ =>
          by_cases hchecks : r.checks = true
          · simp only [Tx.lift, Prog.ofExcept_ok, insertOrSkip, if_pos hchecks, Prog.Inserts]
            refine ⟨hrows r List.mem_cons_self, fun inserted => ?_⟩
            cases inserted
            · trivial
            · exact hrest
          · simp only [Tx.lift, Prog.ofExcept_ok, insertOrSkip, if_neg hchecks, Prog.Inserts]

omit [Platform] in
theorem eventFromRow_eq_ok {row : EventRow} {record : EventRecord}
    (h : eventFromRow row = .ok record) : record.toEventRecordArgs = row := by
  unfold eventFromRow EventRecord.make at h
  split at h
  · cases h
    rfl
  · cases h

section Foresees

variable {V : RuntimeStore → Stmt Key Row → RuntimeCtx → Prop} {c : RuntimeCtx} {β : Type}
  {E : PyError → RuntimeCtx → Prop}

theorem foresees_insertOrSkip {checks : Bool} {r : Row} {Q : Bool → RuntimeCtx → Prop}
    (hnew : ∀ s, (c.visible s.db).get r.key = none → V s (.insert r) (c.insert r) →
      Q true (c.insert r)) (hold : Q false c) (hE : E .integrity c) :
    Foresees V Q E (insertOrSkip checks r) c := by
  unfold insertOrSkip
  split
  · refine fun s => ⟨fun _ _ => hold, fun hfree hv => hnew s (Table.get_eq_none_iff.mpr ?_) hv⟩
    intro r' hr' hkey
    have hconflict := List.any_eq_false.mp hfree r' hr'
    have hsame : (Schema.key r : Key) = Schema.key r' := hkey.symm
    simp [Session.conflict, hsame] at hconflict
  · exact hE

theorem foresees_publish (seen : List Row) (principal : PrincipalEnvelope) (event : Event)
    (routes : List RouteSpecification) (now : Datetime) (dedupe : Option DedupeIdentity) :
    Foresees V (fun outcome c => ∀ r, .delivery r ∈ c.inserted → Publishes outcome r)
      (fun _ _ => True) (Op.publish principal event routes now dedupe).prog (Ctx.init seen) := by
  simp only [Op.prog, publish, Prog.bind_eq, foresees_bind]
  refine foresees_ofExcept (fun _ _ => ?_) (fun _ _ => trivial)
  refine foresees_ofExcept (fun payload _ => ?_) (fun _ _ => trivial)
  intro s eventId _
  refine foresees_ofExcept (fun _ _ => ?_) (fun _ _ => trivial)
  refine foresees_insertOrSkip (fun s' _ _ => ?_) ?_ trivial
  · -- the deliveries of the event follow it
    refine foresees_mono (fun record c h r hr => ?_) (fun _ _ _ => trivial)
      (Prog.Inserts.foresees (E := fun _ => True)
        (P := fun row => ∀ r, row = .delivery r →
          r.replayOf = none ∧ r.tenantId = principal.tenantId ∧ r.eventId = eventId)
        (Q := fun record : EventRecord => record.tenantId = principal.tenantId ∧
          record.eventId = eventId) ?_ ?_)
    · obtain ⟨hnone, htenant, hevent⟩ := h.2 _ hr r rfl
      exact ⟨hnone, record, rfl, h.1.1.trans htenant.symm, h.1.2.trans hevent.symm⟩
    · simp only [if_true, inserts_bind]
      refine inserts_mono (fun rows hrows => ?_) (fun _ _ => trivial)
        (inserts_deliveryRows principal.tenantId eventId now routes)
      refine inserts_mono (fun _ _ => ?_) (fun _ _ => trivial)
        (inserts_insertDeliveries fun r hr r' heq => Row.delivery.inj heq ▸ hrows r hr)
      refine inserts_lift fun record hrecord => ?_
      have hrow := eventFromRow_eq_ok hrecord
      exact ⟨congrArg EventRecordArgs.tenantId hrow, congrArg EventRecordArgs.eventId hrow⟩
    · intro row hrow r heq
      rcases List.mem_cons.mp hrow with rfl | hrow
      · cases heq
      · cases hrow
  · -- the event is there already: what follows inserts nothing
    refine foresees_mono (fun record c h r hr => ?_) (fun _ _ _ => trivial)
      (Prog.Inserts.foresees (E := fun _ => True) (P := fun row => row.delivery? = none)
        (Q := fun _ : EventRecord => True) ?_ ?_)
    · have hnone := h.2 _ hr
      cases hnone
    · simp only [Bool.false_eq_true, if_false]
      split
      · trivial
      · refine Prog.Writes.inserts (U := Row.Timely) ?_
        refine steady_bind (steady_bind (steady_selectAll _) fun rows => ?_) fun existing => ?_
        · dsimp only
          split
          · exact steady_ret _
          · exact steady_raise _
        · split
          · exact steady_raise _
          · exact steady_lift _
    · intro row hrow
      cases hrow

/-- What a replay that returns has done: it read a terminal delivery and inserted a copy
of it under a free key. -/
def ReplayDone (V : RuntimeStore → Stmt Key Row → RuntimeCtx → Prop)
    (tenantId deliveryId : UUID) (actor reason : Str) (now : Datetime) (kind : Option Str)
    (outcome : Outcome) (c : RuntimeCtx) : Prop :=
  ∃ s c₁ s' original id record, V s (.read (.delivery tenantId deliveryId)) c₁ ∧
    deliveryAt s.db tenantId deliveryId = some original ∧ original.replayable kind = true ∧
    V s' (.insert (.delivery (replayedDelivery original id actor reason now))) c ∧
    deliveryAt s'.db original.tenantId id = none ∧
    c.writes = [.put (.delivery (replayedDelivery original id actor reason now))] ∧
    .delivery original.tenantId id ∈ c.held ∧
    deliveryFromRow (replayedDelivery original id actor reason now) = .ok record ∧
    outcome = .delivery record

theorem foresees_replay (seen : List Row) (tenantId deliveryId : UUID) (actor reason : Str)
    (now : Datetime) (kind : Option Str) :
    Foresees V (ReplayDone V tenantId deliveryId actor reason now kind) (fun _ _ => True)
      (Op.replay tenantId deliveryId actor reason now kind).prog (Ctx.init seen) := by
  simp only [Op.prog, replay, Prog.bind_eq, foresees_bind]
  refine foresees_ofExcept (fun _ _ => ?_) (fun _ _ => trivial)
  refine foresees_ofExcept (fun _ _ => ?_) (fun _ _ => trivial)
  -- with or without the retention lock
  suffices hrest : ∀ c₁ : RuntimeCtx, c₁.writes = [] → Foresees V _ (fun _ _ => True) _ c₁ by
    unfold lockRetention
    split_ifs
    · exact fun s _ => hrest _ rfl
    · exact hrest _ rfl
  intro c₁ hwrites s₁ id _ s hread
  have hvisible : (c₁.mint id).visible s.db = s.db := by simp [Ctx.visible, Ctx.mint, hwrites]
  simp only [hvisible, Foresees]
  cases horiginal : (s.db.get (.delivery tenantId deliveryId)).bind Row.delivery? with
  | none => trivial
  | some original =>
      dsimp only
      split_ifs with hreplayable
      swap
      · trivial
      simp only [insertRow, Prog.bind_eq, foresees_bind]
      refine foresees_insertOrSkip (fun s' hfree hinsert => ?_) trivial trivial
      refine foresees_ofExcept (fun record hrecord => ?_) (fun _ _ => trivial)
      have hvisible' : (c₁.mint id).visible s'.db = s'.db := by
        simp [Ctx.visible, Ctx.mint, hwrites]
      rw [hvisible'] at hfree
      refine ⟨s, _, s', original, id, record, hread, horiginal, hreplayable, hinsert,
        deliveryAt_eq_none.mpr hfree, ?_, List.mem_cons_self, hrecord, rfl⟩
      simp [Ctx.insert, Ctx.change, Ctx.mint, hwrites]

end Foresees

/-! ## Replays -/

/-- What two deliveries of the same work share. -/
structure SameWork (original copy : DeliveryRow) : Prop where
  tenant : copy.tenantId = original.tenantId
  event : copy.eventId = original.eventId
  route : copy.routeKey = original.routeKey ∧ copy.routeVersion = original.routeVersion
  destination : copy.destinationKind = original.destinationKind ∧
    copy.destinationKey = original.destinationKey
  snapshot : copy.routeSnapshot = original.routeSnapshot ∧
    copy.routeSnapshotBytes = original.routeSnapshotBytes

/-- A transaction that raised and left the rows as they were. -/
def Refused (w w' : RuntimeWorld) (e : Entry Key Row PyError Op Outcome) : Prop :=
  (∃ err, e.result = .error err) ∧ w'.store.db = w.store.db

/-- A replay that returned: the delivery its statement read, and the one row it stored. -/
structure Accepted (now : Datetime) (w w' : RuntimeWorld) (e : Entry Key Row PyError Op Outcome)
    (tenantId deliveryId : UUID) (kind : Option Str) (original copy : DeliveryRow) : Prop where
  read : ∃ t w₁ w₂, Reachable runtime (RuntimeWorld.start now) w₁ ∧ Step runtime w₁ w₂ ∧
    Reachable runtime w₂ w ∧ Answered w₁ w₂ t e.op (.read (.delivery tenantId deliveryId)) ∧
    w.txn t ≠ none ∧ w'.txn t = none ∧ deliveryAt w₁.store.db tenantId deliveryId = some original
  terminal : original.state = .succeeded ∨ original.state = .dead
  kind : ∀ k, kind = some k → original.destinationKind = k
  work : SameWork original copy
  pending : copy.state = .pending
  attempts : copy.attemptsStarted = 0
  replayOf : copy.replayOf = some original.deliveryId
  fresh : deliveryAt w.store.db copy.tenantId copy.deliveryId = none
  stored : w'.store.db = w.store.db.put (.delivery copy)
  returned : ∃ record, deliveryFromRow copy = .ok record ∧ e.result = .ok (.delivery record)

/-- The publication that created a delivery. -/
def PublishedBy (e : Entry Key Row PyError Op Outcome) (r : DeliveryRow) : Prop :=
  (∃ principal event routes now dedupe, e.op = .publish principal event routes now dedupe) ∧
    ∃ outcome, e.result = .ok outcome ∧ Publishes outcome r

/-- `copy` is stored and replays `original`. -/
def ReplayOf (db : Db) (copy original : DeliveryRow) : Prop :=
  deliveryAt db copy.tenantId copy.deliveryId = some copy ∧
    ∃ o, copy.replayOf = some o ∧ deliveryAt db copy.tenantId o = some original

/-- The chains of replays of a store. -/
structure Chains (s : RuntimeStore) : Prop where
  linked : ∀ t d r o, deliveryAt s.db t d = some r → r.replayOf = some o →
    ∃ original, deliveryAt s.db t o = some original ∧ SameWork original r
  acyclic : ∀ r, ¬ Relation.TransGen (ReplayOf s.db) r r
  rooted : ∀ t d r, deliveryAt s.db t d = some r → ∃ root,
    Relation.ReflTransGen (ReplayOf s.db) r root ∧ SameWork root r ∧ ∃ e ∈ s.log, PublishedBy e root

omit [Platform] in
theorem SameWork.refl (r : DeliveryRow) : SameWork r r :=
  ⟨rfl, rfl, ⟨rfl, rfl⟩, ⟨rfl, rfl⟩, rfl, rfl⟩

omit [Platform] in
theorem SameWork.trans {r₁ r₂ r₃ : DeliveryRow} (h : SameWork r₁ r₂) (h' : SameWork r₂ r₃) :
    SameWork r₁ r₃ where
  tenant := h'.tenant.trans h.tenant
  event := h'.event.trans h.event
  route := ⟨h'.route.1.trans h.route.1, h'.route.2.trans h.route.2⟩
  destination := ⟨h'.destination.1.trans h.destination.1, h'.destination.2.trans h.destination.2⟩
  snapshot := ⟨h'.snapshot.1.trans h.snapshot.1, h'.snapshot.2.trans h.snapshot.2⟩

omit [Platform] in
/-- The columns that never change include the work and where it was replayed from. -/
theorem sameWork_of_identity {r r' : DeliveryRow} (h : r'.identity = r.identity) :
    SameWork r r' ∧ r'.replayOf = r.replayOf := by
  simp only [DeliveryRow.identity, DeliveryRow.mk.injEq] at h
  refine ⟨⟨?_, ?_, ⟨?_, ?_⟩, ⟨?_, ?_⟩, ?_, ?_⟩, ?_⟩
  all_goals simp only [h]

omit [Platform] in
theorem sameWork_replayedDelivery (original : DeliveryRow) (id : UUID) (actor reason : Str)
    (now : Datetime) : SameWork original (replayedDelivery original id actor reason now) :=
  ⟨rfl, rfl, ⟨rfl, rfl⟩, ⟨rfl, rfl⟩, rfl, rfl⟩

/-! ### One step -/

section OneStep

variable {now : Datetime} {w w' : RuntimeWorld}

/-- Deliveries stay, with their identity, along every run. -/
theorem Reachable.deliveriesStay {w₁ : RuntimeWorld}
    (hreach : Reachable runtime (RuntimeWorld.start now) w₁) (h : Reachable runtime w₁ w) :
    DeliveriesStay w₁.store.db w.store.db := by
  induction h with
  | refl => exact Mode.free.discipline.grows_refl _
  | @tail w w' hprefix hstep ih =>
      have hpre := hreach.trans hprefix
      rw [← Mode.free_protocol] at hpre hstep
      rcases Mode.step_cases hpre hstep with ⟨hdb, -, -⟩ | ⟨e, -, hcommits⟩
      · rwa [hdb]
      · exact Mode.free.discipline.grows_trans _ _ _ ih hcommits.deliveriesStay

omit [Platform] in
/-- A delivery a transaction adds stands for one it inserted. -/
theorem exists_inserted {db : Db} {c : Ctx Key Row UUID} (h : TxnUnique db c) {t d : UUID}
    {r : DeliveryRow} (hnone : deliveryAt db t d = none)
    (hsome : deliveryAt (c.visible db) t d = some r) :
    ∃ r₀, .delivery r₀ ∈ c.inserted ∧ Schema.Keeps (Row.delivery r₀) (Row.delivery r) := by
  have hget := deliveryAt_eq_some.mp hsome
  have hkey : (Schema.key (Row.delivery r) : Key) = .delivery t d := Table.key_of_get hget
  rcases h.named _ (Table.mem_of_get hget) with ⟨r₀, hr₀, hkeeps⟩ | ⟨r₀, hr₀, hkeeps⟩
  · have hkey₀ : (Schema.key r₀ : Key) = .delivery t d := hkeeps.1.symm.trans hkey
    cases r₀ with
    | delivery r₀ => exact ⟨r₀, hr₀, hkeeps⟩
    | event | attempt | handoff => cases hkey₀
  · have hkey₀ : (Schema.key r₀ : Key) = .delivery t d := hkeeps.1.symm.trans hkey
    exact absurd hkey₀ (Table.get_eq_none_iff.mp (deliveryAt_eq_none.mp hnone) r₀ hr₀)

omit [Platform] in
/-- The unique constraint on published deliveries fixes their event. -/
theorem keeps_published {r₀ r : DeliveryRow} (h : Schema.Keeps (Row.delivery r₀) (Row.delivery r))
    (hnone : r₀.replayOf = none) :
    r.replayOf = none ∧ r.tenantId = r₀.tenantId ∧ r.eventId = r₀.eventId := by
  have hself : Schema.clash (Row.delivery r₀) (Row.delivery r₀) = true := by
    simp [Schema.clash, Row.clash, hnone]
  rw [← h.clash_left] at hself
  simp only [Schema.clash, Row.clash, decide_eq_true_eq] at hself
  exact ⟨Option.isNone_iff_eq_none.mp hself.1, hself.2.2.1, hself.2.2.2.1⟩

/-- A replay is refused, or it stores one copy of a terminal delivery. -/
theorem replay_cases (hreach : Reachable runtime (RuntimeWorld.start now) w)
    (hstep : Step runtime w w') {e : Entry Key Row PyError Op Outcome}
    (hlog : w'.store.log = w.store.log ++ [e]) {tenantId deliveryId : UUID} {actor reason : Str}
    {τ : Datetime} {kind : Option Str} (hop : e.op = .replay tenantId deliveryId actor reason τ kind) :
    Refused w w' e ∨ ∃ original copy, Accepted now w w' e tenantId deliveryId kind original copy := by
  rcases hstep.ends_cases with ⟨-, hsame⟩ | ⟨t, x, hx, hend, ⟨a, hp, hstore⟩ | ⟨err, hp, hstore⟩⟩
  · rw [hlog] at hsame
    simp at hsame
  · -- it returns
    have he : e = x.entry (.ok a) := by
      simpa [hstore, Store.commit] using hlog.symm
    subst he
    have hxop : x.op = .replay tenantId deliveryId actor reason τ kind := hop
    rw [← Mode.free_protocol] at hreach
    have hdone := WorldInv.foreseen (D := Mode.free.discipline) Mode.free.sound
      (worldInv_start Mode.free now) (by simp [RuntimeWorld.start, World.txn]) hreach hx hp
      (Q := ReplayDone _ tenantId deliveryId actor reason τ kind) (E := fun _ _ => True) (by
        rw [hxop]
        exact foresees_replay _ tenantId deliveryId actor reason τ kind)
    obtain ⟨s, c₁, s', original, id, record, hread, horiginal, hreplayable, hinsert, hfree, hwrites,
      hheld, hrecord, hreturned⟩ := hdone
    obtain ⟨w₁, w₂, hpre, hmove, hpost, hanswered, rfl⟩ := hread.world
    change Reachable Mode.free.protocol _ w₁ at hpre
    change Step Mode.free.protocol w₁ w₂ at hmove
    change Reachable Mode.free.protocol w₂ w at hpost
    rw [Mode.free_protocol] at hpre hmove hpost
    simp only [DeliveryRow.replayable, decide_eq_true_eq, Bool.decide_and, Bool.and_eq_true,
      Option.all_eq_true] at hreplayable
    refine Or.inr ⟨original, replayedDelivery original id actor reason τ, ?_⟩
    refine ⟨⟨t, w₁, w₂, hpre, hmove, hpost, hop ▸ hanswered, by simp [hx], hend, horiginal⟩,
      hreplayable.1, ?_, sameWork_replayedDelivery _ _ _ _ _, rfl, rfl, rfl, ?_, ?_,
      ⟨record, hrecord, ?_⟩⟩
    · intro k hk
      exact (hreplayable.2 k hk).symm
    · have hkept := hinsert.held _ hheld
      exact deliveryAt_eq_none.mpr (hkept.trans (deliveryAt_eq_none.mp hfree))
    · rw [hstore, Store.commit, hwrites]
      rfl
    · rw [← hreturned]
      rfl
  · -- it raises
    refine Or.inl ⟨⟨err, ?_⟩, ?_⟩
    · have he : e = x.entry (.error err) := by
        simpa [hstore, Store.commit] using hlog.symm
      rw [he]
      rfl
    · rw [hstore]
      rfl

/-- A step that adds a delivery ends a publication or a replay. -/
theorem created_cases (hreach : Reachable runtime (RuntimeWorld.start now) w)
    (hstep : Step runtime w w') {t d : UUID} {r : DeliveryRow}
    (hnone : deliveryAt w.store.db t d = none) (hsome : deliveryAt w'.store.db t d = some r) :
    ∃ e, w'.store.log = w.store.log ++ [e] ∧ (PublishedBy e r ∨
      ∃ tenantId deliveryId actor reason τ kind,
        e.op = .replay tenantId deliveryId actor reason τ kind) := by
  rcases hstep.ends_cases with ⟨hdb, -⟩ | ⟨u, x, hx, -, ⟨a, hp, hstore⟩ | ⟨err, -, hstore⟩⟩
  · rw [hdb, hnone] at hsome
    cases hsome
  · refine ⟨x.entry (.ok a), by rw [hstore]; rfl, ?_⟩
    rw [← Mode.free_protocol] at hreach
    have hunique := Unique.reachable (D := Mode.free.discipline) Mode.free.sound
      (worldInv_start Mode.free now) (unique_start now) hreach
    rw [hstore] at hsome
    obtain ⟨r₀, hr₀, hkeeps⟩ := exists_inserted (hunique.txn u x hx) hnone hsome
    cases hop : x.op with
    | publish principal event routes τ dedupe =>
        have hforeseen := WorldInv.foreseen (D := Mode.free.discipline) Mode.free.sound
          (worldInv_start Mode.free now) (by simp [RuntimeWorld.start, World.txn]) hreach hx hp
          (E := fun _ _ => True) (by
            rw [hop]
            exact foresees_publish _ principal event routes τ dedupe)
        obtain ⟨hreplay, record, houtcome, htenant, hevent⟩ := hforeseen r₀ hr₀
        obtain ⟨hreplay', htenant', hevent'⟩ := keeps_published hkeeps hreplay
        exact Or.inl ⟨⟨principal, event, routes, τ, dedupe, hop⟩, a, rfl, hreplay', record, houtcome,
          htenant.trans htenant'.symm, hevent.trans hevent'.symm⟩
    | replay tenantId deliveryId actor reason τ kind =>
        exact Or.inr ⟨tenantId, deliveryId, actor, reason, τ, kind, hop⟩
    | _ =>
        -- no other operation inserts a delivery
        have hforeseen := WorldInv.foreseen (D := Mode.free.discipline) Mode.free.sound
          (worldInv_start Mode.free now) (by simp [RuntimeWorld.start, World.txn]) hreach hx hp
          (E := fun _ _ => True) (Prog.Inserts.foresees (quiet_prog x.op (by rw [hop]; exact id))
            (by simp [Ctx.init]))
        have hquiet := hforeseen.2 _ hr₀
        cases hquiet
  · rw [hstore] at hsome
    exact absurd (hnone.symm.trans hsome) (by simp)

end OneStep

/-! ### Chains -/

/-- A delivery whose chain of replays ends in a published one. -/
inductive Rooted (db : Db) (log : History) : DeliveryRow → Prop where
  | published {r} (e) (he : e ∈ log) (hpublished : PublishedBy e r) : Rooted db log r
  | replayed {r original o} (hof : r.replayOf = some o)
      (hstored : deliveryAt db r.tenantId o = some original) (hwork : SameWork original r)
      (hrooted : Rooted db log original) : Rooted db log r

section Chains

variable {db db' : Db} {log log' : History}

/-- Chains stay, whatever becomes of the states of their deliveries. -/
theorem Rooted.stays {r r' : DeliveryRow} (h : Rooted db log r) (hstay : DeliveriesStay db db')
    (hlog : log ⊆ log') (hid : r'.identity = r.identity) : Rooted db' log' r' := by
  induction h generalizing r' with
  | @published r e he hpublished =>
      obtain ⟨hwork, hreplay⟩ := sameWork_of_identity hid
      obtain ⟨hop, outcome, hresult, hnone, record, hrecord, htenant, hevent⟩ := hpublished
      exact .published e (hlog he) ⟨hop, outcome, hresult, hreplay.trans hnone, record, hrecord,
        htenant.trans hwork.tenant.symm, hevent.trans hwork.event.symm⟩
  | @replayed r original o hof hstored hwork hrooted ih =>
      obtain ⟨hsame, hreplay⟩ := sameWork_of_identity hid
      obtain ⟨original', hstored', hid'⟩ := hstay _ _ _ hstored
      have hback := (sameWork_of_identity hid'.symm).1
      rw [← hsame.tenant] at hstored'
      exact .replayed (hreplay.trans hof) hstored' ((hback.trans hwork).trans hsame) (ih hid')

omit [Platform] in
/-- A replay has one original. -/
theorem ReplayOf.unique {r r₁ r₂ : DeliveryRow} (h₁ : ReplayOf db r r₁) (h₂ : ReplayOf db r r₂) :
    r₁ = r₂ := by
  obtain ⟨-, o, hof, hstored⟩ := h₁
  obtain ⟨-, o', hof', hstored'⟩ := h₂
  rw [hof] at hof'
  cases hof'
  exact Option.some.inj (hstored.symm.trans hstored')

/-- No chain of replays goes on for ever. -/
theorem Rooted.acc {r : DeliveryRow} (h : Rooted db log r) :
    Acc (fun original copy => ReplayOf db copy original) r := by
  induction h with
  | published e he hpublished =>
      refine ⟨_, ?_⟩
      rintro original ⟨-, o, hof, -⟩
      rw [hpublished.2.choose_spec.2.1] at hof
      cases hof
  | @replayed r original o hof hstored hwork hrooted ih =>
      refine ⟨_, fun original' hreplay => ?_⟩
      obtain ⟨-, o', hof', hstored'⟩ := hreplay
      rw [hof] at hof'
      cases hof'
      rw [hstored] at hstored'
      cases hstored'
      exact ih

omit [Platform] in
/-- A chain that comes back goes on for ever. -/
theorem not_cycle_of_acc {α : Type} {R : α → α → Prop} {a : α} (h : Acc R a) :
    ¬ Relation.TransGen (fun x y => R y x) a a := by
  induction h with
  | intro a _ ih =>
      intro hcycle
      obtain ⟨b, hab, hba⟩ := Relation.TransGen.head'_iff.mp hcycle
      exact ih b hab (Relation.TransGen.tail' hba hab)

theorem Rooted.root {r : DeliveryRow} (h : Rooted db log r)
    (hr : deliveryAt db r.tenantId r.deliveryId = some r) :
    ∃ root, Relation.ReflTransGen (ReplayOf db) r root ∧ SameWork root r ∧
      ∃ e ∈ log, PublishedBy e root := by
  induction h with
  | @published r e he hpublished => exact ⟨r, .refl, .refl r, e, he, hpublished⟩
  | @replayed r original o hof hstored hwork hrooted ih =>
      have hkey := deliveryAt_key hstored
      rw [← hkey.1, ← hkey.2] at hstored
      obtain ⟨root, hpath, hsame, hpublished⟩ := ih hstored
      refine ⟨root, .head ⟨hr, o, hof, ?_⟩ hpath, hsame.trans hwork, hpublished⟩
      rwa [hkey.1, hkey.2] at hstored

end Chains

/-- Every stored delivery is rooted. -/
theorem rooted_of_reachable {now : Datetime} {w : RuntimeWorld}
    (hreach : Reachable runtime (RuntimeWorld.start now) w) :
    ∀ t d r, deliveryAt w.store.db t d = some r → Rooted w.store.db w.store.log r := by
  induction hreach with
  | refl =>
      intro t d r hr
      simp [RuntimeWorld.start, deliveryAt] at hr
  | @tail w w' hprefix hstep ih =>
      have hstay := Reachable.deliveriesStay hprefix (.single hstep)
      have hlog : w.store.log ⊆ w'.store.log := by
        rcases hstep.ends_cases with ⟨-, hsame⟩ | ⟨t, x, -, -, ⟨a, -, hstore⟩ | ⟨err, -, hstore⟩⟩
        · rw [hsame]
          exact List.Subset.refl _
        · rw [hstore]
          exact List.subset_append_left _ _
        · rw [hstore]
          exact List.subset_append_left _ _
      intro t d r' hr'
      cases hr : deliveryAt w.store.db t d with
      | some r =>
          obtain ⟨r'', hr'', hid⟩ := hstay t d r hr
          rw [hr'] at hr''
          cases hr''
          exact (ih t d r hr).stays hstay hlog hid
      | none =>
          obtain ⟨e, hentry, hcreated⟩ := created_cases hprefix hstep hr hr'
          rcases hcreated with hpublished | ⟨tenantId, deliveryId, actor, reason, τ, kind, hop⟩
          · exact .published e (hentry ▸ List.mem_append_right _ (List.mem_singleton.mpr rfl))
              hpublished
          rcases replay_cases hprefix hstep hentry hop with ⟨-, hdb⟩ | ⟨original, copy, haccepted⟩
          · rw [hdb, hr] at hr'
            cases hr'
          -- the new delivery is the copy
          have hcopy : r' = copy := by
            rw [haccepted.stored, deliveryAt, Table.get_put] at hr'
            split_ifs at hr' with hkey
            · exact (Option.some.inj hr').symm
            · rw [← deliveryAt, hr] at hr'
              cases hr'
          subst hcopy
          obtain ⟨u, w₁, w₂, hpre, hmove, hpost, -, -, -, horiginal⟩ := haccepted.read
          obtain ⟨stored, hstored, hid⟩ := Reachable.deliveriesStay hpre (.head hmove hpost) _ _ _
            horiginal
          obtain ⟨stored', hstored', hid'⟩ := hstay _ _ _ hstored
          have hkey := deliveryAt_key horiginal
          have hback := (sameWork_of_identity (hid'.trans hid).symm).1
          refine .replayed haccepted.replayOf ?_ (hback.trans haccepted.work)
            ((ih _ _ _ hstored).stays hstay hlog hid')
          rw [haccepted.work.tenant, hkey.1, hkey.2]
          exact hstored'

/-- A replay is refused with the rows as they were, or it stores exactly one pending copy
of a delivery that was terminal when its statement read it. Whatever the order of replays,
claims and finalizations, the chains of replays are acyclic, stay within one tenant and
one event, and end in deliveries that were published. -/
theorem replay_accountable {now : Datetime} {w : RuntimeWorld}
    (hreach : Reachable runtime (RuntimeWorld.start now) w) :
    (∀ w' e, Step runtime w w' → w'.store.log = w.store.log ++ [e] →
      ∀ tenantId deliveryId actor reason τ kind,
        e.op = .replay tenantId deliveryId actor reason τ kind →
        Refused w w' e ∨
          ∃ original copy, Accepted now w w' e tenantId deliveryId kind original copy) ∧
    Chains w.store := by
  refine ⟨fun w' e hstep hlog tenantId deliveryId actor reason τ kind hop =>
    replay_cases hreach hstep hlog hop, ?_⟩
  have hrooted := rooted_of_reachable hreach
  refine ⟨?_, ?_, ?_⟩
  · intro t d r o hr hof
    cases hrooted t d r hr with
    | published e he hpublished =>
        obtain ⟨-, outcome, -, hnone, -⟩ := hpublished
        rw [hof] at hnone
        cases hnone
    | @replayed _ original o' hof' hstored hwork _ =>
        rw [hof] at hof'
        cases hof'
        rw [(deliveryAt_key hr).1] at hstored
        exact ⟨original, hstored, hwork⟩
  · intro r hcycle
    obtain ⟨original, ⟨hr, -⟩, -⟩ := Relation.TransGen.head'_iff.mp hcycle
    exact not_cycle_of_acc (hrooted _ _ r hr).acc hcycle
  · intro t d r hr
    refine (hrooted t d r hr).root ?_
    rw [(deliveryAt_key hr).1, (deliveryAt_key hr).2]
    exact hr

end Accountability

namespace Scenario

/-- Delivery 101 has expired unclaimed, and its replay, delivery 102, has only to commit. -/
def replaying : List (Act UUID Op) :=
  published ++ [.tick 2000000000, .start (.claim 0 5 5), .step 1, .step 1, .step 1, .step 1, .step 1,
    .step 1, .start (.replay 1 101 "a" "r" 2000000000 none), .mint 2 102, .step 2, .step 2]

end Scenario

open Scenario in
/-- Delivery 101 expires before it is claimed, and is replayed as delivery 102. -/
theorem replay_accountable_expired : ∃ (w w' : RuntimeWorld)
    (e : Entry Key Row PyError Op Outcome) (original copy : DeliveryRow),
    w'.store.log = w.store.log ++ [e] ∧ Accepted 0 w w' e 1 101 none original copy ∧
      Chains w.store := by
  have hrun : ((RuntimeWorld.start 0).run runtime replaying).any (fun w =>
      (w.act runtime (.step 2)).any fun w' =>
        w'.store.log.length = w.store.log.length + 1 ∧ w'.store.log.getLast?.any fun e =>
          (match e.op with
          | .replay t d _ _ _ kind => decide (t = 1 ∧ d = 101 ∧ kind = none)
          | _ => false) && match e.result with
            | .ok _ => true
            | .error _ => false) = true := by
    decide +kernel
  simp only [Option.any_eq_true, decide_eq_true_eq, Bool.and_eq_true] at hrun
  obtain ⟨w, hw, w', hw', hlength, e, hlast, hop, hok⟩ := hrun
  have hlog := (World.step_of_act hw').log_append hlength hlast
  split at hop
  · rename_i t d actor reason τ kind heq
    obtain ⟨rfl, rfl, rfl⟩ := of_decide_eq_true hop
    obtain ⟨hcases, hchains⟩ := replay_accountable (World.run_reachable hw)
    rcases hcases w' e (World.step_of_act hw') hlog _ _ _ _ _ _ heq with ⟨⟨err, herr⟩, -⟩ |
      ⟨original, copy, haccepted⟩
    · rw [herr] at hok
      cases hok
    · exact ⟨w, w', e, original, copy, hlog, haccepted, hchains⟩
  · cases hop

end FastapiEffects
