import FastapiEffects.ReadCommitted.Serializable
import FastapiEffects.Webhooks.Subscriptions

/-! # The history of subscriptions

The operations on subscriptions as a system of transactions. Each locks the head row of its
subscription, so that its commit has the effect the operation would have alone: `Effect`
says which, and `webhooks_sound` that every interleaving has it.
-/

namespace FastapiEffects

open Python ReadCommitted

/-! ## The system -/

/-- The operations, each a transaction of its own. -/
inductive WebhookOp where
  | addSecretSet (row : SecretSetRow)
  | create (principal : Principal) (exactEventTypes : List Str) (endpointUrl : Str)
      (retryPolicy : RetryPolicy) (secretSetId : UUID) (now : Datetime) (autoPauseThreshold : ℤ)
  | update (principal : Principal) (subscriptionId : UUID) (expectedRevision : ℤ)
      (exactEventTypes : List Str) (endpointUrl : Str) (retryPolicy : RetryPolicy)
      (secretSetId : UUID) (now : Datetime)
  | setState (principal : Principal) (subscriptionId : UUID) (expectedRevision : ℤ)
      (state : SubscriptionState) (now : Datetime) (action : Option Str)
  | recordSuccess (tenantId subscriptionId : UUID) (now : Datetime)
  | recordFailure (tenantId subscriptionId : UUID) (now : Datetime)
  | publish (tenantId eventId : UUID) (eventType : Str) (now : Datetime)

/-- What an operation returns. -/
inductive WebhookOutcome where
  | subscription (s : WebhookSubscription)
  | done

variable [Platform] [Urllib]

/-- The transaction of an operation. -/
def WebhookOp.prog : WebhookOp → WebhookTx WebhookOutcome
  | .addSecretSet row => do
      WebhookTx.insertRow (.secretSet row)
      return .done
  | .create principal types url policy set now threshold =>
      return .subscription (← SubscriptionRepository.create principal types url policy set now threshold)
  | .update principal id revision types url policy set now =>
      return .subscription (← SubscriptionRepository.update principal id revision types url policy set now)
  | .setState principal id revision state now action =>
      return .subscription (← SubscriptionRepository.setState principal id revision state now action)
  | .recordSuccess tenantId id now => do
      WebhookHealthRepository.recordSuccess tenantId id now
      return .done
  | .recordFailure tenantId id now => do
      WebhookHealthRepository.recordFailure tenantId id now
      return .done
  | .publish tenantId eventId eventType now => do
      let routes ← WebhookRouteProvider.routesFor tenantId eventType
      WebhookRouteProvider.storeDeliveries tenantId eventId now routes
      return .done

/-- The operations on PostgreSQL. -/
def webhooks : Protocol WebhookKey WebhookRow UUID PyError WebhookOp WebhookOutcome where
  prog := WebhookOp.prog
  allowed _ _ := True
  guard _ _ _ _ := True

instance (s : Store WebhookKey WebhookRow PyError WebhookOp WebhookOutcome) (op : WebhookOp) :
    Decidable (webhooks.allowed s op) := inferInstanceAs (Decidable True)

instance (op : WebhookOp) (seen : List WebhookRow) (y : WebhookKey) (row : Option WebhookRow) :
    Decidable (webhooks.guard op seen y row) := inferInstanceAs (Decidable True)

/-- The state of the whole system. -/
abbrev WebhookWorld := World WebhookKey WebhookRow UUID PyError WebhookOp WebhookOutcome

/-- The system before anything happened. -/
def WebhookWorld.start (now : Datetime) : WebhookWorld where
  store := ⟨Table.empty, now, []⟩
  owner _ := none
  minted _ := none
  txns := []

omit [Platform] [Urllib] in
/-- The stored head of a subscription. -/
def headAt (db : WebhookDb) (tenantId subscriptionId : UUID) : Option WebhookSubscriptionRow :=
  (db.get (.subscription tenantId subscriptionId)).bind WebhookRow.subscription?

/-! ## Effects -/

/-- What the arguments of a version become in its columns. -/
structure Columns (types : List Str) (url : Str) (policy : RetryPolicy) (eventTypes : List Str)
    (endpoint : EndpointTarget) (json : Json) : Prop where
  eventTypes : normalizeEventTypes types = .ok eventTypes
  endpoint : parseEndpoint url true [443] = .ok endpoint
  policy : policy.toDict = .ok json

open SubscriptionRepository WebhookHealthRepository in
/-- What an operation that returns does to the rows. -/
def WebhookOp.Effect (db db' : WebhookDb) : WebhookOp → Prop
  | .addSecretSet row => db.get (.secretSet row.tenantId row.secretSetId) = none ∧
      db' = db.put (.secretSet row)
  | .create principal types url policy set now threshold =>
      ∃ id auditId eventTypes endpoint json, Columns types url policy eventTypes endpoint json ∧
        1 ≤ threshold ∧ db.get (.subscription principal.tenantId id) = none ∧
        db.get (.version principal.tenantId id 1) = none ∧
        db.get (.audit principal.tenantId auditId) = none ∧
        db' = ((db.put (.subscription (newHead principal id threshold now))).put
          (.version (SubscriptionRepository.newVersion principal id 1 eventTypes endpoint json set now))).put
            (.audit (auditRow principal auditId "subscription.created" id now
              (.obj [("version", .int 1)])))
  | .update principal id revision types url policy set now =>
      ∃ head auditId eventTypes endpoint json, Columns types url policy eventTypes endpoint json ∧
        headAt db principal.tenantId id = some head ∧ head.revision = revision ∧
        db.get (.version principal.tenantId id (head.currentVersion + 1)) = none ∧
        db.get (.audit principal.tenantId auditId) = none ∧
        db' = ((db.put (.subscription
            { touched head principal now with currentVersion := head.currentVersion + 1 })).put
          (.version (SubscriptionRepository.newVersion principal id (head.currentVersion + 1) eventTypes endpoint json set
            now))).put
            (.audit (auditRow principal auditId "subscription.updated" id now
              (.obj [("version", .int (head.currentVersion + 1))])))
  | .setState principal id revision state now action =>
      ∃ head auditId, headAt db principal.tenantId id = some head ∧ head.revision = revision ∧
        db.get (.audit principal.tenantId auditId) = none ∧
        db' = (db.put (.subscription { touched head principal now with state })).put
          (.audit (auditRow principal auditId (stateAction state action) id now
            (.obj [("revision", .int (head.revision + 1))])))
  | .recordSuccess tenantId id now => ∃ head, headAt db tenantId id = some head ∧
      db' = if head.failureStreak = 0 then db else db.put (.subscription (succeeded head now))
  | .recordFailure tenantId id now => ∃ head, headAt db tenantId id = some head ∧
      if pauses (failed head now) then
        ∃ auditId, db.get (.audit tenantId auditId) = none ∧
          db' = (db.put (.subscription { failed head now with state := .paused })).put
            (.audit (pauseAudit (failed head now) auditId now))
      else db' = db.put (.subscription (failed head now))
  | .publish _ _ _ _ => ∃ rows : List DeliveryRow,
      (∀ r ∈ rows, db.get (.delivery r.tenantId r.deliveryId) = none) ∧
        db' = db.install (rows.map fun r => .put (.delivery r))

/-- The effect of the transactions of the log. -/
def webhookEffect (op : WebhookOp) (_ : WebhookOutcome) (db db' : WebhookDb) : Prop :=
  op.Effect db db'

/-- The discipline of the system. -/
abbrev webhookDiscipline :
    Discipline WebhookKey WebhookRow UUID PyError WebhookOp WebhookOutcome :=
  webhooks.serial webhookEffect

/-! ## Statements -/

/-- What a transaction of the system holds. -/
abbrev WebhookCtx := Ctx WebhookKey WebhookRow UUID

/-- The committed state. -/
abbrev WebhookStore := Store WebhookKey WebhookRow PyError WebhookOp WebhookOutcome

namespace WebhookTx

section Statements

variable {α : Type} {op : WebhookOp} {c : WebhookCtx} {s : WebhookStore}

theorem wp_lift {x : Except PyError α} {Q : α → WebhookCtx → WebhookStore → Prop}
    (h : ∀ a, x = .ok a → Q a c s) :
    webhookDiscipline.wp op Q (fun _ _ _ => True) (WebhookTx.lift x) c s :=
  Discipline.wp_ofExcept h fun _ _ => trivial

theorem wp_newUuid {Q : UUID → WebhookCtx → WebhookStore → Prop}
    (h : ∀ s' i, webhookDiscipline.Env c s s' → Q i (c.mint i) s') :
    webhookDiscipline.wp op Q (fun _ _ _ => True) newUuid c s :=
  fun s' i henv _ _ => h s' i henv

theorem wp_insertRow {r : WebhookRow} {Q : Unit → WebhookCtx → WebhookStore → Prop}
    (h : ∀ s', (∀ x row, Knows c s x row → Knows (c.insert r) s' x row) →
      (c.visible s'.db).rows.any (Session.conflict (κ := WebhookKey) r) = false →
        Q () (c.insert r) s') :
    webhookDiscipline.wp op Q (fun _ _ _ => True) (insertRow r) c s := by
  simp only [insertRow, Prog.bind_eq, Discipline.wp_bind]
  refine wp_lift fun _ _ => ?_
  intro s' henv
  exact ⟨fun _ => trivial, h s' fun x row hknows => (hknows.env henv).mono (held_insert _)⟩

theorem wp_updateRow {r : WebhookRow} {Q : Unit → WebhookCtx → WebhookStore → Prop}
    (h : ∀ s', webhookDiscipline.Env c s s' →
      (∃ r₀, (c.visible s'.db).get r.key = some r₀) ∧ Q () (c.change (.put r)) s') :
    webhookDiscipline.wp op Q (fun _ _ _ => True) (updateRow r) c s := by
  simp only [updateRow, Prog.bind_eq, Discipline.wp_bind]
  refine wp_lift fun _ _ => ?_
  intro s' henv
  obtain ⟨⟨r₀, hr₀⟩, hQ⟩ := h s' henv
  exact ⟨⟨r₀, hr₀, (Table.key_of_get hr₀).symm, fun _ => rfl⟩, hQ⟩

theorem wp_lockHead {tenantId subscriptionId : UUID} {missing : String}
    {Q : WebhookSubscriptionRow → WebhookCtx → WebhookStore → Prop} (hwrites : c.writes = [])
    (h : ∀ s' c' head, webhookDiscipline.Env c s s' → c'.writes = [] →
      Knows c' s' (.subscription tenantId subscriptionId) (some (.subscription head)) → Q head c' s') :
    webhookDiscipline.wp op Q (fun _ _ _ => True) (lockHead tenantId subscriptionId missing) c s := by
  intro s' henv
  refine wp_lift fun head hhead => ?_
  obtain ⟨row, hrow, hsub⟩ := Option.bind_eq_some_iff.mp (orRaise_eq_ok.mp hhead)
  have hsame : row = .subscription head := by
    cases row <;> cases hsub
    rfl
  rw [hsame] at hrow
  refine h s' _ head henv ?_ (knows_holdRow hwrites hrow)
  rw [hrow]
  exact hwrites

/-- `UPDATE` of a head that is locked. -/
theorem wp_updateHead {tenantId subscriptionId : UUID} {head head' : WebhookSubscriptionRow}
    {Q : Unit → WebhookCtx → WebhookStore → Prop} (hwrites : c.writes = [])
    (hknows : Knows c s (.subscription tenantId subscriptionId) (some (.subscription head)))
    (htenant : head'.tenantId = head.tenantId) (hid : head'.subscriptionId = head.subscriptionId)
    (h : ∀ s', webhookDiscipline.Env c s s' →
      Knows (c.change (.put (.subscription head'))) s' (.subscription tenantId subscriptionId)
        (some (.subscription head)) →
      (c.change (.put (.subscription head'))).writes = [WebhookRow.subscription head'].map .put →
      Q () (c.change (.put (.subscription head'))) s') :
    webhookDiscipline.wp op Q (fun _ _ _ => True) (updateRow (.subscription head')) c s := by
  refine wp_updateRow fun s' henv => ⟨⟨.subscription head, ?_⟩, ?_⟩
  · have hkey : (WebhookRow.subscription head).key = .subscription tenantId subscriptionId :=
      Table.key_of_get hknows.2
    have hsame : (WebhookRow.subscription head').key = .subscription tenantId subscriptionId := by
      rw [← hkey]
      change WebhookKey.subscription _ _ = .subscription _ _
      rw [htenant, hid]
    rw [hsame, Ctx.visible, hwrites]
    exact (hknows.env henv).2
  · refine h s' henv ((hknows.env henv).mono (held_change _)) ?_
    rw [Ctx.change, hwrites]
    rfl

end Statements

end WebhookTx

/-! ## Every operation has its effect -/

section Sound

variable {s : WebhookStore}

omit [Platform] [Urllib] in
/-- A known head is the stored one. -/
theorem headAt_of_get {db : WebhookDb} {tenantId id : UUID} {head : WebhookSubscriptionRow}
    (h : db.get (.subscription tenantId id) = some (.subscription head)) :
    headAt db tenantId id = some head := by
  rw [headAt, h]
  rfl

omit [Platform] [Urllib] in
theorem get_of_headAt {db : WebhookDb} {tenantId id : UUID} {head : WebhookSubscriptionRow}
    (h : headAt db tenantId id = some head) :
    db.get (.subscription tenantId id) = some (.subscription head) ∧ head.tenantId = tenantId ∧
      head.subscriptionId = id := by
  obtain ⟨row, hrow, hsub⟩ := Option.bind_eq_some_iff.mp h
  cases row with
  | subscription r =>
      cases hsub
      have hkey : (WebhookRow.subscription head).key = .subscription tenantId id :=
        Table.key_of_get hrow
      obtain ⟨htenant, hid⟩ := WebhookKey.subscription.inj hkey
      exact ⟨hrow, htenant, hid⟩
  | _ => cases hsub

theorem addSecretSet_effective (row : SecretSetRow) :
    webhookDiscipline.wp (.addSecretSet row)
      (webhooks.Effective webhookEffect (.addSecretSet row)) (fun _ _ _ => True)
      (WebhookOp.prog (.addSecretSet row)) (Ctx.init s.db.rows) s := by
  simp only [WebhookOp.prog, Prog.bind_eq, Discipline.wp_bind]
  refine WebhookTx.wp_insertRow fun s₁ _ hnew => ?_
  have hfree := knows_insert (l := []) rfl hnew
  exact fun s₂ henv₂ => ⟨(hfree.env henv₂).2, rfl⟩

theorem create_effective (principal : Principal) (types : List Str) (url : Str)
    (policy : RetryPolicy) (set : UUID) (now : Datetime) (threshold : ℤ) :
    webhookDiscipline.wp (.create principal types url policy set now threshold)
      (webhooks.Effective webhookEffect (.create principal types url policy set now threshold))
      (fun _ _ _ => True) (WebhookOp.prog (.create principal types url policy set now threshold))
      (Ctx.init s.db.rows) s := by
  simp only [WebhookOp.prog, SubscriptionRepository.create, SubscriptionRepository.requireSecretSet,
    Prog.bind_eq, Discipline.wp_bind]
  refine WebhookTx.wp_lift fun eventTypes htypes => ?_
  refine WebhookTx.wp_lift fun endpoint hendpoint => ?_
  refine WebhookTx.wp_lift fun _ hthreshold => ?_
  intro s₁ _
  refine WebhookTx.wp_lift fun _ _ => ?_
  refine WebhookTx.wp_newUuid fun s₂ id _ => ?_
  refine WebhookTx.wp_lift fun json hjson => ?_
  refine WebhookTx.wp_newUuid fun s₃ auditId _ => ?_
  refine WebhookTx.wp_insertRow fun s₄ _ hnew₄ => ?_
  have hhead := knows_insert (l := []) rfl hnew₄
  refine WebhookTx.wp_insertRow fun s₅ hkeep₅ hnew₅ => ?_
  have hversion := knows_insert (l := [_]) rfl hnew₅
  have hhead := hkeep₅ _ _ hhead
  refine WebhookTx.wp_insertRow fun s₆ hkeep₆ hnew₆ => ?_
  have haudit := knows_insert (l := [_, _]) rfl hnew₆
  have hhead := hkeep₆ _ _ hhead
  have hversion := hkeep₆ _ _ hversion
  refine WebhookTx.wp_lift fun _ _ => ?_
  intro s₇ henv₇
  have hbounds : 1 ≤ threshold ∧ threshold ≤ 10000 := of_decide_eq_true (check_eq_ok.mp hthreshold)
  exact ⟨id, auditId, eventTypes, endpoint, json, ⟨htypes, hendpoint, hjson⟩, hbounds.1,
    (hhead.env henv₇).2, (hversion.env henv₇).2, (haudit.env henv₇).2, rfl⟩

theorem update_effective (principal : Principal) (id : UUID) (revision : ℤ) (types : List Str)
    (url : Str) (policy : RetryPolicy) (set : UUID) (now : Datetime) :
    webhookDiscipline.wp (.update principal id revision types url policy set now)
      (webhooks.Effective webhookEffect (.update principal id revision types url policy set now))
      (fun _ _ _ => True) (WebhookOp.prog (.update principal id revision types url policy set now))
      (Ctx.init s.db.rows) s := by
  simp only [WebhookOp.prog, SubscriptionRepository.update, SubscriptionRepository.lockedHead,
    SubscriptionRepository.requireSecretSet, Prog.bind_eq, Discipline.wp_bind]
  refine WebhookTx.wp_lockHead rfl fun s₁ c₁ head _ hwrites hknows => ?_
  refine WebhookTx.wp_lift fun _ hrevision => ?_
  refine WebhookTx.wp_lift fun eventTypes htypes => ?_
  refine WebhookTx.wp_lift fun endpoint hendpoint => ?_
  intro s₂ henv₂
  refine WebhookTx.wp_lift fun _ _ => ?_
  refine WebhookTx.wp_lift fun json hjson => ?_
  refine WebhookTx.wp_newUuid fun s₃ auditId henv₃ => ?_
  have hknows := ((hknows.env henv₂).env henv₃).mint auditId
  refine WebhookTx.wp_updateHead hwrites hknows rfl rfl fun s₄ _ hknows hwrites₄ => ?_
  refine WebhookTx.wp_insertRow fun s₅ hkeep₅ hnew₅ => ?_
  have hversion := knows_insert hwrites₄ hnew₅
  have hknows := hkeep₅ _ _ hknows
  refine WebhookTx.wp_insertRow fun s₆ hkeep₆ hnew₆ => ?_
  have haudit := knows_insert (writes_insert hwrites₄) hnew₆
  have hknows := hkeep₆ _ _ hknows
  have hversion := hkeep₆ _ _ hversion
  refine WebhookTx.wp_lift fun _ _ => ?_
  intro s₇ henv₇
  refine ⟨head, auditId, eventTypes, endpoint, json, ⟨htypes, hendpoint, hjson⟩,
    headAt_of_get (hknows.env henv₇).2, of_decide_eq_true (check_eq_ok.mp hrevision),
    (hversion.env henv₇).2, (haudit.env henv₇).2, ?_⟩
  rw [writes_insert (writes_insert hwrites₄)]
  rfl

theorem setState_effective (principal : Principal) (id : UUID) (revision : ℤ)
    (state : SubscriptionState) (now : Datetime) (action : Option Str) :
    webhookDiscipline.wp (.setState principal id revision state now action)
      (webhooks.Effective webhookEffect (.setState principal id revision state now action))
      (fun _ _ _ => True) (WebhookOp.prog (.setState principal id revision state now action))
      (Ctx.init s.db.rows) s := by
  simp only [WebhookOp.prog, SubscriptionRepository.setState, SubscriptionRepository.lockedHead,
    SubscriptionRepository.currentVersion, Prog.bind_eq, Discipline.wp_bind]
  refine WebhookTx.wp_lockHead rfl fun s₁ c₁ head _ hwrites hknows => ?_
  refine WebhookTx.wp_lift fun _ hrevision => ?_
  refine WebhookTx.wp_updateHead hwrites hknows rfl rfl fun s₂ _ hknows hwrites₂ => ?_
  intro s₃ henv₃
  refine WebhookTx.wp_lift fun _ _ => ?_
  refine WebhookTx.wp_newUuid fun s₄ auditId henv₄ => ?_
  have hknows := ((hknows.env henv₃).env henv₄).mint auditId
  refine WebhookTx.wp_insertRow fun s₅ hkeep₅ hnew₅ => ?_
  have haudit := knows_insert (writes_mint auditId hwrites₂) hnew₅
  have hknows := hkeep₅ _ _ hknows
  refine WebhookTx.wp_lift fun _ _ => ?_
  intro s₆ henv₆
  refine ⟨head, auditId, headAt_of_get (hknows.env henv₆).2,
    of_decide_eq_true (check_eq_ok.mp hrevision), (haudit.env henv₆).2, ?_⟩
  rw [writes_insert (writes_mint auditId hwrites₂)]
  rfl

theorem recordSuccess_effective (tenantId id : UUID) (now : Datetime) :
    webhookDiscipline.wp (.recordSuccess tenantId id now)
      (webhooks.Effective webhookEffect (.recordSuccess tenantId id now)) (fun _ _ _ => True)
      (WebhookOp.prog (.recordSuccess tenantId id now)) (Ctx.init s.db.rows) s := by
  simp only [WebhookOp.prog, WebhookHealthRepository.recordSuccess, WebhookHealthRepository.locked,
    Prog.bind_eq, Discipline.wp_bind]
  refine WebhookTx.wp_lockHead rfl fun s₁ c₁ head _ hwrites hknows => ?_
  split_ifs with hstreak
  · refine WebhookTx.wp_updateHead hwrites hknows rfl rfl fun s₂ _ hknows hwrites₂ => ?_
    intro s₃ henv₃
    refine ⟨head, headAt_of_get (hknows.env henv₃).2, ?_⟩
    rw [if_neg hstreak, hwrites₂]
    rfl
  · intro s₂ henv₂
    refine ⟨head, headAt_of_get (hknows.env henv₂).2, ?_⟩
    rw [if_pos (not_not.mp hstreak), hwrites, Table.install_nil]

theorem recordFailure_effective (tenantId id : UUID) (now : Datetime) :
    webhookDiscipline.wp (.recordFailure tenantId id now)
      (webhooks.Effective webhookEffect (.recordFailure tenantId id now)) (fun _ _ _ => True)
      (WebhookOp.prog (.recordFailure tenantId id now)) (Ctx.init s.db.rows) s := by
  simp only [WebhookOp.prog, WebhookHealthRepository.recordFailure, WebhookHealthRepository.locked,
    Prog.bind_eq, Discipline.wp_bind]
  refine WebhookTx.wp_lockHead rfl fun s₁ c₁ head _ hwrites hknows => ?_
  have htenant := (get_of_headAt (headAt_of_get hknows.2)).2.1
  split_ifs with hpauses
  · simp only [Discipline.wp_bind]
    refine WebhookTx.wp_newUuid fun s₂ auditId henv₂ => ?_
    have hknows := (hknows.env henv₂).mint auditId
    refine WebhookTx.wp_updateHead hwrites hknows rfl rfl fun s₃ _ hknows hwrites₃ => ?_
    refine WebhookTx.wp_insertRow fun s₄ hkeep₄ hnew₄ => ?_
    have haudit := knows_insert hwrites₃ hnew₄
    have hknows := hkeep₄ _ _ hknows
    intro s₅ henv₅
    refine ⟨head, headAt_of_get (hknows.env henv₅).2, ?_⟩
    rw [if_pos hpauses]
    refine ⟨auditId, ?_, ?_⟩
    · rw [← htenant]
      exact (haudit.env henv₅).2
    · rw [writes_insert hwrites₃]
      rfl
  · refine WebhookTx.wp_updateHead hwrites hknows rfl rfl fun s₂ _ hknows hwrites₂ => ?_
    intro s₃ henv₃
    refine ⟨head, headAt_of_get (hknows.env henv₃).2, ?_⟩
    rw [if_neg hpauses, hwrites₂]
    rfl

/-- The loop of the deliveries: `rows` are those stored so far. -/
theorem wp_storeDeliveries {op : WebhookOp} {tenantId eventId : UUID} {now : Datetime}
    {Q : Unit → WebhookCtx → WebhookStore → Prop} (routes : List RouteSpecification)
    {c : WebhookCtx} {s : WebhookStore} (rows : List DeliveryRow)
    (hwrites : c.writes = (rows.map WebhookRow.delivery).map Write.put)
    (hfree : ∀ r ∈ rows, Knows c s (.delivery r.tenantId r.deliveryId) none)
    (h : ∀ c' s' (rows' : List DeliveryRow),
      c'.writes = (rows'.map WebhookRow.delivery).map Write.put →
      (∀ r ∈ rows', Knows c' s' (.delivery r.tenantId r.deliveryId) none) → Q () c' s') :
    webhookDiscipline.wp op Q (fun _ _ _ => True)
      (WebhookRouteProvider.storeDeliveries tenantId eventId now routes) c s := by
  induction routes generalizing c s rows with
  | nil => exact h c s rows hwrites hfree
  | cons route routes ih =>
      simp only [WebhookRouteProvider.storeDeliveries, Prog.bind_eq, Discipline.wp_bind]
      refine WebhookTx.wp_newUuid fun s₁ deliveryId henv₁ => ?_
      refine WebhookTx.wp_lift fun snapshot _ => ?_
      refine WebhookTx.wp_lift fun bytes _ => ?_
      refine WebhookTx.wp_insertRow fun s₂ hkeep hnew => ?_
      have hwrites' : (c.mint deliveryId).writes = (rows.map WebhookRow.delivery).map Write.put :=
        hwrites
      refine ih (rows ++ [publishedDelivery tenantId eventId deliveryId now route snapshot bytes])
        ?_ ?_
      · rw [writes_insert hwrites', List.map_append]
        simp only [List.map_append, List.map_cons, List.map_nil]
      · intro r hr
        rcases List.mem_append.mp hr with hr | hr
        · exact hkeep _ _ (((hfree r hr).env henv₁).mint deliveryId)
        · rw [List.mem_singleton.mp hr]
          exact knows_insert hwrites' hnew

theorem publish_effective (tenantId eventId : UUID) (eventType : Str) (now : Datetime) :
    webhookDiscipline.wp (.publish tenantId eventId eventType now)
      (webhooks.Effective webhookEffect (.publish tenantId eventId eventType now))
      (fun _ _ _ => True) (WebhookOp.prog (.publish tenantId eventId eventType now))
      (Ctx.init s.db.rows) s := by
  simp only [WebhookOp.prog, WebhookRouteProvider.routesFor, Prog.bind_eq, Discipline.wp_bind]
  intro s₁ rows henv₁ _
  refine WebhookTx.wp_lift fun routes _ => ?_
  refine wp_storeDeliveries routes [] rfl (by simp) fun c₂ s₂ stored hwrites hfree => ?_
  intro s₃ henv₃
  refine ⟨stored, fun r hr => ((hfree r hr).env henv₃).2, ?_⟩
  rw [hwrites, List.map_map]
  rfl

/-- Every interleaving has the effects of its commits, one after another. -/
theorem webhooks_sound : webhookDiscipline.Sound := by
  refine Protocol.serial_sound fun op s _ => ?_
  cases op with
  | addSecretSet row => exact addSecretSet_effective row
  | create principal types url policy set now threshold =>
      exact create_effective principal types url policy set now threshold
  | update principal id revision types url policy set now =>
      exact update_effective principal id revision types url policy set now
  | setState principal id revision state now action =>
      exact setState_effective principal id revision state now action
  | recordSuccess tenantId id now => exact recordSuccess_effective tenantId id now
  | recordFailure tenantId id now => exact recordFailure_effective tenantId id now
  | publish tenantId eventId eventType now => exact publish_effective tenantId eventId eventType now

end Sound

end FastapiEffects
