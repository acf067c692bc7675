import FastapiEffects.ReadCommitted.Runner
import FastapiEffects.Sqlalchemy.Repository
import FastapiEffects.Webhooks.AddressPolicy
import FastapiEffects.Webhooks.Secrets

/-! # Webhook subscriptions

The versioned subscriptions of `SubscriptionRepository`, the health accounting of
`WebhookHealthRepository` and the routes `WebhookRouteProvider` makes of active
subscriptions, as transactions on the webhook tables.
-/

namespace FastapiEffects

open Python ReadCommitted

/-! ## Rows -/

/-- `SubscriptionState`. -/
inductive SubscriptionState where
  | active
  | paused
  | disabled
deriving DecidableEq, Repr

/-- `state.value`. -/
def SubscriptionState.text : SubscriptionState → Str
  | .active => "active"
  | .paused => "paused"
  | .disabled => "disabled"

/-- `WebhookSubscriptionRow`. -/
structure WebhookSubscriptionRow where
  tenantId : UUID
  subscriptionId : UUID
  currentVersion : ℤ
  revision : ℤ
  state : SubscriptionState
  failureStreak : ℤ
  autoPauseThreshold : ℤ
  createdBy : Str
  updatedBy : Str
  createdAt : Datetime
  updatedAt : Datetime
deriving DecidableEq

/-- `WebhookSubscriptionVersionRow`. -/
structure WebhookSubscriptionVersionRow where
  tenantId : UUID
  subscriptionId : UUID
  version : ℤ
  exactEventTypes : List Str
  endpointUrl : Str
  retryPolicy : Json
  secretSetId : UUID
  createdBy : Str
  createdAt : Datetime
deriving DecidableEq

/-- `WebhookAuditRow`. -/
structure WebhookAuditRow where
  tenantId : UUID
  auditId : UUID
  subjectId : Str
  action : Str
  targetKind : Str
  targetId : UUID
  details : Json
  occurredAt : Datetime
deriving DecidableEq

/-- The primary keys of the webhook tables and of the deliveries. -/
inductive WebhookKey where
  | subscription (tenantId subscriptionId : UUID)
  | version (tenantId subscriptionId : UUID) (version : ℤ)
  | audit (tenantId auditId : UUID)
  | secretSet (tenantId secretSetId : UUID)
  | delivery (tenantId deliveryId : UUID)
deriving DecidableEq

inductive WebhookRow where
  | subscription (r : WebhookSubscriptionRow)
  | version (r : WebhookSubscriptionVersionRow)
  | audit (r : WebhookAuditRow)
  | secretSet (r : SecretSetRow)
  | delivery (r : DeliveryRow)
deriving DecidableEq

namespace WebhookRow

def key : WebhookRow → WebhookKey
  | .subscription r => .subscription r.tenantId r.subscriptionId
  | .version r => .version r.tenantId r.subscriptionId r.version
  | .audit r => .audit r.tenantId r.auditId
  | .secretSet r => .secretSet r.tenantId r.secretSetId
  | .delivery r => .delivery r.tenantId r.deliveryId

/-- The `CHECK`s of the tables. -/
def checks : WebhookRow → Bool
  | .subscription r => 0 < r.currentVersion ∧ 0 < r.revision ∧ 0 ≤ r.failureStreak ∧
      0 < r.autoPauseThreshold
  | .version r => 0 < r.version
  | .secretSet r => (SecretRow.set r).checks
  | .audit _ => true
  | .delivery r => r.checks

/-- Whether the columns can hold the values: integers of 32 bits, texts that have bytes. -/
def fits : WebhookRow → Bool
  | .subscription r => r.currentVersion ≤ maxInteger ∧ r.revision ≤ maxInteger ∧
      r.failureStreak ≤ maxInteger ∧ r.autoPauseThreshold ≤ maxInteger ∧
      r.createdBy.encode?.isSome ∧ r.updatedBy.encode?.isSome
  | .version r => r.version ≤ maxInteger ∧ r.endpointUrl.encode?.isSome ∧ r.createdBy.encode?.isSome
  | .secretSet r => (SecretRow.set r).fits
  | .audit r => r.subjectId.encode?.isSome ∧ r.action.encode?.isSome ∧ r.action.length ≤ 128
  | .delivery _ => true

def subscription? : WebhookRow → Option WebhookSubscriptionRow
  | .subscription r => some r
  | _ => none

def version? : WebhookRow → Option WebhookSubscriptionVersionRow
  | .version r => some r
  | _ => none

def audit? : WebhookRow → Option WebhookAuditRow
  | .audit r => some r
  | _ => none

end WebhookRow

instance : Schema WebhookKey WebhookRow := ⟨WebhookRow.key, fun _ _ => false, fun _ _ => rfl⟩

/-- The webhook tables. -/
abbrev WebhookDb := Table WebhookKey WebhookRow

/-- A part of a transaction on them. -/
abbrev WebhookTx (α : Type) := Prog WebhookKey WebhookRow UUID PyError α

namespace WebhookTx

/-- Raise what a computation of the client raises. -/
abbrev lift {α : Type} (x : Except PyError α) : WebhookTx α := .ofExcept x

/-- `uuid_source.new_uuid()`. -/
def newUuid : WebhookTx UUID := .fresh .ret

/-- Whether a row passes the checks of its table. -/
def accept (r : WebhookRow) : Except PyError Unit := do
  check r.checks .integrity
  check r.fits .data

/-- `UPDATE` of one row. -/
def updateRow (r : WebhookRow) : WebhookTx Unit := do
  lift (accept r)
  Prog.put r (.ret ())

/-- `INSERT` of one row. -/
def insertRow (r : WebhookRow) : WebhookTx Unit := do
  lift (accept r)
  Prog.insert r fun stored => if stored then .ret () else .raise .integrity

/-- `SELECT ... FOR UPDATE` of one head row. -/
def lockHead (tenantId subscriptionId : UUID) (missing : String) :
    WebhookTx WebhookSubscriptionRow :=
  .lock (.subscription tenantId subscriptionId) fun r =>
    lift (orRaise (r.bind WebhookRow.subscription?) (.configuration missing))

end WebhookTx

/-! ## Subscriptions -/

/-- `WebhookSubscription`. -/
structure WebhookSubscription where
  tenantId : UUID
  subscriptionId : UUID
  version : ℤ
  revision : ℤ
  exactEventTypes : List Str
  endpointUrl : Str
  state : SubscriptionState
  retryPolicy : RetryPolicy
  secretSetId : UUID
  failureStreak : ℤ
  autoPauseThreshold : ℤ
  createdAt : Datetime
  updatedAt : Datetime
deriving DecidableEq

/-- `_normalize_event_types`. -/
def normalizeEventTypes (values : List Str) : Except PyError (List Str) := do
  let result := Str.sortedSet values
  check (result ≠ [] ∧ result.length ≤ 64 ∧ result.all isStableKey)
    (.configuration "Webhook exact event types are invalid.")
  return result

/-- `_validate_threshold`. -/
def validateThreshold (value : ℤ) : Except PyError Unit :=
  check (1 ≤ value ∧ value ≤ 10000) (.configuration "Webhook auto-pause threshold is invalid.")

/-- `_subscription`. -/
def detachedSubscription (head : WebhookSubscriptionRow) (version : WebhookSubscriptionVersionRow) :
    Except PyError WebhookSubscription := do
  return {
    tenantId := head.tenantId
    subscriptionId := head.subscriptionId
    version := version.version
    revision := head.revision
    exactEventTypes := version.exactEventTypes
    endpointUrl := version.endpointUrl
    state := head.state
    retryPolicy := ← RetryPolicy.fromDict version.retryPolicy
    secretSetId := version.secretSetId
    failureStreak := head.failureStreak
    autoPauseThreshold := head.autoPauseThreshold
    createdAt := head.createdAt
    updatedAt := head.updatedAt }

namespace SubscriptionRepository

/-- The row `_audit` adds. -/
def auditRow (principal : Principal) (auditId : UUID) (action : Str) (targetId : UUID)
    (now : Datetime) (details : Json) : WebhookAuditRow where
  tenantId := principal.tenantId
  auditId := auditId
  subjectId := principal.subjectId
  action := action
  targetKind := "subscription"
  targetId := targetId
  details := details
  occurredAt := now

/-- The check of the secret set a version signs with. -/
def requireSecretSet (tenantId secretSetId : UUID) : WebhookTx Unit :=
  .read (.secretSet tenantId secretSetId) fun r => WebhookTx.lift
    (check r.isSome (.configuration "Webhook secret set does not exist."))

/-- The head row `create` adds. -/
def newHead (principal : Principal) (subscriptionId : UUID) (autoPauseThreshold : ℤ)
    (now : Datetime) : WebhookSubscriptionRow where
  tenantId := principal.tenantId
  subscriptionId := subscriptionId
  currentVersion := 1
  revision := 1
  state := .active
  failureStreak := 0
  autoPauseThreshold := autoPauseThreshold
  createdBy := principal.subjectId
  updatedBy := principal.subjectId
  createdAt := now
  updatedAt := now

/-- A version row. -/
def newVersion (principal : Principal) (subscriptionId : UUID) (version : ℤ)
    (eventTypes : List Str) (endpoint : EndpointTarget) (retryPolicy : Json) (secretSetId : UUID)
    (now : Datetime) : WebhookSubscriptionVersionRow where
  tenantId := principal.tenantId
  subscriptionId := subscriptionId
  version := version
  exactEventTypes := eventTypes
  endpointUrl := endpoint.url
  retryPolicy := retryPolicy
  secretSetId := secretSetId
  createdBy := principal.subjectId
  createdAt := now

variable [Urllib]

/-- `create`. -/
def create (principal : Principal) (exactEventTypes : List Str) (endpointUrl : Str)
    (retryPolicy : RetryPolicy) (secretSetId : UUID) (now : Datetime) (autoPauseThreshold : ℤ) :
    WebhookTx WebhookSubscription := do
  let eventTypes ← WebhookTx.lift (normalizeEventTypes exactEventTypes)
  let endpoint ← WebhookTx.lift (parseEndpoint endpointUrl true [443])
  WebhookTx.lift (validateThreshold autoPauseThreshold)
  requireSecretSet principal.tenantId secretSetId
  let subscriptionId ← WebhookTx.newUuid
  let policy ← WebhookTx.lift retryPolicy.toDict
  let head := newHead principal subscriptionId autoPauseThreshold now
  let version := newVersion principal subscriptionId 1 eventTypes endpoint policy secretSetId now
  let auditId ← WebhookTx.newUuid
  WebhookTx.insertRow (.subscription head)
  WebhookTx.insertRow (.version version)
  WebhookTx.insertRow (.audit (auditRow principal auditId "subscription.created" subscriptionId now
    (.obj [("version", .int 1)])))
  WebhookTx.lift (detachedSubscription head version)

omit [Urllib] in
/-- `_locked_head`. -/
def lockedHead (tenantId subscriptionId : UUID) : WebhookTx WebhookSubscriptionRow :=
  WebhookTx.lockHead tenantId subscriptionId "Webhook subscription does not exist."

omit [Urllib] in
/-- The head row after a change by a principal. -/
def touched (head : WebhookSubscriptionRow) (principal : Principal) (now : Datetime) :
    WebhookSubscriptionRow :=
  { head with revision := head.revision + 1, updatedBy := principal.subjectId, updatedAt := now }

/-- `update`. -/
def update (principal : Principal) (subscriptionId : UUID) (expectedRevision : ℤ)
    (exactEventTypes : List Str) (endpointUrl : Str) (retryPolicy : RetryPolicy) (secretSetId : UUID)
    (now : Datetime) : WebhookTx WebhookSubscription := do
  let head ← lockedHead principal.tenantId subscriptionId
  WebhookTx.lift (check (head.revision = expectedRevision) (.optimisticConflict "webhook_subscription"))
  let eventTypes ← WebhookTx.lift (normalizeEventTypes exactEventTypes)
  let endpoint ← WebhookTx.lift (parseEndpoint endpointUrl true [443])
  requireSecretSet principal.tenantId secretSetId
  let nextVersion := head.currentVersion + 1
  let policy ← WebhookTx.lift retryPolicy.toDict
  let version := newVersion principal subscriptionId nextVersion eventTypes endpoint policy secretSetId
    now
  let head := { touched head principal now with currentVersion := nextVersion }
  let auditId ← WebhookTx.newUuid
  WebhookTx.updateRow (.subscription head)
  WebhookTx.insertRow (.version version)
  WebhookTx.insertRow (.audit (auditRow principal auditId "subscription.updated" subscriptionId now
    (.obj [("version", .int nextVersion)])))
  WebhookTx.lift (detachedSubscription head version)

omit [Urllib] in
/-- `_current_version`. -/
def currentVersion (head : WebhookSubscriptionRow) : WebhookTx WebhookSubscriptionVersionRow :=
  .read (.version head.tenantId head.subscriptionId head.currentVersion) fun r =>
    WebhookTx.lift (orRaise (r.bind WebhookRow.version?)
      (.configuration "Webhook subscription version is missing."))

omit [Urllib] in
/-- The action `set_state` reports: an empty one is none. -/
def stateAction (state : SubscriptionState) : Option Str → Str
  | none | some [] => "subscription." ++ state.text
  | some action => action

omit [Urllib] in
/-- `set_state`. The change of the head is flushed before the version is read. -/
def setState (principal : Principal) (subscriptionId : UUID) (expectedRevision : ℤ)
    (state : SubscriptionState) (now : Datetime) (action : Option Str) :
    WebhookTx WebhookSubscription := do
  let head ← lockedHead principal.tenantId subscriptionId
  WebhookTx.lift (check (head.revision = expectedRevision) (.optimisticConflict "webhook_subscription"))
  let head := { touched head principal now with state }
  WebhookTx.updateRow (.subscription head)
  let version ← currentVersion head
  let auditId ← WebhookTx.newUuid
  WebhookTx.insertRow (.audit (auditRow principal auditId (stateAction state action) subscriptionId
    now (.obj [("revision", .int head.revision)])))
  WebhookTx.lift (detachedSubscription head version)

end SubscriptionRepository

/-! ## Health -/

namespace WebhookHealthRepository

def relay : Str := "relay:webhook"

/-- `_locked`. -/
def locked (tenantId subscriptionId : UUID) : WebhookTx WebhookSubscriptionRow :=
  WebhookTx.lockHead tenantId subscriptionId "Webhook health target no longer exists."

/-- The head row after a success. -/
def succeeded (row : WebhookSubscriptionRow) (now : Datetime) : WebhookSubscriptionRow :=
  { row with failureStreak := 0, revision := row.revision + 1, updatedBy := relay, updatedAt := now }

/-- `record_success`. -/
def recordSuccess (tenantId subscriptionId : UUID) (now : Datetime) : WebhookTx Unit := do
  let row ← locked tenantId subscriptionId
  if row.failureStreak ≠ 0 then WebhookTx.updateRow (.subscription (succeeded row now))

/-- The head row after a failure, before it is paused. -/
def failed (row : WebhookSubscriptionRow) (now : Datetime) : WebhookSubscriptionRow :=
  { row with
    failureStreak := row.failureStreak + 1
    revision := row.revision + 1
    updatedBy := relay
    updatedAt := now }

/-- Whether a failure pauses the subscription. -/
def pauses (row : WebhookSubscriptionRow) : Bool :=
  row.state = .active ∧ row.autoPauseThreshold ≤ row.failureStreak

def autoPaused : Str := "subscription.auto_paused"

/-- The audit row of an automatic pause. -/
def pauseAudit (row : WebhookSubscriptionRow) (auditId : UUID) (now : Datetime) : WebhookAuditRow where
  tenantId := row.tenantId
  auditId := auditId
  subjectId := relay
  action := autoPaused
  targetKind := "subscription"
  targetId := row.subscriptionId
  details := .obj [("failure_streak", .int row.failureStreak)]
  occurredAt := now

/-- `record_failure`. -/
def recordFailure (tenantId subscriptionId : UUID) (now : Datetime) : WebhookTx Unit := do
  let row ← locked tenantId subscriptionId
  let row := failed row now
  if pauses row then
    let auditId ← WebhookTx.newUuid
    WebhookTx.updateRow (.subscription { row with state := .paused })
    WebhookTx.insertRow (.audit (pauseAudit row auditId now))
  else WebhookTx.updateRow (.subscription row)

end WebhookHealthRepository

/-! ## Routes -/

namespace WebhookRouteProvider

variable [Platform]

/-- The route of an active subscription. -/
def route (eventType : Str) (head : WebhookSubscriptionRow) (version : WebhookSubscriptionVersionRow) :
    Except PyError RouteSpecification := do
  RouteSpecification.make {
    eventType
    routeKey := "webhook." ++ head.subscriptionId.hex
    version := version.version
    destinationKind := "webhook"
    destinationKey := head.subscriptionId.hex
    requiredScopes := []
    authorization := .snapshot
    servicePolicy := none
    serviceCapabilities := none
    maximumSnapshotAgeSeconds := some 315360000
    retryPolicy := ← RetryPolicy.fromDict version.retryPolicy
    destinationMetadata := [
      ("subscription_id", .str head.subscriptionId.str),
      ("subscription_version", .int version.version),
      ("endpoint_url", .str version.endpointUrl),
      ("secret_set_id", .str version.secretSetId.str)] }

omit [Platform] in
/-- The active subscriptions to an event type, each with its current version. -/
def activeVersions (tenantId : UUID) (eventType : Str) (rows : List WebhookRow) :
    List (WebhookSubscriptionRow × WebhookSubscriptionVersionRow) :=
  let heads := (rows.filterMap WebhookRow.subscription?).filter fun head =>
    head.tenantId = tenantId ∧ head.state = .active
  let joined := heads.flatMap fun head =>
    ((rows.filterMap WebhookRow.version?).filter fun version =>
      version.tenantId = head.tenantId ∧ version.subscriptionId = head.subscriptionId ∧
        version.version = head.currentVersion ∧ eventType ∈ version.exactEventTypes).map (head, ·)
  joined.insertionSort fun a b => a.1.subscriptionId ≤ b.1.subscriptionId

/-- `routes_for`. -/
def routesFor (tenantId : UUID) (eventType : Str) : WebhookTx (List RouteSpecification) :=
  .scan fun rows => WebhookTx.lift
    ((activeVersions tenantId eventType rows).mapM fun m => route eventType m.1 m.2)

/-- The deliveries a publisher stores for routes. -/
def storeDeliveries (tenantId eventId : UUID) (now : Datetime) :
    List RouteSpecification → WebhookTx Unit
  | [] => return ()
  | route :: routes => do
      let deliveryId ← WebhookTx.newUuid
      let snapshot ← WebhookTx.lift route.toSnapshot
      let bytes ← WebhookTx.lift route.snapshotBytes
      WebhookTx.insertRow
        (.delivery (publishedDelivery tenantId eventId deliveryId now route snapshot bytes))
      storeDeliveries tenantId eventId now routes

end WebhookRouteProvider

end FastapiEffects
