import FastapiEffects.Core.Principal
import FastapiEffects.Python.Dict
import FastapiEffects.Python.Dumps
import FastapiEffects.Python.Sha1

/-! # The reference boundary driver

`ReferenceBoundaryDriver`: the in-memory driver the conformance suite is tried against. A method
that raises leaves what it changed before, so a method returns the driver next to its result.
Arguments a method deletes unread are left out.
-/

namespace FastapiEffects

namespace Reference

open Python

/-- `Fault`, as far as the methods below look at it. -/
inductive Fault where
  | commitPartial
  | rollbackLeak
  | crossTenantRead
  | retryIdentityChanges
  | fanoutCoupled
  | lineageDropped
  | replayMutatesOriginal
  | staleLeaseAccepted
  | executorEnqueueTerminal
  | executorDuplicateExecution
  | executorPrincipalLost
deriving DecidableEq

/-- What a method raises. -/
inductive BoundaryError where
  /-- `ConformanceAccessDenied` -/
  | accessDenied
  /-- `ConformanceConflict` -/
  | conflict
  /-- `ConformanceLeaseLost` -/
  | leaseLost
  /-- Python's own `KeyError`, `ValueError` and `UnicodeEncodeError` -/
  | key (id : UUID)
  | value (message : String)
  | unicodeEncode
deriving DecidableEq

/-- The values of `_DeliveryRecord.status`. -/
inductive Status where
  | pending
  | leased
  | retryWait
  | succeeded
  | dead
deriving DecidableEq

/-- `_EventRecord`. -/
structure EventRecord where
  eventId : UUID
  tenantId : UUID
  correlationId : UUID
  causationId : Option UUID
deriving DecidableEq

/-- `_DeliveryRecord`. -/
structure DeliveryRecord where
  deliveryId : UUID
  eventId : UUID
  tenantId : UUID
  destination : Str
  status : Status
  messageId : Str
  attemptIds : List UUID
  activeLeaseToken : Option UUID := none
  replayOf : Option UUID := none
deriving DecidableEq

/-- `_HandoffRecord`; its status is `"succeeded"` when `succeeded` holds, else `"enqueued"`. -/
structure HandoffRecord where
  handoffId : UUID
  deliveryId : UUID
  attemptId : UUID
  taskId : Str
  succeeded : Bool
  terminal : Bool
  executionCount : ℕ
  tenantId : UUID
  subjectId : Str
  scopes : List Str
deriving DecidableEq

/-- `ReferenceBoundaryDriver`; the command records, the context variable and the manifest are left
out, which no method below reads. -/
structure Driver where
  faults : List Fault
  counter : ℕ
  business : Dict UUID (List Str)
  events : Dict UUID EventRecord
  deliveries : Dict UUID DeliveryRecord
  handoffs : Dict UUID HandoffRecord
  closed : Bool

/-- `ReferenceBoundaryDriver(faults=faults)`. -/
def Driver.initial (faults : List Fault) : Driver where
  faults := faults
  counter := 0
  business := .empty
  events := .empty
  deliveries := .empty
  handoffs := .empty
  closed := false

/-- A method of the driver. -/
abbrev Method (α : Type) := ExceptT BoundaryError (StateM Driver) α

/-- The name `_uuid` hashes. -/
def idName (label : Str) (counter : ℕ) : Str :=
  "fastapi_effects:" ++ label ++ ":" ++ Str.ofChars (Nat.toDigits 10 counter)

/-- `uuid5(NAMESPACE_URL, name)`, which encodes the name. -/
def nameUuid (name : Str) : Method UUID :=
  match uuid5 namespaceUrl name with
  | some id => return id
  | none => throw .unicodeEncode

/-- `_uuid`. -/
def uuid (label : Str) : Method UUID := do
  modify fun d => { d with counter := d.counter + 1 }
  nameUuid (idName label (← get).counter)

/-- `mapping[id]`. -/
def lookup {ρ : Type} (records : Dict UUID ρ) (id : UUID) : Method ρ :=
  match records.get id with
  | some record => return record
  | none => throw (.key id)

/-- Store a delivery under its key, new or changed in place. -/
def putDelivery (id : UUID) (record : DeliveryRecord) : Method Unit :=
  modify fun d => { d with deliveries := d.deliveries.set id record }

def putHandoff (id : UUID) (record : HandoffRecord) : Method Unit :=
  modify fun d => { d with handoffs := d.handoffs.set id record }

/-! ## Publishing -/

/-- `PublishedEvent`. -/
structure PublishedEvent where
  eventId : UUID
  tenantId : UUID
  deliveryIds : List UUID
  correlationId : UUID
  causationId : Option UUID
deriving DecidableEq

/-- `self._business.setdefault(tenant_id, []).append(business_key)`. -/
def addBusiness (tenantId : UUID) (businessKey : Str) : Method Unit :=
  modify fun d =>
    { d with
      business := d.business.set tenantId ((d.business.get tenantId).getD [] ++ [businessKey]) }

/-- The identifiers of the deliveries, in the order of their destinations. -/
def deliveryIds : List Str → Method (List UUID)
  | [] => return []
  | destination :: rest => do
      let id ← uuid ("delivery:" ++ destination)
      return id :: (← deliveryIds rest)

/-- `msg_{delivery_id.hex}`. -/
def messageId (id : UUID) : Str := "msg_" ++ id.hex

/-- The delivery of an event to a destination. -/
def pendingDelivery (eventId tenantId id : UUID) (destination : Str) : DeliveryRecord where
  deliveryId := id
  eventId := eventId
  tenantId := tenantId
  destination := destination
  status := .pending
  messageId := messageId id
  attemptIds := []

/-- The loop of `publish` over its deliveries. -/
def storeDeliveries (eventId tenantId : UUID) : List (UUID × Str) → Method Unit
  | [] => return ()
  | (id, destination) :: rest => do
      putDelivery id (pendingDelivery eventId tenantId id destination)
      storeDeliveries eventId tenantId rest

/-- `publish`. -/
def publish (principal : Principal) (businessKey : Str) (destinations : List Str)
    (correlationId : UUID) (causationId : Option UUID) (commit : Bool) :
    Method (Option PublishedEvent) := do
  let eventId ← uuid "event"
  let ids ← deliveryIds destinations
  let faults := (← get).faults
  if !commit then
    if .rollbackLeak ∈ faults then addBusiness principal.tenantId businessKey
    return none
  else
    addBusiness principal.tenantId businessKey
    let correlationId := if .lineageDropped ∈ faults then 0 else correlationId
    let causationId := if .lineageDropped ∈ faults then none else causationId
    if .commitPartial ∉ faults then
      modify fun d =>
        { d with
          events := d.events.set eventId
            ⟨eventId, principal.tenantId, correlationId, causationId⟩ }
      storeDeliveries eventId principal.tenantId (ids.zip destinations)
    return some ⟨eventId, principal.tenantId, ids, correlationId, causationId⟩

/-! ## Deliveries -/

/-- `DeliveryView`. -/
structure DeliveryView where
  deliveryId : UUID
  eventId : UUID
  tenantId : UUID
  destination : Str
  status : Status
  messageId : Str
  attemptIds : List UUID
  replayOf : Option UUID
deriving DecidableEq

/-- `_view`. -/
def DeliveryRecord.view (r : DeliveryRecord) : DeliveryView :=
  ⟨r.deliveryId, r.eventId, r.tenantId, r.destination, r.status, r.messageId, r.attemptIds,
    r.replayOf⟩

/-- `BoundarySnapshot`. -/
structure BoundarySnapshot where
  businessKeys : List Str
  eventIds : List UUID
  deliveries : List DeliveryView
deriving DecidableEq

/-- `snapshot`. -/
def snapshot (principal : Principal) (tenantId : UUID) : Method BoundarySnapshot := do
  let d ← get
  if principal.tenantId ≠ tenantId ∧ .crossTenantRead ∉ d.faults then throw .accessDenied
  else
    return {
      businessKeys := (d.business.get tenantId).getD []
      eventIds := (d.events.values.filter fun r => r.tenantId = tenantId).map (·.eventId)
      deliveries := (d.deliveries.values.filter fun r => r.tenantId = tenantId).map (·.view) }

/-- `LeaseView`. -/
structure LeaseView where
  deliveryId : UUID
  attemptId : UUID
  leaseToken : UUID
  messageId : Str
deriving DecidableEq

/-- `claim`. -/
def claim (deliveryId : UUID) : Method LeaseView := do
  let record ← lookup (← get).deliveries deliveryId
  if record.status ≠ .pending ∧ record.status ≠ .retryWait then throw .conflict
  else
    let attemptId ← uuid ("attempt:" ++ deliveryId.str)
    let leaseToken ← uuid ("lease:" ++ deliveryId.str)
    let record := {
      record with
      attemptIds := record.attemptIds ++ [attemptId]
      activeLeaseToken := some leaseToken
      status := .leased }
    putDelivery deliveryId record
    let messageId :=
      if .retryIdentityChanges ∈ (← get).faults ∧ 1 < record.attemptIds.length then
        "msg_retry_" ++ attemptId.hex
      else record.messageId
    return ⟨deliveryId, attemptId, leaseToken, messageId⟩

/-- The status an outcome leads to. -/
def outcomeStatus (outcome : Str) : Except BoundaryError Status :=
  if outcome = "succeeded" then .ok .succeeded
  else if outcome = "retryable_failure" then .ok .retryWait
  else if outcome = "terminal_failure" then .ok .dead
  else .error (.value "unknown outcome")

/-- The fault that gives the siblings of a delivery its status. -/
def coupleSiblings (record : DeliveryRecord) : Method Unit :=
  modify fun d =>
    { d with
      deliveries := d.deliveries.update (d.deliveries.items.map fun m =>
        if m.2.eventId = record.eventId ∧ m.2.deliveryId ≠ record.deliveryId then
          (m.1, { m.2 with status := record.status })
        else m) }

/-- `finalize`. -/
def finalize (lease : LeaseView) (outcome : Str) : Method DeliveryView := do
  let d ← get
  let record ← lookup d.deliveries lease.deliveryId
  if (record.status ≠ .leased ∨ record.activeLeaseToken ≠ some lease.leaseToken) ∧
      .staleLeaseAccepted ∉ d.faults then throw .leaseLost
  else
    let status ← liftExcept (outcomeStatus outcome)
    let record := { record with status := status, activeLeaseToken := none }
    putDelivery lease.deliveryId record
    if .fanoutCoupled ∈ d.faults then coupleSiblings record
    return record.view

/-- `delivery`. -/
def delivery (deliveryId : UUID) : Method DeliveryView := do
  let record ← lookup (← get).deliveries deliveryId
  return record.view

/-- The delivery that replays another one. -/
def replayDelivery (original : DeliveryRecord) (replayId : UUID) : DeliveryRecord where
  deliveryId := replayId
  eventId := original.eventId
  tenantId := original.tenantId
  destination := original.destination
  status := .pending
  messageId := messageId replayId
  attemptIds := []
  replayOf := some original.deliveryId

/-- `replay`: the status of the original is not looked at. -/
def replay (deliveryId : UUID) : Method DeliveryView := do
  let d ← get
  let original ← lookup d.deliveries deliveryId
  if .replayMutatesOriginal ∈ d.faults then
    let original := { original with status := .pending }
    putDelivery deliveryId original
    return original.view
  else
    let replayId ← uuid ("replay:" ++ deliveryId.str)
    let record := replayDelivery original replayId
    putDelivery replayId record
    return record.view

/-! ## Handoffs -/

/-- The name that `enqueue_handoff` hashes. -/
def handoffName (deliveryId attemptId : UUID) : Str :=
  "fastapi_effects:handoff:" ++ deliveryId.str ++ ":" ++ attemptId.str

/-- The handoff of an attempt before its execution. -/
def enqueuedHandoff (faults : List Fault) (principal : Principal)
    (handoffId deliveryId attemptId : UUID) : HandoffRecord :=
  let lost := .executorPrincipalLost ∈ faults
  let terminal := decide (.executorEnqueueTerminal ∈ faults)
  { handoffId := handoffId
    deliveryId := deliveryId
    attemptId := attemptId
    taskId := "fastapi_effects_" ++ deliveryId.str ++ "-" ++ attemptId.str
    succeeded := terminal
    terminal := terminal
    executionCount := if terminal then 1 else 0
    tenantId := if lost then 0 else principal.tenantId
    subjectId := if lost then "unknown" else principal.subjectId
    scopes := if lost then [] else principal.scopes }

/-- `enqueue_handoff`: a record that is there already is replaced. The view of a handoff has all
fields of its record. -/
def enqueueHandoff (principal : Principal) (deliveryId attemptId : UUID) :
    Method HandoffRecord := do
  let handoffId ← nameUuid (handoffName deliveryId attemptId)
  let record := enqueuedHandoff (← get).faults principal handoffId deliveryId attemptId
  putHandoff handoffId record
  return record

/-- `execute_handoff`. -/
def executeHandoff (handoffId : UUID) : Method HandoffRecord := do
  let d ← get
  let record ← lookup d.handoffs handoffId
  if !record.terminal then
    let record := {
      record with
      executionCount := record.executionCount + 1
      succeeded := true
      terminal := true }
    putHandoff handoffId record
    return record
  else if .executorDuplicateExecution ∈ d.faults then
    let record := { record with executionCount := record.executionCount + 1 }
    putHandoff handoffId record
    return record
  else return record

/-! ## Delegation and lifecycle -/

/-- `_PATH.fullmatch`: a slash, then segments with single slashes between them and after them. -/
def pathPattern : Str → Bool
  | [] => false
  | c :: rest =>
      c = .scalar '/' ∧ rest.head? ≠ some (.scalar '/') ∧ ¬ ("//" : Str) <:+: rest ∧
        rest.all (PyChar.isIn [('A', 'Z'), ('a', 'z'), ('0', '9')]
          ['.', '_', '~', '!', '$', '&', Char.ofNat 39, '(', ')', '*', '+', ',', ';', '=', ':', '@',
            '%', '-', '/'])

/-- `_canonical_path`; what passes the pattern is ASCII. -/
def canonicalPath (path : Str) : Except BoundaryError Str :=
  let lowered := path.map PyChar.asciiLower
  if ¬ pathPattern path ∨ ("//" : Str) <:+: path ∨ ("/../" : Str) <:+: path ++ "/" ∨
      ("/./" : Str) <:+: path ++ "/" ∨ ("\\" : Str) <:+: path ∨ ("%2f" : Str) <:+: lowered ∨
      ("%5c" : Str) <:+: lowered ∨ ("%2e" : Str) <:+: lowered then .error .accessDenied
  else .ok path

/-- `mint_delegation` up to the token, whose claims have the identifier. -/
def mintDelegation (principal : Principal) (path : Str) (scopes : List Str) (ttl : Timedelta) :
    Method UUID := do
  if ¬ scopes ⊆ principal.scopes then throw .accessDenied
  else if ttl ≤ 0 ∨ 300000000 < ttl then throw (.value "ttl outside reference policy")
  else
    let _targetPath ← liftExcept (canonicalPath path)
    uuid "delegation"

/-- `reset`. -/
def reset : Method Unit := modify fun d => Driver.initial d.faults

/-- `close`. -/
def close : Method Unit := modify fun d => { d with closed := true }

end Reference

end FastapiEffects
