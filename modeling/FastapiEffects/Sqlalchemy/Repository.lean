import FastapiEffects.Core.Routing
import FastapiEffects.Python.Encodable
import FastapiEffects.Sqlalchemy.Models

/-! # Reading and publishing rows

The statements the repositories share, the functions that detach rows, and
`RuntimeRepository.publish`. Every function that talks to the database is a
transaction program; it may be part of a longer one.
-/

namespace FastapiEffects

open Python ReadCommitted

/-- A part of a transaction on the runtime's tables. -/
abbrev Tx (α : Type) := Prog Key Row UUID PyError α

/-- Raise what a computation of the client raises. -/
abbrev Tx.lift {α : Type} (x : Except PyError α) : Tx α := .ofExcept x

/-! ## Statements -/

/-- `database_now`: the database clock; the caller's observation is only checked to
be timezone-aware. -/
def databaseNow (_observedAt : Datetime) : Tx Datetime := .clock .ret

/-- `uuid_source.new_uuid()`. -/
def newUuid : Tx UUID := .fresh .ret

/-- All rows of one kind. -/
def selectAll {α : Type} (kind : Row → Option α) : Tx (List α) :=
  .scan fun rows => .ret (rows.filterMap kind)

/-- `SELECT ... FOR UPDATE` of one row by its key. -/
def selectForUpdate {α : Type} (kind : Row → Option α) (x : Key) : Tx (Option α) :=
  .lock x fun r => .ret (r.bind kind)

/-- `SELECT ... FOR UPDATE SKIP LOCKED` of one row by its key. -/
def selectSkipLocked {α : Type} (kind : Row → Option α) (x : Key) : Tx (Option α) :=
  .tryLock x fun r => .ret (r.bind kind)

/-- `SELECT` of one row by its key. -/
def selectOne {α : Type} (kind : Row → Option α) (x : Key) : Tx (Option α) :=
  .read x fun r => .ret (r.bind kind)

/-- `UPDATE` of one row, which passes the checks of its table. -/
def updateRow (checks : Bool) (r : Row) : Tx Unit :=
  if checks then .put r (.ret ()) else .raise .integrity

/-- `INSERT` of one row; `false` when a unique constraint refuses it. -/
def insertOrSkip (checks : Bool) (r : Row) : Tx Bool :=
  if checks then .insert r .ret else .raise .integrity

/-- `INSERT` of one row. -/
def insertRow (checks : Bool) (r : Row) : Tx Unit := do
  if ← insertOrSkip checks r then return () else .raise .integrity

/-- An `Integer` column takes 32 bits. -/
def checkInteger (n : ℤ) : Tx Unit := if n ≤ maxInteger then .ret () else .raise .data

/-- Text the database takes: no lone surrogate and no NUL. -/
def storableText (s : Str) : Bool := s.all fun c => c.scalar?.isSome ∧ c ≠ .scalar (Char.ofNat 0)

def storableLeaf : Json → Bool
  | .str s => storableText s
  | _ => true

/-- A value `jsonb` takes. -/
def storableJson (value : Json) : Bool := value.everywhere storableText storableLeaf

/-- The texts of the `principal` column. -/
def PrincipalEnvelope.texts (p : PrincipalEnvelope) : List Str :=
  p.subjectId :: p.scopes ++ [p.actorId, p.clientId, p.credentialRef].reduceOption

/-- What the columns of `events` take. `None` is stored as `NULL`, which `payload` refuses. -/
def eventColumns (row : EventRow) (payload : Json) : Except PyError Unit := do
  check (row.eventVersion ≤ maxInteger) .data
  check (storableJson payload ∧ row.principal.texts.all storableText) .data
  check (payload ≠ .null) .integrity

/-- What the columns of `deliveries` take. -/
def deliveryColumns (row : DeliveryRow) : Except PyError Unit := do
  check (row.routeVersion ≤ maxInteger) .data
  check (storableJson row.routeSnapshot) .data

/-! ## Detaching rows -/

/-- `event_from_row`. -/
def eventFromRow (row : EventRow) : Except PyError EventRecord := EventRecord.make row

/-- `delivery_from_row`. -/
def deliveryFromRow (row : DeliveryRow) : Except PyError DeliveryRecord :=
  DeliveryRecord.make {
    deliveryId := row.deliveryId
    tenantId := row.tenantId
    eventId := row.eventId
    routeKey := row.routeKey
    routeVersion := row.routeVersion
    destinationKind := row.destinationKind
    destinationKey := row.destinationKey
    routeSnapshot := row.routeSnapshotBytes
    state := row.state
    attemptsStarted := row.attemptsStarted
    createdAt := row.createdAt
    updatedAt := row.updatedAt
    nextAttemptAt := row.nextAttemptAt
    leaseToken := row.leaseToken
    leaseExpiresAt := row.leaseExpiresAt
    replayOf := row.replayOf
    replayActor := row.replayActor
    replayReason := row.replayReason }

/-- `attempt_from_row`. -/
def attemptFromRow (row : AttemptRow) : Except PyError AttemptRecord := AttemptRecord.make row

/-- What a detached delivery keeps of its row. -/
theorem deliveryFromRow_eq_ok {row : DeliveryRow} {record : DeliveryRecord}
    (h : deliveryFromRow row = .ok record) : record.deliveryId = row.deliveryId ∧
      record.tenantId = row.tenantId ∧ record.createdAt = row.createdAt ∧
      record.leaseExpiresAt = row.leaseExpiresAt := by
  unfold deliveryFromRow DeliveryRecord.make at h
  split at h
  · cases h
    exact ⟨rfl, rfl, rfl, rfl⟩
  · cases h

theorem attemptFromRow_eq_ok {row : AttemptRow} {record : AttemptRecord}
    (h : attemptFromRow row = .ok record) : record.toAttemptRecordArgs = row := by
  unfold attemptFromRow AttemptRecord.make at h
  split at h
  · cases h
    rfl
  · cases h

/-! ## Publishing -/

variable [Platform]

/-- The delivery `publish` stores for a route. -/
def publishedDelivery (tenantId eventId deliveryId : UUID) (now : Datetime)
    (route : RouteSpecification) (snapshot : Json) (bytes : Bytes) : DeliveryRow where
  tenantId := tenantId
  deliveryId := deliveryId
  eventId := eventId
  routeKey := route.routeKey
  routeVersion := route.version
  destinationKind := route.destinationKind
  destinationKey := route.destinationKey
  routeSnapshot := snapshot
  routeSnapshotBytes := bytes
  state := .pending
  attemptsStarted := 0
  nextAttemptAt := now
  leaseToken := none
  leaseExpiresAt := none
  replayOf := none
  replayActor := none
  replayReason := none
  createdAt := now
  updatedAt := now

/-- The deliveries of an event, one for each route. -/
def deliveryRows (tenantId eventId : UUID) (now : Datetime) :
    List RouteSpecification → Tx (List DeliveryRow)
  | [] => return []
  | route :: routes => do
      let deliveryId ← newUuid
      let snapshot ← Tx.lift route.toSnapshot
      let bytes ← Tx.lift route.snapshotBytes
      let rows ← deliveryRows tenantId eventId now routes
      return publishedDelivery tenantId eventId deliveryId now route snapshot bytes :: rows

omit [Platform] in
/-- `session.add_all(delivery_rows)` and its flush. -/
def insertDeliveries : List DeliveryRow → Tx Unit
  | [] => return ()
  | row :: rows => do
      Tx.lift (deliveryColumns row)
      insertRow row.checks (.delivery row)
      insertDeliveries rows

omit [Platform] in
/-- `_event_for_dedupe`. -/
def eventForDedupe (tenantId : UUID) (identity : DedupeIdentity) : Tx EventRow := do
  let rows ← selectAll Row.event?
  let matching (r : EventRow) : Bool :=
    r.tenantId = tenantId ∧ r.dedupeNamespace = some identity.ns ∧
      r.dedupeKey = some identity.key
  match rows.find? matching with
  | some row => return row
  | none => .raise (.configuration "Concurrent dedupe resolution produced no event.")

/-- `RuntimeRepository.publish`. The `payload` column, which nothing reads back, is only
checked. -/
def publish (principal : PrincipalEnvelope) (event : Event) (routes : List RouteSpecification)
    (now : Datetime) (dedupeIdentity : Option DedupeIdentity) : Tx EventRecord := do
  let _payloadBody ← Tx.lift (canonicalJsonBytes event.data)
  let payloadCanonical ← Tx.lift (versionedCanonicalBytes event.data)
  let payloadSha256 := (Platform.sha256 payloadCanonical).toList
  let eventId ← newUuid
  let row : EventRow := {
    eventId
    tenantId := principal.tenantId
    eventType := event.type
    eventVersion := event.version
    canonicalVersion := 1
    payloadCanonical
    payloadSha256
    principal
    occurredAt := event.occurredAt
    createdAt := now
    correlationId := event.correlationId
    causationId := event.causationId
    traceparent := event.traceparent
    tracestate := event.tracestate
    dedupeNamespace := dedupeIdentity.map (·.ns)
    dedupeKey := dedupeIdentity.map (·.key) }
  Tx.lift (eventColumns row event.data)
  let inserted ← insertOrSkip (eventRowChecks row) (.event row)
  if inserted then
    let rows ← deliveryRows principal.tenantId eventId now routes
    insertDeliveries rows
    Tx.lift (eventFromRow row)
  else
    match dedupeIdentity with
    | none => .raise .integrity
    | some identity =>
        let existing ← eventForDedupe principal.tenantId identity
        if existing.eventType ≠ event.type ∨ existing.eventVersion ≠ event.version ∨
            existing.payloadSha256 ≠ payloadSha256 then
          .raise (.dedupeConflict identity.ns identity.key)
        else Tx.lift (eventFromRow existing)

end FastapiEffects
