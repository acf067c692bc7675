import FastapiEffects.ReadCommitted.Appended
import FastapiEffects.ReadCommitted.Runner
import FastapiEffects.Sqlalchemy.Repository

/-! # Publishing under a dedupe identity

Any number of transactions publish, with any events, identities and routes, and each may
commit, raise or be rolled back. The first to commit an event under an identity stores it
with one delivery for each of its routes; whoever comes later finds it, or raises.
-/

namespace FastapiEffects

open Python ReadCommitted

section Publications

variable [Platform]

/-! ## The system -/

/-- One call of `publish`, the whole of its transaction. -/
structure Publication where
  principal : PrincipalEnvelope
  event : Event
  routes : List RouteSpecification
  now : Datetime
  dedupe : Option DedupeIdentity

/-- Transactions that publish. -/
def publishing : Protocol Key Row UUID PyError Publication EventRecord where
  prog p := publish p.principal p.event p.routes p.now p.dedupe
  allowed _ _ := True
  guard _ _ _ _ := True

instance (s : Store Key Row PyError Publication EventRecord) (p : Publication) :
    Decidable (publishing.allowed s p) :=
  inferInstanceAs (Decidable True)

instance (p : Publication) (seen : List Row) (y : Key) (row : Option Row) :
    Decidable (publishing.guard p seen y row) :=
  inferInstanceAs (Decidable True)

abbrev PublishingStore := Store Key Row PyError Publication EventRecord

abbrev PublishingWorld := World Key Row UUID PyError Publication EventRecord

/-- Empty tables nobody is connected to. -/
def PublishingWorld.start (now : Datetime) : PublishingWorld :=
  ⟨⟨Table.empty, now, []⟩, fun _ => none, fun _ => none, []⟩

/-- The identifiers a row is stored under or refers to. -/
def Row.names : Row → List UUID
  | .event r => [r.eventId]
  | .delivery r => [r.deliveryId, r.eventId]
  | .attempt r => [r.attemptId]
  | .handoff r => [r.handoffId]

namespace Publication

variable (p : Publication)

/-- The event the publication stores. -/
def row (eventId : UUID) (canonical : Bytes) : EventRow where
  eventId := eventId
  tenantId := p.principal.tenantId
  eventType := p.event.type
  eventVersion := p.event.version
  canonicalVersion := 1
  payloadCanonical := canonical
  payloadSha256 := (Platform.sha256 canonical).toList
  principal := p.principal
  occurredAt := p.event.occurredAt
  createdAt := p.now
  correlationId := p.event.correlationId
  causationId := p.event.causationId
  traceparent := p.event.traceparent
  tracestate := p.event.tracestate
  dedupeNamespace := p.dedupe.map (·.ns)
  dedupeKey := p.dedupe.map (·.key)

/-- A delivery of the event for one route. -/
def Delivers (eventId : UUID) (route : RouteSpecification) (r : DeliveryRow) : Prop :=
  ∃ deliveryId snapshot bytes, route.toSnapshot = .ok snapshot ∧ route.snapshotBytes = .ok bytes ∧
    r = publishedDelivery p.principal.tenantId eventId deliveryId p.now route snapshot bytes

/-- An event under the identity of the publication. -/
def Names (row : EventRow) : Prop :=
  ∃ identity, p.dedupe = some identity ∧ row.tenantId = p.principal.tenantId ∧
    row.dedupeNamespace = some identity.ns ∧ row.dedupeKey = some identity.key

/-- The type, the version and the hash of the payload are those of the event. -/
def Agrees (canonical : Bytes) (row : EventRow) : Prop :=
  row.eventType = p.event.type ∧ row.eventVersion = p.event.version ∧
    row.payloadSha256 = (Platform.sha256 canonical).toList

/-- The columns take the event: its version has 32 bits, its payload is not `None` and has no
NUL, and the principal has no text that is not Unicode. -/
def Storable : Prop :=
  p.event.version ≤ maxInteger ∧ storableJson p.event.data = true ∧
    p.principal.texts.all storableText = true ∧ p.event.data ≠ .null

/-- What a publication stores when its identity is new. -/
structure Stores (row : EventRow) (rows : List DeliveryRow) (record : EventRecord) : Prop where
  canonical : versionedCanonicalBytes p.event.data = .ok row.payloadCanonical
  made : row = p.row row.eventId row.payloadCanonical
  rows : List.Forall₂ (p.Delivers row.eventId) p.routes rows
  record : eventFromRow row = .ok record

end Publication

/-- The rows a publication adds when it is the first under its identity. -/
def newRows (row : EventRow) (rows : List DeliveryRow) : List Row :=
  .event row :: rows.map .delivery

namespace Publication

variable (p : Publication)

/-- The publication finds an event under its identity. -/
structure Finds (db : Db) (row : EventRow) (canonical : Bytes) : Prop where
  canonical : versionedCanonicalBytes p.event.data = .ok canonical
  storable : p.Storable
  stored : .event row ∈ db.rows
  names : p.Names row

/-- Why the publication raises when it has changed nothing. -/
inductive Refuses (db : Db) : PyError → Prop
  | payload (e) (h : ∀ canonical, versionedCanonicalBytes p.event.data ≠ .ok canonical) :
      Refuses db e
  | columns (e) (h : ¬ p.Storable) (he : e = .data ∨ e = .integrity) : Refuses db e
  | conflict (row canonical identity) (hfinds : p.Finds db row canonical)
      (hdedupe : p.dedupe = some identity) (hdiffers : ¬ p.Agrees canonical row) :
      Refuses db (.dedupeConflict identity.ns identity.key)
  | record (row canonical e) (hfinds : p.Finds db row canonical) (hagrees : p.Agrees canonical row)
      (hrecord : eventFromRow row = .error e) : Refuses db e

/-- How it may raise: with its event pending, or having changed nothing. -/
def Raised (e : PyError) (c : Ctx Key Row UUID)
    (s : PublishingStore) : Prop :=
  (∃ eventId canonical rows, c.Adds Row.names (newRows (p.row eventId canonical) rows)) ∨
    c.Adds Row.names [] ∧ p.Refuses s.db e

end Publication

section Walk

variable {p : Publication} {c : Ctx Key Row UUID} {rows : List Row}
  {s : PublishingStore}
  {E : PyError → Ctx Key Row UUID → PublishingStore → Prop}

theorem Publication.Finds.env {row : EventRow} {canonical : Bytes} {db db' : Db}
    (h : p.Finds db row canonical) (hrows : ∀ r ∈ db.rows, r ∈ db'.rows) :
    p.Finds db' row canonical :=
  ⟨h.canonical, h.storable, hrows _ h.stored, h.names⟩

end Walk

/-! ## Runs -/

/-- The deliveries of an event are `rows`. -/
def DeliveriesOf (db : Db) (row : EventRow) (rows : List DeliveryRow) : Prop :=
  rows.Nodup ∧ ∀ r, r ∈ rows ↔
    .delivery r ∈ db.rows ∧ r.tenantId = row.tenantId ∧ r.eventId = row.eventId

/-- A publication of the log stored the event, with one delivery for each of its routes. -/
def Committed (s : PublishingStore) (row : EventRow) : Prop :=
  ∃ e ∈ s.log, ∃ rows record, e.result = .ok record ∧ e.op.Stores row rows record ∧
    DeliveriesOf s.db row rows

/-- The event, the version and the canonical payload are those of a stored event. -/
def Publication.Same (p : Publication) (row : EventRow) : Prop :=
  row.eventType = p.event.type ∧ row.eventVersion = p.event.version ∧
    versionedCanonicalBytes p.event.data = .ok row.payloadCanonical

section Runs

variable {now : Datetime} {w w' : PublishingWorld}
  {e : Entry Key Row PyError Publication EventRecord}

/-- What has been committed stays so when no other delivery of the event is stored. -/
theorem Committed.mono {s s' : PublishingStore} {row : EventRow} (h : Committed s row)
    (hlog : s.log ⊆ s'.log) (hrows : ∀ r : DeliveryRow, r.eventId = row.eventId →
      (.delivery r ∈ s'.db.rows ↔ .delivery r ∈ s.db.rows)) : Committed s' row := by
  obtain ⟨e, he, rows, record, hresult, hstores, hnodup, hmem⟩ := h
  refine ⟨e, hlog he, rows, record, hresult, hstores, hnodup, fun r => ?_⟩
  rw [hmem r]
  constructor
  · rintro ⟨hr, hids⟩
    exact ⟨(hrows r hids.2).mpr hr, hids⟩
  · rintro ⟨hr, hids⟩
    exact ⟨(hrows r hids.2).mp hr, hids⟩

/-- What a stored event knows of itself. -/
structure Intact (row : EventRow) : Prop where
  hash : row.payloadSha256 = (Platform.sha256 row.payloadCanonical).toList
  record : ∃ record, eventFromRow row = .ok record

/-- Hashes that agree are hashes of one payload. -/
theorem Publication.Agrees.same {p : Publication} {row : EventRow} {canonical : Bytes}
    (h : p.Agrees canonical row) (hintact : Intact row)
    (hcanonical : versionedCanonicalBytes p.event.data = .ok canonical)
    (hfree : Platform.sha256 canonical = Platform.sha256 row.payloadCanonical →
      canonical = row.payloadCanonical) : p.Same row := by
  obtain ⟨htype, hversion, hhash⟩ := h
  rw [hintact.hash] at hhash
  refine ⟨htype, hversion, ?_⟩
  rw [hcanonical, hfree (Vector.toList_inj.mp hhash).symm]

end Runs

end Publications

/-! Three publications of one payload under one identity. -/

namespace Publishing

open scoped Checksum

def principal : PrincipalEnvelope := ⟨1, "s", [], none, none, 0, none, none, none⟩

/-- A version of one event. -/
def note (version : ℤ) (hversion : 0 < version) : Event :=
  ⟨{ type := "e", version := version, data := .obj [], occurredAt := 0 }, by
    have hkey : isStableKey "e" = true := by decide +kernel
    simp [EventArgs.postInit, check, hkey, hversion]
    rfl⟩

def published (version : ℤ) (hversion : 0 < version) : Publication :=
  ⟨principal, note version hversion, [], 0, some ⟨"n", "k"⟩⟩

/-- The second publication has begun when the first one commits, and has only to end. -/
def racing (version : ℤ) (hversion : 0 < version) : List (Act UUID Publication) :=
  [.start (published 1 (by decide)), .mint 0 100, .step 0, .start (published version hversion),
    .mint 1 101, .step 0, .step 1, .step 1]

end Publishing

end FastapiEffects
