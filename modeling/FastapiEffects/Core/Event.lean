import FastapiEffects.Core.Retry
import FastapiEffects.Sqlalchemy.Canonical

/-! # Events

Event intent, the detached record of a stored event, and the principal envelope it
carries. A record is a value its constructor accepts: the checks of `__post_init__`
are a field.
-/

namespace FastapiEffects

open Python

/-! ## Tracing headers -/

/-- Whether every character is a lower-case hexadecimal digit. -/
def isLowerHex (s : Str) : Bool := s.all (PyChar.isIn [('0', '9'), ('a', 'f')] [])

/-- `_validate_traceparent`: `version-trace-parent-flags` with a known version and
identities that are not all zeros. -/
def validTraceparent (s : Str) : Bool :=
  let zero (c : PyChar) : Bool := c = .scalar '0'
  let dashes := [2, 35, 52].all fun i => s[i]? = some (.scalar '-')
  let version := s.take 2
  let trace := (s.drop 3).take 32
  let parent := (s.drop 36).take 16
  let flags := s.drop 53
  s.length = 55 ∧ dashes ∧ isLowerHex version ∧ isLowerHex trace ∧ isLowerHex parent ∧
    isLowerHex flags ∧ version ≠ "ff" ∧ ¬ trace.all zero ∧ ¬ parent.all zero

/-- `_TRACESTATE_KEY`. -/
def isTracestateKey (key : Str) : Bool :=
  let first := PyChar.isIn [('a', 'z'), ('0', '9')] []
  let rest := PyChar.isIn [('a', 'z'), ('0', '9')] ['_', '*', '/', '-']
  match key.splitOn (.scalar '@') with
  | [name] => Str.fullmatch first rest 255 name
  | [name, system] => Str.fullmatch first rest 255 name && Str.fullmatch first rest 13 system
  | _ => false

/-- One `key=value` member of a `tracestate`: the key, when the member is valid. -/
def tracestateMember (member : Str) : Option Str :=
  let key := member.takeWhile fun c => c ≠ .scalar '='
  let value := member.drop (key.length + 1)
  if isTracestateKey key ∧ value ≠ [] ∧ value.head? ≠ some (.scalar ' ') ∧
      value.getLast? ≠ some (.scalar ' ') ∧ value.all (PyChar.between ' ' '~')
  then some key else none

/-- `_validate_tracestate`. -/
def validTracestate (s : Str) : Bool :=
  let members := s.splitOn (.scalar ',')
  let keys := members.map tracestateMember
  s ≠ [] ∧ s.length ≤ 512 ∧ ¬ s.any (fun c => c.ord < 32 ∨ c.ord = 127) ∧
    members.length ≤ 32 ∧ keys.all Option.isSome ∧ keys.Nodup

/-! ## Intent -/

/-- The arguments of `Event(...)`. -/
structure EventArgs where
  type : Str
  version : ℤ
  data : Json
  occurredAt : Datetime
  correlationId : Option UUID := none
  causationId : Option UUID := none
  traceparent : Option Str := none
  tracestate : Option Str := none
deriving DecidableEq

/-- `Event.__post_init__`. -/
def EventArgs.postInit (e : EventArgs) : Except PyError Unit := do
  check (isStableKey e.type) (.configuration
    "Event type must use lower-case letters, digits, dots, underscores, or hyphens.")
  check (0 < e.version) (.configuration "Event version must be a positive integer.")
  check (e.traceparent.all validTraceparent) (.configuration "Event traceparent is invalid.")
  check (e.tracestate.all validTracestate) (.configuration "Event tracestate is invalid.")

/-- Typed intent. -/
structure Event extends EventArgs where
  valid : toEventArgs.postInit = .ok ()
deriving DecidableEq

/-- Who may act in whose name, as it is stored with an event. -/
structure PrincipalEnvelope where
  tenantId : UUID
  subjectId : Str
  scopes : List Str
  actorId : Option Str
  clientId : Option Str
  issuedAt : Datetime
  authenticationTime : Option Datetime
  expiresAt : Option Datetime
  credentialRef : Option Str
deriving DecidableEq

/-- The arguments of `DedupeIdentity(...)`. -/
structure DedupeIdentity where
  ns : Str
  key : Str
deriving DecidableEq

/-- `DedupeIdentity.__post_init__`. `strip` drops leading and trailing whitespace. -/
def DedupeIdentity.postInit (d : DedupeIdentity) : Except PyError Unit := do
  check (isStableKey d.ns) (.configuration "Dedupe namespace is invalid.")
  let space := PyChar.isIn [('\t', '\r'), (Char.ofNat 28, ' ')] [Char.ofNat 0x85, Char.ofNat 0xA0,
    Char.ofNat 0x1680, Char.ofNat 0x2028, Char.ofNat 0x2029, Char.ofNat 0x202F,
    Char.ofNat 0x205F, Char.ofNat 0x3000]
  let blank (c : PyChar) : Bool := space c || c.between (Char.ofNat 0x2000) (Char.ofNat 0x200A)
  check (d.key ≠ [] ∧ ¬ d.key.head?.any blank ∧ ¬ d.key.getLast?.any blank ∧
    ¬ d.key.any fun c => c.ord < 32 ∨ c.ord = 127) (.configuration "Dedupe key is invalid.")
  match d.key.encode? with
  | none => .error (.configuration "Dedupe key is invalid.")
  | some bytes => check (bytes.length ≤ 512) (.configuration "Dedupe key is invalid.")

/-! ## Records -/

/-- The arguments of `EventRecord(...)`. -/
structure EventRecordArgs where
  eventId : UUID
  tenantId : UUID
  eventType : Str
  eventVersion : ℤ
  canonicalVersion : ℤ
  payloadCanonical : Bytes
  payloadSha256 : Bytes
  principal : PrincipalEnvelope
  occurredAt : Datetime
  createdAt : Datetime
  correlationId : Option UUID
  causationId : Option UUID
  traceparent : Option Str
  tracestate : Option Str
  dedupeNamespace : Option Str
  dedupeKey : Option Str
deriving DecidableEq

/-- `EventRecord.__post_init__`. -/
def EventRecordArgs.postInit (e : EventRecordArgs) : Except PyError Unit := do
  EventArgs.postInit ⟨e.eventType, e.eventVersion, .null, e.occurredAt, e.correlationId,
    e.causationId, e.traceparent, e.tracestate⟩
  check (0 < e.canonicalVersion) (.configuration "Event canonical version must be positive.")
  check (e.payloadCanonical ≠ [])
    (.configuration "Event canonical payload must be non-empty bytes.")
  check (e.payloadSha256.length = 32)
    (.configuration "Event payload digest must be SHA-256 bytes.")
  check (e.principal.tenantId = e.tenantId)
    (.configuration "Event tenant and principal tenant must match.")
  match e.dedupeNamespace, e.dedupeKey with
  | none, none => .ok ()
  | some ns, some key => DedupeIdentity.postInit ⟨ns, key⟩
  | _, _ => .error (.configuration "Event dedupe fields must be provided together.")

/-- A detached event. -/
structure EventRecord extends EventRecordArgs where
  valid : toEventRecordArgs.postInit = .ok ()
deriving DecidableEq

/-- `EventRecord(...)`. -/
def EventRecord.make (e : EventRecordArgs) : Except PyError EventRecord :=
  match h : e.postInit with
  | .ok () => .ok ⟨e, h⟩
  | .error err => .error err

end FastapiEffects
