import FastapiEffects.Core.Principal
import FastapiEffects.Python.Isoformat
import FastapiEffects.Python.UuidText

/-! # Principals and their envelopes

The principal as the host hands it over, whose subject may be absent and whose times may be of
any zone, the envelope that is stored with an event, and the way from one to the other and back:
`to_envelope`, `to_dict`, `from_dict` and `from_envelope`. The way back is open to exactly the
principals with a subject and with times that UTC has.
-/

namespace FastapiEffects

namespace Provenance

open Python

/-- The fields `Principal(...)` and `PrincipalEnvelope(...)` take. -/
structure Fields (Z : Type) where
  tenantId : UUID
  subjectId : Option Str
  scopes : List Str
  actorId : Option Str := none
  clientId : Option Str := none
  issuedAt : LocalDatetime Z
  authenticationTime : Option (LocalDatetime Z) := none
  expiresAt : Option (LocalDatetime Z) := none
  credentialRef : Option Str := none
deriving DecidableEq

variable {Z : Type} [DecidableEq Z] [HostZones Z]

omit [DecidableEq Z] in
/-- `_require_aware`. -/
def requireAware (name : String) (value : LocalDatetime Z) : Except PyError Unit :=
  check (value.tzinfo.isSome && value.utcoffset.isSome)
    (.configuration s!"Principal {name} must be timezone-aware.")

/-- `Principal.__post_init__`, of scopes without duplicates. -/
def Fields.postInit (p : Fields Z) : Except PyError Unit := do
  validateIdentifier "subject_id" p.subjectId
  validateIdentifier "actor_id" p.actorId
  validateIdentifier "client_id" p.clientId
  validateIdentifier "credential_ref" p.credentialRef
  requireAware "issued_at" p.issuedAt
  p.authenticationTime.elim (.ok ()) (requireAware "authentication_time")
  p.expiresAt.elim (.ok ()) (requireAware "expires_at")
  check (p.scopes.length ≤ maxScopes)
    (.configuration "Principal scopes may contain at most 256 items.")
  check (p.scopes.all isScope) (.configuration "Principal contains an invalid scope name.")
  check (p.authenticationTime.all fun t => ¬ p.issuedAt.before t)
    (.configuration "Principal authentication_time must not be after issued_at.")
  check (p.expiresAt.all fun t => p.issuedAt.before t)
    (.configuration "Principal expires_at must be after issued_at.")

/-- `Principal`. -/
structure Principal (Z : Type) [DecidableEq Z] [HostZones Z] extends Fields Z where
  nodup : scopes.Nodup
  valid : toFields.postInit = .ok ()

/-- `Principal(...)`. -/
def Principal.make (p : Fields Z) : Except PyError (Principal Z) :=
  match h : Fields.postInit { p with scopes := p.scopes.dedup } with
  | .ok () => .ok ⟨{ p with scopes := p.scopes.dedup }, p.scopes.nodup_dedup, h⟩
  | .error e => .error e

/-- `PrincipalEnvelope`: the fields of a principal, its scopes in order. -/
structure PrincipalEnvelope (Z : Type) [DecidableEq Z] [HostZones Z] extends Fields Z where
  valid : ∃ p : Principal Z, toFields = { p.toFields with scopes := Str.sortedSet p.scopes }

/-- `PrincipalEnvelope(...)`. -/
def PrincipalEnvelope.make (p : Fields Z) : Except PyError (PrincipalEnvelope Z) := do
  let principal ← Principal.make p
  .ok ⟨{ principal.toFields with scopes := Str.sortedSet principal.scopes }, principal, rfl⟩

/-- `Principal.to_envelope`. -/
def Principal.toEnvelope (p : Principal Z) : Except PyError (PrincipalEnvelope Z) :=
  PrincipalEnvelope.make { p.toFields with scopes := Str.sortedSet p.scopes }

/-- `Principal.from_envelope`. -/
def Principal.fromEnvelope (envelope : PrincipalEnvelope Z) : Except PyError (Principal Z) :=
  Principal.make envelope.toFields

/-- `_format_time`. -/
def formatTime (value : LocalDatetime Z) : Except PyError Str := do
  let utc ← orRaise value.astimezoneUtc? .overflow
  .ok (Str.replace "+00:00" "Z" utc.isoformatMicroseconds)

/-- `_format_optional_time`. -/
def formatOptionalTime (value : Option (LocalDatetime Z)) : Except PyError Json :=
  match value with
  | none => .ok .null
  | some t => (formatTime t).map .str

/-- A text or `None`. -/
def optionalText (value : Option Str) : Json := value.elim .null .str

/-- `PrincipalEnvelope.to_dict`. -/
def Fields.toDict (p : Fields Z) : Except PyError Json := do
  let issuedAt ← formatTime p.issuedAt
  let authenticationTime ← formatOptionalTime p.authenticationTime
  let expiresAt ← formatOptionalTime p.expiresAt
  .ok (.obj [("tenant_id", .str p.tenantId.str), ("subject_id", optionalText p.subjectId),
    ("scopes", .arr (p.scopes.map .str)), ("actor_id", optionalText p.actorId),
    ("client_id", optionalText p.clientId), ("issued_at", .str issuedAt),
    ("authentication_time", authenticationTime), ("expires_at", expiresAt),
    ("credential_ref", optionalText p.credentialRef)])

/-- `_ENVELOPE_FIELDS`. -/
def envelopeFields : List Str := ["tenant_id", "subject_id", "scopes", "actor_id", "client_id",
  "issued_at", "authentication_time", "expires_at", "credential_ref"]

/-- `_RAW_CREDENTIAL_FIELDS`. -/
def rawCredentialFields : List Str := ["authorization", "proxy_authorization", "cookie",
  "password", "secret", "token", "access_token", "refresh_token", "api_key", "session",
  "session_token"]

/-- `_require_string`. -/
def requireString (value : Json) : Except PyError Str :=
  match value with
  | .str s => .ok s
  | _ => .error (.configuration "Principal envelope field must be text.")

/-- `_optional_string`. -/
def optionalString (value : Json) : Except PyError (Option Str) :=
  match value with
  | .null => .ok none
  | value => (requireString value).map some

/-- `_parse_time`. -/
def parseTime (value : Json) : Except PyError (LocalDatetime Z) := do
  let text ← requireString value
  let parsed ← orRaise (LocalDatetime.fromisoformat? (Str.replace "Z" "+00:00" text)) .value
  requireAware "envelope time" parsed
  .ok parsed

/-- `_parse_optional_time`. -/
def parseOptionalTime (value : Json) : Except PyError (Option (LocalDatetime Z)) :=
  match value with
  | .null => .ok none
  | value => (parseTime value).map some

/-- `except (ValueError, TypeError)` of `from_dict`. -/
def restated {α : Type} (x : Except PyError α) : Except PyError α :=
  match x with
  | .error .value | .error .type => .error (.configuration "Principal envelope is invalid.")
  | x => x

/-- `PrincipalEnvelope.from_dict`; `decimal` are the digits of other scripts that `UUID` takes. -/
def PrincipalEnvelope.fromDict (decimal : PyChar → Option ℕ) (value : Json) :
    Except PyError (PrincipalEnvelope Z) :=
  match value with
  | .obj members => do
    let keys := members.map Prod.fst
    check (¬ keys.any (· ∈ rawCredentialFields) ∧ keys ⊆ envelopeFields ∧ envelopeFields ⊆ keys)
      (.configuration "Principal envelope contains unsupported fields.")
    let field (name : String) : Json := (Json.get? (.obj members) name).getD .null
    let scopes ← match field "scopes" with
      | .arr items => .ok items
      | _ => .error (.configuration "Principal envelope scopes are invalid.")
    restated do
      let tenantText ← requireString (field "tenant_id")
      let tenantId ← orRaise (UUID.ofStr? decimal tenantText) .value
      let subjectId ← requireString (field "subject_id")
      let scopes ← scopes.mapM requireString
      let actorId ← optionalString (field "actor_id")
      let clientId ← optionalString (field "client_id")
      let issuedAt ← parseTime (field "issued_at")
      let authenticationTime ← parseOptionalTime (field "authentication_time")
      let expiresAt ← parseOptionalTime (field "expires_at")
      let credentialRef ← optionalString (field "credential_ref")
      PrincipalEnvelope.make ⟨tenantId, some subjectId, scopes, actorId, clientId, issuedAt,
        authenticationTime, expiresAt, credentialRef⟩
  | _ => .error (.configuration "Principal envelope must be an object.")

/-- Out to the stored object and back. -/
def roundTrip (decimal : PyChar → Option ℕ) (p : Principal Z) : Except PyError (Principal Z) := do
  let envelope ← p.toEnvelope
  let stored ← envelope.toFields.toDict
  let restored ← PrincipalEnvelope.fromDict decimal stored
  Principal.fromEnvelope restored

/-- Equality of optional times. -/
def sameTime : Option (LocalDatetime Z) → Option (LocalDatetime Z) → Bool
  | none, none => true
  | some t, some u => t.equals u
  | _, _ => false

/-- `p == q`: field for field, the scopes as sets. -/
def Principal.equals (p q : Principal Z) : Bool :=
  p.tenantId = q.tenantId ∧ p.subjectId = q.subjectId ∧
    (p.scopes ⊆ q.scopes ∧ q.scopes ⊆ p.scopes) ∧ p.actorId = q.actorId ∧
    p.clientId = q.clientId ∧ p.issuedAt.equals q.issuedAt ∧
    sameTime p.authenticationTime q.authenticationTime ∧ sameTime p.expiresAt q.expiresAt ∧
    p.credentialRef = q.credentialRef

/-- A subject, times that UTC has, and in UTC the order the constructor asks for. -/
structure Storable (p : Fields Z) : Prop where
  subject : p.subjectId ≠ none
  issued : p.issuedAt.InUtc
  authenticated : ∀ t ∈ p.authenticationTime, t.InUtc ∧ t.instant ≤ p.issuedAt.instant
  expires : ∀ t ∈ p.expiresAt, t.InUtc ∧ p.issuedAt.instant < t.instant

/-! ## What the constructor checks -/

/-- The checks of the constructor, as a whole. -/
structure Fields.Valid (p : Fields Z) : Prop where
  subject : ∀ s ∈ p.subjectId, isIdentifier s = true
  actor : ∀ s ∈ p.actorId, isIdentifier s = true
  client : ∀ s ∈ p.clientId, isIdentifier s = true
  credential : ∀ s ∈ p.credentialRef, isIdentifier s = true
  issued : p.issuedAt.utcoffset.isSome = true
  authenticated : ∀ t ∈ p.authenticationTime,
    t.utcoffset.isSome = true ∧ p.issuedAt.before t = false
  expires : ∀ t ∈ p.expiresAt, t.utcoffset.isSome = true ∧ p.issuedAt.before t = true
  count : p.scopes.length ≤ maxScopes
  scopes : ∀ s ∈ p.scopes, isScope s = true

omit [DecidableEq Z] in
theorem requireAware_eq_ok {name : String} {t : LocalDatetime Z} :
    requireAware name t = .ok () ↔ t.utcoffset.isSome = true := by
  rw [requireAware, check_eq_ok, Bool.and_eq_true]
  constructor
  · exact And.right
  · intro h
    refine ⟨?_, h⟩
    rcases hzone : t.tzinfo with _ | zone
    · rw [LocalDatetime.utcoffset, hzone] at h
      exact h
    · rfl

omit [DecidableEq Z] in
theorem optional_requireAware_eq_ok {name : String} {time : Option (LocalDatetime Z)} :
    time.elim (.ok ()) (requireAware name) = .ok () ↔ ∀ t ∈ time, t.utcoffset.isSome = true := by
  cases time with
  | none => simp
  | some t => simpa using requireAware_eq_ok

theorem Fields.postInit_eq_ok {p : Fields Z} : p.postInit = .ok () ↔ p.Valid := by
  simp only [Fields.postInit, validateIdentifier, bind_eq_ok, check_eq_ok,
    Option.all_eq_true, decide_eq_true_eq, List.all_eq_true]
  constructor
  · rintro ⟨-, hsubject, -, hactor, -, hclient, -, hcredential, ⟨⟩, hissued, ⟨⟩, hauth, ⟨⟩,
      hexpires, -, hcount, -, hscopes, -, hbefore, hafter⟩
    have hauth := optional_requireAware_eq_ok.mp hauth
    have hexpires := optional_requireAware_eq_ok.mp hexpires
    exact ⟨hsubject, hactor, hclient, hcredential, requireAware_eq_ok.mp hissued,
      fun t ht => ⟨hauth t ht, Bool.eq_false_of_not_eq_true (hbefore t ht)⟩,
      fun t ht => ⟨hexpires t ht, hafter t ht⟩, hcount, hscopes⟩
  · intro h
    refine ⟨(), h.subject, (), h.actor, (), h.client, (), h.credential, (),
      requireAware_eq_ok.mpr h.issued, (),
      optional_requireAware_eq_ok.mpr fun t ht => (h.authenticated t ht).1, (),
      optional_requireAware_eq_ok.mpr fun t ht => (h.expires t ht).1, (), h.count, (), h.scopes,
      (), fun t ht => ?_, fun t ht => (h.expires t ht).2⟩
    rw [(h.authenticated t ht).2]
    exact Bool.false_ne_true

/-- The order of the scopes does not matter. -/
theorem Fields.Valid.perm {p : Fields Z} (h : p.Valid) {scopes : List Str}
    (hperm : scopes.Perm p.scopes) : Fields.Valid { p with scopes := scopes } where
  subject := h.subject
  actor := h.actor
  client := h.client
  credential := h.credential
  issued := h.issued
  authenticated := h.authenticated
  expires := h.expires
  count := hperm.length_eq.trans_le h.count
  scopes := fun s hs => h.scopes s (hperm.mem_iff.mp hs)

namespace Principal

theorem make_eq_ok {p : Fields Z} {q : Principal Z} :
    make p = .ok q ↔ Fields.Valid { p with scopes := p.scopes.dedup } ∧
      q.toFields = { p with scopes := p.scopes.dedup } := by
  unfold make
  split
  · rename_i hvalid
    constructor
    · rintro ⟨⟩
      exact ⟨Fields.postInit_eq_ok.mp hvalid, rfl⟩
    · rintro ⟨-, hfields⟩
      obtain ⟨fields, hnodup, hq⟩ := q
      cases hfields
      rfl
  · rename_i e herr
    constructor
    · rintro ⟨⟩
    · rintro ⟨hvalid, -⟩
      rw [Fields.postInit_eq_ok.mpr hvalid] at herr
      cases herr

end Principal

/-- The scopes of an envelope are those of its principal, in order. -/
theorem PrincipalEnvelope.make_eq_ok {p : Fields Z} {e : PrincipalEnvelope Z} :
    make p = .ok e ↔ Fields.Valid { p with scopes := p.scopes.dedup } ∧
      e.toFields = { p with scopes := Str.sortedSet p.scopes } := by
  have hsorted : Str.sortedSet p.scopes.dedup = Str.sortedSet p.scopes := by
    rw [Str.sortedSet, Str.sortedSet, List.Nodup.dedup p.scopes.nodup_dedup]
  rw [make, bind_eq_ok]
  constructor
  · rintro ⟨q, hq, he⟩
    obtain ⟨hvalid, hfields⟩ := Principal.make_eq_ok.mp hq
    cases he
    refine ⟨hvalid, ?_⟩
    simp only [hfields, hsorted]
  · rintro ⟨hvalid, hfields⟩
    obtain ⟨q, hq⟩ : ∃ q, Principal.make p = .ok q :=
      ⟨⟨_, p.scopes.nodup_dedup, Fields.postInit_eq_ok.mpr hvalid⟩,
        Principal.make_eq_ok.mpr ⟨hvalid, rfl⟩⟩
    refine ⟨q, hq, ?_⟩
    obtain ⟨fields, he⟩ := e
    obtain ⟨-, hq⟩ := Principal.make_eq_ok.mp hq
    simp only [hq, hsorted] at hfields ⊢
    cases hfields
    rfl

/-- Accepted fields have an envelope. -/
theorem PrincipalEnvelope.exists_make {p : Fields Z}
    (h : Fields.Valid { p with scopes := p.scopes.dedup }) :
    ∃ e, make p = .ok e ∧ e.toFields = { p with scopes := Str.sortedSet p.scopes } := by
  obtain ⟨q, hq⟩ : ∃ q, Principal.make p = .ok q :=
    ⟨⟨_, p.scopes.nodup_dedup, Fields.postInit_eq_ok.mpr h⟩, Principal.make_eq_ok.mpr ⟨h, rfl⟩⟩
  obtain ⟨e, he⟩ : ∃ e, make p = .ok e := by
    rw [make, hq]
    exact ⟨_, rfl⟩
  exact ⟨e, he, (make_eq_ok.mp he).2⟩

/-- The scopes of a principal in order are its scopes. -/
theorem sortedSet_perm {scopes : List Str} (h : scopes.Nodup) :
    (Str.sortedSet scopes).Perm scopes := by
  rw [Str.sortedSet, h.dedup]
  exact List.perm_insertionSort _ _

theorem dedup_sortedSet (scopes : List Str) :
    (Str.sortedSet scopes).dedup = Str.sortedSet scopes :=
  (Str.nodup_sortedSet scopes).dedup

/-- An accepted principal has an envelope. -/
theorem Principal.exists_toEnvelope (p : Principal Z) : ∃ e, p.toEnvelope = .ok e ∧
    e.toFields = { p.toFields with scopes := Str.sortedSet p.scopes } := by
  have hvalid := Fields.postInit_eq_ok.mp p.valid
  have hsorted : Fields.Valid { p.toFields with scopes := (Str.sortedSet p.scopes).dedup } := by
    rw [dedup_sortedSet]
    exact hvalid.perm (sortedSet_perm p.nodup)
  obtain ⟨e, he, hfields⟩ := PrincipalEnvelope.exists_make
    (p := { p.toFields with scopes := Str.sortedSet p.scopes }) hsorted
  simp only [Str.sortedSet_sortedSet] at hfields
  exact ⟨e, he, hfields⟩

/-! ## Times -/

/-- The reading of UTC at the instant of a time, if there is one. -/
def utcReading (t : LocalDatetime Z) : LocalDatetime Z :=
  if h : Datetime.Valid t.instant then .ofUtc t.instant h else t

omit [DecidableEq Z] in
theorem utcReading_eq {t : LocalDatetime Z} (h : Datetime.Valid t.instant) :
    utcReading t = .ofUtc t.instant h := dif_pos h

/-- The text of a time in an envelope. -/
def timeText (t : LocalDatetime Z) : Str :=
  Str.replace "+00:00" "Z" (LocalDatetime.utcText t.instant)

theorem formatTime_eq_ok {t : LocalDatetime Z} {s : Str} :
    formatTime t = .ok s ↔ Datetime.Valid t.instant ∧ s = timeText t := by
  by_cases h : Datetime.Valid t.instant
  · obtain ⟨u, hu, hwall, hzone⟩ := LocalDatetime.exists_astimezoneUtc? h
    have htext := LocalDatetime.isoformatMicroseconds_of_utc hzone
    rw [hwall] at htext
    rw [formatTime, hu]
    simp only [orRaise, bind, Except.bind, htext, timeText, h, true_and, Except.ok.injEq]
    exact eq_comm
  · rw [formatTime, LocalDatetime.astimezoneUtc?_eq_none h]
    exact ⟨fun herr => (by cases herr), fun hs => absurd hs.1 h⟩

omit [DecidableEq Z] in
/-- The text of a time is read as the reading of UTC at its instant. -/
theorem parseTime_timeText {t : LocalDatetime Z} (h : Datetime.Valid t.instant) :
    parseTime (.str (timeText t)) = .ok (utcReading t) := by
  have hread : LocalDatetime.fromisoformat? (Str.replace "Z" "+00:00" (timeText t)) =
      some (utcReading t) := by
    rw [timeText, LocalDatetime.replace_utcText, LocalDatetime.fromisoformat?_utcText h,
      utcReading_eq h]
  have haware : requireAware "envelope time" (utcReading t) = .ok () := by
    rw [requireAware_eq_ok, utcReading_eq h]
    rfl
  simp only [parseTime, requireString, bind, Except.bind, hread, orRaise, haware]

/-- The value of an optional time in an envelope. -/
def optionalTime (time : Option (LocalDatetime Z)) : Json := time.elim .null fun t => .str (timeText t)

theorem formatOptionalTime_eq_ok {time : Option (LocalDatetime Z)} {value : Json} :
    formatOptionalTime time = .ok value ↔
      (∀ t ∈ time, Datetime.Valid t.instant) ∧ value = optionalTime time := by
  cases time with
  | none => simp [formatOptionalTime, optionalTime, eq_comm]
  | some t =>
      simp only [formatOptionalTime, map_eq_ok, formatTime_eq_ok, optionalTime, Option.elim_some,
        Option.mem_def, Option.some.injEq, forall_eq']
      constructor
      · rintro ⟨_, ⟨hvalid, rfl⟩, rfl⟩
        exact ⟨hvalid, rfl⟩
      · rintro ⟨hvalid, rfl⟩
        exact ⟨_, ⟨hvalid, rfl⟩, rfl⟩

omit [DecidableEq Z] in
theorem parseOptionalTime_eq {time : Option (LocalDatetime Z)}
    (h : ∀ t ∈ time, Datetime.Valid t.instant) :
    parseOptionalTime (optionalTime time) = .ok (time.map utcReading) := by
  cases time with
  | none => rfl
  | some t =>
      simp only [optionalTime, Option.elim_some, parseOptionalTime, parseTime_timeText (h t rfl),
        Except.map, Option.map_some]

theorem optionalString_optionalText (value : Option Str) :
    optionalString (optionalText value) = .ok value := by
  cases value <;> rfl

/-! ## Out and back -/

/-- The stored object of a principal whose times UTC has. -/
def members (p : Fields Z) : List (Str × Json) :=
  [("tenant_id", .str p.tenantId.str), ("subject_id", optionalText p.subjectId),
    ("scopes", .arr (p.scopes.map .str)), ("actor_id", optionalText p.actorId),
    ("client_id", optionalText p.clientId), ("issued_at", .str (timeText p.issuedAt)),
    ("authentication_time", optionalTime p.authenticationTime),
    ("expires_at", optionalTime p.expiresAt), ("credential_ref", optionalText p.credentialRef)]

/-- Times that UTC has. -/
structure HasUtc (p : Fields Z) : Prop where
  issued : Datetime.Valid p.issuedAt.instant
  authenticated : ∀ t ∈ p.authenticationTime, Datetime.Valid t.instant
  expires : ∀ t ∈ p.expiresAt, Datetime.Valid t.instant

theorem toDict_eq_ok {p : Fields Z} {value : Json} :
    p.toDict = .ok value ↔ HasUtc p ∧ value = .obj (members p) := by
  simp only [Fields.toDict, bind_eq_ok, formatTime_eq_ok, formatOptionalTime_eq_ok]
  constructor
  · rintro ⟨_, ⟨hissued, rfl⟩, _, ⟨hauth, rfl⟩, _, ⟨hexpires, rfl⟩, hvalue⟩
    cases hvalue
    exact ⟨⟨hissued, hauth, hexpires⟩, rfl⟩
  · rintro ⟨h, rfl⟩
    exact ⟨_, ⟨h.issued, rfl⟩, _, ⟨h.authenticated, rfl⟩, _, ⟨h.expires, rfl⟩, rfl⟩

/-- The fields with their times in UTC. -/
def inUtc (p : Fields Z) : Fields Z :=
  { p with
    issuedAt := utcReading p.issuedAt
    authenticationTime := p.authenticationTime.map utcReading
    expiresAt := p.expiresAt.map utcReading }

theorem mapM_requireString (scopes : List Str) :
    (scopes.map Json.str).mapM requireString = .ok scopes := by
  induction scopes with
  | nil => rfl
  | cons s scopes ih =>
      rw [List.map_cons, List.mapM_cons, ih]
      rfl

omit [DecidableEq Z] in
/-- The members of a stored object. -/
theorem getD_members (p : Fields Z) :
    let field (name : String) : Json := (Json.get? (.obj (members p)) name).getD .null
    field "tenant_id" = .str p.tenantId.str ∧ field "subject_id" = optionalText p.subjectId ∧
      field "scopes" = .arr (p.scopes.map .str) ∧ field "actor_id" = optionalText p.actorId ∧
      field "client_id" = optionalText p.clientId ∧ field "issued_at" = .str (timeText p.issuedAt) ∧
      field "authentication_time" = optionalTime p.authenticationTime ∧
      field "expires_at" = optionalTime p.expiresAt ∧
      field "credential_ref" = optionalText p.credentialRef :=
  ⟨rfl, rfl, rfl, rfl, rfl, rfl, rfl, rfl, rfl⟩

/-- A stored object without a subject is refused, and one with a subject is read as the fields
in UTC. -/
theorem fromDict_members (decimal : PyChar → Option ℕ) {p : Fields Z} (h : HasUtc p) :
    PrincipalEnvelope.fromDict decimal (.obj (members p)) =
      match p.subjectId with
      | none => .error (.configuration "Principal envelope field must be text.")
      | some _ => restated (PrincipalEnvelope.make (inUtc p)) := by
  obtain ⟨htenant, hsubject, hscopes, hactor, hclient, hissued, hauth, hexpires, hcredential⟩ :=
    getD_members p
  have hkeys : (members p).map Prod.fst = envelopeFields := rfl
  have hcheck : check (¬ envelopeFields.any (· ∈ rawCredentialFields) ∧
      envelopeFields ⊆ envelopeFields ∧ envelopeFields ⊆ envelopeFields)
      (.configuration "Principal envelope contains unsupported fields.") = .ok () := by
    decide
  rw [PrincipalEnvelope.fromDict]
  simp only [hkeys, hcheck, htenant, hsubject, hscopes, hactor, hclient, hissued, hauth, hexpires,
    hcredential, mapM_requireString, optionalString_optionalText, parseTime_timeText h.issued,
    parseOptionalTime_eq h.authenticated, parseOptionalTime_eq h.expires, UUID.ofStr?_str,
    requireString, orRaise, bind, Except.bind]
  rcases hp : p.subjectId with _ | s
  · rfl
  · simp only [optionalText, Option.elim_some, inUtc, hp]

theorem fromDict_members_of_ne (decimal : PyChar → Option ℕ) {p : Fields Z} (h : HasUtc p)
    (hsubject : p.subjectId ≠ none) : PrincipalEnvelope.fromDict decimal (.obj (members p)) =
      restated (PrincipalEnvelope.make (inUtc p)) := by
  rw [fromDict_members decimal h]
  split
  · exact absurd ‹_› hsubject
  · rfl

theorem restated_eq_ok {α : Type} {x : Except PyError α} {a : α} :
    restated x = .ok a ↔ x = .ok a := by
  unfold restated
  split <;> simp

omit [DecidableEq Z] in
theorem inUtc_scopes (p : Fields Z) (scopes : List Str) :
    inUtc { p with scopes := scopes } = { inUtc p with scopes := scopes } := rfl

/-- Where the way out and back leads. -/
theorem roundTrip_eq_ok (decimal : PyChar → Option ℕ) {p q : Principal Z} :
    roundTrip decimal p = .ok q ↔ HasUtc p.toFields ∧ p.subjectId ≠ none ∧
      (inUtc p.toFields).Valid ∧
      q.toFields = { inUtc p.toFields with scopes := Str.sortedSet p.scopes } := by
  obtain ⟨e, he, hfields⟩ := p.exists_toEnvelope
  have hperm := sortedSet_perm p.nodup
  have hdedup := dedup_sortedSet p.scopes
  simp only [roundTrip, bind_eq_ok, he, Except.ok.injEq, exists_eq_left', hfields, toDict_eq_ok]
  constructor
  · rintro ⟨_, ⟨hutc, rfl⟩, ⟨restored, hrestored⟩, he', hq⟩
    by_cases hsubject : p.subjectId = none
    · rw [fromDict_members decimal hutc] at he'
      simp only [hsubject] at he'
      cases he'
    · rw [fromDict_members_of_ne decimal hutc hsubject] at he'
      obtain ⟨hvalid, he'⟩ := PrincipalEnvelope.make_eq_ok.mp (restated_eq_ok.mp he')
      obtain ⟨-, hq⟩ := Principal.make_eq_ok.mp hq
      rw [inUtc_scopes] at hvalid he'
      simp only [hdedup, Str.sortedSet_sortedSet] at hvalid he'
      subst he'
      simp only [hdedup] at hq
      exact ⟨⟨hutc.issued, hutc.authenticated, hutc.expires⟩, hsubject,
        hvalid.perm hperm.symm, hq⟩
  · rintro ⟨hutc, hsubject, hvalid, hq⟩
    have hutc' : HasUtc { p.toFields with scopes := Str.sortedSet p.scopes } :=
      ⟨hutc.issued, hutc.authenticated, hutc.expires⟩
    have hsorted : Fields.Valid { inUtc p.toFields with
        scopes := (Str.sortedSet p.scopes).dedup } := by
      rw [hdedup]
      exact hvalid.perm hperm
    obtain ⟨restored, hmake, hrestored⟩ := PrincipalEnvelope.exists_make
      (p := { inUtc p.toFields with scopes := Str.sortedSet p.scopes }) hsorted
    simp only [Str.sortedSet_sortedSet] at hrestored
    refine ⟨_, ⟨hutc', rfl⟩, restored, ?_, ?_⟩
    · rw [fromDict_members_of_ne decimal hutc' hsubject]
      exact restated_eq_ok.mpr hmake
    · refine Principal.make_eq_ok.mpr ⟨?_, ?_⟩
      · rw [hrestored]
        exact hsorted
      · rw [hrestored, hq, hdedup]

/-! ## The principals that come back -/

theorem utcReading_equals {t : LocalDatetime Z} (h : Datetime.Valid t.instant) :
    (utcReading t).equals t = true ↔ t.InUtc := by
  rw [utcReading_eq h, LocalDatetime.ofUtc_equals h, Bool.not_eq_true', LocalDatetime.InUtc]
  exact ⟨fun hfold => ⟨h, hfold⟩, And.right⟩

theorem sameTime_map {time : Option (LocalDatetime Z)}
    (h : ∀ t ∈ time, Datetime.Valid t.instant) :
    sameTime (time.map utcReading) time = true ↔ ∀ t ∈ time, t.InUtc := by
  cases time with
  | none => simp [sameTime]
  | some t =>
      rw [Option.map_some, sameTime, utcReading_equals (h t rfl)]
      simp

theorem utcReading_before {t u : LocalDatetime Z} (ht : Datetime.Valid t.instant)
    (hu : Datetime.Valid u.instant) :
    (utcReading t).before (utcReading u) = decide (t.instant < u.instant) := by
  rw [utcReading_eq ht, utcReading_eq hu, LocalDatetime.ofUtc_before]

omit [DecidableEq Z] in
theorem utcReading_aware {t : LocalDatetime Z} (h : Datetime.Valid t.instant) :
    (utcReading t).utcoffset.isSome = true := by
  rw [utcReading_eq h]
  rfl

/-- In UTC the constructor asks for the order of the instants. -/
theorem valid_inUtc_iff {p : Fields Z} (h : p.Valid) (hutc : HasUtc p) : (inUtc p).Valid ↔
    (∀ t ∈ p.authenticationTime, t.instant ≤ p.issuedAt.instant) ∧
      ∀ t ∈ p.expiresAt, p.issuedAt.instant < t.instant := by
  constructor
  · intro hvalid
    constructor
    · intro t ht
      have horder := (hvalid.authenticated (utcReading t) (Option.mem_map_of_mem _ ht)).2
      rw [inUtc, utcReading_before hutc.issued (hutc.authenticated t ht)] at horder
      exact not_lt.mp (of_decide_eq_false horder)
    · intro t ht
      have horder := (hvalid.expires (utcReading t) (Option.mem_map_of_mem _ ht)).2
      rw [inUtc, utcReading_before hutc.issued (hutc.expires t ht)] at horder
      exact of_decide_eq_true horder
  · rintro ⟨hbefore, hafter⟩
    refine ⟨h.subject, h.actor, h.client, h.credential, utcReading_aware hutc.issued, ?_, ?_,
      h.count, h.scopes⟩
    · intro u hu
      obtain ⟨t, ht, rfl⟩ := Option.mem_map.mp hu
      refine ⟨utcReading_aware (hutc.authenticated t ht), ?_⟩
      rw [inUtc, utcReading_before hutc.issued (hutc.authenticated t ht)]
      exact decide_eq_false (not_lt.mpr (hbefore t ht))
    · intro u hu
      obtain ⟨t, ht, rfl⟩ := Option.mem_map.mp hu
      refine ⟨utcReading_aware (hutc.expires t ht), ?_⟩
      rw [inUtc, utcReading_before hutc.issued (hutc.expires t ht)]
      exact decide_eq_true (hafter t ht)

/-- The principal in UTC is equal to the one that was stored when no time depends on its fold. -/
theorem equals_iff {p q : Principal Z} (hutc : HasUtc p.toFields)
    (hq : q.toFields = { inUtc p.toFields with scopes := Str.sortedSet p.scopes }) :
    q.equals p = true ↔ p.issuedAt.InUtc ∧ (∀ t ∈ p.authenticationTime, t.InUtc) ∧
      ∀ t ∈ p.expiresAt, t.InUtc := by
  have hscopes : Str.sortedSet p.scopes ⊆ p.scopes ∧ p.scopes ⊆ Str.sortedSet p.scopes :=
    ⟨fun s hs => Str.mem_sortedSet.mp hs, fun s hs => Str.mem_sortedSet.mpr hs⟩
  rw [Principal.equals, decide_eq_true_eq, hq]
  simp only [inUtc, true_and, and_true, hscopes, utcReading_equals hutc.issued,
    sameTime_map hutc.authenticated, sameTime_map hutc.expires, and_self]

/-- Every accepted principal with a subject and with times that UTC has in the same order comes
back equal, and no other. -/
theorem principal_round_trip (decimal : PyChar → Option ℕ) (p : Principal Z) :
    (∃ q, roundTrip decimal p = .ok q ∧ q.equals p = true) ↔ Storable p.toFields := by
  have hvalid := Fields.postInit_eq_ok.mp p.valid
  constructor
  · rintro ⟨q, hq, hequals⟩
    obtain ⟨hutc, hsubject, hinUtc, hfields⟩ := (roundTrip_eq_ok decimal).mp hq
    obtain ⟨hissued, hauth, hexpires⟩ := (equals_iff hutc hfields).mp hequals
    obtain ⟨hbefore, hafter⟩ := (valid_inUtc_iff hvalid hutc).mp hinUtc
    exact ⟨hsubject, hissued, fun t ht => ⟨hauth t ht, hbefore t ht⟩,
      fun t ht => ⟨hexpires t ht, hafter t ht⟩⟩
  · intro hstorable
    have hutc : HasUtc p.toFields := ⟨hstorable.issued.1,
      fun t ht => (hstorable.authenticated t ht).1.1, fun t ht => (hstorable.expires t ht).1.1⟩
    have hinUtc : (inUtc p.toFields).Valid := (valid_inUtc_iff hvalid hutc).mpr
      ⟨fun t ht => (hstorable.authenticated t ht).2, fun t ht => (hstorable.expires t ht).2⟩
    have hsorted := hinUtc.perm (sortedSet_perm p.nodup)
    let q : Principal Z := ⟨{ inUtc p.toFields with scopes := Str.sortedSet p.scopes },
      Str.nodup_sortedSet p.scopes, Fields.postInit_eq_ok.mpr hsorted⟩
    refine ⟨q, (roundTrip_eq_ok decimal).mpr ⟨hutc, hstorable.subject, hinUtc, rfl⟩, ?_⟩
    exact (equals_iff hutc rfl).mpr ⟨hstorable.issued,
      fun t ht => (hstorable.authenticated t ht).1, fun t ht => (hstorable.expires t ht).1⟩

/-- A principal without a subject, which the constructor accepts. -/
def anonymous : Principal Empty where
  tenantId := 0
  subjectId := none
  scopes := []
  issuedAt := .ofUtc 0 (by decide)
  nodup := List.nodup_nil
  valid := by decide +kernel

theorem anonymous_not_restored : ¬ ∀ p : Principal Empty,
    ∃ q, roundTrip (fun _ => none) p = .ok q ∧ q.equals p = true := by
  intro h
  obtain ⟨q, hq, -⟩ := h anonymous
  exact ((roundTrip_eq_ok _).mp hq).2.1 rfl

/-! ## Principals of UTC -/

/-- The fields of a principal with a subject and with times of UTC. -/
def ofArgs (p : PrincipalArgs) (hissued : p.issuedAt.Valid)
    (hauth : ∀ t ∈ p.authenticationTime, t.Valid) (hexpires : ∀ t ∈ p.expiresAt, t.Valid) :
    Fields Empty where
  tenantId := p.tenantId
  subjectId := some p.subjectId
  scopes := p.scopes
  actorId := p.actorId
  clientId := p.clientId
  issuedAt := .ofUtc p.issuedAt hissued
  authenticationTime := p.authenticationTime.pmap LocalDatetime.ofUtc hauth
  expiresAt := p.expiresAt.pmap LocalDatetime.ofUtc hexpires
  credentialRef := p.credentialRef

/-- What the one constructor accepts, the other does, and it can be stored. -/
theorem storable_ofArgs {p : PrincipalArgs} (h : p.Valid) (hissued : p.issuedAt.Valid)
    (hauth : ∀ t ∈ p.authenticationTime, t.Valid) (hexpires : ∀ t ∈ p.expiresAt, t.Valid) :
    (ofArgs p hissued hauth hexpires).Valid ∧ Storable (ofArgs p hissued hauth hexpires) := by
  have hutc : ∀ (t : Datetime) (ht : t.Valid), (LocalDatetime.ofUtc t ht : LocalDatetime Empty).InUtc := by
    intro t ht
    rw [LocalDatetime.InUtc, LocalDatetime.instant_ofUtc]
    exact ⟨ht, LocalDatetime.foldMatters_of_utc rfl⟩
  refine ⟨⟨?_, h.actor, h.client, h.credential, rfl, ?_, ?_, h.count, h.scopes⟩,
    ⟨Option.some_ne_none _, hutc _ hissued, ?_, ?_⟩⟩
  · rintro s ⟨⟩
    exact h.subject
  all_goals
    intro t ht
    obtain ⟨u, hvalid, hu, rfl⟩ := Option.pmap_eq_some_iff.mp ht
  · exact ⟨rfl, decide_eq_false (not_lt.mpr (h.authenticated u hu))⟩
  · exact ⟨rfl, decide_eq_true (h.expires u hu)⟩
  · refine ⟨hutc _ _, ?_⟩
    rw [ofArgs, LocalDatetime.instant_ofUtc, LocalDatetime.instant_ofUtc]
    exact h.authenticated u hu
  · refine ⟨hutc _ _, ?_⟩
    rw [ofArgs, LocalDatetime.instant_ofUtc, LocalDatetime.instant_ofUtc]
    exact h.expires u hu

end Provenance

end FastapiEffects
