import FastapiEffects.Delegation.Keys
import FastapiEffects.Delegation.Targets
import FastapiEffects.Core.Principal
import FastapiEffects.Python.UuidText

/-! # Delegation claims

`DelegationClaims`, the checks and normalizations of its constructor, and its way to
JSON and back. Times are written in whole seconds.
-/

namespace FastapiEffects

open Python

/-- The arguments of `DelegationClaims(...)`. -/
structure DelegationClaimsArgs where
  version : ℤ
  issuer : Str
  tenantId : UUID
  subjectId : Str
  actorId : Option Str
  clientId : Option Str
  audience : Str
  method : Str
  path : Str
  scopes : List Str
  issuedAt : Datetime
  notBefore : Datetime
  expiresAt : Datetime
  tokenId : UUID
  keyId : Str
  delegationDepth : ℤ := 1
deriving DecidableEq

/-- `_MAXIMUM_CREDENTIAL_LIFETIME_SECONDS`. -/
def maxCredentialLifetime : Timedelta := 3600000000

/-- The check of one identity. -/
def checkDelegationIdentity (name : String) (value : Option Str) : Except PyError Unit :=
  check (value.all isDelegationIdentifier) (.configuration s!"Delegation {name} is invalid.")

/-- `DelegationClaims.__post_init__`: the claims with method, path and scopes normalized. -/
def DelegationClaimsArgs.postInit (c : DelegationClaimsArgs) :
    Except PyError DelegationClaimsArgs := do
  check (c.version = 1) (.configuration "Delegation claim version is unsupported.")
  checkDelegationIdentity "issuer" c.issuer
  checkDelegationIdentity "subject" c.subjectId
  checkDelegationIdentity "audience" c.audience
  checkDelegationIdentity "actor" c.actorId
  checkDelegationIdentity "client" c.clientId
  check (isKeyId c.keyId) (.configuration "Delegation key ID is invalid.")
  let method ← canonicalMethod c.method
  let path ← canonicalTargetPath c.path
  check (c.scopes.length ≤ 128 ∧ c.scopes.all isScope)
    (.configuration "Delegation scope set is invalid.")
  check (c.issuedAt ≤ c.notBefore ∧ c.notBefore < c.expiresAt)
    (.configuration "Delegation validity interval is invalid.")
  check (c.expiresAt - c.issuedAt ≤ maxCredentialLifetime)
    (.configuration "Delegation credential lifetime is excessive.")
  check (1 ≤ c.delegationDepth ∧ c.delegationDepth ≤ 16)
    (.configuration "Delegation depth is invalid.")
  return { c with method := method, path := path, scopes := Str.sortedSet c.scopes }

/-- What the constructor accepts. -/
structure DelegationClaimsArgs.Accepted (c : DelegationClaimsArgs) (path : Str) : Prop where
  version : c.version = 1
  issuer : isDelegationIdentifier c.issuer = true
  subject : isDelegationIdentifier c.subjectId = true
  audience : isDelegationIdentifier c.audience = true
  actor : ∀ a ∈ c.actorId, isDelegationIdentifier a = true
  client : ∀ a ∈ c.clientId, isDelegationIdentifier a = true
  keyId : isKeyId c.keyId = true
  method : canonicalMethod c.method = .ok c.method
  path : canonicalTargetPath c.path = .ok path
  count : c.scopes.length ≤ 128
  scopes : ∀ s ∈ c.scopes, isScope s = true
  start : c.issuedAt ≤ c.notBefore
  finish : c.notBefore < c.expiresAt
  lifetime : c.expiresAt - c.issuedAt ≤ maxCredentialLifetime
  depth : 1 ≤ c.delegationDepth ∧ c.delegationDepth ≤ 16

theorem DelegationClaimsArgs.postInit_eq_ok {c c' : DelegationClaimsArgs} :
    c.postInit = .ok c' ↔ ∃ path, c.Accepted path ∧
      c' = { c with path := path, scopes := Str.sortedSet c.scopes } := by
  simp only [postInit, checkDelegationIdentity, bind_eq_ok, check_eq_ok, decide_eq_true_eq,
    Option.all_eq_true, List.all_eq_true]
  constructor
  · rintro ⟨-, h1, -, h2, -, h3, -, h4, -, h5, -, h6, -, h7, method, h8, path, h9, -, ⟨h10, h11⟩,
      -, ⟨h12, h13⟩, -, h14, -, h15, hc⟩
    cases hc
    obtain ⟨rfl, hmethod⟩ := canonicalMethod_eq_ok.mp h8
    exact ⟨path, ⟨h1, h2 _ rfl, h3 _ rfl, h4 _ rfl, h5, h6, h7, h8, h9, h10, h11, h12, h13, h14,
      h15⟩, rfl⟩
  · rintro ⟨path, h, rfl⟩
    refine ⟨(), h.version, (), ?_, (), ?_, (), ?_, (), h.actor, (), h.client, (), h.keyId,
      c.method, h.method, path, h.path, (), ⟨h.count, h.scopes⟩, (), ⟨h.start, h.finish⟩, (),
      h.lifetime, (), h.depth, rfl⟩
    · rintro s ⟨⟩
      exact h.issuer
    · rintro s ⟨⟩
      exact h.subject
    · rintro s ⟨⟩
      exact h.audience

/-- Normalizing twice is normalizing once. -/
theorem DelegationClaimsArgs.postInit_postInit {c c' : DelegationClaimsArgs}
    (h : c.postInit = .ok c') : c'.postInit = .ok c' := by
  obtain ⟨path, hc, rfl⟩ := postInit_eq_ok.mp h
  have hpath := (canonicalTargetPath_canonical hc.path).1
  refine postInit_eq_ok.mpr ⟨path, ⟨hc.version, hc.issuer, hc.subject, hc.audience, hc.actor,
    hc.client, hc.keyId, hc.method, hpath, ?_, ?_, hc.start, hc.finish, hc.lifetime, hc.depth⟩, ?_⟩
  · exact (Str.length_sortedSet_le _).trans hc.count
  · exact fun s hs => hc.scopes s (Str.mem_sortedSet.mp hs)
  · rw [Str.sortedSet_sortedSet]

/-- `DelegationClaims`: in normal form. -/
structure DelegationClaims extends DelegationClaimsArgs where
  valid : toDelegationClaimsArgs.postInit = .ok toDelegationClaimsArgs
deriving DecidableEq

namespace DelegationClaims

/-- `DelegationClaims(...)`. -/
def make (c : DelegationClaimsArgs) : Except PyError DelegationClaims :=
  match h : c.postInit with
  | .ok c' => .ok ⟨c', c.postInit_postInit h⟩
  | .error e => .error e

theorem make_eq_ok {c : DelegationClaimsArgs} {claims : DelegationClaims} :
    make c = .ok claims ↔ c.postInit = .ok claims.toDelegationClaimsArgs := by
  unfold make
  constructor
  · intro h
    split at h
    · rename_i c' hc
      cases h
      exact hc
    · cases h
  · intro h
    split
    · rename_i c' hc
      have heq : c' = claims.toDelegationClaimsArgs := Except.ok.inj (hc.symm.trans h)
      subst heq
      rfl
    · rename_i e hc
      rw [hc] at h
      cases h

theorem make_ok {c c' : DelegationClaimsArgs} (h : c.postInit = .ok c') :
    make c = .ok ⟨c', c.postInit_postInit h⟩ := make_eq_ok.mpr h

/-- What the constructor has checked of claims. -/
theorem accepted (claims : DelegationClaims) :
    claims.toDelegationClaimsArgs.Accepted claims.path ∧
      claims.scopes = Str.sortedSet claims.scopes := by
  obtain ⟨path, h, heq⟩ := DelegationClaimsArgs.postInit_eq_ok.mp claims.valid
  have hpath : claims.path = path := congrArg (·.path) heq
  have hscopes : claims.scopes = Str.sortedSet claims.scopes := congrArg (·.scopes) heq
  rw [hpath]
  exact ⟨h, hscopes⟩

/-! ## JSON -/

/-- A text, or `None`. -/
def optionJson : Option Str → Json
  | some s => .str s
  | none => .null

/-- `claims.to_dict()`. -/
def toDict (c : DelegationClaims) : Json :=
  .obj [
    ("version", .int c.version),
    ("issuer", .str c.issuer),
    ("tenant_id", .str c.tenantId.str),
    ("subject_id", .str c.subjectId),
    ("actor_id", optionJson c.actorId),
    ("client_id", optionJson c.clientId),
    ("audience", .str c.audience),
    ("method", .str c.method),
    ("path", .str c.path),
    ("scopes", .arr (c.scopes.map .str)),
    ("issued_at", .int c.issuedAt.epochSeconds),
    ("not_before", .int c.notBefore.epochSeconds),
    ("expires_at", .int c.expiresAt.epochSeconds),
    ("token_id", .str c.tokenId.str),
    ("key_id", .str c.keyId),
    ("delegation_depth", .int c.delegationDepth)]

/-- `_FIELDS`. -/
def fields : List Str :=
  ["version", "issuer", "tenant_id", "subject_id", "actor_id", "client_id", "audience", "method",
    "path", "scopes", "issued_at", "not_before", "expires_at", "token_id", "key_id",
    "delegation_depth"]

/-- `_integer`. -/
def integer : Json → Except PyError ℤ
  | .int n => .ok n
  | _ => .error .type

/-- `_string`. -/
def string : Json → Except PyError Str
  | .str s => .ok s
  | _ => .error .type

/-- `_optional_string`. -/
def optionalString : Json → Except PyError (Option Str)
  | .null => .ok none
  | value => (string value).map some

/-- `_time`. Outside the range of `datetime` it is one of three errors, by the distance. -/
def time (value : Json) : Except PyError Datetime := do
  let seconds ← integer value
  check (Datetime.min ≤ seconds * 1000000 ∧ seconds * 1000000 ≤ Datetime.max) .overflow
  return seconds * 1000000

/-- `UUID(_string(value))`. -/
def uuid [Platform] (value : Json) : Except PyError UUID := do
  orRaise (UUID.ofStr? Platform.decimal (← string value)) .value

/-- The list of scopes. -/
def texts (value : Json) : Except PyError (List Str) :=
  let invalid := PyError.configuration "Delegation scopes are invalid."
  match value with
  | .arr items => orRaise (items.mapM fun item => (string item).toOption) invalid
  | _ => .error invalid

/-- The names of the members of an object. -/
def names? : Json → Option (List Str)
  | .obj members => some (members.map (·.1))
  | _ => none

/-- `except (TypeError, ValueError)`. -/
def orInvalidClaims {α : Type} : Except PyError α → Except PyError α
  | .error .type | .error .value => .error (.configuration "Delegation claims are invalid.")
  | result => result

/-- `DelegationClaims.from_dict`. -/
def fromDict [Platform] (value : Json) : Except PyError DelegationClaims := do
  let unknown := PyError.configuration "Delegation claims are incomplete or unknown."
  let names ← orRaise (names? value) unknown
  check (names ⊆ fields ∧ fields ⊆ names) unknown
  let field (name : String) : Json := (value.get? name).getD .null
  let scopes ← texts (field "scopes")
  orInvalidClaims do
    let version ← integer (field "version")
    let issuer ← string (field "issuer")
    let tenantId ← uuid (field "tenant_id")
    let subjectId ← string (field "subject_id")
    let actorId ← optionalString (field "actor_id")
    let clientId ← optionalString (field "client_id")
    let audience ← string (field "audience")
    let method ← string (field "method")
    let path ← string (field "path")
    let issuedAt ← time (field "issued_at")
    let notBefore ← time (field "not_before")
    let expiresAt ← time (field "expires_at")
    let tokenId ← uuid (field "token_id")
    let keyId ← string (field "key_id")
    let delegationDepth ← integer (field "delegation_depth")
    make { version, issuer, tenantId, subjectId, actorId, clientId, audience, method, path, scopes,
           issuedAt, notBefore, expiresAt, tokenId, keyId, delegationDepth }

end DelegationClaims

end FastapiEffects
