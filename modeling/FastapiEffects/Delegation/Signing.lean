import FastapiEffects.Delegation.Encoding

/-! # Issuing and verifying delegation tokens

`DelegationIssuer.mint` and `DelegationVerifier.verify`. What the clock and the source of
identities answer is an argument of the call; a sink takes every audit event that is built.
-/

namespace FastapiEffects

open Python

/-- `_configuration`. -/
def delegationConfiguration (issuer : Str) (maximumTtlSeconds maximumDepth : ℤ) :
    Except PyError Unit := do
  check (isDelegationIdentifier issuer)
    (.configuration "Delegation issuer configuration is invalid.")
  check (1 ≤ maximumTtlSeconds ∧ maximumTtlSeconds ≤ 3600)
    (.configuration "Delegation maximum TTL is invalid.")
  check (1 ≤ maximumDepth ∧ maximumDepth ≤ 16)
    (.configuration "Delegation maximum depth is invalid.")

theorem delegationConfiguration_eq_ok {issuer : Str} {maximumTtlSeconds maximumDepth : ℤ} :
    delegationConfiguration issuer maximumTtlSeconds maximumDepth = .ok () ↔
      isDelegationIdentifier issuer = true ∧ (1 ≤ maximumTtlSeconds ∧ maximumTtlSeconds ≤ 3600) ∧
        1 ≤ maximumDepth ∧ maximumDepth ≤ 16 := by
  simp only [delegationConfiguration, bind_eq_ok, check_eq_ok, decide_eq_true_eq]
  constructor
  · rintro ⟨-, hissuer, -, httl, hdepth⟩
    exact ⟨hissuer, httl, hdepth⟩
  · rintro ⟨hissuer, httl, hdepth⟩
    exact ⟨(), hissuer, (), httl, hdepth⟩

/-- `DelegationIssuer`. -/
structure DelegationIssuer where
  issuer : Str
  keys : InMemoryKeyRing
  maximumTtlSeconds : ℤ := 300
  maximumDepth : ℤ := 4
  valid : delegationConfiguration issuer maximumTtlSeconds maximumDepth = .ok ()

/-- Whether a set of scopes is one the verifier takes. -/
def isScopeSet (scopes : List Str) : Bool := scopes.length ≤ 128 ∧ scopes.all isScope

/-- `DelegationVerifier`. -/
structure DelegationVerifier where
  issuer : Str
  keys : InMemoryKeyRing
  allowedScopes : Option (List Str) := none
  maximumTtlSeconds : ℤ := 300
  maximumDepth : ℤ := 4
  clockSkewSeconds : ℤ := 5
  valid : delegationConfiguration issuer maximumTtlSeconds maximumDepth = .ok ()
  skew_valid : 0 ≤ clockSkewSeconds ∧ clockSkewSeconds ≤ 60
  allowed_nodup : ∀ allowed ∈ allowedScopes, allowed.Nodup := by decide
  allowed_valid : allowedScopes.all isScopeSet = true

section Delegation

variable [Platform]

/-- `hmac.new(secret, payload, hashlib.sha256).digest()`. -/
def delegationMac (secret payload : Bytes) : Bytes :=
  (hmacDigest Platform.sha256 secret payload).toList

/-- `_audit_event`. -/
def delegationAuditEvent (claims : DelegationClaims) (now : Datetime)
    (outcome : DelegationAuditOutcome) (traceId : Option Str) : DelegationAuditEvent where
  occurredAt := now
  outcome := outcome
  tenantId := some claims.tenantId
  subjectId := some claims.subjectId
  actorId := claims.actorId
  clientId := claims.clientId
  tokenId := some claims.tokenId
  audience := claims.audience
  targetId := delegationTargetId claims.method claims.path
  scopes := claims.scopes
  keyId := some claims.keyId
  delegationDepth := some claims.delegationDepth
  traceId := traceId

/-! ## Issuing -/

/-- The arguments of `mint` that name what the token is for. -/
structure DelegationRequest where
  audience : Str
  method : Str
  path : Str
  scopes : List Str
  ttl : Timedelta
  parentDepth : ℤ := 0
  traceId : Option Str := none
  nodup : scopes.Nodup := by decide
deriving DecidableEq

omit [Platform] in
/-- The claims of a new token, and the key that signs them. -/
def mintClaims (i : DelegationIssuer) (now : Datetime) (tokenId : UUID) (principal : Principal)
    (r : DelegationRequest) : Except PyError (DelegationClaims × SigningKey) := do
  check (r.scopes ⊆ principal.scopes)
    (.configuration "Delegation scopes exceed the verified principal.")
  check (0 ≤ r.parentDepth ∧ r.parentDepth < i.maximumDepth)
    (.configuration "Delegation parent depth is invalid.")
  check (0 < r.ttl ∧ r.ttl ≤ i.maximumTtlSeconds * 1000000 ∧ r.ttl % 1000000 = 0)
    (.configuration "Delegation TTL is invalid.")
  let latest ← orRaise (Datetime.add? now r.ttl) .overflow
  let expiry := match principal.expiresAt with
    | some expires => if expires < latest then expires else latest
    | none => latest
  check (now < expiry) (.configuration "Delegation principal is expired.")
  let key ← i.keys.signingKey
  let method ← canonicalMethod r.method
  let path ← canonicalTargetPath r.path
  let claims ← DelegationClaims.make {
    version := 1
    issuer := i.issuer
    tenantId := principal.tenantId
    subjectId := principal.subjectId
    actorId := principal.actorId
    clientId := principal.clientId
    audience := r.audience
    method := method
    path := path
    scopes := r.scopes
    issuedAt := now
    notBefore := now
    expiresAt := expiry
    tokenId := tokenId
    keyId := key.keyId
    delegationDepth := r.parentDepth + 1 }
  return (claims, key)

/-- `DelegationIssuer.mint`. -/
def DelegationIssuer.mint (i : DelegationIssuer) (now : Datetime) (tokenId : UUID)
    (principal : Principal) (r : DelegationRequest) : Except PyError Str := do
  let (claims, key) ← mintClaims i now tokenId principal r
  let payload ← claimsBytes claims
  let token ← encodeToken payload (delegationMac key.secret payload)
  (delegationAuditEvent claims now .issued r.traceId).postInit
  return token

/-! ## Verifying -/

/-- The arguments of `verify` that say what the token must be for. -/
structure DelegationTarget where
  audience : Str
  method : Str
  path : Str
  requiredScopes : List Str
  authorityCeiling : Option (List Str) := none
  traceId : Option Str := none
  nodup : requiredScopes.Nodup := by decide
  ceiling_nodup : ∀ ceiling ∈ authorityCeiling, ceiling.Nodup := by decide
deriving DecidableEq

namespace DelegationVerifier

omit [Platform] in
/-- The checks of `verify` before the token is looked at: the expected method and path. -/
def expectedTarget (t : DelegationTarget) : Except PyError (Str × Str) := do
  check (isDelegationIdentifier t.audience ∧ isScopeSet t.requiredScopes ∧
    t.authorityCeiling.all isScopeSet) credentialRejected
  let method ← canonicalMethod t.method
  let path ← canonicalTargetPath t.path
  return (method, path)

omit [Platform] in
/-- The checks of the claims. -/
def checkClaims (v : DelegationVerifier) (now : Datetime) (t : DelegationTarget)
    (method path : Str) (claims : DelegationClaims) : Except PyError Unit := do
  check (claims.issuer = v.issuer ∧ claims.audience = t.audience ∧ claims.method = method ∧
    claims.path = path) credentialRejected
  let skew : Timedelta := v.clockSkewSeconds * 1000000
  let later ← orRaise (Datetime.add? now skew) .overflow
  check (claims.notBefore ≤ later ∧ claims.issuedAt ≤ later) credentialRejected
  let earlier ← orRaise (Datetime.add? now (-skew)) .overflow
  check (earlier < claims.expiresAt) credentialRejected
  check (claims.expiresAt - claims.issuedAt ≤ v.maximumTtlSeconds * 1000000) credentialRejected
  check (claims.delegationDepth ≤ v.maximumDepth) credentialRejected
  check (t.requiredScopes ⊆ claims.scopes) credentialRejected
  check (t.authorityCeiling.all fun ceiling => claims.scopes ⊆ ceiling) credentialRejected
  check (v.allowedScopes.all fun ceiling => claims.scopes ⊆ ceiling) credentialRejected

/-- The body of the `try` of `verify`. -/
def verifyClaims (v : DelegationVerifier) (now : Datetime) (token : Str) (t : DelegationTarget) :
    Except PyError DelegationClaims := do
  let (method, path) ← expectedTarget t
  let (claims, payload, signature) ← decodeToken token
  let key ← orRaise (v.keys.verificationKey claims.keyId now) credentialRejected
  check (delegationMac key.secret payload = signature) credentialRejected
  v.checkClaims now t method path claims
  return claims

/-- The claims `verify` has read when it refuses a token. -/
def seenClaims (token : Str) (t : DelegationTarget) : Option DelegationClaims := do
  let _ ← (expectedTarget t).toOption
  let (claims, _) ← (decodeToken token).toOption
  return claims

/-- `_denied_event`. -/
def deniedEvent (now : Datetime) (t : DelegationTarget) (seen : Option DelegationClaims) :
    DelegationAuditEvent where
  occurredAt := now
  outcome := .denied
  tenantId := seen.map (·.tenantId)
  subjectId := seen.map (·.subjectId)
  actorId := seen.bind (·.actorId)
  clientId := seen.bind (·.clientId)
  tokenId := seen.map (·.tokenId)
  audience := if isDelegationIdentifier t.audience then t.audience else "invalid-audience"
  targetId := delegationTargetId t.method t.path
  scopes := if t.requiredScopes.all isScope then t.requiredScopes else []
  keyId := seen.map (·.keyId)
  delegationDepth := seen.map (·.delegationDepth)
  traceId := t.traceId

/-- `DelegationVerifier.verify`. Whatever is raised in the `try`, the caller is refused. -/
def verify (v : DelegationVerifier) (now : Datetime) (token : Str) (t : DelegationTarget) :
    Except PyError DelegationClaims :=
  match v.verifyClaims now token t with
  | .ok claims => do
      (delegationAuditEvent claims now .allowed t.traceId).postInit
      return claims
  | .error _ => do
      (deniedEvent now t (seenClaims token t)).postInit
      .error credentialRejected

end DelegationVerifier

/-! ## What a verified token is -/

/-- What the verifier has checked of a token and the claims it returns. -/
structure Verified (v : DelegationVerifier) (now : Datetime) (token : Str) (t : DelegationTarget)
    (claims : DelegationClaims) : Prop where
  /-- The claims are what the payload bytes of the token say, and its signature is the one
  of exactly these bytes under the key the claims name, which may still verify. -/
  signed : ∃ payload signature key, Decodes token claims payload signature ∧
    v.keys.keys.get claims.keyId = some key ∧ key.state ≠ .revoked ∧
    ¬ (key.state = .retiring ∧ ∃ until_ ∈ key.verifyUntil, until_ ≤ now) ∧
    delegationMac key.secret payload = signature
  issuer : claims.issuer = v.issuer
  audience : claims.audience = t.audience
  method : canonicalMethod t.method = .ok claims.method
  path : canonicalTargetPath t.path = .ok claims.path
  issued : claims.issuedAt ≤ now + v.clockSkewSeconds * 1000000
  started : claims.notBefore ≤ now + v.clockSkewSeconds * 1000000
  unexpired : now - v.clockSkewSeconds * 1000000 < claims.expiresAt
  lifetime : claims.expiresAt - claims.issuedAt ≤ v.maximumTtlSeconds * 1000000
  depth : claims.delegationDepth ≤ v.maximumDepth
  required : t.requiredScopes ⊆ claims.scopes
  ceiling : ∀ ceiling ∈ t.authorityCeiling, claims.scopes ⊆ ceiling
  allowed : ∀ allowed ∈ v.allowedScopes, claims.scopes ⊆ allowed

omit [Platform] in
/-- What the checks of the claims let through. -/
theorem checkClaims_eq_ok {v : DelegationVerifier} {now : Datetime} {t : DelegationTarget}
    {method path : Str} {claims : DelegationClaims} :
    v.checkClaims now t method path claims = .ok () ↔
      (claims.issuer = v.issuer ∧ claims.audience = t.audience ∧ claims.method = method ∧
        claims.path = path) ∧
      (Datetime.Valid (now + v.clockSkewSeconds * 1000000) ∧
        Datetime.Valid (now - v.clockSkewSeconds * 1000000)) ∧
      (claims.notBefore ≤ now + v.clockSkewSeconds * 1000000 ∧
        claims.issuedAt ≤ now + v.clockSkewSeconds * 1000000) ∧
      now - v.clockSkewSeconds * 1000000 < claims.expiresAt ∧
      claims.expiresAt - claims.issuedAt ≤ v.maximumTtlSeconds * 1000000 ∧
      claims.delegationDepth ≤ v.maximumDepth ∧ t.requiredScopes ⊆ claims.scopes ∧
      (∀ ceiling ∈ t.authorityCeiling, claims.scopes ⊆ ceiling) ∧
      ∀ allowed ∈ v.allowedScopes, claims.scopes ⊆ allowed := by
  simp only [DelegationVerifier.checkClaims, bind_eq_ok, check_eq_ok, orRaise_eq_ok,
    decide_eq_true_eq, Option.all_eq_true, Datetime.add?_eq_some_iff]
  constructor
  · rintro ⟨-, htarget, later, ⟨hlater, rfl⟩, -, hstart, earlier, ⟨hearlier, rfl⟩, -, hexpiry, -,
      hlifetime, -, hdepth, -, hrequired, -, hceiling, hallowed⟩
    exact ⟨htarget, ⟨hlater, hearlier⟩, hstart, hexpiry, hlifetime, hdepth, hrequired, hceiling,
      hallowed⟩
  · rintro ⟨htarget, ⟨hlater, hearlier⟩, hstart, hexpiry, hlifetime, hdepth, hrequired, hceiling,
      hallowed⟩
    exact ⟨(), htarget, _, ⟨hlater, rfl⟩, (), hstart, _, ⟨hearlier, rfl⟩, (), hexpiry, (),
      hlifetime, (), hdepth, (), hrequired, (), hceiling, hallowed⟩

omit [Platform] in
theorem expectedTarget_eq_ok {t : DelegationTarget} {method path : Str} :
    DelegationVerifier.expectedTarget t = .ok (method, path) ↔
      (isDelegationIdentifier t.audience = true ∧ isScopeSet t.requiredScopes = true ∧
        ∀ ceiling ∈ t.authorityCeiling, isScopeSet ceiling = true) ∧
      canonicalMethod t.method = .ok method ∧ canonicalTargetPath t.path = .ok path := by
  simp only [DelegationVerifier.expectedTarget, bind_eq_ok, check_eq_ok, decide_eq_true_eq,
    Option.all_eq_true]
  constructor
  · rintro ⟨-, hsets, m, hmethod, p, hpath, heq⟩
    cases heq
    exact ⟨hsets, hmethod, hpath⟩
  · rintro ⟨hsets, hmethod, hpath⟩
    exact ⟨(), hsets, method, hmethod, path, hpath, rfl⟩

omit [Platform] in
theorem verificationKey_eq_some {ring : InMemoryKeyRing} {keyId : Str} {now : Datetime}
    {key : SigningKey} :
    ring.verificationKey keyId now = some key ↔
      ring.keys.get keyId = some key ∧ key.state ≠ .revoked ∧
        ¬ (key.state = .retiring ∧ ∃ until_ ∈ key.verifyUntil, until_ ≤ now) := by
  constructor
  · intro h
    cases hget : ring.keys.get keyId with
    | none =>
        rw [InMemoryKeyRing.verificationKey, hget] at h
        cases h
    | some k =>
        rw [InMemoryKeyRing.verificationKey_of_get hget] at h
        split_ifs at h with hrevoked hended
        cases h
        exact ⟨rfl, hrevoked, hended⟩
  · rintro ⟨hget, hrevoked, hended⟩
    rw [InMemoryKeyRing.verificationKey_of_get hget, if_neg hrevoked, if_neg hended]

theorem verifyClaims_eq_ok {v : DelegationVerifier} {now : Datetime} {token : Str}
    {t : DelegationTarget} {claims : DelegationClaims} :
    v.verifyClaims now token t = .ok claims ↔
      Verified v now token t claims ∧
      (isScopeSet t.requiredScopes = true ∧ ∀ ceiling ∈ t.authorityCeiling,
        isScopeSet ceiling = true) ∧
      Datetime.Valid (now + v.clockSkewSeconds * 1000000) ∧
      Datetime.Valid (now - v.clockSkewSeconds * 1000000) := by
  simp only [DelegationVerifier.verifyClaims, bind_eq_ok, check_eq_ok, orRaise_eq_ok,
    decide_eq_true_eq, Prod.exists, expectedTarget_eq_ok, decodeToken_eq_ok,
    verificationKey_eq_some]
  constructor
  · rintro ⟨method, path, ⟨⟨-, hsets⟩, hmethod, hpath⟩, c, payload, signature, hdecodes, key,
      ⟨hget, hrevoked, hended⟩, -, hmac, _, hchecked, heq⟩
    cases heq
    obtain ⟨⟨hissuer, haudience, rfl, rfl⟩, hvalid, ⟨hstarted, hissued⟩, hexpiry, hlifetime, hdepth,
      hrequired, hceiling, hallowed⟩ := checkClaims_eq_ok.mp hchecked
    exact ⟨⟨⟨payload, signature, key, hdecodes, hget, hrevoked, hended, hmac⟩, hissuer, haudience,
      hmethod, hpath, hissued, hstarted, hexpiry, hlifetime, hdepth, hrequired, hceiling,
      hallowed⟩, hsets, hvalid⟩
  · rintro ⟨h, hsets, hvalid⟩
    obtain ⟨payload, signature, key, hdecodes, hget, hrevoked, hended, hmac⟩ := h.signed
    have haudience := claims.accepted.1.audience
    rw [h.audience] at haudience
    refine ⟨claims.method, claims.path, ⟨⟨haudience, hsets⟩, h.method, h.path⟩, claims, payload,
      signature, hdecodes, key, ⟨hget, hrevoked, hended⟩, (), hmac, (), ?_, rfl⟩
    exact checkClaims_eq_ok.mpr ⟨⟨h.issuer, h.audience, rfl, rfl⟩, hvalid, ⟨h.started, h.issued⟩,
      h.unexpired, h.lifetime, h.depth, h.required, h.ceiling, h.allowed⟩

omit [Platform] in
theorem isDelegationIdentifier_of_isScope {s : Str} (h : isScope s = true) :
    isDelegationIdentifier s = true :=
  Str.fullmatch_mono (fun _ => id) (fun _ => PyChar.isIn_mono (by decide) (by decide))
    (by decide) h

omit [Platform] in
theorem isDelegationIdentifier_of_isKeyId {s : Str} (h : isKeyId s = true) :
    isDelegationIdentifier s = true :=
  Str.fullmatch_mono (fun _ => id) (fun _ => PyChar.isIn_mono (by decide) (by decide))
    (by decide) h

/-- The audit event of accepted claims is one the events accept, up to the trace. -/
theorem delegationAuditEvent_eq_ok {claims : DelegationClaims} {now : Datetime}
    {outcome : DelegationAuditOutcome} {traceId : Option Str} :
    (delegationAuditEvent claims now outcome traceId).postInit = .ok () ↔
      ∀ trace ∈ traceId, isDelegationIdentifier trace = true := by
  have h := claims.accepted.1
  have hscopes : ∀ s ∈ claims.scopes, isDelegationIdentifier s = true :=
    fun s hs => isDelegationIdentifier_of_isScope (h.scopes s hs)
  simp only [DelegationAuditEvent.postInit, delegationAuditEvent, bind_eq_ok, check_eq_ok,
    decide_eq_true_eq, List.all_cons, List.all_nil, Bool.and_eq_true, Option.all_eq_true,
    List.all_eq_true, Option.all_some]
  constructor
  · rintro ⟨-, ⟨-, -, -, -, -, -, htrace, -⟩, -⟩
    exact htrace
  · intro htrace
    exact ⟨(), ⟨h.subject, h.actor, h.client, h.audience, isDelegationIdentifier_targetId _ _,
      isDelegationIdentifier_of_isKeyId h.keyId, htrace, trivial⟩, (), ⟨h.count, hscopes⟩, h.depth⟩

/-- Exactly when a token is verified. -/
theorem verify_eq_ok {v : DelegationVerifier} {now : Datetime} {token : Str}
    {t : DelegationTarget} {claims : DelegationClaims} :
    v.verify now token t = .ok claims ↔
      v.verifyClaims now token t = .ok claims ∧
      ∀ trace ∈ t.traceId, isDelegationIdentifier trace = true := by
  unfold DelegationVerifier.verify
  split
  · rename_i c hc
    rw [hc]
    simp only [bind_eq_ok]
    constructor
    · rintro ⟨_, hevent, heq⟩
      cases heq
      exact ⟨rfl, delegationAuditEvent_eq_ok.mp hevent⟩
    · rintro ⟨heq, htrace⟩
      cases heq
      exact ⟨(), delegationAuditEvent_eq_ok.mpr htrace, rfl⟩
  · rename_i e he
    rw [he]
    simp [bind_eq_ok]

end Delegation

end FastapiEffects
