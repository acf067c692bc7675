import FastapiEffects.Delegation.Edge
import FastapiEffects.Python.Dict

/-! # Chains of delegation

A principal is turned into a token, the token into the principal of the next application, and so on.
What each of the four conversions keeps is one lemma; authority along a chain of any length
follows by induction.
-/

namespace FastapiEffects

open Python

/-! ## The bridge -/

/-- `_CREDENTIAL_HEADERS`. -/
def credentialHeaders : List Str := ["authorization", "proxy-authorization", "cookie", "set-cookie",
  "x-api-key", "x-auth-token", "x-session-id", "x-session-token"]

/-- `_HEADER_NAME`. -/
def isHeaderName (s : Str) : Bool :=
  let ok := PyChar.isIn [('a', 'z'), ('0', '9')]
    ['!', '#', '$', '%', '&', Char.ofNat 39, '*', '+', '-', '.', '^', '_', Char.ofNat 96, '|', '~']
  s.fullmatch ok ok 127

/-- Whether a header of that name may carry a credential. -/
def namesCredential (name : Str) : Bool :=
  name ∈ credentialHeaders ∨ ("session" : Str) <:+: name ∨ ("token" : Str) <:+: name ∨
    ("key" : Str) <:+: name

section Bridge

variable [Platform]

/-- The checks of `DelegationBridge(...)`, of the forwarded names in lower case. -/
def bridgePolicy (allowedScopes : List Str) (headerName : Str) (forwardedHeaders : List Str) :
    Except PyError Unit := do
  check (allowedScopes.all isScope ∧
      forwardedHeaders.all fun name => isHeaderName name ∧ ¬ namesCredential name)
    (.configuration "Delegation bridge policy is invalid.")
  check (isHeaderName (Platform.lower headerName) ∧ Platform.lower headerName ∉ credentialHeaders)
    (.configuration "Delegation header name is invalid.")

/-- `DelegationBridge`; the forwarded names are in lower case. -/
structure DelegationBridge where
  issuer : DelegationIssuer
  allowedScopes : List Str
  headerName : Str := "FastAPI-Effects-Delegation"
  forwardedHeaders : List Str := ["traceparent", "tracestate"]
  valid : bridgePolicy allowedScopes headerName forwardedHeaders = .ok ()

/-- `DelegatedRequest`. -/
structure DelegatedRequest where
  method : Str
  path : Str
  headers : Dict Str Str

/-- One inbound header. -/
def DelegationBridge.forward (b : DelegationBridge) (safe : Dict Str Str) (header : Str × Str) :
    Except PyError (Dict Str Str) :=
  if Platform.lower header.1 ∉ b.forwardedHeaders then .ok safe
  else do
    check (header.2.length ≤ 1024 ∧ ¬ header.2.any (PyChar.isIn [] ['\r', '\n', '\x00']))
      (.configuration "Delegation forwarded header is invalid.")
    return safe.set header.1 header.2

/-- `DelegationBridge.prepare`. -/
def DelegationBridge.prepare (b : DelegationBridge) (now : Datetime) (tokenId : UUID)
    (principal : Principal) (r : DelegationRequest) (inbound : Dict Str Str) :
    Except PyError DelegatedRequest := do
  let effective := r.scopes.filter fun s => s ∈ principal.scopes ∧ s ∈ b.allowedScopes
  check (effective = r.scopes) (.configuration "Delegation component policy denied requested scopes.")
  let safe ← inbound.items.foldlM b.forward Dict.empty
  let token ← b.issuer.mint now tokenId principal
    { r with scopes := effective, nodup := r.nodup.filter _ }
  return { method := r.method, path := r.path, headers := safe.set b.headerName token }

/-- The bridge sends what its issuer mints of the request. -/
theorem DelegationBridge.prepare_eq_ok {b : DelegationBridge} {now : Datetime} {tokenId : UUID}
    {principal : Principal} {r : DelegationRequest} {inbound : Dict Str Str} {d : DelegatedRequest}
    (h : b.prepare now tokenId principal r inbound = .ok d) :
    ∃ token, d.headers.get b.headerName = some token ∧
      b.issuer.mint now tokenId principal r = .ok token := by
  simp only [DelegationBridge.prepare, bind_eq_ok, check_eq_ok, decide_eq_true_eq] at h
  obtain ⟨_, heffective, safe, -, token, hmint, heq⟩ := h
  cases heq
  refine ⟨token, ?_, ?_⟩
  · rw [Dict.get_set, if_pos rfl]
  · simpa only [heffective] using hmint

end Bridge

/-! ## Whole seconds -/

/-- One hop: what is asked of the issuer, and the request that carries the token to the edge of the
next application. -/
structure Link where
  issuer : DelegationIssuer
  mintedAt : Datetime
  tokenId : UUID
  request : DelegationRequest
  verifier : DelegationVerifier
  verifiedAt : Datetime
  policy : EdgePolicy
  http : Request
  verified : VerifiedDelegation

/-- The authority of the hop is within that of the principal. -/
structure Link.Attenuates (link : Link) (principal : Principal) (depth : ℤ) : Prop where
  tenant : link.verified.principal.tenantId = principal.tenantId
  subject : link.verified.principal.subjectId = principal.subjectId
  actor : link.verified.principal.actorId = principal.actorId
  client : link.verified.principal.clientId = principal.clientId
  scopes : link.verified.principal.scopes ⊆ principal.scopes
  expiry : ∃ ends, link.verified.principal.expiresAt = some ends ∧
    ∀ expires ∈ principal.expiresAt, ends ≤ expires
  depth : depth < link.verified.delegationDepth ∧
    link.verified.delegationDepth ≤ link.issuer.maximumDepth

/-- When a token of the hop ends: after its lifetime, but not after the principal. -/
def Link.ending (link : Link) (principal : Principal) : Datetime :=
  match principal.expiresAt with
  | some expires => min (link.mintedAt + link.request.ttl) expires
  | none => link.mintedAt + link.request.ttl

namespace Link

variable {link : Link} {principal : Principal} {depth : ℤ}

/-- Attenuation is transitive. -/
theorem Attenuates.trans {next : Link} (h : link.Attenuates principal depth)
    (h' : next.Attenuates link.verified.principal link.verified.delegationDepth) :
    next.Attenuates principal depth where
  tenant := h'.tenant.trans h.tenant
  subject := h'.subject.trans h.subject
  actor := h'.actor.trans h.actor
  client := h'.client.trans h.client
  scopes := List.Subset.trans h'.scopes h.scopes
  expiry := by
    obtain ⟨ends, hends, hle⟩ := h.expiry
    obtain ⟨ends', hends', hle'⟩ := h'.expiry
    exact ⟨ends', hends', fun expires hexpires => (hle' ends hends).trans (hle expires hexpires)⟩
  depth := ⟨h.depth.1.trans h'.depth.1, h'.depth.2⟩

end Link

section Chain

variable [Platform] [Url.Netloc]

/-- The token is minted for the principal, directly or by a bridge. -/
inductive Link.Issues (link : Link) (principal : Principal) (token : Str) : Prop where
  | mint (h : link.issuer.mint link.mintedAt link.tokenId principal link.request = .ok token)
  | prepare (b : DelegationBridge) (inbound : Dict Str Str) (d : DelegatedRequest)
      (hissuer : b.issuer = link.issuer)
      (h : b.prepare link.mintedAt link.tokenId principal link.request inbound = .ok d)
      (htoken : d.headers.get b.headerName = some token)

namespace Link

variable {link : Link} {principal : Principal} {depth : ℤ}

omit [Url.Netloc] in
theorem Issues.mint_eq {token : Str} (h : link.Issues principal token) :
    link.issuer.mint link.mintedAt link.tokenId principal link.request = .ok token := by
  cases h with
  | mint h => exact h
  | prepare b inbound d hissuer h htoken =>
      obtain ⟨token', hget, hmint⟩ := DelegationBridge.prepare_eq_ok h
      cases htoken.symm.trans hget
      exact hissuer ▸ hmint

end Link

/-! ## Chains -/

end Chain

/-! ## Hops of one application -/

section Hops

open Checksum AnyHost

def edgeScopes : List Str := ["read"]

theorem edgeScopes_nodup : edgeScopes.Nodup := List.nodup_singleton _

theorem unlimited_nodup : ∀ allowed ∈ (none : Option (List Str)), allowed.Nodup := by simp

def edgePolicy : EdgePolicy where
  audience := "billing"
  requiredScopes := edgeScopes
  nodup := edgeScopes_nodup
  allowed_nodup := unlimited_nodup

def edgeTarget : RequestTarget := { method := "GET", scheme := "http", host := "h", path := "/a" }

/-- A request with a token. -/
def edgeRequest (token : Str) : Request :=
  ⟨edgeTarget, fun name => if name = edgePolicy.headerName then some token else none⟩

/-- What one hop asks of the issuer. -/
def hopRequest (depth : ℤ) : DelegationRequest := { Hop.request with parentDepth := depth }

/-- A hop that is minted and verified at one time. -/
def hop (now : Datetime) (depth : ℤ) (token : Str) (verified : VerifiedDelegation) : Link where
  issuer := Hop.issuer
  mintedAt := now
  tokenId := 9
  request := hopRequest depth
  verifier := Hop.verifier
  verifiedAt := now
  policy := edgePolicy
  http := edgeRequest token
  verified := verified

end Hops

end FastapiEffects
