import FastapiEffects.Delegation.Verified

/-! # Delegation at the edge of an application

The dependency that admits a request with a delegation token, and the principal it makes
of the claims. The path it checks is the one of `request.url`, which is parsed from the
path the request is routed on, after that was decoded.
-/

namespace FastapiEffects

open Python

/-- The parts of a request that say what it asks for; `path` is decoded, and the one the
application routes on. -/
structure RequestTarget where
  method : Str
  scheme : Str
  host : Str
  path : Str
deriving DecidableEq

/-- A request: its target, and what `request.headers.get(...)` answers. -/
structure Request extends RequestTarget where
  header : Str → Option Str

/-- `request.url.path`; `none` is a `ValueError`. -/
def RequestTarget.urlPath? [Url.Netloc] (t : RequestTarget) : Option Str :=
  Url.urlPath? (t.scheme ++ "://" ++ t.host ++ t.path)

/-- `VerifiedDelegation`. -/
structure VerifiedDelegation where
  principal : Principal
  issuer : Str
  audience : Str
  targetId : Str
  tokenId : UUID
  keyId : Str
  delegationDepth : ℤ
deriving DecidableEq

/-- The arguments of `verified_delegation_dependency`. -/
structure EdgePolicy where
  audience : Str
  requiredScopes : List Str
  routeAllowedScopes : Option (List Str) := none
  headerName : Str := "FastAPI-Effects-Delegation"
  nodup : requiredScopes.Nodup := by decide
  allowed_nodup : ∀ allowed ∈ routeAllowedScopes, allowed.Nodup := by decide

/-- `authority_ceiling`. -/
def EdgePolicy.authorityCeiling (p : EdgePolicy) : List Str :=
  p.routeAllowedScopes.getD p.requiredScopes

theorem EdgePolicy.ceiling_nodup (p : EdgePolicy) : p.authorityCeiling.Nodup := by
  unfold authorityCeiling
  cases h : p.routeAllowedScopes with
  | none => exact p.nodup
  | some allowed => exact p.allowed_nodup allowed h

section Edge

variable [Platform]

/-- `_trace_id`. -/
def traceId (r : Request) : Option Str := do
  match (← r.header "traceparent").splitOn (.scalar '-') with
  | [_, trace, _, _] =>
      if trace.length = 32 ∧ (hexInt? Platform.decimal trace).isSome then some trace else none
  | _ => none

/-- `_verified`. -/
def verifiedOf (claims : DelegationClaims) : Except PyError VerifiedDelegation := do
  let principal ← Principal.make {
    tenantId := claims.tenantId
    subjectId := claims.subjectId
    actorId := claims.actorId
    clientId := claims.clientId
    scopes := claims.scopes
    issuedAt := claims.issuedAt
    expiresAt := some claims.expiresAt
    credentialRef := some ("delegation:" ++ claims.tokenId.str) }
  return {
    principal := principal
    issuer := claims.issuer
    audience := claims.audience
    targetId := delegationTargetId claims.method claims.path
    tokenId := claims.tokenId
    keyId := claims.keyId
    delegationDepth := claims.delegationDepth }

/-- `except AuthorizationDenied`. -/
def orForbidden {α : Type} : Except PyError α → Except PyError α
  | .error (.authorizationDenied _) => .error (.http 403 "delegation credential denied")
  | result => result

/-- What the dependency asks of the verifier. -/
def EdgePolicy.target (p : EdgePolicy) (r : Request) (path : Str) : DelegationTarget where
  audience := p.audience
  method := r.method
  path := path
  requiredScopes := p.requiredScopes
  authorityCeiling := some p.authorityCeiling
  traceId := traceId r
  nodup := p.nodup
  ceiling_nodup := by
    rintro ceiling hceiling
    cases hceiling
    exact p.ceiling_nodup

/-- The dependency of `verified_delegation_dependency`. -/
def EdgePolicy.dependency [Url.Netloc] (p : EdgePolicy) (v : DelegationVerifier) (now : Datetime)
    (r : Request) : Except PyError VerifiedDelegation := do
  let token ← orRaise (r.header p.headerName) (.http 401 "delegation credential required")
  let path ← orRaise r.urlPath? .value
  let claims ← orForbidden (v.verify now token (p.target r path))
  verifiedOf claims

/-! ## The principal of verified claims -/

omit [Platform] in
theorem isIdentifier_of_isDelegationIdentifier {s : Str} (h : isDelegationIdentifier s = true) :
    isIdentifier s = true := by
  have hclass : ∀ {singles : List Char}, singles.all (fun c => '!'.toNat ≤ c.toNat) = true →
      singles.all (fun c => c.toNat < 127) = true →
      ∀ c, PyChar.isIn [('A', 'Z'), ('a', 'z'), ('0', '9')] singles c = true →
        c.between '!' '~' = true := fun hlow hhigh c hc =>
    decide_eq_true ⟨PyChar.le_ord_of_isIn (by decide) hlow hc,
      Nat.lt_succ_iff.mp (PyChar.ord_lt_of_isIn (by decide) hhigh hc)⟩
  obtain ⟨hlength, hchars⟩ := Str.forall_of_fullmatch (hclass (by decide) (by decide))
    (hclass (by decide) (by decide)) h
  refine isIdentifier_of_between ?_ (hlength.trans (by norm_num)) hchars
  rintro rfl
  cases h

omit [Platform] in
/-- The reference of a credential is an identifier. -/
theorem isIdentifier_credential (u : UUID) : isIdentifier ("delegation:" ++ u.str) = true := by
  have hprefix : ∀ c ∈ Str.ofString "delegation:", c.between '!' '~' = true := by decide
  refine isIdentifier_of_between ?_ ?_ ?_
  · simp [Str.ofString]
  · rw [List.length_append, UUID.length_str]
    decide
  · intro c hc
    rcases List.mem_append.mp hc with hc | hc
    · exact hprefix c hc
    · exact u.between_str c hc

/-- An authority ceiling is one more check of `verify`. -/
theorem verify_ceiling {v : DelegationVerifier} {now : Datetime} {token : Str} {t t' : DelegationTarget}
    {claims : DelegationClaims} (h : v.verify now token t = .ok claims)
    (hsame : t = { t' with authorityCeiling := none, ceiling_nodup := by simp })
    (hceiling : ∀ ceiling ∈ t'.authorityCeiling, claims.scopes ⊆ ceiling ∧ isScopeSet ceiling = true) :
    v.verify now token t' = .ok claims := by
  subst hsame
  obtain ⟨hverified, htrace⟩ := verify_eq_ok.mp h
  obtain ⟨hverified, hsets, hclock⟩ := verifyClaims_eq_ok.mp hverified
  have hall : Verified v now token t' claims :=
    { hverified with ceiling := fun ceiling hmem => (hceiling ceiling hmem).1 }
  have hvalid : isScopeSet t'.requiredScopes = true ∧ ∀ ceiling ∈ t'.authorityCeiling,
      isScopeSet ceiling = true :=
    ⟨hsets.1, fun ceiling hmem => (hceiling ceiling hmem).2⟩
  exact verify_eq_ok.mpr ⟨verifyClaims_eq_ok.mpr ⟨hall, hvalid, hclock⟩, htrace⟩

/-- Accepted claims always make a principal. -/
theorem verifiedOf_ok (claims : DelegationClaims) : ∃ verified, verifiedOf claims = .ok verified := by
  obtain ⟨h, hscopes⟩ := claims.accepted
  have hdedup : claims.scopes.dedup.length ≤ maxScopes :=
    (claims.scopes.dedup_sublist.length_le.trans h.count).trans (by decide)
  obtain ⟨principal, hprincipal⟩ := Principal.make_ok (p := {
    tenantId := claims.tenantId, subjectId := claims.subjectId, actorId := claims.actorId
    clientId := claims.clientId, scopes := claims.scopes, issuedAt := claims.issuedAt
    expiresAt := some claims.expiresAt
    credentialRef := some ("delegation:" ++ claims.tokenId.str) }) {
      subject := isIdentifier_of_isDelegationIdentifier h.subject
      actor := fun a ha => isIdentifier_of_isDelegationIdentifier (h.actor a ha)
      client := fun c hc => isIdentifier_of_isDelegationIdentifier (h.client c hc)
      credential := by
        rintro c hc
        cases hc
        exact isIdentifier_credential claims.tokenId
      count := hdedup
      scopes := fun s hs => h.scopes s (List.mem_dedup.mp hs)
      authenticated := by simp
      expires := by
        rintro t ht
        cases ht
        exact lt_of_le_of_lt h.start h.finish }
  rw [verifiedOf, hprincipal]
  exact ⟨_, rfl⟩

end Edge

/-! ## A token for any target -/

namespace Hop

section Target

variable {method path canonical : Str} (hmethod : canonicalMethod method = .ok method)
  (hpath : canonicalTargetPath path = .ok canonical)

/-- The request for another target. -/
def requestFor (method path : Str) : DelegationRequest :=
  { request with method := method, path := path }

include hmethod hpath in
theorem postInit_for :
    DelegationClaimsArgs.postInit
        { claims.toDelegationClaimsArgs with method := method, path := canonical } =
      .ok { claims.toDelegationClaimsArgs with method := method, path := canonical } := by
  obtain ⟨h, -⟩ := claims.accepted
  exact DelegationClaimsArgs.postInit_eq_ok.mpr ⟨canonical, ⟨h.version, h.issuer, h.subject,
    h.audience, h.actor, h.client, h.keyId, hmethod, (canonicalTargetPath_canonical hpath).1,
    h.count, h.scopes, h.start, h.finish, h.lifetime, h.depth⟩, rfl⟩

/-- The claims of a token for another target. -/
def claimsFor : DelegationClaims := ⟨_, postInit_for hmethod hpath⟩

theorem mintClaims_for : mintClaims issuer 1000000 9 caller (requestFor method path) =
    .ok (claimsFor hmethod hpath, TwoKeys.first) := by
  have hmake : DelegationClaims.make {
      version := 1, issuer := issuer.issuer, tenantId := caller.tenantId
      subjectId := caller.subjectId, actorId := caller.actorId, clientId := caller.clientId
      audience := request.audience, method := method, path := canonical, scopes := request.scopes
      issuedAt := 1000000, notBefore := 1000000, expiresAt := 61000000, tokenId := 9
      keyId := TwoKeys.first.keyId, delegationDepth := 1 } =
        .ok (claimsFor hmethod hpath) :=
    DelegationClaims.make_eq_ok.mpr (postInit_for hmethod hpath)
  have hscopes : request.scopes ⊆ caller.scopes := by decide
  have hdepth : 0 ≤ request.parentDepth ∧ request.parentDepth < issuer.maximumDepth := by decide
  have httl : 0 < request.ttl ∧ request.ttl ≤ issuer.maximumTtlSeconds * 1000000 ∧
      request.ttl % 1000000 = 0 := by decide
  have hlatest : Datetime.add? 1000000 request.ttl = some 61000000 := by decide
  simp only [mintClaims, bind_eq_ok, check_eq_ok, orRaise_eq_ok, decide_eq_true_eq]
  exact ⟨(), hscopes, (), hdepth, (), httl, 61000000, hlatest, (), by decide, TwoKeys.first,
    by decide, method, hmethod, canonical, hpath, _, hmake, rfl⟩

/-- The members of these claims before the method, and after the path. -/
def membersBefore : List (Str × Json) := [
  ("version", .int 1), ("issuer", .str "edge"), ("tenant_id", .str (7 : UUID).str),
  ("subject_id", .str "alice"), ("actor_id", .null), ("client_id", .null),
  ("audience", .str "billing")]

def membersAfter : List (Str × Json) := [
  ("scopes", .arr [.str "read"]), ("issued_at", .int 1), ("not_before", .int 1),
  ("expires_at", .int 61), ("token_id", .str (9 : UUID).str), ("key_id", .str "k1"),
  ("delegation_depth", .int 1)]

def membersOf (method path : Str) : List (Str × Json) := [("method", .str method), ("path", .str path)]

theorem toDict_for : (claimsFor hmethod hpath).toDict =
    .obj (membersBefore ++ membersOf method canonical ++ membersAfter) := by
  have hbegin : Datetime.epochSeconds 1000000 = 1 := Datetime.epochSeconds_mul (n := 1) (by norm_num)
  have hend : Datetime.epochSeconds 61000000 = 61 :=
    Datetime.epochSeconds_mul (n := 61) (by norm_num)
  have hissued : (claimsFor hmethod hpath).issuedAt = 1000000 := rfl
  have hstarted : (claimsFor hmethod hpath).notBefore = 1000000 := rfl
  have hexpires : (claimsFor hmethod hpath).expiresAt = 61000000 := rfl
  rw [DelegationClaims.toDict, hissued, hstarted, hexpires, hbegin, hend]
  rfl

theorem membersFixed : ∀ m ∈ membersBefore ++ membersAfter,
    m.1.isAscii = true ∧ m.2.dumps.any Str.isAscii = true := by
  decide +kernel

/-- The longest path leaves room for the rest of the claims. -/
theorem claimsBytes_for [Platform] : ∃ payload,
    claimsBytes (claimsFor hmethod hpath) = .ok payload ∧ payload ≠ [] ∧ payload.length ≤ 6098 := by
  have hpath_chars := canonicalTargetPath_chars hpath
  obtain ⟨hmethod_length, hmethod_chars⟩ := canonicalMethod_chars hmethod
  have hpath_quoted : (quote canonical).length ≤ 4098 := by
    have hle := Json.length_quote_le hpath_chars
    have hspec := canonicalTargetPath_spec hpath
    have hlength := (normalizeOctets_spec hspec.octets).length.trans hspec.length
    omega
  have hmethod_quoted : (quote method).length ≤ 66 := by
    have hle := Json.length_quote_le hmethod_chars
    omega
  have hfixed : ∀ m ∈ membersBefore ++ membersAfter, m.1.isAscii = true ∧
      ∃ tx, m.2.dumps = some tx ∧ tx.isAscii = true := fun m hm =>
    ⟨(membersFixed m hm).1, (Option.any_eq_true _ _).mp (membersFixed m hm).2⟩
  have hpieces : ∀ m ∈ membersBefore ++ membersOf method canonical ++ membersAfter,
      m.1.isAscii = true ∧ ∃ tx, m.2.dumps = some tx ∧ tx.isAscii = true := by
    rintro m hm
    rcases List.mem_append.mp hm with hm | hm
    · rcases List.mem_append.mp hm with hm | hm
      · exact hfixed m (List.mem_append_left _ hm)
      · simp only [membersOf, List.mem_cons, List.not_mem_nil, or_false] at hm
        rcases hm with rfl | rfl
        · exact ⟨rfl, _, rfl, Json.isAscii_quote (Str.isAscii_iff.mpr fun c hc =>
            (hmethod_chars c hc).2)⟩
        · exact ⟨rfl, _, rfl, Json.isAscii_quote (Str.isAscii_iff.mpr fun c hc =>
            (hpath_chars c hc).2)⟩
    · exact hfixed m (List.mem_append_right _ hm)
  obtain ⟨t, ht, hascii, hlength⟩ := Json.dumps_obj (by simp [membersOf]) hpieces
  have hsize : t.length ≤ 6098 := by
    have hbefore : (membersBefore.map fun m =>
        (quote m.1).length + (m.2.dumps.getD []).length + 2).sum ≤ 500 := by decide +kernel
    have hafter : (membersAfter.map fun m =>
        (quote m.1).length + (m.2.dumps.getD []).length + 2).sum ≤ 500 := by decide +kernel
    have hof : ((membersOf method canonical).map fun m =>
        (quote m.1).length + (m.2.dumps.getD []).length + 2).sum =
          (8 + (quote method).length + 2) + (6 + (quote canonical).length + 2) := rfl
    rw [List.map_append, List.map_append, List.sum_append, List.sum_append, hof] at hlength
    omega
  have hne : t ≠ [] := by
    rintro rfl
    cases hlength
  refine ⟨t.map fun c => UInt8.ofNat c.ord, ?_, by simp [hne], by rw [List.length_map]; exact hsize⟩
  simp only [claimsBytes, canonicalJsonBytes, bind_eq_ok, check_eq_ok, orRaise_eq_ok,
    decide_eq_true_eq]
  refine ⟨(), by decide, (), normalize_toDict _, _, ?_, (), ?_, rfl⟩
  · rw [toDict_for, ht]
    exact Str.encode?_ascii hascii
  · rw [List.length_map, maxTokenPayload]
    omega

theorem read_nodup : [Str.ofString "read"].Nodup := List.nodup_singleton _

theorem ceiling_nodup : ∀ ceiling ∈ some [Str.ofString "read"], ceiling.Nodup := by
  rintro ceiling hceiling
  cases hceiling
  exact read_nodup

/-- What is asked of the verifier about the other target. -/
def targetFor (method path : Str) : DelegationTarget :=
  { audience := "billing", method := method, path := path, requiredScopes := ["read"]
    authorityCeiling := some ["read"], nodup := read_nodup, ceiling_nodup := ceiling_nodup }

include hmethod hpath in
/-- A token for the other target is issued and verified. -/
theorem verify_for [Platform] : ∃ token claims,
    verifier.verify 1000000 token (targetFor method path) = .ok claims ∧
      ∀ claims' payload signature, Decodes token claims' payload signature →
        claims'.path = canonical := by
  obtain ⟨payload, hpayload, hne, hsize⟩ := claimsBytes_for hmethod hpath
  have hmint := mintClaims_for hmethod hpath
  have htoken : encodeToken payload (delegationMac TwoKeys.first.secret payload) =
      .ok (tokenText payload (delegationMac TwoKeys.first.secret payload)) :=
    encodeToken_eq_ok.mpr ⟨⟨hne, by rw [maxTokenPayload]; omega⟩, by simp [delegationMac], rfl⟩
  have hissued := mint_eq_ok.mpr
    ⟨_, _, hmint, payload, hpayload, htoken, by simp [requestFor, request]⟩
  have hfollows : Follows issuer (requestFor method path) verifier
      { targetFor method path with authorityCeiling := none, ceiling_nodup := by simp } :=
    ⟨rfl, rfl, rfl, rfl, rfl, rfl, rfl, rfl, List.Subset.refl _, rfl⟩
  have hsurvives : Survives verifier
      { targetFor method path with authorityCeiling := none, ceiling_nodup := by simp } 1000000
      (claimsFor hmethod hpath) :=
    ⟨⟨payload, hpayload, hsize⟩, unrounded,
      (by decide : Datetime.wholeSeconds 1000000 < Datetime.wholeSeconds 61000000), by decide,
      ⟨by decide, by decide⟩, by simp [targetFor]⟩
  obtain ⟨claims, hverify, htruncated⟩ :=
    (verify_minted_iff (by decide) hfollows hmint hissued).mpr hsurvives
  have hscopes : claims.scopes = ["read"] := by
    rw [htruncated]
    rfl
  have hceiling : ∀ ceiling ∈ (targetFor method path).authorityCeiling,
      claims.scopes ⊆ ceiling ∧ isScopeSet ceiling = true := by
    rintro ceiling hceiling
    cases hceiling
    rw [hscopes]
    exact ⟨List.Subset.refl _, by decide⟩
  refine ⟨_, claims, verify_ceiling hverify rfl hceiling, ?_⟩
  intro claims' payload' signature' hdecodes
  obtain ⟨-, -, -, -, hmake⟩ := (decodes_minted hpayload htoken).mp hdecodes
  rw [(postInit_inSeconds.mp (DelegationClaims.make_eq_ok.mp hmake)).2]
  rfl

end Target

end Hop

/-! ## What a token admits -/

section Binding

variable [Platform] [Url.Netloc]

/-- The token of the request is for its method, and for the path it is routed on. -/
def Bound (p : EdgePolicy) (r : Request) : Prop :=
  ∃ token claims payload signature, r.header p.headerName = some token ∧
    Decodes token claims payload signature ∧ claims.method = r.method ∧
    Url.unquote claims.path = r.path

omit [Platform] in
/-- Whether what the dependency checks of a target is what the target is routed on. -/
def Unambiguous (t : RequestTarget) : Prop :=
  ∀ path canonical, canonicalMethod t.method = .ok t.method → t.urlPath? = some path →
    canonicalTargetPath path = .ok canonical → Url.unquote path = t.path

theorem dependency_eq_ok {p : EdgePolicy} {v : DelegationVerifier} {now : Datetime} {r : Request}
    {verified : VerifiedDelegation} :
    p.dependency v now r = .ok verified ↔
      ∃ token path claims, r.header p.headerName = some token ∧ r.urlPath? = some path ∧
        v.verify now token (p.target r path) = .ok claims ∧ verifiedOf claims = .ok verified := by
  have hforbidden : ∀ {x : Except PyError DelegationClaims} {claims : DelegationClaims},
      orForbidden x = .ok claims ↔ x = .ok claims := by
    intro x claims
    unfold orForbidden
    split <;> simp
  simp only [EdgePolicy.dependency, bind_eq_ok, orRaise_eq_ok, hforbidden]
  constructor
  · rintro ⟨token, htoken, path, hpath, claims, hverify, hverified⟩
    exact ⟨token, path, claims, htoken, hpath, hverify, hverified⟩
  · rintro ⟨token, path, claims, htoken, hpath, hverify, hverified⟩
    exact ⟨token, htoken, path, hpath, claims, hverify, hverified⟩

/-- A request that is admitted for an unambiguous target. -/
theorem bound_of_unambiguous {p : EdgePolicy} {v : DelegationVerifier} {now : Datetime} {r : Request}
    {verified : VerifiedDelegation} (ht : Unambiguous r.toRequestTarget)
    (h : p.dependency v now r = .ok verified) : Bound p r := by
  obtain ⟨token, path, claims, htoken, hpath, hverify, -⟩ := dependency_eq_ok.mp h
  have hverified := (verifyClaims_eq_ok.mp (verify_eq_ok.mp hverify).1).1
  obtain ⟨payload, signature, key, hdecodes, -⟩ := hverified.signed
  obtain ⟨hmethod, -⟩ := canonicalMethod_eq_ok.mp hverified.method
  have hcanonical := hverified.path
  have hdecoded := (canonicalTargetPath_canonical hcanonical).2
  have hown : canonicalMethod r.method = .ok r.method :=
    hverified.method.trans (congrArg Except.ok hmethod)
  have hsame := ht path claims.path hown hpath hcanonical
  exact ⟨token, claims, payload, signature, htoken, hdecodes, hmethod, hdecoded.trans hsame⟩

/-- A token for the target that the dependency sees is admitted. -/
theorem exists_admitted {t : RequestTarget} {path canonical : Str}
    (hmethod : canonicalMethod t.method = .ok t.method) (hpath : t.urlPath? = some path)
    (hcanonical : canonicalTargetPath path = .ok canonical) :
    ∃ (p : EdgePolicy) (v : DelegationVerifier) (now : Datetime) (header : Str → Option Str)
      (verified : VerifiedDelegation) (token : Str),
      p.dependency v now ⟨t, header⟩ = .ok verified ∧ header p.headerName = some token ∧
        ∀ claims payload signature, Decodes token claims payload signature →
          claims.path = canonical := by
  obtain ⟨token, claims, hverify, hclaims⟩ := Hop.verify_for hmethod hcanonical
  obtain ⟨verified, hverified⟩ := verifiedOf_ok claims
  let p : EdgePolicy := { audience := "billing", requiredScopes := ["read"] }
  let header : Str → Option Str := fun name => if name = p.headerName then some token else none
  have htoken : header p.headerName = some token := if_pos rfl
  have htrace : traceId ⟨t, header⟩ = none := rfl
  have htarget : p.target ⟨t, header⟩ path = Hop.targetFor t.method path := by
    unfold EdgePolicy.target
    simp only [htrace]
    rfl
  refine ⟨p, Hop.verifier, 1000000, header, verified, token, ?_, htoken, hclaims⟩
  exact dependency_eq_ok.mpr ⟨token, path, claims, htoken, hpath, htarget ▸ hverify, hverified⟩

/-- A target binds every token that admits it, exactly when it is unambiguous. -/
theorem bound_iff_unambiguous (t : RequestTarget) :
    (∀ (p : EdgePolicy) (v : DelegationVerifier) (now : Datetime) (header : Str → Option Str)
      (verified : VerifiedDelegation), p.dependency v now ⟨t, header⟩ = .ok verified →
        Bound p ⟨t, header⟩) ↔ Unambiguous t := by
  constructor
  · intro h path canonical hmethod hpath hcanonical
    obtain ⟨p, v, now, header, verified, token, hadmitted, htoken, hclaims⟩ :=
      exists_admitted hmethod hpath hcanonical
    obtain ⟨token', claims', payload, signature, htoken', hdecodes, -, hrouted⟩ :=
      h p v now header verified hadmitted
    cases htoken.symm.trans htoken'
    rw [hclaims claims' payload signature hdecodes] at hrouted
    exact (canonicalTargetPath_canonical hcanonical).2.symm.trans hrouted
  · intro h p v now header verified hadmitted
    exact bound_of_unambiguous h hadmitted

end Binding

namespace AnyHost

/-- A `urlsplit` that takes every host. -/
scoped instance netloc : Url.Netloc where
  accepts := fun _ => true
  accepts_ascii := fun _ _ _ _ => rfl

end AnyHost

/-- What `/a%2562` is routed as. -/
def twiceEncoded : RequestTarget :=
  { method := "GET", scheme := "http", host := "h", path := "/a%62" }

open Checksum AnyHost in
/-- The edge decodes a path that was decoded before: a token for `/ab` is admitted. -/
theorem twice_encoded_admitted : ∃ (p : EdgePolicy) (v : DelegationVerifier) (now : Datetime)
    (header : Str → Option Str) (verified : VerifiedDelegation),
    p.dependency v now ⟨twiceEncoded, header⟩ = .ok verified ∧ ¬ Bound p ⟨twiceEncoded, header⟩ := by
  have hmethod : canonicalMethod twiceEncoded.method = .ok twiceEncoded.method := by
    decide +kernel
  have hpath : twiceEncoded.urlPath? = some "/a%62" := by
    decide +kernel
  have hcanonical : canonicalTargetPath "/a%62" = .ok "/ab" := by
    decide +kernel
  obtain ⟨p, v, now, header, verified, token, hadmitted, htoken, hclaims⟩ :=
    exists_admitted hmethod hpath hcanonical
  refine ⟨p, v, now, header, verified, hadmitted, ?_⟩
  rintro ⟨token', claims, payload, signature, htoken', hdecodes, -, hrouted⟩
  cases htoken.symm.trans htoken'
  rw [hclaims claims payload signature hdecodes] at hrouted
  have hdiffers : Url.unquote "/ab" ≠ twiceEncoded.path := by
    decide +kernel
  exact hdiffers hrouted

end FastapiEffects
