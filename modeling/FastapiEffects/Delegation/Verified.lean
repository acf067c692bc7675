import FastapiEffects.Delegation.Signing

/-! # Which tokens are verified

A token that `mint` issues is read back by `verify`, which sees its times in whole seconds.
-/

namespace FastapiEffects

open Python

section Delegation

variable [Platform]

/-! ## Claims through JSON -/

/-- The claims as a token carries them: `int(t.timestamp())` of every time. -/
def DelegationClaimsArgs.inSeconds (c : DelegationClaimsArgs) : DelegationClaimsArgs :=
  { c with
    issuedAt := Datetime.epochSeconds c.issuedAt * 1000000
    notBefore := Datetime.epochSeconds c.notBefore * 1000000
    expiresAt := Datetime.epochSeconds c.expiresAt * 1000000 }

omit [Platform] in
/-- The names of the encoded members are the ones the decoder wants. -/
theorem toDict_eq (claims : DelegationClaims) :
    ∃ members, claims.toDict = .obj members ∧ members.map Prod.fst = DelegationClaims.fields :=
  ⟨_, rfl, rfl⟩

omit [Platform] in
theorem names_toDict (claims : DelegationClaims) :
    ∃ names, DelegationClaims.names? claims.toDict.sorted = some names ∧
      names ⊆ DelegationClaims.fields ∧ DelegationClaims.fields ⊆ names := by
  obtain ⟨members, hmembers, hkeys⟩ := toDict_eq claims
  have hperm := (Json.sortMembers_perm (Json.sortedMembers members)).map Prod.fst
  rw [Json.keys_sortedMembers, hkeys] at hperm
  rw [hmembers]
  exact ⟨_, rfl, hperm.subset, hperm.symm.subset⟩

omit [Platform] in
/-- A member of the claims, read from their sorted JSON. -/
theorem field_toDict {claims : DelegationClaims} {key : Str} {value : Json}
    (h : claims.toDict.get? key = some value) :
    (claims.toDict.sorted.get? key).getD .null = value.sorted := by
  obtain ⟨members, hmembers, hkeys⟩ := toDict_eq claims
  have hnodup : (members.map Prod.fst).Nodup := by
    rw [hkeys]
    decide
  rw [hmembers] at h ⊢
  rw [Json.get?_sorted hnodup, h]
  rfl

omit [Platform] in
theorem optionalString_optionJson (value : Option Str) :
    DelegationClaims.optionalString (DelegationClaims.optionJson value).sorted = .ok value := by
  cases value <;> rfl

omit [Platform] in
theorem time_eq_ok {n : ℤ} {t : Datetime} :
    DelegationClaims.time (.int n) = .ok t ↔ Datetime.Valid (n * 1000000) ∧ t = n * 1000000 := by
  simp only [DelegationClaims.time, DelegationClaims.integer, bind_eq_ok, check_eq_ok,
    decide_eq_true_eq]
  constructor
  · rintro ⟨_, heq, -, hvalid, ht⟩
    cases heq
    cases ht
    exact ⟨hvalid, rfl⟩
  · rintro ⟨hvalid, rfl⟩
    exact ⟨n, rfl, (), hvalid, rfl⟩

omit [Platform] in
theorem texts_scopes (scopes : List Str) :
    DelegationClaims.texts (Json.arr (scopes.map .str)).sorted = .ok scopes := by
  have hsorted : Json.sortedItems (scopes.map .str) = scopes.map .str := by
    induction scopes with
    | nil => rfl
    | cons s scopes ih =>
        rw [List.map_cons, Json.sortedItems, ih]
        rfl
  have htexts : (scopes.map Json.str).mapM (fun item => (DelegationClaims.string item).toOption) =
      some scopes := by
    clear hsorted
    induction scopes with
    | nil => rfl
    | cons s scopes ih =>
        rw [List.map_cons, List.mapM_cons, ih]
        rfl
  rw [Json.sorted, hsorted, DelegationClaims.texts]
  simp only [htexts, orRaise]

omit [Platform] in
theorem orInvalidClaims_eq_ok {α : Type} {x : Except PyError α} {a : α} :
    DelegationClaims.orInvalidClaims x = .ok a ↔ x = .ok a := by
  unfold DelegationClaims.orInvalidClaims
  split <;> simp

theorem uuid_str (u : UUID) : DelegationClaims.uuid (.str u.str) = .ok u := by
  simp only [DelegationClaims.uuid, DelegationClaims.string, bind, Except.bind, UUID.ofStr?_str,
    orRaise]

/-- The claims a decoder makes of encoded ones. -/
theorem fromDict_toDict {claims claims' : DelegationClaims} :
    DelegationClaims.fromDict claims.toDict.sorted = .ok claims' ↔
      (Datetime.Valid claims.inSeconds.issuedAt ∧ Datetime.Valid claims.inSeconds.notBefore ∧
        Datetime.Valid claims.inSeconds.expiresAt) ∧
      DelegationClaims.make claims.inSeconds = .ok claims' := by
  obtain ⟨names, hnames, hknown, hcomplete⟩ := names_toDict claims
  obtain ⟨field, hfield⟩ : ∃ field : String → Json, ∀ name : String,
      (claims.toDict.sorted.get? name).getD .null = field name :=
    ⟨_, fun _ => rfl⟩
  have hread : ∀ {name : String} {value value' : Json}, claims.toDict.get? name = some value →
      value.sorted = value' → field name = value' :=
    fun h hsorted => (hfield _).symm.trans ((field_toDict h).trans hsorted)
  have hversion : field "version" = .int claims.version := hread rfl rfl
  have hissuer : field "issuer" = .str claims.issuer := hread rfl rfl
  have htenant : field "tenant_id" = .str claims.tenantId.str := hread rfl rfl
  have hsubject : field "subject_id" = .str claims.subjectId := hread rfl rfl
  have hactor : field "actor_id" = (DelegationClaims.optionJson claims.actorId).sorted := hread rfl rfl
  have hclient : field "client_id" = (DelegationClaims.optionJson claims.clientId).sorted :=
    hread rfl rfl
  have haudience : field "audience" = .str claims.audience := hread rfl rfl
  have hmethod : field "method" = .str claims.method := hread rfl rfl
  have hpath : field "path" = .str claims.path := hread rfl rfl
  have hscopes : field "scopes" = (Json.arr (claims.scopes.map .str)).sorted := hread rfl rfl
  have hissued : field "issued_at" = .int claims.issuedAt.epochSeconds := hread rfl rfl
  have hstarted : field "not_before" = .int claims.notBefore.epochSeconds := hread rfl rfl
  have hexpires : field "expires_at" = .int claims.expiresAt.epochSeconds := hread rfl rfl
  have htoken : field "token_id" = .str claims.tokenId.str := hread rfl rfl
  have hkey : field "key_id" = .str claims.keyId := hread rfl rfl
  have hdepth : field "delegation_depth" = .int claims.delegationDepth := hread rfl rfl
  simp only [DelegationClaims.fromDict, bind_eq_ok, orRaise_eq_ok, check_eq_ok, decide_eq_true_eq,
    orInvalidClaims_eq_ok, hfield, hnames, Option.some.injEq, hversion, hissuer, htenant, hsubject,
    hactor, hclient, haudience, hmethod, hpath, hscopes, hissued, hstarted, hexpires, htoken, hkey,
    hdepth, texts_scopes, uuid_str, optionalString_optionJson, time_eq_ok,
    DelegationClaims.integer, DelegationClaims.string, Except.ok.injEq, exists_eq_left']
  constructor
  · rintro ⟨-, -, issued, ⟨hissuedAt, rfl⟩, started, ⟨hnotBefore, rfl⟩, expires, ⟨hexpiresAt, rfl⟩, hmake⟩
    exact ⟨⟨hissuedAt, hnotBefore, hexpiresAt⟩, hmake⟩
  · rintro ⟨⟨hissuedAt, hnotBefore, hexpiresAt⟩, hmake⟩
    exact ⟨(), ⟨hknown, hcomplete⟩, _, ⟨hissuedAt, rfl⟩, _, ⟨hnotBefore, rfl⟩, _, ⟨hexpiresAt, rfl⟩,
      hmake⟩

/-! ## Claims are ASCII -/

omit [Platform] in
theorem isAscii_of_isDelegationIdentifier {s : Str} (h : isDelegationIdentifier s = true) :
    s.isAscii = true :=
  Str.isAscii_iff.mpr (Str.forall_of_fullmatch
    (fun _ => PyChar.ord_lt_of_isIn (by decide) (by decide))
    (fun _ => PyChar.ord_lt_of_isIn (by decide) (by decide)) h).2

omit [Platform] in
/-- A method is a short text of printable characters. -/
theorem canonicalMethod_chars {value result : Str} (h : canonicalMethod value = .ok result) :
    result.length ≤ 32 ∧ ∀ c ∈ result, 32 ≤ c.ord ∧ c.ord < 128 := by
  obtain ⟨rfl, hmatch⟩ := canonicalMethod_eq_ok.mp h
  exact Str.forall_of_fullmatch
    (fun _ hc => ⟨PyChar.le_ord_of_isIn (by decide) (by decide) hc,
      PyChar.ord_lt_of_isIn (by decide) (by decide) hc⟩)
    (fun _ hc => ⟨PyChar.le_ord_of_isIn (by decide) (by decide) hc,
      PyChar.ord_lt_of_isIn (by decide) (by decide) hc⟩) hmatch

omit [Platform] in
/-- The characters of a canonical path can all be printed. -/
theorem canonicalTargetPath_chars {value result : Str} (h : canonicalTargetPath value = .ok result) :
    ∀ c ∈ result, 32 ≤ c.ord ∧ c.ord < 128 := by
  have hspec := canonicalTargetPath_spec h
  intro c hc
  obtain ⟨hascii, hforbidden⟩ := (normalizeOctets_spec hspec.octets).chars hspec.chars c hc
  simp only [isForbidden, Bool.or_eq_false_iff, decide_eq_false_iff_not, not_lt] at hforbidden
  exact ⟨hforbidden.1.2, hascii⟩

omit [Platform] in
/-- Every text of the claims is ASCII. -/
theorem DelegationClaims.isAscii (claims : DelegationClaims) :
    (∀ s ∈ [claims.issuer, claims.subjectId, claims.audience, claims.keyId, claims.method,
      claims.path, claims.tenantId.str, claims.tokenId.str], s.isAscii = true) ∧
    (∀ s ∈ [claims.actorId, claims.clientId], ∀ t ∈ s, t.isAscii = true) ∧
    ∀ s ∈ claims.scopes, s.isAscii = true := by
  obtain ⟨h, -⟩ := claims.accepted
  have hid := @isAscii_of_isDelegationIdentifier
  refine ⟨?_, ?_, fun s hs => hid (isDelegationIdentifier_of_isScope (h.scopes s hs))⟩
  · simp only [List.forall_mem_cons]
    refine ⟨hid h.issuer, hid h.subject, hid h.audience,
      hid (isDelegationIdentifier_of_isKeyId h.keyId), 
      Str.isAscii_iff.mpr fun c hc => ((canonicalMethod_chars h.method).2 c hc).2,
      Str.isAscii_iff.mpr fun c hc => (canonicalTargetPath_chars h.path c hc).2,
      claims.tenantId.isAscii_str, claims.tokenId.isAscii_str, by simp⟩
  · simp only [List.forall_mem_cons]
    exact ⟨fun t ht => hid (h.actor t ht), fun t ht => hid (h.client t ht), by simp⟩

/-- Claims are a value the canonical encoder takes. -/
theorem normalize_toDict (claims : DelegationClaims) : normalize 0 claims.toDict = .ok () := by
  obtain ⟨htexts, hoptions, hscopes⟩ := claims.isAscii
  have hnesting : ∀ {depth : ℕ}, depth ≤ maxDepth → normalize.nesting depth = .ok () :=
    fun h => check_eq_ok.mpr (decide_eq_true h)
  have hint : ∀ n : ℤ, normalize 1 (.int n) = .ok () := fun _ => hnesting (by decide)
  have hstr : ∀ {s : Str}, s.isAscii = true → ∀ {depth : ℕ}, depth ≤ maxDepth →
      normalize depth (.str s) = .ok () := by
    intro s hs depth hdepth
    simp only [normalize, bind_eq_ok, check_eq_ok]
    exact ⟨(), hnesting hdepth, by rw [Str.encode?_ascii hs]; rfl⟩
  have hoption : ∀ {s : Option Str}, (∀ t ∈ s, t.isAscii = true) →
      normalize 1 (DelegationClaims.optionJson s) = .ok () := by
    intro s hs
    cases s with
    | none => exact hnesting (by decide)
    | some t => exact hstr (hs t rfl) (by decide)
  have harr : normalize 1 (.arr (claims.scopes.map .str)) = .ok () := by
    simp only [normalize, bind_eq_ok, check_eq_ok, decide_eq_true_eq, normalizeItems_eq_ok]
    refine ⟨(), hnesting (by decide), (), ?_, ?_⟩
    · rw [List.length_map]
      exact claims.accepted.1.count.trans (by decide)
    · rintro x hx
      obtain ⟨s, hs, rfl⟩ := List.mem_map.mp hx
      exact hstr (hscopes s hs) (by decide)
  simp only [List.forall_mem_cons] at htexts hoptions
  obtain ⟨hissuer, hsubject, haudience, hkeyId, hmethod, hpath, htenant, htoken, -⟩ := htexts
  obtain ⟨hactor, hclient, -⟩ := hoptions
  have hkeys : (DelegationClaims.fields.map Platform.nfc).Nodup := by
    have hid : DelegationClaims.fields.map Platform.nfc = DelegationClaims.fields := by
      refine (List.map_congr_left fun s hs => Platform.nfc_ascii s ?_).trans (List.map_id _)
      revert s
      decide
    rw [hid]
    decide
  simp only [DelegationClaims.toDict, normalize, bind_eq_ok, check_eq_ok, normalizeMembers_eq_ok]
  refine ⟨(), hnesting (by decide), (), rfl, hkeys, by simp, ?_⟩
  simp only [List.forall_mem_cons]
  exact ⟨hint _, hstr hissuer (by decide), hstr htenant (by decide), hstr hsubject (by decide),
    hoption hactor, hoption hclient, hstr haudience (by decide), hstr hmethod (by decide),
    hstr hpath (by decide), harr, hint _, hint _, hint _, hstr htoken (by decide),
    hstr hkeyId (by decide), hint _, by simp⟩

/-! ## Minted claims -/

/-- What `mint` has checked, and the claims and the key it has made. -/
structure Mints (i : DelegationIssuer) (now : Datetime) (tokenId : UUID) (principal : Principal)
    (r : DelegationRequest) (expiry : Datetime) (path : Str) (key : SigningKey)
    (claims : DelegationClaims) : Prop where
  scopes : r.scopes ⊆ principal.scopes
  depth : 0 ≤ r.parentDepth ∧ r.parentDepth < i.maximumDepth
  ttl : 0 < r.ttl ∧ r.ttl ≤ i.maximumTtlSeconds * 1000000 ∧ r.ttl % 1000000 = 0
  latest : Datetime.Valid (now + r.ttl)
  within : expiry ≤ now + r.ttl ∧ ∀ expires ∈ principal.expiresAt, expiry ≤ expires
  earliest : expiry = now + r.ttl ∨ principal.expiresAt = some expiry
  unexpired : now < expiry
  signing : i.keys.signingKey = .ok key
  method : canonicalMethod r.method = .ok r.method
  target : canonicalTargetPath r.path = .ok path
  result : claims.toDelegationClaimsArgs = {
    version := 1
    issuer := i.issuer
    tenantId := principal.tenantId
    subjectId := principal.subjectId
    actorId := principal.actorId
    clientId := principal.clientId
    audience := r.audience
    method := r.method
    path := path
    scopes := Str.sortedSet r.scopes
    issuedAt := now
    notBefore := now
    expiresAt := expiry
    tokenId := tokenId
    keyId := key.keyId
    delegationDepth := r.parentDepth + 1 }

omit [Platform] in
theorem mintClaims_eq_ok {i : DelegationIssuer} {now : Datetime} {tokenId : UUID}
    {principal : Principal} {r : DelegationRequest} {claims : DelegationClaims} {key : SigningKey}
    (h : mintClaims i now tokenId principal r = .ok (claims, key)) :
    ∃ expiry path, Mints i now tokenId principal r expiry path key claims := by
  simp only [mintClaims, bind_eq_ok, check_eq_ok, orRaise_eq_ok, decide_eq_true_eq,
    Datetime.add?_eq_some_iff] at h
  obtain ⟨-, hscopes, -, hdepth, -, httl, latest, ⟨hlatest, rfl⟩, -, hexpired, key', hkey, method,
    hmethod, path, hpath, claims', hclaims, heq⟩ := h
  cases heq
  obtain ⟨rfl, -⟩ := canonicalMethod_eq_ok.mp hmethod
  obtain ⟨path', haccepted, hresult⟩ :=
    DelegationClaimsArgs.postInit_eq_ok.mp (DelegationClaims.make_eq_ok.mp hclaims)
  have hsame : path' = path :=
    Except.ok.inj (haccepted.path.symm.trans (canonicalTargetPath_canonical hpath).1)
  subst hsame
  refine ⟨_, path', hscopes, hdepth, httl, hlatest, ?_, ?_, hexpired, hkey, hmethod, hpath, hresult⟩
  · split
    · rename_i expires hexpires
      refine ⟨?_, fun e he => ?_⟩
      · split_ifs with hlt
        · exact hlt.le
        · exact le_refl _
      · cases hexpires.symm.trans he
        split_ifs with hlt
        · exact le_refl _
        · exact not_lt.mp hlt
    · rename_i hnone
      refine ⟨le_refl _, fun e he => ?_⟩
      rw [hnone] at he
      cases he
  · split
    · rename_i expires hexpires
      split_ifs with hlt
      · exact Or.inr hexpires
      · exact Or.inl rfl
    · exact Or.inl rfl

theorem mint_eq_ok {i : DelegationIssuer} {now : Datetime} {tokenId : UUID}
    {principal : Principal} {r : DelegationRequest} {token : Str} :
    i.mint now tokenId principal r = .ok token ↔
      ∃ claims key, mintClaims i now tokenId principal r = .ok (claims, key) ∧
        ∃ payload, claimsBytes claims = .ok payload ∧
          encodeToken payload (delegationMac key.secret payload) = .ok token ∧
          ∀ trace ∈ r.traceId, isDelegationIdentifier trace = true := by
  simp only [DelegationIssuer.mint, bind_eq_ok, Prod.exists]
  constructor
  · rintro ⟨claims, key, hclaims, payload, hpayload, token', htoken, _, hevent, heq⟩
    cases heq
    exact ⟨claims, key, hclaims, payload, hpayload, htoken, delegationAuditEvent_eq_ok.mp hevent⟩
  · rintro ⟨claims, key, hclaims, payload, hpayload, htoken, htrace⟩
    exact ⟨claims, key, hclaims, payload, hpayload, token, htoken, (),
      delegationAuditEvent_eq_ok.mpr htrace, rfl⟩

/-- What a decoder makes of a minted token. -/
theorem decodes_minted {claims claims' : DelegationClaims} {payload signature payload' signature' : Bytes}
    {token : Str} (hpayload : claimsBytes claims = .ok payload)
    (htoken : encodeToken payload signature = .ok token) :
    Decodes token claims' payload' signature' ↔
      payload.length ≤ 6098 ∧ payload' = payload ∧ signature' = signature ∧
      (Datetime.Valid claims.inSeconds.issuedAt ∧ Datetime.Valid claims.inSeconds.notBefore ∧
        Datetime.Valid claims.inSeconds.expiresAt) ∧
      DelegationClaims.make claims.inSeconds = .ok claims' := by
  have hmost := (encodeToken_eq_ok.mp htoken).1.2
  have hread := strictJsonLoads_canonicalJsonBytes hpayload hmost
  rw [decodes_encodeToken htoken, ← fromDict_toDict]
  constructor
  · rintro ⟨hsize, hp, hs, parsed, hparsed, hclaims⟩
    cases hread.symm.trans hparsed
    exact ⟨hsize, hp, hs, hclaims⟩
  · rintro ⟨hsize, hp, hs, hclaims⟩
    exact ⟨hsize, hp, hs, _, hread, hclaims⟩

omit [Platform] in
/-- Only the times of claims can become ones the constructor refuses. -/
theorem postInit_inSeconds {claims : DelegationClaims} {c : DelegationClaimsArgs} :
    claims.inSeconds.postInit = .ok c ↔
      (claims.inSeconds.issuedAt ≤ claims.inSeconds.notBefore ∧
        claims.inSeconds.notBefore < claims.inSeconds.expiresAt ∧
        claims.inSeconds.expiresAt - claims.inSeconds.issuedAt ≤ maxCredentialLifetime) ∧
      c = claims.inSeconds := by
  obtain ⟨h, hscopes⟩ := claims.accepted
  rw [DelegationClaimsArgs.postInit_eq_ok]
  constructor
  · rintro ⟨path, haccepted, heq⟩
    refine ⟨⟨haccepted.start, haccepted.finish, haccepted.lifetime⟩, heq.trans ?_⟩
    have hpath : path = claims.path := Except.ok.inj (haccepted.path.symm.trans h.path)
    rw [hpath]
    exact congrArg (fun s => { claims.inSeconds with scopes := s }) hscopes.symm
  · rintro ⟨⟨hstart, hfinish, hlifetime⟩, heq⟩
    refine ⟨claims.path, ⟨h.version, h.issuer, h.subject, h.audience, h.actor, h.client, h.keyId,
      h.method, h.path, h.count, h.scopes, hstart, hfinish, hlifetime, h.depth⟩, heq.trans ?_⟩
    exact congrArg (fun s => { claims.inSeconds with scopes := s }) hscopes

/-! ## What is issued is accepted -/

/-- Claims with their times cut to whole seconds. -/
def DelegationClaimsArgs.truncated (c : DelegationClaimsArgs) : DelegationClaimsArgs :=
  { c with
    issuedAt := Datetime.wholeSeconds c.issuedAt * 1000000
    notBefore := Datetime.wholeSeconds c.notBefore * 1000000
    expiresAt := Datetime.wholeSeconds c.expiresAt * 1000000 }

/-- A verifier set up as the issuer is, asked for the target the token was minted for. -/
structure Follows (i : DelegationIssuer) (r : DelegationRequest) (v : DelegationVerifier)
    (t : DelegationTarget) : Prop where
  issuer : v.issuer = i.issuer
  keys : v.keys = i.keys
  maximumTtl : v.maximumTtlSeconds = i.maximumTtlSeconds
  maximumDepth : v.maximumDepth = i.maximumDepth
  allowed : v.allowedScopes = none
  audience : t.audience = r.audience
  method : t.method = r.method
  path : t.path = r.path
  required : t.requiredScopes ⊆ r.scopes
  ceiling : t.authorityCeiling = none

/-- What decides whether minted claims are accepted: their size, and what is left of their
times in whole seconds. -/
structure Survives (v : DelegationVerifier) (t : DelegationTarget) (now : Datetime)
    (claims : DelegationClaims) : Prop where
  size : ∃ payload, claimsBytes claims = .ok payload ∧ payload.length ≤ 6098
  unrounded : ∀ time ∈ [now, claims.expiresAt], Datetime.epochSeconds time = Datetime.wholeSeconds time
  later : Datetime.wholeSeconds now < Datetime.wholeSeconds claims.expiresAt
  started : Datetime.wholeSeconds now * 1000000 ≤ now + v.clockSkewSeconds * 1000000
  clock : Datetime.Valid (now + v.clockSkewSeconds * 1000000) ∧
    Datetime.Valid (now - v.clockSkewSeconds * 1000000)
  trace : ∀ trace ∈ t.traceId, isDelegationIdentifier trace = true

omit [Platform] in
/-- A time to live in whole seconds is not exceeded by cutting both ends. -/
theorem truncated_lifetime {now expiry ttl : ℤ} {most : ℤ} (hexpiry : now < expiry)
    (hlatest : expiry ≤ now + ttl) (hwhole : ttl % 1000000 = 0) (hmost : ttl ≤ most * 1000000) :
    Datetime.wholeSeconds expiry * 1000000 - Datetime.wholeSeconds now * 1000000 ≤
      most * 1000000 := by
  obtain ⟨hnow, hnow'⟩ := Datetime.wholeSeconds_bounds now
  obtain ⟨hend, hend'⟩ := Datetime.wholeSeconds_bounds expiry
  rcases lt_or_ge now 0 with hneg | hpos
  · obtain ⟨h1, h2, h3⟩ := hnow' hneg
    rcases lt_or_ge expiry 0 with hneg' | hpos'
    · obtain ⟨h4, h5, h6⟩ := hend' hneg'
      omega
    · obtain ⟨h4, h5⟩ := hend hpos'
      omega
  · obtain ⟨h1, h2⟩ := hnow hpos
    obtain ⟨h4, h5⟩ := hend (by omega)
    omega

omit [Platform] in
theorem valid_wholeSeconds {t : ℤ} (h : Datetime.Valid t) :
    Datetime.Valid (Datetime.wholeSeconds t * 1000000) := by
  obtain ⟨hmin, hmax⟩ : (-62135596800 * 1000000 : ℤ) ≤ t ∧ t ≤ 253402300800 * 1000000 - 1 := h
  obtain ⟨hpos, hneg⟩ := Datetime.wholeSeconds_bounds t
  have hbounds : (-62135596800 * 1000000 : ℤ) ≤ Datetime.wholeSeconds t * 1000000 ∧
      Datetime.wholeSeconds t * 1000000 ≤ 253402300800 * 1000000 - 1 := by
    rcases lt_or_ge t 0 with ht | ht
    · obtain ⟨h1, h2, h3⟩ := hneg ht
      omega
    · obtain ⟨h1, h2⟩ := hpos ht
      omega
  exact hbounds

omit [Platform] in
theorem truncated_eq_inSeconds {c : DelegationClaimsArgs} :
    c.truncated = c.inSeconds ↔ ∀ time ∈ [c.issuedAt, c.notBefore, c.expiresAt],
      Datetime.epochSeconds time = Datetime.wholeSeconds time := by
  have hcancel : ∀ a b : ℤ, a * 1000000 = b * 1000000 ↔ b = a := by omega
  simp only [DelegationClaimsArgs.truncated, DelegationClaimsArgs.inSeconds,
    DelegationClaimsArgs.mk.injEq, true_and, and_true, hcancel, List.forall_mem_cons,
    List.not_mem_nil, false_implies, implies_true]

omit [Platform] in
/-- Scopes that are among those of claims are a set the verifier takes. -/
theorem isScopeSet_of_subset {claims : DelegationClaims} {scopes : List Str} (hnodup : scopes.Nodup)
    (h : scopes ⊆ claims.scopes) : isScopeSet scopes = true := by
  obtain ⟨haccepted, -⟩ := claims.accepted
  have hlength := (hnodup.subperm h).length_le
  refine decide_eq_true ⟨hlength.trans haccepted.count, ?_⟩
  exact List.all_eq_true.mpr fun s hs => haccepted.scopes s (h hs)

/-- What `mint` issues is what `verify` accepts, as far as the claims survive. -/
theorem verify_minted_iff {i : DelegationIssuer} {v : DelegationVerifier} {now : Datetime}
    {tokenId : UUID} {principal : Principal} {r : DelegationRequest} {t : DelegationTarget}
    {token : Str} {claims : DelegationClaims} {key : SigningKey} (hnow : Datetime.Valid now)
    (hfollows : Follows i r v t)
    (hclaims : mintClaims i now tokenId principal r = .ok (claims, key))
    (hmint : i.mint now tokenId principal r = .ok token) :
    (∃ claims', v.verify now token t = .ok claims' ∧
      claims'.toDelegationClaimsArgs = claims.truncated) ↔ Survives v t now claims := by
  obtain ⟨claims', key', hclaims', payload, hpayload, htoken, htrace⟩ := mint_eq_ok.mp hmint
  cases hclaims.symm.trans hclaims'
  obtain ⟨expiry, path, hmints⟩ := mintClaims_eq_ok hclaims
  have hissued : claims.issuedAt = now := congrArg (·.issuedAt) hmints.result
  have hstarted : claims.notBefore = now := congrArg (·.notBefore) hmints.result
  have hexpires : claims.expiresAt = expiry := congrArg (·.expiresAt) hmints.result
  have hscopes : claims.scopes = Str.sortedSet r.scopes := congrArg (·.scopes) hmints.result
  constructor
  · rintro ⟨claims', hverify, htruncated⟩
    obtain ⟨hverified, htrace'⟩ := verify_eq_ok.mp hverify
    obtain ⟨hverified, -, hclock⟩ := verifyClaims_eq_ok.mp hverified
    obtain ⟨payload', signature', key', hdecodes, -⟩ := hverified.signed
    obtain ⟨hsize, -, -, -, hmake⟩ := (decodes_minted hpayload htoken).mp hdecodes
    obtain ⟨⟨-, hfinish, -⟩, hresult⟩ := postInit_inSeconds.mp (DelegationClaims.make_eq_ok.mp hmake)
    have hround := truncated_eq_inSeconds.mp (htruncated.symm.trans hresult)
    rw [hissued, hstarted, hexpires] at hround
    have hround_now : Datetime.epochSeconds now = Datetime.wholeSeconds now := hround _ (by simp)
    have hround_expiry : Datetime.epochSeconds expiry = Datetime.wholeSeconds expiry :=
      hround _ (by simp)
    have hlt : Datetime.epochSeconds now * 1000000 < Datetime.epochSeconds expiry * 1000000 := by
      rw [← hexpires, ← hstarted]
      exact hfinish
    have hbegin : Datetime.epochSeconds now * 1000000 ≤ now + v.clockSkewSeconds * 1000000 := by
      have hle := hverified.issued
      rw [hresult] at hle
      rw [← hissued] at hle ⊢
      exact hle
    refine ⟨⟨payload, hpayload, hsize⟩, ?_, ?_, ?_, hclock, htrace'⟩
    · rw [hexpires]
      simp only [List.forall_mem_cons]
      exact ⟨hround_now, hround_expiry, by simp⟩
    · rw [hexpires, ← hround_now, ← hround_expiry]
      omega
    · rw [← hround_now]
      exact hbegin
  · intro h
    obtain ⟨payload', hpayload', hsize⟩ := h.size
    cases hpayload.symm.trans hpayload'
    have hround := h.unrounded
    have hlater := h.later
    rw [hexpires] at hround hlater
    have hround_now : Datetime.epochSeconds now = Datetime.wholeSeconds now := hround _ (by simp)
    have hround_expiry : Datetime.epochSeconds expiry = Datetime.wholeSeconds expiry :=
      hround _ (by simp)
    have htruncated : claims.truncated = claims.inSeconds := by
      rw [truncated_eq_inSeconds, hissued, hstarted, hexpires]
      simp [hround_now, hround_expiry]
    have hissued' : claims.truncated.issuedAt = Datetime.wholeSeconds now * 1000000 :=
      hissued ▸ rfl
    have hstarted' : claims.truncated.notBefore = Datetime.wholeSeconds now * 1000000 :=
      hstarted ▸ rfl
    have hexpires' : claims.truncated.expiresAt = Datetime.wholeSeconds expiry * 1000000 :=
      hexpires ▸ rfl
    have hlt : Datetime.wholeSeconds now * 1000000 < Datetime.wholeSeconds expiry * 1000000 := by
      omega
    have hlifetime := truncated_lifetime hmints.unexpired hmints.within.1 hmints.ttl.2.2
      hmints.ttl.2.1
    have hmost : i.maximumTtlSeconds ≤ 3600 := (delegationConfiguration_eq_ok.mp i.valid).2.1.2
    have hpost : claims.truncated.postInit = .ok claims.truncated := by
      rw [htruncated]
      refine postInit_inSeconds.mpr ⟨?_, rfl⟩
      rw [← htruncated]
      rw [hissued', hstarted', hexpires']
      have hcap : i.maximumTtlSeconds * 1000000 ≤ 3600000000 := by omega
      exact ⟨le_refl _, hlt, hlifetime.trans hcap⟩
    have hrequired : t.requiredScopes ⊆ claims.scopes := by
      rintro s hs
      rw [hscopes, Str.mem_sortedSet]
      exact hfollows.required hs
    refine ⟨⟨claims.truncated, hpost⟩, ?_, rfl⟩
    refine verify_eq_ok.mpr ⟨verifyClaims_eq_ok.mpr ⟨?_, ⟨?_, ?_⟩, h.clock⟩, h.trace⟩
    · obtain ⟨hget, hactive, -⟩ := InMemoryKeyRing.signingKey_eq_ok hmints.signing
      have hkey : claims.keyId = key.keyId := congrArg (·.keyId) hmints.result
      have hissuer : claims.issuer = i.issuer := congrArg (·.issuer) hmints.result
      have haudience : claims.audience = r.audience := congrArg (·.audience) hmints.result
      have hmethod : claims.method = r.method := congrArg (·.method) hmints.result
      have hpath : claims.path = path := congrArg (·.path) hmints.result
      have hdepth : claims.delegationDepth = r.parentDepth + 1 :=
        congrArg (·.delegationDepth) hmints.result
      have hvalid : Datetime.Valid expiry :=
        ⟨hnow.1.trans hmints.unexpired.le, hmints.within.1.trans hmints.latest.2⟩
      have htimes : Datetime.Valid claims.inSeconds.issuedAt ∧
          Datetime.Valid claims.inSeconds.notBefore ∧ Datetime.Valid claims.inSeconds.expiresAt := by
        rw [← htruncated]
        rw [hissued', hstarted', hexpires']
        exact ⟨valid_wholeSeconds hnow, valid_wholeSeconds hnow, valid_wholeSeconds hvalid⟩
      have hnone : ∀ ceiling ∈ (none : Option (List Str)), claims.scopes ⊆ ceiling := by simp
      have hend : now - v.clockSkewSeconds * 1000000 < Datetime.wholeSeconds expiry * 1000000 := by
        obtain ⟨hpos, hneg⟩ := Datetime.wholeSeconds_bounds now
        have hskew := v.skew_valid.1
        have hstart : now < (Datetime.wholeSeconds now + 1) * 1000000 := by
          rcases lt_or_ge now 0 with hnow | hnow
          · exact (hneg hnow).1.trans_lt (by omega)
          · exact (hpos hnow).2
        have hnext : (Datetime.wholeSeconds now + 1) * 1000000 ≤
            Datetime.wholeSeconds expiry * 1000000 := by omega
        refine lt_of_le_of_lt ?_ (hstart.trans_le hnext)
        exact sub_le_self now (by positivity)
      exact {
        signed := ⟨payload, _, key, (decodes_minted hpayload htoken).mpr
          ⟨hsize, rfl, rfl, htimes, DelegationClaims.make_ok (htruncated ▸ hpost)⟩,
          hfollows.keys ▸ hkey ▸ hget, by simp [hactive], by simp [hactive], rfl⟩
        issuer := hissuer.trans hfollows.issuer.symm
        audience := haudience.trans hfollows.audience.symm
        method := by rw [hfollows.method]; exact hmethod ▸ hmints.method
        path := by rw [hfollows.path]; exact hpath ▸ hmints.target
        issued := hissued'.trans_le h.started
        started := hstarted'.trans_le h.started
        unexpired := hend.trans_eq hexpires'.symm
        lifetime := by
          rw [hfollows.maximumTtl, hissued', hexpires']
          exact hlifetime
        depth := by
          rw [hfollows.maximumDepth]
          exact hdepth.trans_le (Int.add_one_le_of_lt hmints.depth.2)
        required := hrequired
        ceiling := hfollows.ceiling ▸ hnone
        allowed := hfollows.allowed ▸ hnone }
    · exact isScopeSet_of_subset t.nodup hrequired
    · rw [hfollows.ceiling]
      simp

end Delegation

/-! ## One hop -/

namespace Hop

open Checksum

/-- A caller, and what it asks of an issuer and of a verifier with the same keys. -/
def caller : Principal :=
  ⟨{ tenantId := 7, subjectId := "alice", scopes := ["read"], issuedAt := 0 }, by decide, by decide⟩

def issuer : DelegationIssuer :=
  { issuer := "edge", keys := TwoKeys.ring, valid := by decide }

def verifier : DelegationVerifier :=
  { issuer := "edge", keys := TwoKeys.ring, valid := by decide, skew_valid := by decide
    allowed_valid := by decide }

def request : DelegationRequest :=
  { audience := "billing", method := "GET", path := "/a", scopes := ["read"], ttl := 60000000 }

def target : DelegationTarget :=
  { audience := "billing", method := "GET", path := "/a", requiredScopes := ["read"] }

theorem follows : Follows issuer request verifier target :=
  ⟨rfl, rfl, rfl, rfl, rfl, rfl, rfl, rfl, by simp [target, request], rfl⟩

def claims : DelegationClaims :=
  ⟨{ version := 1, issuer := "edge", tenantId := 7, subjectId := "alice", actorId := none,
     clientId := none, audience := "billing", method := "GET", path := "/a", scopes := ["read"],
     issuedAt := 1000000, notBefore := 1000000, expiresAt := 61000000, tokenId := 9, keyId := "k1" },
    by decide⟩

def token : Str := ((issuer.mint 1000000 9 caller request).toOption).getD []

theorem mintClaims_eq : mintClaims issuer 1000000 9 caller request = .ok (claims, TwoKeys.first) := by
  decide +kernel

theorem mint_eq : issuer.mint 1000000 9 caller request = .ok token := by
  decide +kernel

/-- The times of these claims are whole seconds, and small. -/
theorem unrounded : ∀ time ∈ [1000000, claims.expiresAt],
    Datetime.epochSeconds time = Datetime.wholeSeconds time := by
  intro time htime
  have hsmall : |time| < 2 ^ 34 * 1000000 := by
    simp only [List.mem_cons, List.not_mem_nil, or_false] at htime
    rcases htime with rfl | rfl
    · norm_num
    · exact (by decide : |(61000000 : ℤ)| < 2 ^ 34 * 1000000)
  exact Datetime.epochSeconds_eq hsmall

theorem survives : Survives verifier target 1000000 claims := by
  have hsize : ((claimsBytes claims).toOption.map List.length).any (· ≤ 6098) = true := by
    decide +kernel
  refine ⟨?_, unrounded, by decide, by decide, ⟨by decide, by decide⟩, by simp [target]⟩
  cases hpayload : claimsBytes claims with
  | error e =>
      rw [hpayload] at hsize
      cases hsize
  | ok payload =>
      rw [hpayload] at hsize
      exact ⟨payload, rfl, of_decide_eq_true hsize⟩

end Hop

/-! ## The verifier -/

/-- Whatever `verify` returns has passed every check. -/
theorem verify_sound [Platform] {v : DelegationVerifier} {now : Datetime} {token : Str}
    {t : DelegationTarget} {claims : DelegationClaims} (h : v.verify now token t = .ok claims) :
    Verified v now token t claims :=
  (verifyClaims_eq_ok.mp (verify_eq_ok.mp h).1).1

open Checksum in
theorem verify_sound_hop : ∃ claims, Verified Hop.verifier 1000000 Hop.token Hop.target claims := by
  obtain ⟨claims, hverify, -⟩ := (verify_minted_iff (by decide) Hop.follows Hop.mintClaims_eq
    Hop.mint_eq).mpr Hop.survives
  exact ⟨claims, verify_sound hverify⟩

end FastapiEffects
