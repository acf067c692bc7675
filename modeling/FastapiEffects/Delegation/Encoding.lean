import FastapiEffects.Delegation.Models
import FastapiEffects.Python.Base64

/-! # Delegation tokens

A token is a prefix, the canonical JSON of its claims and the signature of these bytes,
joined by dots.
-/

namespace FastapiEffects

open Python

/-- `_PREFIX`. -/
def tokenPrefix : Str := "fastapi_effects1"

def maxTokenPayload : ℤ := 6144

def maxTokenLength : ℕ := 8192

/-- The error every refused credential ends in. -/
def credentialRejected : PyError := .authorizationDenied "Delegation credential was rejected."

/-- `_encode`. -/
def encodePart (value : Bytes) : Str := Base64.stripPad (Base64.urlsafeEncode value)

/-- `_decode`. -/
def decodePart (value : Str) (maximum : ℤ) : Except PyError Bytes := do
  check (value ≠ [] ∧ value.all Base64.isUrlsafe) .value
  let decoded ← orRaise (Base64.urlsafeDecode? (Base64.restorePad value)) .value
  check (decoded.length ≤ maximum) .value
  return decoded

/-- The text `encode_token` returns. -/
def tokenText (payload signature : Bytes) : Str :=
  tokenPrefix ++ "." ++ encodePart payload ++ "." ++ encodePart signature

/-- `encode_token`. -/
def encodeToken (payload signature : Bytes) : Except PyError Str := do
  check (payload ≠ [] ∧ payload.length ≤ maxTokenPayload)
    (.configuration "Delegation payload bytes are invalid.")
  check (signature.length = 32) (.configuration "Delegation signature bytes are invalid.")
  return tokenText payload signature

/-- `except (FastAPIEffectsConfigurationError, TypeError, ValueError)`. -/
def orRejected {α : Type} : Except PyError α → Except PyError α
  | .error (.configuration _) | .error .type | .error .value => .error credentialRejected
  | result => result

theorem orRejected_eq_ok {α : Type} {x : Except PyError α} {a : α} :
    orRejected x = .ok a ↔ x = .ok a := by
  unfold orRejected
  split <;> simp

variable [Platform]

/-- `claims_bytes`. -/
def claimsBytes (claims : DelegationClaims) : Except PyError Bytes :=
  canonicalJsonBytes claims.toDict maxTokenPayload

/-- What `decode_token` reads from the two parts of a token. -/
def decodeParts (payloadPart signaturePart : Str) :
    Except PyError (DelegationClaims × Bytes × Bytes) := do
  let payload ← decodePart payloadPart maxTokenPayload
  let signature ← decodePart signaturePart 32
  check (signature.length = 32) .value
  let parsed ← strictJsonLoads payload maxTokenPayload
  check (DelegationClaims.names? parsed).isSome .value
  let claims ← DelegationClaims.fromDict parsed
  return (claims, payload, signature)

/-- `decode_token`. -/
def decodeToken (token : Str) : Except PyError (DelegationClaims × Bytes × Bytes) := do
  check (token ≠ [] ∧ token.length ≤ maxTokenLength) credentialRejected
  match token.splitOn (.scalar '.') with
  | [version, payloadPart, signaturePart] => do
      check (version = tokenPrefix) credentialRejected
      orRejected (decodeParts payloadPart signaturePart)
  | _ => .error credentialRejected

/-! ## What is decoded -/

/-- A decoded token: its claims are what its payload bytes say, and both parts are the
decoding of its text. -/
structure Decodes (token : Str) (claims : DelegationClaims) (payload signature : Bytes) :
    Prop where
  length : token.length ≤ maxTokenLength
  parts : ∃ payloadPart signaturePart,
    token.splitOn (.scalar '.') = [tokenPrefix, payloadPart, signaturePart] ∧
    decodePart payloadPart maxTokenPayload = .ok payload ∧
    decodePart signaturePart 32 = .ok signature
  signature : signature.length = 32
  claims : ∃ parsed, strictJsonLoads payload maxTokenPayload = .ok parsed ∧
    DelegationClaims.fromDict parsed = .ok claims

theorem decodeParts_eq_ok {payloadPart signaturePart : Str} {claims : DelegationClaims}
    {payload signature : Bytes} :
    decodeParts payloadPart signaturePart = .ok (claims, payload, signature) ↔
      decodePart payloadPart maxTokenPayload = .ok payload ∧
      decodePart signaturePart 32 = .ok signature ∧ signature.length = 32 ∧
      ∃ parsed, strictJsonLoads payload maxTokenPayload = .ok parsed ∧
        DelegationClaims.fromDict parsed = .ok claims := by
  simp only [decodeParts, bind_eq_ok, check_eq_ok, decide_eq_true_eq]
  constructor
  · rintro ⟨p, hp, s, hs, -, hlen, parsed, hparsed, -, -, c, hc, hresult⟩
    cases hresult
    exact ⟨hp, hs, hlen, parsed, hparsed, hc⟩
  · rintro ⟨hp, hs, hlen, parsed, hparsed, hc⟩
    refine ⟨payload, hp, signature, hs, (), hlen, parsed, hparsed, (), ?_, claims, hc, rfl⟩
    simp only [DelegationClaims.fromDict, bind_eq_ok, orRaise_eq_ok] at hc
    obtain ⟨names, hnames, -⟩ := hc
    rw [hnames]
    rfl

theorem decodeToken_eq_ok {token : Str} {claims : DelegationClaims} {payload signature : Bytes} :
    decodeToken token = .ok (claims, payload, signature) ↔
      Decodes token claims payload signature := by
  simp only [decodeToken, bind_eq_ok, check_eq_ok, decide_eq_true_eq]
  constructor
  · rintro ⟨-, ⟨-, hlength⟩, h⟩
    split at h
    · rename_i version payloadPart signaturePart hparts
      simp only [bind_eq_ok, check_eq_ok, decide_eq_true_eq, orRejected_eq_ok,
        decodeParts_eq_ok] at h
      obtain ⟨-, rfl, hp, hs, hlen, hclaims⟩ := h
      exact ⟨hlength, ⟨payloadPart, signaturePart, hparts, hp, hs⟩, hlen, hclaims⟩
    · cases h
  · rintro ⟨hlength, ⟨payloadPart, signaturePart, hparts, hp, hs⟩, hlen, hclaims⟩
    refine ⟨(), ⟨?_, hlength⟩, ?_⟩
    · rintro rfl
      cases hparts
    · rw [hparts]
      simp only [bind_eq_ok, check_eq_ok, decide_eq_true_eq, orRejected_eq_ok, decodeParts_eq_ok]
      exact ⟨(), trivial, hp, hs, hlen, hclaims⟩

/-! ## What is encoded -/

omit [Platform] in
theorem decodePart_encodePart {value : Bytes} (hne : value ≠ []) {maximum : ℤ} {decoded : Bytes} :
    decodePart (encodePart value) maximum = .ok decoded ↔
      value.length ≤ maximum ∧ decoded = value := by
  obtain ⟨hsafe, hlength, hdecode⟩ := Base64.stripPad_urlsafeEncode value
  have hpos : 0 < value.length := List.length_pos_of_ne_nil hne
  have hpart : encodePart value ≠ [] := by
    rintro hnil
    rw [encodePart] at hnil
    rw [hnil, List.length_nil] at hlength
    omega
  rw [encodePart] at hpart ⊢
  simp only [decodePart, bind_eq_ok, check_eq_ok, orRaise_eq_ok, decide_eq_true_eq,
    List.all_eq_true, hdecode]
  constructor
  · rintro ⟨-, -, d, hd, -, hle, heq⟩
    cases hd
    cases heq
    exact ⟨hle, rfl⟩
  · rintro ⟨hle, rfl⟩
    exact ⟨(), ⟨hpart, hsafe⟩, _, rfl, (), hle, rfl⟩

omit [Platform] in
theorem dot_not_mem_encodePart (value : Bytes) : .scalar '.' ∉ encodePart value := by
  intro hmem
  have hsafe := (Base64.stripPad_urlsafeEncode value).1 _ hmem
  revert hsafe
  decide

omit [Platform] in
/-- No part of a token has a dot. -/
theorem splitOn_token (payload signature : Bytes) :
    (tokenText payload signature).splitOn (.scalar '.') =
      [tokenPrefix, encodePart payload, encodePart signature] := by
  have hjoin : tokenText payload signature =
      [.scalar '.'].intercalate [tokenPrefix, encodePart payload, encodePart signature] := by
    simp [tokenText, List.intercalate_cons_cons, Str.ofString]
  have hprefix : .scalar '.' ∉ tokenPrefix := by decide
  rw [hjoin]
  refine List.splitOn_intercalate _ ?_ (by simp)
  rintro part hpart
  simp only [List.mem_cons, List.not_mem_nil, or_false] at hpart
  rcases hpart with rfl | rfl | rfl
  · exact hprefix
  · exact dot_not_mem_encodePart payload
  · exact dot_not_mem_encodePart signature

omit [Platform] in
theorem encodeToken_eq_ok {payload signature : Bytes} {token : Str} :
    encodeToken payload signature = .ok token ↔
      (payload ≠ [] ∧ payload.length ≤ maxTokenPayload) ∧ signature.length = 32 ∧
      token = tokenText payload signature := by
  simp only [encodeToken, bind_eq_ok, check_eq_ok, decide_eq_true_eq]
  constructor
  · rintro ⟨-, hpayload, -, hsignature, heq⟩
    cases heq
    exact ⟨hpayload, hsignature, rfl⟩
  · rintro ⟨hpayload, hsignature, rfl⟩
    exact ⟨(), hpayload, (), hsignature, rfl⟩

/-- Exactly what a token that was made decodes to: its own payload, when its text is not
too long for the decoder. -/
theorem decodes_encodeToken {payload signature : Bytes} {token : Str}
    (h : encodeToken payload signature = .ok token) {claims : DelegationClaims}
    {payload' signature' : Bytes} :
    Decodes token claims payload' signature' ↔
      payload.length ≤ 6098 ∧ payload' = payload ∧ signature' = signature ∧
      ∃ parsed, strictJsonLoads payload maxTokenPayload = .ok parsed ∧
        DelegationClaims.fromDict parsed = .ok claims := by
  obtain ⟨⟨hpayload, hmost⟩, hsignature, rfl⟩ := encodeToken_eq_ok.mp h
  have hsigned : signature ≠ [] := by
    rintro rfl
    cases hsignature
  have hlength : (tokenText payload signature).length = 61 + (4 * payload.length + 2) / 3 := by
    have hp := (Base64.stripPad_urlsafeEncode payload).2.1
    have hs := (Base64.stripPad_urlsafeEncode signature).2.1
    have hprefix : tokenPrefix.length = 16 := rfl
    rw [hsignature] at hs
    simp only [tokenText, List.length_append, encodePart, hp, hs, hprefix]
    change 16 + 1 + (4 * payload.length + 2) / 3 + 1 + 43 = _
    omega
  constructor
  · rintro ⟨hle, ⟨p, s, hsplit, hp, hs⟩, -, hclaims⟩
    rw [splitOn_token] at hsplit
    cases hsplit
    obtain ⟨-, rfl⟩ := (decodePart_encodePart hpayload).mp hp
    obtain ⟨-, rfl⟩ := (decodePart_encodePart hsigned).mp hs
    rw [hlength, maxTokenLength] at hle
    exact ⟨by omega, rfl, rfl, hclaims⟩
  · rintro ⟨hle, rfl, rfl, hclaims⟩
    refine ⟨?_, ⟨encodePart payload', encodePart signature', splitOn_token payload' signature', ?_,
      ?_⟩, hsignature, hclaims⟩
    · rw [hlength, maxTokenLength]
      omega
    · exact (decodePart_encodePart hpayload).mpr ⟨hmost, rfl⟩
    · exact (decodePart_encodePart hsigned).mpr ⟨by omega, rfl⟩

end FastapiEffects
