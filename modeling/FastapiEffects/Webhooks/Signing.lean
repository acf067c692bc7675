import FastapiEffects.Python.Base64
import FastapiEffects.Python.Time
import FastapiEffects.Sqlalchemy.Canonical

/-! # Webhook signatures

`sign_webhook` and `verify_webhook`. Both are functions of the message that is signed
(`signedContent`), and of nothing else of the request.
-/

namespace FastapiEffects

open Python

/-! ## Signing -/

/-- `_MESSAGE_ID`. -/
def isMessageId (s : Str) : Bool :=
  s.fullmatch (PyChar.isIn [('A', 'Z'), ('a', 'z'), ('0', '9')] ['.', '_', ':', '-'])
    (PyChar.isIn [('A', 'Z'), ('a', 'z'), ('0', '9')] ['.', '_', ':', '-']) 127

/-- `_TIMESTAMP`. -/
def isTimestamp (s : Str) : Bool :=
  s.fullmatch (PyChar.between '0' '9') (PyChar.between '0' '9') 15

def signatureLimit : ℕ := 8

def signatureHeaderLimit : ℕ := 4096

/-- `SignedWebhookHeaders`. -/
structure SignedWebhookHeaders where
  values : List (Str × Str)
  signatureCount : ℕ
deriving DecidableEq

/-- `str(int(timestamp.timestamp()))`. -/
def timestampText (timestamp : Datetime) : Str := Str.ofChars (intText timestamp.epochSeconds)

/-- `message_id.encode() + b"." + timestamp.encode() + b"." + body`. -/
def signedContent (messageId timestamp : Str) (body : Bytes) : Except PyError Bytes := do
  let id ← orRaise messageId.encode? .value
  let time ← orRaise timestamp.encode? .value
  return id ++ 46 :: time ++ 46 :: body

section Webhook

variable [Platform]

/-- `hmac.new(secret, content, hashlib.sha256).digest()`. -/
def hmacSha256 (secret content : Bytes) : Bytes := (hmacDigest Platform.sha256 secret content).toList

/-- One signature of the header. -/
def signature (secret content : Bytes) : Str := "v1," ++ Base64.encode (hmacSha256 secret content)

/-- The loop over the secrets. -/
def signatures (content : Bytes) (secrets : List Bytes) : Except PyError (List Str) :=
  secrets.mapM fun secret => do
    check (16 ≤ secret.length) (.configuration "Webhook signing key is invalid.")
    return signature secret content

omit [Platform] in
/-- The headers with the identity and the timestamp of another message. -/
def SignedWebhookHeaders.presentedAs (h : SignedWebhookHeaders) (messageId timestamp : Str) :
    List (Str × Str) :=
  h.values.map fun v => (v.1,
    if v.1 = Str.ofString "webhook-id" then messageId else if v.1 = Str.ofString "webhook-timestamp" then timestamp else v.2)

/-- `sign_webhook`. -/
def signWebhook (messageId : Str) (timestamp : Datetime) (body : Bytes) (secrets : List Bytes) :
    Except PyError SignedWebhookHeaders := do
  check (isMessageId messageId) (.configuration "Webhook message ID is invalid.")
  let content ← signedContent messageId (timestampText timestamp) body
  let signed ← signatures content secrets
  check (signed ≠ []) (.configuration "Webhook signing requires an eligible key.")
  return {
    values := [
      ("content-type", "application/json"),
      ("webhook-id", messageId),
      ("webhook-signature", [.scalar ' '].intercalate signed),
      ("webhook-timestamp", timestampText timestamp)]
    signatureCount := signed.length }

/-! ## Verification -/

/-- The headers that may stand only once. -/
def webhookHeaderNames : List Str := ["webhook-id", "webhook-signature", "webhook-timestamp"]

/-- The loop over the headers, the latest first; `none` when one of the three repeats. -/
def normalizeHeaders (normalized : List (Str × Str)) : List (Str × Str) → Option (List (Str × Str))
  | [] => some normalized
  | (key, value) :: rest =>
      let lowered := Platform.lower key
      if normalized.any (fun h => h.1 = lowered) ∧ lowered ∈ webhookHeaderNames then none
      else normalizeHeaders ((lowered, value) :: normalized) rest

omit [Platform] in
/-- `normalized.get(name)`. -/
def headerValue? (normalized : List (Str × Str)) (name : Str) : Option Str :=
  (normalized.find? fun h => h.1 = name).map (·.2)

omit [Platform] in
/-- Whether one candidate is the expected digest. -/
def candidateMatches (expected : Bytes) (candidate : Str) : Bool :=
  match candidate.partition (.scalar ',') with
  | (version, some encoded) =>
      version = "v1" && (Base64.decode? encoded).any fun decoded =>
        decoded.length = 32 && decoded = expected
  | (_, none) => false

omit [Platform] in
/-- The check of one tolerance. -/
def checkTolerance (name : String) (tolerance : Timedelta) : Except PyError Unit :=
  check (0 ≤ tolerance ∧ tolerance ≤ 86400000000)
    (.configuration s!"Webhook {name} is invalid.")

omit [Platform] in
/-- `int(tolerance.total_seconds())`. -/
def toleranceSeconds (tolerance : Timedelta) : ℤ := Datetime.epochSeconds tolerance

/-- `verify_webhook`. -/
def verifyWebhook (secret body : Bytes) (headers : List (Str × Str)) (current : Datetime)
    (maximumAge maximumFutureSkew : Timedelta) : Except PyError Bool := do
  check (16 ≤ secret.length) (.configuration "Webhook verification key is invalid.")
  checkTolerance "maximum_age" maximumAge
  checkTolerance "maximum_future_skew" maximumFutureSkew
  match normalizeHeaders [] headers with
  | none => return false
  | some normalized =>
      match headerValue? normalized "webhook-id", headerValue? normalized "webhook-timestamp",
        headerValue? normalized "webhook-signature" with
      | some messageId, some timestamp, some supplied =>
          if ¬ isMessageId messageId ∨ ¬ isTimestamp timestamp ∨ supplied = [] ∨
              signatureHeaderLimit < supplied.length then return false
          let ageSeconds := current.epochSeconds - timestamp.digitsValue
          if toleranceSeconds maximumAge < ageSeconds then return false
          if toleranceSeconds maximumFutureSkew < -ageSeconds then return false
          let content ← signedContent messageId timestamp body
          let candidates := supplied.splitSpace
          if candidates = [] ∨ signatureLimit < candidates.length then return false
          return candidates.any (candidateMatches (hmacSha256 secret content))
      | _, _, _ => return false

/-! ## What the signer sends -/

section Headers

omit [Platform] in
/-- Every signature is made with a key of at least 16 bytes. -/
theorem checkedKeys {α : Type} {f : Bytes → α} {e : PyError} {secrets : List Bytes} {xs : List α} :
    (secrets.mapM fun secret => do
      check (16 ≤ secret.length) e
      return f secret) = .ok xs ↔ (∀ secret ∈ secrets, 16 ≤ secret.length) ∧ xs = secrets.map f := by
  induction secrets generalizing xs with
  | nil => simp [pure, Except.pure, eq_comm]
  | cons secret secrets ih =>
      simp only [List.mapM_cons, bind_eq_ok, check_eq_ok, decide_eq_true_eq, ih, List.mem_cons,
        forall_eq_or_imp, List.map_cons]
      constructor
      · rintro ⟨x, ⟨-, hlen, hx⟩, xs', ⟨hlens, rfl⟩, hxs⟩
        cases hx
        cases hxs
        exact ⟨⟨hlen, hlens⟩, rfl⟩
      · rintro ⟨⟨hlen, hlens⟩, rfl⟩
        exact ⟨f secret, ⟨(), hlen, rfl⟩, secrets.map f, ⟨hlens, rfl⟩, rfl⟩

omit [Platform] in
/-- The headers of a request with given identity, timestamp and signatures. -/
def webhookHeaders (messageId timestamp supplied : Str) : List (Str × Str) :=
  [("content-type", "application/json"), ("webhook-id", messageId),
    ("webhook-signature", supplied), ("webhook-timestamp", timestamp)]

/-- What `sign_webhook` accepts and returns. -/
theorem signWebhook_eq_ok {messageId : Str} {timestamp : Datetime} {body : Bytes}
    {secrets : List Bytes} {h : SignedWebhookHeaders} :
    signWebhook messageId timestamp body secrets = .ok h ↔
      isMessageId messageId = true ∧ (∀ secret ∈ secrets, 16 ≤ secret.length) ∧ secrets ≠ [] ∧
      ∃ content, signedContent messageId (timestampText timestamp) body = .ok content ∧
        h = ⟨webhookHeaders messageId (timestampText timestamp)
          ([.scalar ' '].intercalate (secrets.map fun secret => signature secret content)),
          secrets.length⟩ := by
  simp only [signWebhook, signatures, bind_eq_ok, check_eq_ok, checkedKeys]
  constructor
  · rintro ⟨-, hid, content, hcontent, signed, ⟨hkeys, rfl⟩, -, hne, hh⟩
    cases hh
    refine ⟨hid, hkeys, ?_, content, hcontent, by simp [webhookHeaders]⟩
    rintro rfl
    simp at hne
  · rintro ⟨hid, hkeys, hne, content, hcontent, rfl⟩
    exact ⟨(), hid, content, hcontent, _, ⟨hkeys, rfl⟩, (), by simpa using hne,
      by simp [webhookHeaders, pure, Except.pure]⟩

/-- The verifier finds the three headers. -/
theorem normalizeHeaders_webhookHeaders (messageId timestamp supplied : Str) :
    ∃ normalized, normalizeHeaders [] (webhookHeaders messageId timestamp supplied) = some normalized ∧
      headerValue? normalized "webhook-id" = some messageId ∧
      headerValue? normalized "webhook-timestamp" = some timestamp ∧
      headerValue? normalized "webhook-signature" = some supplied := by
  have hlower : ∀ name : Str, name.isAscii = true → name.map PyChar.asciiLower = name →
      Platform.lower name = name := fun name hascii hname => by
    rw [Platform.lower_ascii name hascii, hname]
  have h1 := hlower "content-type" (by decide) (by decide)
  have h2 := hlower "webhook-id" (by decide) (by decide)
  have h3 := hlower "webhook-signature" (by decide) (by decide)
  have h4 := hlower "webhook-timestamp" (by decide) (by decide)
  refine ⟨[("webhook-timestamp", timestamp), ("webhook-signature", supplied),
    ("webhook-id", messageId), ("content-type", "application/json")], ?_, ?_, ?_, ?_⟩
  · simp only [webhookHeaders, normalizeHeaders, h1, h2, h3, h4]
    rfl
  · rfl
  · rfl
  · rfl

end Headers

/-! ## What the verifier accepts -/

section Accepts

variable {secret body : Bytes} {messageId timestamp supplied : Str} {current : Datetime}
  {age skew : Timedelta}

/-- What of a request and the clock a verifier looks at before the signatures. -/
structure Timely (timestamp : Str) (current : Datetime) (age skew : Timedelta) : Prop where
  age : current.epochSeconds - timestamp.digitsValue ≤ toleranceSeconds age
  skew : timestamp.digitsValue - current.epochSeconds ≤ toleranceSeconds skew

/-- The tolerances a verifier takes. -/
structure Tolerances (age skew : Timedelta) : Prop where
  age : 0 ≤ age ∧ age ≤ 86400000000
  skew : 0 ≤ skew ∧ skew ≤ 86400000000

/-- What `verify_webhook` accepts. -/
theorem verifyWebhook_eq_true :
    verifyWebhook secret body (webhookHeaders messageId timestamp supplied) current age skew =
        .ok true ↔
      16 ≤ secret.length ∧ Tolerances age skew ∧ isMessageId messageId = true ∧
      isTimestamp timestamp = true ∧ supplied.length ≤ signatureHeaderLimit ∧
      Timely timestamp current age skew ∧ supplied.splitSpace.length ≤ signatureLimit ∧
      ∃ content, signedContent messageId timestamp body = .ok content ∧
        ∃ candidate ∈ supplied.splitSpace,
          candidateMatches (hmacSha256 secret content) candidate = true := by
  obtain ⟨normalized, hnormalized, hid, htimestamp, hsupplied⟩ :=
    normalizeHeaders_webhookHeaders messageId timestamp supplied
  simp only [verifyWebhook, checkTolerance, bind_eq_ok, check_eq_ok, hnormalized, hid, htimestamp,
    hsupplied, decide_eq_true_eq]
  constructor
  · rintro ⟨-, hkey, -, hage, -, hskew, h⟩
    split_ifs at h with h1 h2 h3 h4
    · simp [pure, Except.pure] at h
    · simp [pure, Except.pure] at h
    · simp [pure, Except.pure] at h
    · obtain ⟨content, -, h⟩ := bind_eq_ok.mp h
      simp [pure, Except.pure] at h
    · obtain ⟨content, hcontent, h⟩ := bind_eq_ok.mp h
      have hany := List.any_eq_true.mp (Except.ok.inj h)
      push Not at h1 h4
      exact ⟨hkey, ⟨hage, hskew⟩, by simpa using h1.1, by simpa using h1.2.1, h1.2.2.2,
        ⟨by omega, by omega⟩, h4.2, content, hcontent, hany⟩
  · rintro ⟨hkey, htol, hid, hts, hlen, htimely, hcount, content, hcontent, candidate, hmem, hmatch⟩
    refine ⟨(), hkey, (), htol.age, (), htol.skew, ?_⟩
    have hne : supplied ≠ [] := by
      rintro rfl
      simp [Str.splitSpace] at hmem
    have hage := htimely.age
    have hskew := htimely.skew
    rw [if_neg (by simp [hid, hts, hne, hlen]), if_neg (by omega), if_neg (by omega)]
    refine bind_eq_ok.mpr ⟨content, hcontent, ?_⟩
    rw [if_neg (by simp [List.ne_nil_of_mem hmem, hcount])]
    exact congrArg _ (List.any_eq_true.mpr ⟨candidate, hmem, hmatch⟩)

omit [Platform] in
/-- A tolerance in whole seconds. -/
theorem toleranceSeconds_eq {tolerance : ℤ} (h : 0 ≤ tolerance ∧ tolerance ≤ 86400000000) :
    toleranceSeconds tolerance = tolerance / 1000000 := by
  rw [toleranceSeconds, Datetime.epochSeconds_eq (by rw [abs_of_nonneg h.1]; omega),
    Datetime.wholeSeconds, Int.tdiv_eq_ediv_of_nonneg h.1]

end Accepts

/-! ## Signatures and timestamps as they are read back -/

section Text

omit [Platform]

/-- The text of a whole number that is not negative. -/
theorem intText_of_nonneg {n : ℤ} (h : 0 ≤ n) : intText n = Nat.toDigits 10 n.toNat := by
  obtain ⟨m, rfl⟩ := Int.eq_ofNat_of_zero_le h
  rfl

/-- The timestamps of a signer are ones a verifier reads. -/
theorem isTimestamp_timestampText {t : ℤ} (h0 : 0 ≤ t) (hmax : t ≤ Datetime.max) :
    isTimestamp (timestampText t) = true ∧
      (timestampText t).digitsValue = Datetime.epochSeconds t := by
  obtain ⟨hpos, hle⟩ := Datetime.epochSeconds_nonneg h0 hmax
  have htext : timestampText t = (Nat.toDigits 10 (Datetime.epochSeconds t).toNat).map .scalar := by
    rw [timestampText, intText_of_nonneg hpos, Str.ofChars]
  constructor
  · rw [isTimestamp, Str.fullmatch_self, htext]
    refine ⟨by simp [Nat.toDigits_ne_nil], ?_, ?_⟩
    · rw [List.length_map, Nat.length_toDigits_le_iff (by norm_num) (by norm_num)]
      omega
    · intro c hc
      obtain ⟨d, hd, rfl⟩ := List.mem_map.mp hc
      have hdigit := Nat.isDigit_of_mem_toDigits (by norm_num) (by norm_num) hd
      rw [Char.isDigit_iff_toNat] at hdigit
      exact decide_eq_true hdigit
  · have hfilter : ((Nat.toDigits 10 (Datetime.epochSeconds t).toNat).map PyChar.scalar).filterMap
        PyChar.scalar? = Nat.toDigits 10 (Datetime.epochSeconds t).toNat := by
      rw [List.filterMap_map]
      exact List.filterMap_some
    rw [Str.digitsValue, htext, hfilter, Nat.ofDigitChars_ten_toDigits, Int.toNat_of_nonneg hpos]

/-- Identities and timestamps are ASCII. -/
theorem isAscii_of_isMessageId {s : Str} (h : isMessageId s = true) : s.isAscii = true := by
  obtain ⟨-, -, hall⟩ := Str.fullmatch_self.mp h
  exact Str.isAscii_iff.mpr fun c hc =>
    PyChar.ord_lt_of_isIn (by decide) (by decide) (hall c hc)

theorem isAscii_of_isTimestamp {s : Str} (h : isTimestamp s = true) : s.isAscii = true := by
  obtain ⟨-, -, hall⟩ := Str.fullmatch_self.mp h
  refine Str.isAscii_iff.mpr fun c hc => ?_
  have hdigit : 48 ≤ c.ord ∧ c.ord ≤ 57 := of_decide_eq_true (hall c hc)
  omega

/-- The signed message of an identity and a timestamp the grammars accept. -/
theorem signedContent_eq {messageId timestamp : Str} {body : Bytes}
    (hid : isMessageId messageId = true) (htimestamp : isTimestamp timestamp = true) :
    signedContent messageId timestamp body =
      .ok (messageId.map (fun c => UInt8.ofNat c.ord) ++
        46 :: timestamp.map (fun c => UInt8.ofNat c.ord) ++ 46 :: body) := by
  rw [signedContent, Str.encode?_ascii (isAscii_of_isMessageId hid),
    Str.encode?_ascii (isAscii_of_isTimestamp htimestamp)]
  rfl

end Text

section Signature

variable {secret content : Bytes}

/-- A signature is one word of the header. -/
theorem signature_word : signature secret content ≠ [] ∧
    (∀ c ∈ signature secret content, c.isSpace = false) ∧
    (signature secret content).length = 47 := by
  obtain ⟨hprint, hlen⟩ := Base64.encode_text (hmacSha256 secret content)
  have hdigest : (hmacSha256 secret content).length = 32 := by simp [hmacSha256]
  refine ⟨by simp [signature, Str.ofString], ?_, ?_⟩
  · intro c hc
    rcases List.mem_append.mp hc with hc | hc
    · have hversion : ∀ c ∈ Str.ofString "v1,", c.isSpace = false := by decide
      exact hversion c hc
    · exact PyChar.isSpace_of_between (hprint c hc)
  · rw [signature, List.length_append, hlen, hdigest]
    rfl

/-- A signature is accepted where its digest is the expected one. -/
theorem candidateMatches_signature {expected : Bytes} :
    candidateMatches expected (signature secret content) = true ↔
      hmacSha256 secret content = expected := by
  have hparts : (signature secret content).partition (.scalar ',') =
      (Str.ofString "v1", some (Base64.encode (hmacSha256 secret content))) :=
    have hversion : PyChar.scalar ',' ∉ Str.ofString "v1" := by decide
    Str.partition_append hversion
  have hdigest : (hmacSha256 secret content).length = 32 := by simp [hmacSha256]
  simp [candidateMatches, hparts, Base64.decode?_encode, hdigest]

/-- The header of `n` signatures. -/
theorem length_intercalate_signatures {secrets : List Bytes} :
    ([.scalar ' '].intercalate (secrets.map fun secret => signature secret content)).length =
      48 * secrets.length - 1 := by
  induction secrets with
  | nil => rfl
  | cons secret rest ih =>
      have hlen : (signature secret content).length = 47 := signature_word.2.2
      cases rest with
      | nil => simp [hlen]
      | cons secret' rest =>
          rw [List.map_cons] at ih
          rw [List.map_cons, List.map_cons, List.intercalate_cons_cons, List.length_append,
            List.length_append, ih, hlen, List.length_singleton,
            List.length_cons, List.length_cons, List.length_cons]
          omega

/-- The verifier reads the signatures back. -/
theorem splitSpace_signatures {secrets : List Bytes} :
    Str.splitSpace ([.scalar ' '].intercalate (secrets.map fun secret => signature secret content)) =
      secrets.map fun secret => signature secret content := by
  refine Str.splitSpace_intercalate fun w hw => ?_
  obtain ⟨secret, -, rfl⟩ := List.mem_map.mp hw
  exact ⟨signature_word.1, signature_word.2.1⟩

end Signature

/-- What a holder of `secret` makes of the headers of a signer: they are accepted unless
there are more signatures than a verifier reads. -/
theorem verifyWebhook_signWebhook {messageId : Str} {t : ℤ} {body : Bytes} {secrets : List Bytes}
    {h : SignedWebhookHeaders} {secret : Bytes} {current : Datetime} {age skew : Timedelta}
    (h0 : 0 ≤ t) (hmax : t ≤ Datetime.max)
    (hsign : signWebhook messageId t body secrets = .ok h) (hmem : secret ∈ secrets)
    (htol : Tolerances age skew) (htimely : Timely (timestampText t) current age skew) :
    verifyWebhook secret body h.values current age skew = .ok true ↔
      secrets.length ≤ signatureLimit := by
  obtain ⟨hid, hkeys, hne, content, hcontent, rfl⟩ := signWebhook_eq_ok.mp hsign
  rw [verifyWebhook_eq_true, splitSpace_signatures, length_intercalate_signatures, List.length_map]
  constructor
  · rintro ⟨-, -, -, -, -, -, hcount, -⟩
    exact hcount
  · intro hcount
    have hheader : 48 * secrets.length - 1 ≤ signatureHeaderLimit := by
      unfold signatureLimit at hcount
      unfold signatureHeaderLimit
      omega
    exact ⟨hkeys secret hmem, htol, hid, (isTimestamp_timestampText h0 hmax).1, hheader, htimely,
      hcount, content, hcontent, _, List.mem_map_of_mem hmem, candidateMatches_signature.mpr rfl⟩

/-! ## Messages that are signed alike

The parts of a signed message are joined by dots, and an identity may hold dots too.
-/

section Unconfusable

/-- The dot between the parts of a signed message. -/
def dot : PyChar := .scalar '.'

omit [Platform] in
theorem dot_not_mem {timestamp : Str} (h : isTimestamp timestamp = true) : dot ∉ timestamp := by
  intro hmem
  have hdigit := (Str.fullmatch_self.mp h).2.2 dot hmem
  exact absurd hdigit (by decide)

omit [Platform] in
/-- A signed message, read as text. -/
theorem signedContent_text {messageId timestamp : Str} {body content : Bytes}
    (hid : isMessageId messageId = true) (htimestamp : isTimestamp timestamp = true)
    (h : signedContent messageId timestamp body = .ok content) :
    content.map Str.ofByte = messageId ++ dot :: timestamp ++ dot :: body.map Str.ofByte := by
  rw [signedContent_eq hid htimestamp] at h
  cases h
  rw [List.map_append, List.map_append, List.map_cons, List.map_cons,
    Str.map_ofByte (isAscii_of_isMessageId hid), Str.map_ofByte (isAscii_of_isTimestamp htimestamp)]
  rfl

/-- No message under the first identity and timestamp passes for one under the second:
their signed bytes differ, and no verifier accepts the signatures of one for the other
unless the digest of the two contents collides. -/
structure Unconfusable (messageId timestamp messageId' timestamp' : Str) : Prop where
  content : ∀ body body' content : Bytes,
    signedContent messageId timestamp body = .ok content →
    signedContent messageId' timestamp' body' = .ok content →
    (messageId, timestamp, body) = (messageId', timestamp', body')
  forged : ∀ (t current : Datetime) (age skew : Timedelta) (body body' secret : Bytes)
      (secrets : List Bytes) (h : SignedWebhookHeaders), timestampText t = timestamp →
    signWebhook messageId t body secrets = .ok h →
    (∀ content content' : Bytes, ∀ key ∈ secrets,
      signedContent messageId timestamp body = .ok content →
      signedContent messageId' timestamp' body' = .ok content' →
      hmacSha256 key content = hmacSha256 secret content' → content = content') →
    verifyWebhook secret body' (h.presentedAs messageId' timestamp') current age skew = .ok true →
    (messageId, timestamp, body) = (messageId', timestamp', body')

variable {messageId timestamp messageId' timestamp' : Str}

omit [Platform] in
/-- An identity that continues another message has a message with the same bytes. -/
theorem exists_signedContent_eq (hid : isMessageId messageId = true)
    (htimestamp : isTimestamp timestamp = true) (hid' : isMessageId messageId' = true)
    (htimestamp' : isTimestamp timestamp' = true) (h : Continues dot messageId timestamp messageId') :
    ∃ body content, signedContent messageId timestamp body = .ok content ∧
      signedContent messageId' timestamp' [] = .ok content := by
  obtain ⟨body, hbody⟩ := (h.map fun c => UInt8.ofNat c.ord).exists_eq
    (timestamp'.map fun c => UInt8.ofNat c.ord) []
  refine ⟨body, _, signedContent_eq hid htimestamp, ?_⟩
  rw [signedContent_eq hid' htimestamp']
  exact congrArg _ hbody.symm

omit [Platform] in
/-- Equal signed bytes are equal messages, where neither identity continues the other. -/
theorem signedContent_inj (hid : isMessageId messageId = true)
    (htimestamp : isTimestamp timestamp = true) (hid' : isMessageId messageId' = true)
    (htimestamp' : isTimestamp timestamp' = true)
    (hne : ¬ Continues dot messageId timestamp messageId')
    (hne' : ¬ Continues dot messageId' timestamp' messageId) {body body' content : Bytes}
    (h : signedContent messageId timestamp body = .ok content)
    (h' : signedContent messageId' timestamp' body' = .ok content) :
    (messageId, timestamp, body) = (messageId', timestamp', body') := by
  have htext := (signedContent_text hid htimestamp h).symm.trans
    (signedContent_text hid' htimestamp' h')
  rcases append_sep_sep_cases (dot_not_mem htimestamp) (dot_not_mem htimestamp') htext with
    ⟨rfl, rfl, -⟩ | hcontinues | hcontinues
  · rw [signedContent_eq hid htimestamp] at h h'
    have hbytes := Except.ok.inj (h.trans h'.symm)
    simp only [List.append_cancel_left_eq, List.cons.injEq, true_and] at hbytes
    rw [hbytes]
  · exact absurd hcontinues hne
  · exact absurd hcontinues hne'

omit [Platform] in
/-- The headers of a signer under another identity. -/
theorem presentedAs_webhookHeaders {supplied : Str} {count : ℕ} :
    SignedWebhookHeaders.presentedAs ⟨webhookHeaders messageId timestamp supplied, count⟩
      messageId' timestamp' = webhookHeaders messageId' timestamp' supplied := by
  rfl

/-- Two messages can be told apart by their signatures exactly when neither identity is the
other identity and timestamp joined by a dot, with nothing or a dot after them. -/
theorem unconfusable_iff (hid : isMessageId messageId = true)
    (htimestamp : isTimestamp timestamp = true) (hid' : isMessageId messageId' = true)
    (htimestamp' : isTimestamp timestamp' = true) :
    Unconfusable messageId timestamp messageId' timestamp' ↔
      ¬ Continues dot messageId timestamp messageId' ∧
        ¬ Continues dot messageId' timestamp' messageId := by
  constructor
  · intro h
    constructor
    · intro hcontinues
      obtain ⟨body, content, hcontent, hcontent'⟩ :=
        exists_signedContent_eq hid htimestamp hid' htimestamp' hcontinues
      exact hcontinues.ne (congrArg Prod.fst (h.content body [] content hcontent hcontent'))
    · intro hcontinues
      obtain ⟨body, content, hcontent', hcontent⟩ :=
        exists_signedContent_eq hid' htimestamp' hid htimestamp hcontinues
      exact hcontinues.ne (congrArg Prod.fst (h.content [] body content hcontent hcontent')).symm
  · rintro ⟨hne, hne'⟩
    constructor
    · intro body body' content
      exact signedContent_inj hid htimestamp hid' htimestamp' hne hne'
    · rintro t current age skew body body' secret secrets h rfl hsign hcollide hverify
      obtain ⟨-, -, -, content, hcontent, rfl⟩ := signWebhook_eq_ok.mp hsign
      rw [presentedAs_webhookHeaders, verifyWebhook_eq_true, splitSpace_signatures] at hverify
      obtain ⟨-, -, -, -, -, -, -, content', hcontent', candidate, hmem, hmatch⟩ := hverify
      obtain ⟨key, hkey, rfl⟩ := List.mem_map.mp hmem
      have heq := hcollide content content' key hkey hcontent hcontent'
        (candidateMatches_signature.mp hmatch)
      subst heq
      exact signedContent_inj hid htimestamp hid' htimestamp' hne hne' hcontent hcontent'

end Unconfusable

end Webhook

/-! ## An identity with a dot -/

section Dotted

open Checksum

/-- The signature of `m.1`, two seconds and `b` is one of `m`, one second and `2.b`. -/
theorem dotted_identity_confused :
    ¬ Unconfusable "m.1" "2" "m" "1" ∧
      (do
        let headers ← signWebhook "m.1" 2000000 [98] [List.replicate 32 1]
        verifyWebhook (List.replicate 32 1) [50, 46, 98] (headers.presentedAs "m" "1") 2000000
          300000000 300000000) = .ok true := by
  constructor
  · intro h
    have heq := h.content [98] [50, 46, 98] [109, 46, 49, 46, 50, 46, 98] (by decide) (by decide)
    exact absurd (congrArg (·.2.2) heq) (by decide)
  · decide +kernel

theorem unconfusable_dotless : Unconfusable "msg-1" "1700000000" "msg-2" "1700000300" :=
  (unconfusable_iff (by decide) (by decide) (by decide) (by decide)).mpr
    ⟨fun h => absurd h.mem (by decide), fun h => absurd h.mem (by decide)⟩

end Dotted

end FastapiEffects
