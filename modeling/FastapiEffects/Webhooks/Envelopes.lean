import FastapiEffects.Runtime.Fairness
import FastapiEffects.Runtime.Replays
import FastapiEffects.Sqlalchemy.Limits
import FastapiEffects.Sqlalchemy.Strict
import FastapiEffects.Webhooks.Sink

/-! # Which events a webhook can carry

`publish` and `serialize_webhook_envelope` hold one payload against the same limits of nesting and
of bytes, but the envelope has it one level deeper and beside other members. A payload accepted
at either limit is stored, and cannot be sent.
-/

namespace Python

/-! ## The length of a text -/

namespace Str

theorem encode?_append {s t : Str} {bs cs : Bytes} (hs : s.encode? = some bs)
    (ht : t.encode? = some cs) : (s ++ t).encode? = some (bs ++ cs) := by
  obtain ⟨x, hx, rfl⟩ := Option.map_eq_some_iff.mp hs
  obtain ⟨y, hy, rfl⟩ := Option.map_eq_some_iff.mp ht
  rw [encode?, List.mapM_append, hx, hy]
  simp

end Str

end Python

namespace FastapiEffects

open Python ReadCommitted

/-! ## Plain text -/

theorem isPlain_hexDigit : ∀ n < 16, PyChar.isPlain (.scalar (hexDigit n)) = true := by decide

theorem isPlain_hex (u : UUID) : ∀ c ∈ u.hex, c.isPlain = true := by
  intro c hc
  obtain ⟨i, -, rfl⟩ := List.mem_map.mp hc
  exact isPlain_hexDigit _ (Nat.mod_lt _ (by norm_num))

theorem isPlain_str (u : UUID) : ∀ c ∈ u.str, c.isPlain = true := by
  have hdash : ∀ c ∈ Str.ofString "-", c.isPlain = true := by decide
  intro c hc
  simp only [UUID.str, List.mem_append] at hc
  rcases hc with ((((((((hc | hc) | hc) | hc) | hc) | hc) | hc) | hc) | hc)
  · exact isPlain_hex u c (List.mem_of_mem_take hc)
  · exact hdash c hc
  · exact isPlain_hex u c (List.mem_of_mem_drop (List.mem_of_mem_take hc))
  · exact hdash c hc
  · exact isPlain_hex u c (List.mem_of_mem_drop (List.mem_of_mem_take hc))
  · exact hdash c hc
  · exact isPlain_hex u c (List.mem_of_mem_drop (List.mem_of_mem_take hc))
  · exact hdash c hc
  · exact isPlain_hex u c (List.mem_of_mem_drop hc)

theorem isPlain_digit {d : Char} (hd : d.isDigit = true) : PyChar.isPlain (.scalar d) = true := by
  have hbounds : '0'.toNat ≤ d.toNat ∧ d.toNat ≤ '9'.toNat := by
    simpa [Char.isDigit, UInt32.le_iff_toNat_le] using hd
  exact Bool.or_eq_true_iff.mpr (.inl (List.any_eq_true.mpr
    ⟨('0', '9'), by simp, decide_eq_true hbounds⟩))

theorem isPlain_padded (width n : ℕ) : ∀ c ∈ Datetime.padded width n, c.isPlain = true := by
  intro c hc
  obtain ⟨d, hd, rfl⟩ := List.mem_map.mp hc
  apply isPlain_digit
  rcases List.mem_append.mp hd with hd | hd
  · rw [List.eq_of_mem_replicate hd]
    rfl
  · exact Loads.isDigit_toDigits n d hd

theorem isPlain_isoformat (t : Datetime) : ∀ c ∈ t.isoformat, c.isPlain = true := by
  have hmark : ∀ s : String, (Str.ofString s).all PyChar.isPlain = true →
      ∀ c ∈ Str.ofString s, c.isPlain = true := fun s hs => List.all_eq_true.mp hs
  have hdate : ∀ c ∈ t.dateText, c.isPlain = true := by
    intro c hc
    simp only [Datetime.dateText, List.mem_append] at hc
    rcases hc with (((hc | hc) | hc) | hc) | hc
    · exact isPlain_padded _ _ c hc
    · exact hmark "-" (by decide) c hc
    · exact isPlain_padded _ _ c hc
    · exact hmark "-" (by decide) c hc
    · exact isPlain_padded _ _ c hc
  have hclock : ∀ c ∈ t.clockText, c.isPlain = true := by
    intro c hc
    simp only [Datetime.clockText, List.mem_append] at hc
    rcases hc with (((hc | hc) | hc) | hc) | hc
    · exact isPlain_padded _ _ c hc
    · exact hmark ":" (by decide) c hc
    · exact isPlain_padded _ _ c hc
    · exact hmark ":" (by decide) c hc
    · exact isPlain_padded _ _ c hc
  intro c hc
  simp only [Datetime.isoformat, List.mem_append] at hc
  rcases hc with (((hc | hc) | hc) | hc) | hc
  · exact hdate c hc
  · exact hmark "T" (by decide) c hc
  · exact hclock c hc
  · -- the microseconds, where there are any
    split_ifs at hc
    · cases hc
    · rcases List.mem_cons.mp hc with rfl | hc
      · rfl
      · exact isPlain_padded _ _ c hc
  · exact hmark "+00:00" (by decide) c hc

/-- A stable key is plain text. -/
theorem isPlain_stableKey {s : Str} (h : isStableKey s = true) : ∀ c ∈ s, c.isPlain = true := by
  intro c hc
  cases s with
  | nil => cases hc
  | cons d ds =>
      rw [isStableKey, Str.fullmatch, Bool.and_eq_true, Bool.and_eq_true, List.all_eq_true] at h
      rcases List.mem_cons.mp hc with rfl | hc
      · exact PyChar.isIn_mono (by simp) (by simp) h.1.1
      · exact PyChar.isIn_mono (by simp) (by simp) (h.2 c hc)

/-! ## The envelope -/

/-- The members of an envelope beside the payload. -/
def envelopeFrame (deliveryId : UUID) (event : EventRecord) : List (Str × Json) := [
  ("event_id", .str event.eventId.str),
  ("event_type", .str event.eventType),
  ("event_version", .int event.eventVersion),
  ("message_id", .str (webhookMessageId deliveryId)),
  ("occurred_at", .str event.occurredAt.isoformat),
  ("tenant_id", .str event.tenantId.str)]

/-- The bytes of an envelope beside those of the payload. -/
def envelopeOverhead (event : EventRecord) : ℕ :=
  212 + event.eventType.length + (intText event.eventVersion).length +
    event.occurredAt.isoformat.length

theorem EventRecord.stableType (event : EventRecord) : isStableKey event.eventType = true := by
  obtain ⟨_, hargs, -⟩ := bind_eq_ok.mp event.valid
  obtain ⟨_, htype, -⟩ := bind_eq_ok.mp hargs
  exact check_eq_ok.mp htype

theorem EventRecord.positiveVersion (event : EventRecord) : 0 < event.eventVersion := by
  obtain ⟨_, hargs, -⟩ := bind_eq_ok.mp event.valid
  obtain ⟨_, -, hrest⟩ := bind_eq_ok.mp hargs
  obtain ⟨_, hversion, -⟩ := bind_eq_ok.mp hrest
  exact of_decide_eq_true (check_eq_ok.mp hversion)

theorem isPlain_messageId (deliveryId : UUID) :
    ∀ c ∈ webhookMessageId deliveryId, c.isPlain = true := by
  have hmessage : ∀ c ∈ Str.ofString "msg_", c.isPlain = true := by decide
  intro c hc
  rcases List.mem_append.mp hc with hc | hc
  · exact hmessage c hc
  · exact isPlain_hex deliveryId c hc

/-- A positive number of 32 bits is written in digits. -/
theorem text_version {n : ℤ} (hpos : 0 < n) (hmax : n ≤ maxInteger) :
    (Json.int n).text = some (Str.ofChars (intText n)) ∧
      (Str.ofChars (intText n)).isAscii = true := by
  have hdigits : (Nat.toDigits 10 n.natAbs).length ≤ 10 := by
    have hbound : n.natAbs < 10 ^ 10 := by
      unfold maxInteger at hmax
      omega
    rwa [Nat.length_toDigits_le_iff (by norm_num) (by norm_num)]
  constructor
  · rw [Json.text, intRepr, if_pos (hdigits.trans (by decide))]
    rfl
  · obtain ⟨k, rfl⟩ := Int.eq_ofNat_of_zero_le hpos.le
    refine (quote_plain fun c hc => ?_).2
    obtain ⟨d, hd, rfl⟩ := List.mem_map.mp hc
    exact isPlain_digit (Loads.isDigit_toDigits k d hd)

/-- The text of the frame; the braces, the key of the payload and a comma are to come. -/
theorem envelopeFrame_text (deliveryId : UUID) {event : EventRecord}
    (hversion : event.eventVersion ≤ maxInteger) :
    ∃ t, Json.textMembers (envelopeFrame deliveryId event) = some t ∧ t.isAscii = true ∧
      t.length + 10 = envelopeOverhead event := by
  have hstring : ∀ s : Str, (Json.str s).text = some (quote s) := fun s => rfl
  obtain ⟨hnumber, hdigits⟩ := text_version event.positiveVersion hversion
  have hexists : ∃ t, Json.textMembers (envelopeFrame deliveryId event) = some t := by
    apply Json.exists_textMembers
    simp [envelopeFrame, hnumber, hstring]
  -- the strings of the frame, in its order
  obtain ⟨hevent, hevent'⟩ := quote_plain (isPlain_str event.eventId)
  obtain ⟨htype, htype'⟩ := quote_plain (isPlain_stableKey event.stableType)
  obtain ⟨hmessage, hmessage'⟩ := quote_plain (isPlain_messageId deliveryId)
  obtain ⟨htime, htime'⟩ := quote_plain (isPlain_isoformat event.occurredAt)
  obtain ⟨htenant, htenant'⟩ := quote_plain (isPlain_str event.tenantId)
  obtain ⟨t, ht⟩ := hexists
  refine ⟨t, ht, ?_, ?_⟩
  · apply Json.isAscii_textMembers ht
    simp only [envelopeFrame, List.forall_mem_cons, hstring, hnumber, Option.mem_def,
      Option.some.injEq, forall_eq', List.not_mem_nil, false_implies, implies_true, and_true]
    exact ⟨⟨rfl, Json.isAscii_quote hevent'⟩, ⟨rfl, Json.isAscii_quote htype'⟩, ⟨rfl, hdigits⟩,
      ⟨rfl, Json.isAscii_quote hmessage'⟩, ⟨rfl, Json.isAscii_quote htime'⟩, rfl,
      Json.isAscii_quote htenant'⟩
  · have hlength := Json.length_textMembers ht
    have hkeys : (quote "event_id").length = 10 ∧ (quote "event_type").length = 12 ∧
        (quote "event_version").length = 15 ∧ (quote "message_id").length = 12 ∧
        (quote "occurred_at").length = 13 ∧ (quote "tenant_id").length = 11 := by
      decide
    have hid : (webhookMessageId deliveryId).length = 36 := by
      simp [webhookMessageId, Str.ofString]
    obtain ⟨h₁, h₂, h₃, h₄, h₅, h₆⟩ := hkeys
    simp only [List.map_cons, List.map_nil, List.sum_cons, List.sum_nil, hstring, hnumber,
      Option.getD_some, hevent, htype, hmessage, htime, htenant, h₁, h₂, h₃, h₄, h₅, h₆, hid,
      UUID.length_str, Str.length_ofChars] at hlength
    unfold envelopeOverhead
    omega

/-- The text of an envelope is that of the payload in the frame. -/
theorem envelope_bytes (deliveryId : UUID) {event : EventRecord}
    (hversion : event.eventVersion ≤ maxInteger) {payload : Json} {body : Bytes}
    (hbody : payload.dumps.bind Str.encode? = some body) : ∃ bytes,
    (Json.obj (("data", payload) :: envelopeFrame deliveryId event)).dumps.bind Str.encode? =
      some bytes ∧ bytes.length = body.length + envelopeOverhead event := by
  obtain ⟨t, ht, hascii, hlength⟩ := envelopeFrame_text deliveryId hversion
  obtain ⟨data, hdata, hencoded⟩ := Option.bind_eq_some_iff.mp hbody
  have hsorted : (Json.obj (("data", payload) :: envelopeFrame deliveryId event)).sorted =
      .obj (("data", payload.sorted) :: envelopeFrame deliveryId event) := by
    rfl
  have htext : (Json.obj (("data", payload) :: envelopeFrame deliveryId event)).dumps =
      some ("\x7b\"data\":" ++ data ++ ("," ++ t ++ "\x7d")) := by
    have hmembers : Json.textMembers (("data", payload.sorted) :: envelopeFrame deliveryId event) =
        some (quote "data" ++ .scalar ':' :: (data ++ .scalar ',' :: t)) :=
      Json.textMembers_cons.mpr ⟨data, hdata, t, ht, rfl⟩
    rw [Json.dumps, hsorted, Json.text, hmembers]
    simp [Str.ofString, quote, escapeChar]
  have hopen : Str.isAscii "\x7b\"data\":" = true := by decide
  have hclose : Str.isAscii ("," ++ t ++ "\x7d") = true := by
    simp only [Str.isAscii, List.all_append, Bool.and_eq_true] at hascii ⊢
    exact ⟨⟨by decide, hascii⟩, by decide⟩
  have hencode := Str.encode?_append (Str.encode?_append (Str.encode?_ascii hopen) hencoded)
    (Str.encode?_ascii hclose)
  rw [htext, Option.bind_some]
  refine ⟨_, hencode, ?_⟩
  simp [Str.ofString]
  omega

/-! ## What the statements of `publish` return -/

/-- An event found by its dedupe identity is visible. -/
theorem exec_eventForDedupe {s s' : Session Key Row UUID} {tenantId : UUID}
    {identity : DedupeIdentity} {row : EventRow}
    (h : s.exec (eventForDedupe tenantId identity) = (.ok row, s')) :
    s.visible.get (.event row.tenantId row.eventId) = some (.event row) := by
  unfold eventForDedupe selectAll at h
  simp only [Prog.bind_eq, Prog.bind, Session.exec] at h
  split at h
  · next found hfind =>
      cases h
      obtain ⟨r, hr, hevent⟩ := List.mem_filterMap.mp (List.mem_of_find?_eq_some hfind)
      cases r with
      | event r =>
          cases hevent
          exact Table.mem_iff_get.mp hr
      | delivery r => cases hevent
      | attempt r => cases hevent
      | handoff r => cases hevent
  · cases h

theorem exec_insertOrSkip_false {s s' : Session Key Row UUID} {checks : Bool} {r : Row}
    (h : s.exec (insertOrSkip checks r) = (.ok false, s')) : s' = s := by
  unfold insertOrSkip at h
  split_ifs at h
  · rw [Session.exec] at h
    split_ifs at h
    · cases h
      rfl
    · cases h
  · cases h

/-! ## The limits of an envelope -/

section Limits

variable [Platform]

/-- One level of the nesting limit is taken by the envelope. -/
theorem normalize_envelope_iff (deliveryId : UUID) (event : EventRecord) {payload : Json}
    (h : normalize 0 payload = .ok ()) :
    normalize 0 (.obj (("data", payload) :: envelopeFrame deliveryId event)) = .ok () ↔
      payload.height < maxDepth := by
  have hkeys : ∀ k ∈ ["data", "event_id", "event_type", "event_version", "message_id",
      "occurred_at", "tenant_id"], (Str.ofString k).isAscii = true := by
    decide
  have hstring : ∀ s : Str, (∀ c ∈ s, c.isPlain = true) → normalize 1 (.str s) = .ok () := by
    intro s hs
    simp only [normalize, normalize.nesting, bind_eq_ok, check_eq_ok, decide_eq_true_eq,
      Str.encode?_ascii (quote_plain hs).2]
    exact ⟨(), by decide, rfl⟩
  have hframe : ∀ m ∈ envelopeFrame deliveryId event, normalize 1 m.2 = .ok () := by
    simp only [envelopeFrame, List.forall_mem_cons, List.not_mem_nil, false_implies, implies_true,
      and_true]
    exact ⟨hstring _ (isPlain_str _), hstring _ (isPlain_stableKey event.stableType), rfl,
      hstring _ (isPlain_messageId _), hstring _ (isPlain_isoformat _), hstring _ (isPlain_str _)⟩
  have hnodup : (["data", "event_id", "event_type", "event_version", "message_id",
      "occurred_at", "tenant_id"].map fun k => Platform.nfc (Str.ofString k)).Nodup := by
    have hascii := List.map_congr_left fun k hk => Platform.nfc_ascii _ (hkeys k hk)
    rw [hascii]
    decide
  have hdata : normalize 1 payload = .ok () ↔ 1 + payload.height ≤ maxDepth :=
    normalize_at_iff payload h
  simp only [normalize, normalize.nesting, bind_eq_ok, check_eq_ok, decide_eq_true_eq,
    normalizeMembers_eq_ok, List.forall_mem_cons, List.not_mem_nil, not_false_eq_true,
    implies_true, hdata]
  constructor
  · rintro ⟨_, -, _, -, -, -, hheight, -⟩
    omega
  · intro hheight
    have hcount : ((("data", payload) : Str × Json) :: envelopeFrame deliveryId event).length ≤
        maxContainerItems := by
      simp [envelopeFrame, maxContainerItems]
    exact ⟨(), by decide, (), hcount, hnodup, trivial, by omega, hframe⟩

/-- The event was stored with this payload. -/
structure Stores (payload : Json) (event : EventRecord) : Prop where
  canonical : versionedCanonicalBytes payload = .ok event.payloadCanonical
  version : event.eventVersion ≤ maxInteger

/-- Whether there is room for the envelope of an event in the limits. -/
def EventRecord.Fits (event : EventRecord) (payload : Json) : Prop :=
  payload.height < maxDepth ∧ (event.payloadCanonical.length + envelopeOverhead event : ℤ) ≤
    canonicalPrefix.length + defaultMaxPayloadBytes

instance (event : EventRecord) (payload : Json) : Decidable (event.Fits payload) :=
  inferInstanceAs (Decidable (_ ∧ _))

/-- What the sink sends for an event is read back as an object with the payload as its data. -/
def EventRecord.Delivers (event : EventRecord) (payload : Json) (deliveryId : UUID) : Prop :=
  ∃ body envelope data, serializeWebhookEnvelope deliveryId event = .ok body ∧
    strictJsonLoads body = .ok envelope ∧ envelope.get? "data" = some data ∧ data.same payload

theorem serializeWebhookEnvelope_eq {payload : Json} {event : EventRecord}
    (h : Stores payload event) (deliveryId : UUID) :
    serializeWebhookEnvelope deliveryId event =
      canonicalJsonBytes (.obj (("data", payload.sorted) :: envelopeFrame deliveryId event)) := by
  obtain ⟨body, hbody, hstored⟩ := versionedCanonicalBytes_eq_ok.mp h.canonical
  obtain ⟨-, -, -, hlength⟩ := canonicalJsonBytes_spec hbody
  have hread : strictJsonLoads body = .ok payload.sorted :=
    strictJsonLoads_canonicalJsonBytes hbody (by omega)
  have hformat : canonicalPrefix.isPrefixOf event.payloadCanonical = true := by
    rw [hstored, List.isPrefixOf_iff_prefix]
    exact List.prefix_append _ _
  rw [serializeWebhookEnvelope, hformat, hstored, List.drop_left, hread]
  rfl

/-- What the limits say of an envelope. -/
theorem envelope_eq_ok_iff {payload : Json} {event : EventRecord} (h : Stores payload event)
    (deliveryId : UUID) : (∃ bytes, canonicalJsonBytes
      (.obj (("data", payload.sorted) :: envelopeFrame deliveryId event)) = .ok bytes) ↔
      event.Fits payload := by
  obtain ⟨body, hbody, hstored⟩ := versionedCanonicalBytes_eq_ok.mp h.canonical
  obtain ⟨hnormal, hbytes, -, -⟩ := canonicalJsonBytes_spec hbody
  obtain ⟨hsorted, -⟩ := normalize_sorted payload hnormal
  have hdumps : payload.sorted.dumps = payload.dumps :=
    congrArg Json.text (Json.sorted_sorted payload)
  obtain ⟨bytes, henvelope, hlength⟩ := envelope_bytes deliveryId h.version (hdumps ▸ hbytes)
  have hnesting := normalize_envelope_iff deliveryId event hsorted
  rw [Json.height_sorted] at hnesting
  unfold EventRecord.Fits
  rw [hstored, List.length_append, ← hnesting]
  simp only [canonicalJsonBytes, bind_eq_ok, check_eq_ok, orRaise_eq_ok, decide_eq_true_eq]
  constructor
  · rintro ⟨_, _, -, _, hnested, encoded, hencoded, _, hfits, -⟩
    cases henvelope.symm.trans hencoded
    exact ⟨hnested, by omega⟩
  · rintro ⟨hnested, hfits⟩
    exact ⟨bytes, (), by decide, (), hnested, bytes, henvelope, (), by omega, rfl⟩

theorem delivers_iff {payload : Json} {event : EventRecord} (h : Stores payload event)
    (deliveryId : UUID) : event.Delivers payload deliveryId ↔ event.Fits payload := by
  rw [← envelope_eq_ok_iff h deliveryId]
  unfold EventRecord.Delivers
  rw [serializeWebhookEnvelope_eq h]
  constructor
  · rintro ⟨body, _, _, hbody, -⟩
    exact ⟨body, hbody⟩
  · rintro ⟨body, hbody⟩
    obtain ⟨hread, -, -⟩ := canonicalJsonBytes_reads hbody
    obtain ⟨stored, hstored, -⟩ := versionedCanonicalBytes_eq_ok.mp h.canonical
    obtain ⟨-, hsame, -⟩ := canonicalJsonBytes_reads hstored
    rw [← Json.sorted_sorted] at hsame
    exact ⟨body, _, _, hbody, hread, rfl, hsame⟩

theorem canonicalJsonBytes_eq_error {value : Json} {most : ℤ} {e : PyError}
    (h : canonicalJsonBytes value most = .error e) : IsConfiguration e := by
  rcases bind_eq_error.mp h with h | ⟨_, -, h⟩
  · exact check_configuration h
  rcases bind_eq_error.mp h with h | ⟨_, -, h⟩
  · exact normalize_eq_error value h
  rcases bind_eq_error.mp h with h | ⟨_, -, h⟩
  · exact ⟨_, (orRaise_eq_error.mp h).2⟩
  rcases bind_eq_error.mp h with h | ⟨_, -, h⟩
  · exact check_configuration h
  · cases h

/-- Where there is no room, serialization raises a configuration error. -/
theorem serialize_raises {payload : Json} {event : EventRecord} (h : Stores payload event)
    (deliveryId : UUID) (hfits : ¬ event.Fits payload) :
    ∃ e, serializeWebhookEnvelope deliveryId event = .error e ∧ IsConfiguration e := by
  rw [← envelope_eq_ok_iff h deliveryId] at hfits
  rw [serializeWebhookEnvelope_eq h]
  cases hbytes : canonicalJsonBytes
      (.obj (("data", payload.sorted) :: envelopeFrame deliveryId event)) with
  | ok bytes => exact absurd ⟨bytes, hbytes⟩ hfits
  | error e => exact ⟨e, rfl, canonicalJsonBytes_eq_error hbytes⟩

/-! ## The events that are published -/

/-- An event that `publish` inserted was stored with the payload it was given. -/
theorem stores_of_publish {s s' : Session Key Row UUID} {principal : PrincipalEnvelope}
    {event : Event} {routes : List RouteSpecification} {now : Datetime}
    {dedupe : Option DedupeIdentity} {record : EventRecord}
    (h : s.exec (publish principal event routes now dedupe) = (.ok record, s'))
    (hnew : s.visible.get (.event record.tenantId record.eventId) = none) :
    Stores event.data record := by
  unfold publish at h
  rcases Session.exec_bind_eq_ok h with ⟨_, s₁, hbody, h⟩
  rcases Session.exec_bind_eq_ok h with ⟨payload, s₂, hlift, h⟩
  rcases Session.exec_bind_eq_ok h with ⟨eventId, s₃, hid, h⟩
  rcases Session.exec_bind_eq_ok h with ⟨_, s₄, hinteger, h⟩
  rcases Session.exec_bind_eq_ok h with ⟨inserted, s₅, hinsert, h⟩
  obtain ⟨hpayload, hs₂⟩ := exec_lift_eq_ok hlift
  obtain ⟨hcolumns, hs₄⟩ := exec_lift_eq_ok hinteger
  obtain ⟨_, hfits, -⟩ := bind_eq_ok.mp hcolumns
  have hversion : event.version ≤ maxInteger := of_decide_eq_true (check_eq_ok.mp hfits)
  cases inserted with
  | true =>
      rw [if_pos rfl] at h
      rcases Session.exec_bind_eq_ok h with ⟨rows, s₆, hrows, h⟩
      rcases Session.exec_bind_eq_ok h with ⟨_, s₇, hadd, h⟩
      have hrecord := eventFromRow_eq_ok (exec_lift_eq_ok h).1
      have hcanonical := congrArg EventRecordArgs.payloadCanonical hrecord
      have hnumber := congrArg EventRecordArgs.eventVersion hrecord
      exact ⟨hcanonical ▸ hpayload, hnumber ▸ hversion⟩
  | false =>
      -- the record is that of an event that was there
      have hvisible : s₅.visible = s.visible := by
        rw [exec_insertOrSkip_false hinsert, hs₄]
        cases hid
        rw [hs₂, (exec_lift_eq_ok hbody).2]
        rfl
      rw [if_neg Bool.false_ne_true] at h
      cases dedupe with
      | none => cases h
      | some identity =>
          rcases Session.exec_bind_eq_ok h with ⟨existing, s₆, hexisting, h⟩
          have hstored := exec_eventForDedupe hexisting
          split_ifs at h
          · cases h
          · have hrecord := eventFromRow_eq_ok (exec_lift_eq_ok h).1
            have hrow : s.visible.get (.event existing.tenantId existing.eventId) = none :=
              hrecord ▸ hnew
            rw [hvisible, hrow] at hstored
            cases hstored

/-- A published event is delivered exactly when its payload leaves one level of nesting, and the
bytes of the frame, to the envelope. Where it does not, serialization raises a configuration
error under every delivery identity. -/
theorem published_delivered_iff {s s' : Session Key Row UUID} {principal : PrincipalEnvelope}
    {event : Event} {routes : List RouteSpecification} {now : Datetime}
    {dedupe : Option DedupeIdentity} {record : EventRecord}
    (h : s.exec (publish principal event routes now dedupe) = (.ok record, s'))
    (hnew : s.visible.get (.event record.tenantId record.eventId) = none) (deliveryId : UUID) :
    (record.Delivers event.data deliveryId ↔ record.Fits event.data) ∧
      (¬ record.Fits event.data →
        ∃ e, serializeWebhookEnvelope deliveryId record = .error e ∧ IsConfiguration e) := by
  have hstores := stores_of_publish h hnew
  exact ⟨delivers_iff hstores deliveryId, serialize_raises hstores deliveryId⟩

end Limits

/-! ### Arrays within arrays -/

namespace Scenario

/-- Arrays within arrays. -/
def nested : ℕ → Json
  | 0 => .null
  | n + 1 => .arr [nested n]

theorem height_nested (n : ℕ) : (nested n).height = n := by
  induction n with
  | zero => rfl
  | succ n ih =>
      rw [nested, Json.height, Json.heightItems, Json.heightItems, ih]
      exact Nat.max_eq_left (Nat.zero_le _)

/-- An event with a payload. -/
def eventOf (payload : Json) : Event :=
  ⟨{ type := "e", version := 1, data := payload, occurredAt := 0 }, rfl⟩

theorem eventOf_data (payload : Json) : (eventOf payload).data = payload := rfl

theorem exec_eq_of_ok {α : Type} {s : Session Key Row UUID} {p : Tx α} {a : α}
    (h : (s.exec p).1 = .ok a) : s.exec p = (.ok a, (s.exec p).2) :=
  Prod.ext h rfl

/-- An empty database. -/
def unused : Session Key Row UUID := Session.on Table.empty (fun _ => 0) fun n => BitVec.ofNat 128 n

end Scenario

open Checksum Scenario in
/-- An event whose payload is one level below the limit is delivered. -/
theorem published_delivered_nested : ∃ record s',
    unused.exec (publish principal (eventOf (nested 63)) [] 0 none) = (.ok record, s') ∧
      record.Delivers (nested 63) 7 := by
  have hok : ((unused.exec (publish principal (eventOf (nested 63)) [] 0 none)).1).isOk = true := by
    decide +kernel
  obtain ⟨record, hrecord⟩ := exists_eq_ok hok
  have hexec := exec_eq_of_ok hrecord
  have hsmall : ((unused.exec (publish principal (eventOf (nested 63)) [] 0 none)).1).toOption.all
      (fun record => record.Fits (nested 63)) = true := by
    decide +kernel
  rw [hrecord, Except.toOption, Option.all_some, decide_eq_true_eq] at hsmall
  have hdelivers := (published_delivered_iff hexec rfl 7).1
  rw [eventOf_data] at hdelivers
  exact ⟨record, _, hexec, hdelivers.mpr hsmall⟩

open Checksum Scenario in
/-- At the limit, it is stored and cannot be sent. -/
theorem published_not_delivered : ∃ record s',
    unused.exec (publish principal (eventOf (nested 64)) [] 0 none) = (.ok record, s') ∧
      ∀ deliveryId, ¬ record.Delivers (nested 64) deliveryId := by
  have hok : ((unused.exec (publish principal (eventOf (nested 64)) [] 0 none)).1).isOk = true := by
    decide +kernel
  obtain ⟨record, hrecord⟩ := exists_eq_ok hok
  have hexec := exec_eq_of_ok hrecord
  refine ⟨record, _, hexec, fun deliveryId hdelivers => ?_⟩
  have hfits := (delivers_iff (stores_of_publish hexec rfl) deliveryId).mp hdelivers
  have hdeep : ¬ (eventOf (nested 64)).data.height < maxDepth := (height_nested maxDepth).not_lt
  exact hdeep hfits.1

end FastapiEffects
