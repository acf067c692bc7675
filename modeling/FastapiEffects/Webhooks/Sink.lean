import FastapiEffects.Python.Calendar
import FastapiEffects.Python.UuidText
import FastapiEffects.Postgres.Leasing
import FastapiEffects.Webhooks.Transport

/-! # The webhook sink

`WebhookDeliverySink._deliver_attempt` up to the response it classifies: the body is serialized
and signed once, and sent along a chain of redirects. Each hop of the chain resolves its own
host, and every connection of a hop goes to an address of that hop's answer set.
-/

namespace FastapiEffects

open Python Interaction

/-! ## The envelope -/

section Envelope

variable [Platform]

/-- `webhook_message_id`. -/
def webhookMessageId (deliveryId : UUID) : Str := "msg_" ++ deliveryId.hex

/-- `serialize_webhook_envelope`. -/
def serializeWebhookEnvelope (deliveryId : UUID) (event : EventRecord) : Except PyError Bytes := do
  check (canonicalPrefix.isPrefixOf event.payloadCanonical)
    (.configuration "Webhook event payload format is unsupported.")
  let data ← strictJsonLoads (event.payloadCanonical.drop canonicalPrefix.length)
  canonicalJsonBytes (.obj [
    ("data", data),
    ("event_id", .str event.eventId.str),
    ("event_type", .str event.eventType),
    ("event_version", .int event.eventVersion),
    ("message_id", .str (webhookMessageId deliveryId)),
    ("occurred_at", .str event.occurredAt.isoformat),
    ("tenant_id", .str event.tenantId.str)])

end Envelope

/-! ## The destination of a snapshot -/

def destinationInvalid : PyError := .configuration "Webhook destination snapshot is invalid."

/-- `_destination`. -/
def destination (snapshot : Json) : Except PyError Json :=
  match snapshot.get? "destination" with
  | some (.obj members) => .ok (.obj members)
  | _ => .error destinationInvalid

/-- `_required_string`. -/
def requiredString (value : Json) (key : Str) : Except PyError Str :=
  match value.get? key with
  | some (.str s) => if s = [] then .error destinationInvalid else .ok s
  | _ => .error destinationInvalid

/-- `_required_uuid`. -/
def requiredUuid [Platform] (value : Json) (key : Str) : Except PyError UUID := do
  orRaise (UUID.ofStr? Platform.decimal (← requiredString value key)) destinationInvalid

/-! ## The attempt -/

/-- `WebhookDeliverySink`: what it reads of itself. -/
structure WebhookDeliverySink where
  transport : ExplicitIPTransport
  production : Bool
  allowedPorts : List ℕ

/-- `response.headers.get("location")`, usable. -/
def usableLocation (response : HttpResponseMetadata) : Except PyError Str := do
  let location ← orRaise (headerValue? response.headers "location") (.permanentDelivery
    "webhook.redirect_location" "Webhook redirect did not provide a usable Location header.")
  check (location.strip ≠ []) (.permanentDelivery
    "webhook.redirect_location" "Webhook redirect did not provide a usable Location header.")
  return location.strip

section Attempt

variable [Platform] [Urllib] (A : Type) [IpAddress A]

namespace WebhookDeliverySink

/-- The loop over the addresses of a hop, with the last error it met. -/
def attempts (sink : WebhookDeliverySink) (endpoint : EndpointTarget) (body : Bytes)
    (headers : List (Str × Str)) : PyError → List Str → Net TransportResult
  | lastError, [] => .raise (.error lastError)
  | _, address :: addresses =>
      (sink.transport.send A endpoint address body headers).tryCatch fun
        | .error (.retryableDelivery code summary retryAfter) =>
            attempts sink endpoint body headers (.retryableDelivery code summary retryAfter) addresses
        | e => .raise e

/-- One round of `while True`: resolve, connect and read the response. -/
def hop (sink : WebhookDeliverySink) (body : Bytes) (headers : List (Str × Str)) (currentUrl : Str) :
    Net (EndpointTarget × TransportResult) := do
  let (endpoint, addresses) ← resolveEndpoint A currentUrl sink.production sink.allowedPorts
    sink.transport.limits.maximumAddresses
  let result ← sink.attempts A endpoint body headers (.retryableDelivery "webhook.transport_failed"
    "Webhook endpoint had no connectable approved address." none) addresses
  return (endpoint, result)

/-- Whether the loop is left with this response. -/
def isFinal (sink : WebhookDeliverySink) (response : HttpResponseMetadata) : Bool :=
  ¬ (300 ≤ response.statusCode ∧ response.statusCode < 400) ∨
    sink.transport.limits.maximumRedirects = 0

/-- The loop `while True`; `remaining` is `maximum_redirects - redirect_count`. -/
def deliverHops (sink : WebhookDeliverySink) (body : Bytes) (headers : List (Str × Str)) :
    ℕ → Str → Net TransportResult
  | 0, currentUrl => do
      let (_, result) ← sink.hop A body headers currentUrl
      if sink.isFinal result.response then return result
      .raise (.error (.permanentDelivery "webhook.redirect_limit"
        "Webhook response exceeded its configured redirect limit."))
  | remaining + 1, currentUrl => do
      let (endpoint, result) ← sink.hop A body headers currentUrl
      if sink.isFinal result.response then return result
      let location ← Net.lift (usableLocation result.response)
      let nextUrl ← Net.lift (orRaise (Urllib.urljoin endpoint.url location) .value)
      deliverHops sink body headers remaining nextUrl

/-- `_deliver_attempt`, up to the response it classifies. `eligible` is what
`eligible_for_signing` gives for a secret set. -/
def deliverAttempt (sink : WebhookDeliverySink) (claim : ClaimedDelivery) (now : Datetime)
    (eligible : UUID → Except PyError (List Bytes)) : Net TransportResult := do
  Net.lift (check (claim.delivery.destinationKind = "webhook") (.permanentDelivery
    "webhook.destination_mismatch" "Webhook sink received another destination kind."))
  let target ← Net.lift (destination claim.routeSnapshot)
  let endpointUrl ← Net.lift (requiredString target "endpoint_url")
  let secretSetId ← Net.lift (requiredUuid target "secret_set_id")
  let secrets ← Net.lift (match eligible secretSetId with
    | .error .noEligibleSigningKey => .error (.permanentDelivery
        "webhook.no_eligible_signing_key" "Webhook delivery has no eligible signing key.")
    | given => given)
  let body ← Net.lift (serializeWebhookEnvelope claim.delivery.deliveryId claim.event)
  let signed ← Net.lift (signWebhook (webhookMessageId claim.delivery.deliveryId) now body secrets)
  sink.deliverHops A body signed.values sink.transport.limits.maximumRedirects endpointUrl

end WebhookDeliverySink

/-! ## What a connection may be

A connection is judged by the history before it: the answer set it must come from is the latest
one in it.
-/

/-- The latest answer set in a history, with the host and port it was asked for. -/
def latestAnswers (history : List NetEvent) : Option (Str × ℕ × List Str) :=
  (history.filterMap fun
    | ⟨.resolve hostname port, .ok answers⟩ => some (hostname, port, answers)
    | _ => none).getLast?

/-- How many connections a history attempts. -/
def connections (history : List NetEvent) : ℕ :=
  history.countP fun
    | ⟨.exchange _, _⟩ => true
    | _ => false

/-- A connection of the hop to `endpoint`, whose resolver answered `answers`: every answer
passed, the connection goes to one of them, over verified TLS to the host of the hop, and
carries `signed` after the request line and the host. -/
structure Guarded (allowedPorts : List ℕ) (signed : Bytes) (history : List NetEvent)
    (c : Connection) (endpoint : EndpointTarget) (answers : List Str) : Prop where
  hop : latestAnswers history = some (endpoint.hostname, endpoint.port, answers)
  parsed : ∃ url, parseEndpoint url true allowedPorts = .ok endpoint
  passed : ∀ value ∈ answers, ∃ a : A, publicAddress A value = .ok a
  address : ∃ value ∈ answers, ∃ a : A,
    (IpAddress.ipAddress? value : Option A) = some a ∧ c.host = IpAddress.compressed a
  scheme : endpoint.scheme = "https"
  port : c.port = endpoint.port ∧ c.port ∈ allowedPorts
  tls : ∃ context, c.ssl = some context ∧ validateSslContext context = .ok ()
  serverName : c.serverHostname = some endpoint.hostname
  request : c.request = asciiBytes (requestStart endpoint) ++ signed

/-- What may be asked: any question but a connection that is not guarded, that does not carry
what is meant to be sent, or that is one too many. -/
def Permitted (allowedPorts : List ℕ) (sent : Bytes → Prop) (most : ℕ) (history : List NetEvent) :
    Question → Prop
  | .exchange c => connections history < most ∧ ∃ signed, sent signed ∧
      ∃ endpoint answers, Guarded A allowedPorts signed history c endpoint answers
  | _ => True

end Attempt

section History

variable {history : List NetEvent}

theorem latestAnswers_sslContext {x : Except Raised SslContext} :
    latestAnswers (history ++ [⟨.sslContext, x⟩]) = latestAnswers history := by
  simp [latestAnswers, List.filterMap_append]

theorem latestAnswers_exchange {c : Connection} {x : Except Raised HttpResponseMetadata} :
    latestAnswers (history ++ [⟨.exchange c, x⟩]) = latestAnswers history := by
  simp [latestAnswers, List.filterMap_append]

theorem latestAnswers_resolve {hostname : Str} {port : ℕ} {answers : List Str} :
    latestAnswers (history ++ [⟨.resolve hostname port, .ok answers⟩]) =
      some (hostname, port, answers) := by
  simp [latestAnswers, List.filterMap_append]

theorem connections_append {e : NetEvent} :
    connections (history ++ [e]) = connections history + connections [e] := by
  rw [connections, List.countP_append, ← connections, ← connections]

@[simp] theorem connections_sslContext {x : Except Raised SslContext} :
    connections [⟨.sslContext, x⟩] = 0 := rfl

@[simp] theorem connections_resolve {hostname : Str} {port : ℕ} {x : Except Raised (List Str)} :
    connections [⟨.resolve hostname port, x⟩] = 0 := rfl

@[simp] theorem connections_exchange {c : Connection} {x : Except Raised HttpResponseMetadata} :
    connections [⟨.exchange c, x⟩] = 1 := rfl

end History

/-! ## Every connection is guarded -/

section Asks

/-- A computation without questions in front of a program. -/
theorem Net.asks_lift {α β : Type} {x : Except PyError α} {f : α → Net β}
    {ok : List NetEvent → Question → Prop} {post : List NetEvent → β → Prop}
    {epost : List NetEvent → Raised → Prop} {h : List NetEvent}
    (hok : ∀ a, x = .ok a → (f a).Asks ok post epost h) (herror : ∀ e, epost h (.error e)) :
    (Program.bind (Net.lift x) f).Asks ok post epost h := by
  rw [Program.asks_bind]
  cases x with
  | ok a => exact hok a rfl
  | error e => exact herror e

variable [Platform] [Urllib] {A : Type} [IpAddress A]

omit [Platform] [Urllib] in
/-- What `send` connects to: the very address it is given, when that address is the text
of one. -/
theorem approve_eq_ok {transport : ExplicitIPTransport} (hproduction : transport.production = true)
    (hlaw : ∀ a : A, (IpAddress.ipAddress? (IpAddress.compressed a) : Option A) = some a)
    {a : A} {approved : Str}
    (h : transport.approve A (IpAddress.compressed a) = .ok approved) :
    approved = IpAddress.compressed a := by
  rw [ExplicitIPTransport.approve, if_pos hproduction] at h
  obtain ⟨hosts, hhosts, h⟩ := bind_eq_ok.mp h
  have hmem := List.mem_of_mem_head? (orRaise_eq_ok.mp h)
  obtain ⟨value, hvalue, b, hb, rfl⟩ := (validatePublicAddresses_eq_ok hhosts).2 approved hmem
  rw [List.mem_singleton.mp hvalue] at hb
  rw [Option.some.inj ((hlaw a).symm.trans (ipAddress?_of_publicAddress hb))]

variable {sink : WebhookDeliverySink} {body : Bytes} {headers : List (Str × Str)} {most : ℕ}
  {sent : Bytes → Prop}

/-- The history before a hop's connections: its answers are the latest, and passed. -/
structure Resolved (A : Type) [IpAddress A] (allowedPorts : List ℕ) (history : List NetEvent)
    (endpoint : EndpointTarget) (answers : List Str) : Prop where
  hop : latestAnswers history = some (endpoint.hostname, endpoint.port, answers)
  parsed : ∃ url, parseEndpoint url true allowedPorts = .ok endpoint
  passed : ∀ value ∈ answers, ∃ a : A, publicAddress A value = .ok a

/-- `send` to an address of the answer set: one guarded connection, and no new answers. -/
theorem send_asks {allowedPorts : List ℕ} {history : List NetEvent} {endpoint : EndpointTarget}
    {answers : List Str} (hproduction : sink.transport.production = true)
    (hlaw : ∀ a : A, (IpAddress.ipAddress? (IpAddress.compressed a) : Option A) = some a)
    (hsent : ∀ signed, signedPart body headers = .ok signed → sent signed)
    (hresolved : Resolved A allowedPorts history endpoint answers) (hroom : connections history < most)
    {address : Str} (haddress : ∃ value ∈ answers, ∃ a : A,
      publicAddress A value = .ok a ∧ address = IpAddress.compressed a) :
    (sink.transport.send A endpoint address body headers).Asks
      (Permitted A allowedPorts sent most)
      (fun h _ => latestAnswers h = latestAnswers history ∧ connections h ≤ connections history + 1)
      (fun h _ => latestAnswers h = latestAnswers history ∧ connections h ≤ connections history + 1)
      history := by
  obtain ⟨value, hvalue, a, ha, rfl⟩ := haddress
  obtain ⟨url, hurl⟩ := hresolved.parsed
  obtain ⟨hscheme, hport⟩ := parseEndpoint_production hurl
  unfold ExplicitIPTransport.send
  rw [Program.bind_eq, Program.asks_bind]
  have hlooked : ∀ x : Except Raised SslContext,
      latestAnswers (history ++ [⟨.sslContext, x⟩]) = latestAnswers history ∧
        connections (history ++ [⟨.sslContext, x⟩]) ≤ connections history + 1 := by
    intro x
    rw [connections_append, connections_sslContext]
    exact ⟨latestAnswers_sslContext, by omega⟩
  refine Program.asks_await trivial (fun context => ?_) fun e => hlooked _
  refine Net.asks_lift (fun _ hcontext => ?_) fun e => hlooked _
  refine Net.asks_lift (fun approved happroved => ?_) fun e => hlooked _
  refine Net.asks_lift (fun request hrequest => ?_) fun e => hlooked _
  refine Net.asks_lift (fun _ _ => ?_) fun e => hlooked _
  rw [Program.bind_eq, Program.asks_bind, Program.asks_tryCatch]
  have hasked : ∀ c (x : Except Raised HttpResponseMetadata),
      latestAnswers (history ++ [⟨.sslContext, .ok context⟩] ++ [⟨.exchange c, x⟩]) =
          latestAnswers history ∧
        connections (history ++ [⟨.sslContext, .ok context⟩] ++ [⟨.exchange c, x⟩]) ≤
          connections history + 1 := by
    intro c x
    rw [latestAnswers_exchange, latestAnswers_sslContext, connections_append,
      connections_append, connections_sslContext, connections_exchange]
    exact ⟨rfl, le_refl _⟩
  refine Program.asks_await ?_ (fun response => hasked _ _) fun e => hasked _ _
  rw [if_pos hproduction] at hcontext
  obtain ⟨rest, hrest, hbytes⟩ := requestBytes_eq_ok hrequest
  constructor
  · rw [connections_append, connections_sslContext]
    exact hroom
  · have htls : decide (endpoint.scheme = "https") = true := decide_eq_true hscheme
    simp only [htls, if_true]
    exact ⟨rest, hsent rest hrest, endpoint, answers, {
      hop := latestAnswers_sslContext.trans hresolved.hop
      parsed := ⟨url, hurl⟩
      passed := hresolved.passed
      address := ⟨value, hvalue, a, ipAddress?_of_publicAddress ha,
        approve_eq_ok hproduction hlaw happroved⟩
      scheme := hscheme
      port := ⟨rfl, hport⟩
      tls := ⟨context, rfl, hcontext⟩
      serverName := rfl
      request := hbytes }⟩

/-- The loop over a hop's addresses: at most one connection for each. -/
theorem attempts_asks {allowedPorts : List ℕ} {endpoint : EndpointTarget} {answers : List Str}
    (hproduction : sink.transport.production = true)
    (hlaw : ∀ a : A, (IpAddress.ipAddress? (IpAddress.compressed a) : Option A) = some a)
    (hsent : ∀ signed, signedPart body headers = .ok signed → sent signed) {addresses : List Str}
    (haddresses : ∀ address ∈ addresses, ∃ value ∈ answers, ∃ a : A,
      publicAddress A value = .ok a ∧ address = IpAddress.compressed a)
    {history : List NetEvent} {lastError : PyError}
    (hresolved : Resolved A allowedPorts history endpoint answers)
    (hroom : connections history + addresses.length ≤ most) :
    (sink.attempts A endpoint body headers lastError addresses).Asks
      (Permitted A allowedPorts sent most)
      (fun h _ => connections h ≤ connections history + addresses.length) (fun _ _ => True)
      history := by
  induction addresses generalizing history lastError with
  | nil => trivial
  | cons address addresses ih =>
      rw [List.length_cons] at hroom ⊢
      rw [WebhookDeliverySink.attempts, Program.asks_tryCatch]
      refine Program.Asks.mono ?_ ?_ (send_asks hproduction hlaw hsent hresolved (by omega)
        (haddresses address List.mem_cons_self))
      · rintro h result ⟨-, hcount⟩
        omega
      · rintro h e ⟨hlatest, hcount⟩
        split
        · -- the next address, with this error kept
          refine Program.Asks.mono (fun h' _ hcount' => ?_) (fun _ _ _ => trivial)
            (ih (fun x hx => haddresses x (List.mem_cons_of_mem _ hx))
              ⟨hlatest.trans hresolved.hop, hresolved.parsed, hresolved.passed⟩ (by omega))
          omega
        · trivial

/-- One hop: at most `maximum_addresses` connections, to the answers it was given. -/
theorem hop_asks (hsink : sink.production = true) (hproduction : sink.transport.production = true)
    (hlaw : ∀ a : A, (IpAddress.ipAddress? (IpAddress.compressed a) : Option A) = some a)
    (hsent : ∀ signed, signedPart body headers = .ok signed → sent signed) {history : List NetEvent} {currentUrl : Str}
    (hroom : connections history + sink.transport.limits.maximumAddresses ≤ most) :
    (sink.hop A body headers currentUrl).Asks (Permitted A sink.allowedPorts sent most)
      (fun h _ => connections h ≤ connections history + sink.transport.limits.maximumAddresses)
      (fun _ _ => True) history := by
  unfold WebhookDeliverySink.hop resolveEndpoint
  rw [Program.bind_eq, Program.asks_bind, Program.bind_eq]
  refine Net.asks_lift (fun endpoint hendpoint => ?_) fun e => trivial
  rw [Program.bind_eq, Program.asks_bind]
  refine Program.asks_await trivial (fun answers => ?_) fun e => trivial
  refine Net.asks_lift (fun _ _ => ?_) fun e => trivial
  refine Net.asks_lift (fun approved happroved => ?_) fun e => trivial
  rw [if_pos hsink] at happroved
  obtain ⟨hpassed, hfrom⟩ := validatePublicAddresses_eq_ok happroved
  change (Program.bind (sink.attempts A endpoint body headers _ (approved.take _)) _).Asks _ _ _ _
  rw [Program.asks_bind]
  have hparsed : parseEndpoint currentUrl true sink.allowedPorts = .ok endpoint := by
    rw [hsink] at hendpoint
    split at hendpoint
    · cases hendpoint
    · exact hendpoint
  have hcount : connections (history ++ [⟨.resolve endpoint.hostname endpoint.port, .ok answers⟩]) =
      connections history := by
    rw [connections_append, connections_resolve, Nat.add_zero]
  have htaken : (approved.take sink.transport.limits.maximumAddresses).length ≤
      sink.transport.limits.maximumAddresses := List.length_take_le _ _
  refine Program.Asks.mono (fun h result hh => ?_) (fun _ _ _ => trivial)
    (attempts_asks hproduction hlaw hsent
      (fun address haddress => hfrom address (List.mem_of_mem_take haddress))
      ⟨latestAnswers_resolve, ⟨currentUrl, hparsed⟩, hpassed⟩ ?_)
  · change connections h ≤ _
    omega
  · omega

/-- The chain of redirects, a hop at a time. -/
theorem deliverHops_asks (hsink : sink.production = true)
    (hproduction : sink.transport.production = true)
    (hlaw : ∀ a : A, (IpAddress.ipAddress? (IpAddress.compressed a) : Option A) = some a)
    (hsent : ∀ signed, signedPart body headers = .ok signed → sent signed) {remaining : ℕ} {history : List NetEvent}
    {currentUrl : Str} (hroom : connections history +
      (remaining + 1) * sink.transport.limits.maximumAddresses ≤ most) :
    (sink.deliverHops A body headers remaining currentUrl).Asks
      (Permitted A sink.allowedPorts sent most) (fun _ _ => True) (fun _ _ => True) history := by
  induction remaining generalizing history currentUrl with
  | zero =>
      rw [WebhookDeliverySink.deliverHops, Program.bind_eq, Program.asks_bind]
      refine Program.Asks.mono ?_ (fun _ _ _ => trivial)
        (hop_asks hsink hproduction hlaw hsent (by omega))
      rintro h ⟨endpoint, result⟩ -
      dsimp only
      split_ifs <;> trivial
  | succ remaining ih =>
      rw [WebhookDeliverySink.deliverHops, Program.bind_eq, Program.asks_bind]
      have hexpand : (remaining + 1 + 1) * sink.transport.limits.maximumAddresses =
          (remaining + 1) * sink.transport.limits.maximumAddresses +
            sink.transport.limits.maximumAddresses := Nat.succ_mul _ _
      refine Program.Asks.mono ?_ (fun _ _ _ => trivial)
        (hop_asks hsink hproduction hlaw hsent (by omega))
      rintro h ⟨endpoint, result⟩ hcount
      dsimp only
      split_ifs
      · trivial
      · refine Net.asks_lift (fun location _ => ?_) fun _ => trivial
        refine Net.asks_lift (fun nextUrl _ => ?_) fun _ => trivial
        exact ih (by omega)

/-- What the attempt sends to every host: the body and the headers it signed. -/
def SignedFor (claim : ClaimedDelivery) (now : Datetime)
    (eligible : UUID → Except PyError (List Bytes)) (signed : Bytes) : Prop :=
  ∃ target secretSetId secrets body headers,
    destination claim.routeSnapshot = .ok target ∧
    requiredUuid target "secret_set_id" = .ok secretSetId ∧ eligible secretSetId = .ok secrets ∧
    serializeWebhookEnvelope claim.delivery.deliveryId claim.event = .ok body ∧
    signWebhook (webhookMessageId claim.delivery.deliveryId) now body secrets = .ok headers ∧
    signedPart body headers.values = .ok signed

variable {claim : ClaimedDelivery} {now : Datetime} {eligible : UUID → Except PyError (List Bytes)}

omit [Urllib] in
theorem SignedFor.unique {signed' : Bytes} (h : SignedFor claim now eligible signed)
    (h' : SignedFor claim now eligible signed') : signed = signed' := by
  obtain ⟨target, id, secrets, body, headers, htarget, hid, hsecrets, hbody, hheaders, hsigned⟩ := h
  obtain ⟨target', id', secrets', body', headers', htarget', hid', hsecrets', hbody', hheaders',
    hsigned'⟩ := h'
  cases htarget.symm.trans htarget'
  cases hid.symm.trans hid'
  cases hsecrets.symm.trans hsecrets'
  cases hbody.symm.trans hbody'
  cases hheaders.symm.trans hheaders'
  exact Except.ok.inj (hsigned.symm.trans hsigned')

/-- The whole attempt asks only what is permitted, of the message it signed. -/
theorem deliverAttempt_asks (hsink : sink.production = true)
    (hproduction : sink.transport.production = true)
    (hlaw : ∀ a : A, (IpAddress.ipAddress? (IpAddress.compressed a) : Option A) = some a) :
    (sink.deliverAttempt A claim now eligible).Asks
      (Permitted A sink.allowedPorts (SignedFor claim now eligible)
        ((sink.transport.limits.maximumRedirects + 1) * sink.transport.limits.maximumAddresses))
      (fun _ _ => True) (fun _ _ => True) [] := by
  unfold WebhookDeliverySink.deliverAttempt
  refine Net.asks_lift (fun _ _ => ?_) fun _ => trivial
  refine Net.asks_lift (fun target htarget => ?_) fun _ => trivial
  refine Net.asks_lift (fun endpointUrl _ => ?_) fun _ => trivial
  refine Net.asks_lift (fun secretSetId hid => ?_) fun _ => trivial
  refine Net.asks_lift (fun secrets hsecrets => ?_) fun _ => trivial
  refine Net.asks_lift (fun body hbody => ?_) fun _ => trivial
  refine Net.asks_lift (fun headers hheaders => ?_) fun _ => trivial
  have heligible : eligible secretSetId = .ok secrets := by
    split at hsecrets
    · cases hsecrets
    · exact hsecrets
  apply deliverHops_asks hsink hproduction hlaw
  · intro signed hsigned
    exact ⟨target, secretSetId, secrets, body, headers, htarget, hid, heligible, hbody, hheaders,
      hsigned⟩
  · exact (Nat.zero_add _).le

omit [Platform] [Urllib] in
/-- A history whose connections each find room has no more of them than there is room for. -/
theorem connections_le {history : List NetEvent}
    (h : ∀ before c answer after, history = before ++ ⟨.exchange c, answer⟩ :: after →
      connections before < most) : connections history ≤ most := by
  induction history using List.reverseRecOn with
  | nil => exact Nat.zero_le _
  | append_singleton before e ih =>
      have hbefore : connections before ≤ most := by
        apply ih
        rintro b c answer after rfl
        exact h b c answer (after ++ [e]) (by simp)
      rw [connections_append]
      rcases e with ⟨_ | ⟨hostname, port⟩ | c, answer⟩
      · exact hbefore
      · exact hbefore
      · have hroom := h before c answer [] rfl
        rw [connections_exchange]
        omega

/-- Every connection of an attempt is guarded: whatever the stored URL, the resolver's answers,
the responses and their redirects are, and wherever the attempt stops, a connection goes to an
address of the answer set of its own hop, all of whose answers passed, over verified TLS to the
host of that hop on an allowed port, and carries the one signed body and its headers. There are at
most `(maximum_redirects + 1) * maximum_addresses` connections. -/
theorem webhook_connections_guarded {history : List NetEvent}
    (hsink : sink.production = true) (hproduction : sink.transport.production = true)
    (hlaw : ∀ a : A, (IpAddress.ipAddress? (IpAddress.compressed a) : Option A) = some a)
    (hruns : (sink.deliverAttempt A claim now eligible).Runs history) :
    connections history ≤
        (sink.transport.limits.maximumRedirects + 1) * sink.transport.limits.maximumAddresses ∧
      ∃ signed, ∀ before c answer after, history = before ++ ⟨.exchange c, answer⟩ :: after →
        SignedFor claim now eligible signed ∧
          ∃ endpoint answers, Guarded A sink.allowedPorts signed before c endpoint answers := by
  have hpermitted : ∀ before c answer after, history = before ++ ⟨.exchange c, answer⟩ :: after →
      Permitted A sink.allowedPorts (SignedFor claim now eligible)
        ((sink.transport.limits.maximumRedirects + 1) * sink.transport.limits.maximumAddresses)
        before (.exchange c) := fun before c answer after hsplit =>
    Program.Asks.of_runs hruns (deliverAttempt_asks hsink hproduction hlaw) hsplit
  refine ⟨connections_le fun before c answer after hsplit =>
    (hpermitted before c answer after hsplit).1, ?_⟩
  by_cases hsigned : ∃ signed, SignedFor claim now eligible signed
  · obtain ⟨signed, hsigned⟩ := hsigned
    refine ⟨signed, fun before c answer after hsplit => ?_⟩
    obtain ⟨-, signed', hsigned', hguarded⟩ := hpermitted before c answer after hsplit
    cases hsigned.unique hsigned'
    exact ⟨hsigned, hguarded⟩
  · -- nothing is signed, and nothing is sent
    refine ⟨[], fun before c answer after hsplit => ?_⟩
    obtain ⟨-, signed', hsigned', -⟩ := hpermitted before c answer after hsplit
    exact absurd ⟨signed', hsigned'⟩ hsigned

end Asks

/-! ### A redirected delivery

The receiver of a claimed delivery redirects it to another host.
-/

namespace Redirected

scoped instance platform : Platform := Checksum.platform

scoped instance urllib : Urllib where
  urlsplit url := some ⟨"https", url, "/", [], [], none, none, some url, none⟩
  urlunsplit _ authority _ _ _ := authority
  urljoin _ url := some url
  quote _ s := some s
  idna s := some s

/-- The addresses `1.1.1.1` and `10.0.0.1`. -/
inductive Address where
  | cloud
  | lan
deriving DecidableEq

def Address.text : Address → Str
  | .cloud => "1.1.1.1"
  | .lan => "10.0.0.1"

scoped instance : IpAddress Address where
  ipAddress? s := if s = Address.cloud.text then some .cloud
    else if s = Address.lan.text then some .lan else none
  compressed := Address.text
  ipv4Mapped _ := false
  isGlobal a := a = .cloud
  isMulticast _ := false
  isReserved _ := false
  isUnspecified _ := false
  isLoopback _ := false
  isLinkLocal _ := false
  isPrivate a := a = .lan

def sink : WebhookDeliverySink where
  transport := ⟨⟨1000, 8, 3, by decide, by decide, by decide⟩, true⟩
  production := true
  allowedPorts := [443]

def event : EventRecord :=
  ⟨{ eventId := 1, tenantId := 1, eventType := "e", eventVersion := 1, canonicalVersion := 1,
     payloadCanonical := canonicalPrefix ++ [123, 125]
     payloadSha256 := List.replicate 32 0
     principal := ⟨1, "s", [], none, none, 0, none, none, none⟩
     occurredAt := 0, createdAt := 0, correlationId := none, causationId := none
     traceparent := none, tracestate := none, dedupeNamespace := none, dedupeKey := none },
    by decide +kernel⟩

def delivery : DeliveryRecord :=
  ⟨{ deliveryId := 2, tenantId := 1, eventId := 1, routeKey := "r", routeVersion := 1
     destinationKind := "webhook", destinationKey := "k", routeSnapshot := [123, 125]
     state := .leased, attemptsStarted := 1, createdAt := 0, updatedAt := 0, nextAttemptAt := 0
     leaseToken := some 3, leaseExpiresAt := some 10, replayOf := none, replayActor := none
     replayReason := none }, by decide +kernel⟩

def attempt : AttemptRecord :=
  ⟨{ attemptId := 4, tenantId := 1, deliveryId := 2, attemptNumber := 1, leaseToken := 3
     outcome := .started, startedAt := 0, finishedAt := none, failureCode := none
     failureSummary := none }, by decide +kernel⟩

def claim : ClaimedDelivery where
  event := event
  delivery := delivery
  attempt := attempt
  routeSnapshot := .obj [("destination", .obj [("endpoint_url", .str "a"),
    ("secret_set_id", .str (5 : UUID).str)])]

/-- Every host but `b` redirects to `b`. -/
def answer : List NetEvent → (q : Question) → Except Raised q.Answer
  | _, .sslContext => .ok ⟨certRequired, true, tls12, tlsMaximumSupported⟩
  | _, .resolve _ _ => .ok ["1.1.1.1"]
  | _, .exchange c => .ok (if c.serverHostname = some (Str.ofString "b") then ⟨200, [], 0⟩
      else ⟨302, [("location", "b")], 0⟩)

def history : List NetEvent :=
  Program.play answer [] (sink.deliverAttempt Address claim 0 fun _ => .ok [List.replicate 16 0])

end Redirected

open Redirected in
theorem webhook_connections_guarded_redirected : connections Redirected.history = 2 ∧
    connections Redirected.history ≤ 32 ∧
      ∃ signed, ∀ before c answer after, Redirected.history = before ++ ⟨.exchange c, answer⟩ :: after →
        SignedFor Redirected.claim 0 (fun _ => .ok [List.replicate 16 0]) signed ∧
          ∃ endpoint answers, Guarded Address [443] signed before c endpoint answers := by
  have hlaw : ∀ a : Address, (IpAddress.ipAddress? (IpAddress.compressed a) : Option Address) = some a := by
    rintro (_ | _) <;> decide
  have htwo : connections Redirected.history = 2 := by decide +kernel
  have hproduction : Redirected.sink.transport.production = true := rfl
  exact ⟨htwo, webhook_connections_guarded rfl hproduction hlaw Program.runs_play⟩

end FastapiEffects
