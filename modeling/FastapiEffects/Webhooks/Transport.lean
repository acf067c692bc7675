import FastapiEffects.Interaction
import FastapiEffects.Webhooks.AddressPolicy
import FastapiEffects.Webhooks.Signing

/-! # The transport that connects to an explicit address

`ExplicitIPTransport.send` and `resolve_endpoint` as programs that ask the network. What the
resolver answers, what a connection comes to and what the shared `SSLContext` shows at each look
are the surroundings' to choose. An exchange is one connection: it is opened, the request is
written to it and the response is read from it. Timeouts show as answers.
-/

namespace FastapiEffects

open Python Interaction

/-! ## What the network is asked -/

/-- An `ssl.SSLContext`: `CERT_REQUIRED` is 2, and versions are those of `ssl.TLSVersion`. -/
structure SslContext where
  verifyMode : ℤ
  checkHostname : Bool
  minimumVersion : ℤ
  maximumVersion : ℤ
deriving DecidableEq

/-- One call of the connection opener, with the request that is written to what it opens. -/
structure Connection where
  host : Str
  port : ℕ
  ssl : Option SslContext
  serverHostname : Option Str
  request : Bytes
deriving DecidableEq

/-- `HttpResponseMetadata`. -/
structure HttpResponseMetadata where
  statusCode : ℕ
  headers : List (Str × Str)
  discardedBodyBytes : ℕ
deriving DecidableEq

inductive Question where
  | sslContext
  | resolve (hostname : Str) (port : ℕ)
  | exchange (connection : Connection)

@[reducible] def Question.Answer : Question → Type
  | .sslContext => SslContext
  | .resolve _ _ => List Str
  | .exchange _ => HttpResponseMetadata

/-- What an await may raise: an exception of the library, one of `ssl.SSLError`, `OSError` and
`TimeoutError`, or `CancelledError`. -/
inductive Raised where
  | error (e : PyError)
  | network
  | cancelled
deriving DecidableEq

abbrev Net := Program Question Question.Answer Raised

abbrev NetEvent := Interaction.Event Question Question.Answer Raised

def Net.ask (q : Question) : Net q.Answer := .await q

def Net.lift {α : Type} (x : Except PyError α) : Net α :=
  .ofExcept (x.mapError .error)

/-! ## Limits -/

/-- `TransportLimits`, without its timeouts. -/
structure TransportLimits where
  maximumRequestBytes : ℕ
  maximumAddresses : ℕ
  maximumRedirects : ℕ
  request_pos : 1 ≤ maximumRequestBytes
  addresses_le : 1 ≤ maximumAddresses ∧ maximumAddresses ≤ 64
  redirects_le : maximumRedirects ≤ 5

structure TransportResult where
  connectedIp : Str
  response : HttpResponseMetadata
deriving DecidableEq

/-- `ExplicitIPTransport`. -/
structure ExplicitIPTransport where
  limits : TransportLimits
  production : Bool

def certRequired : ℤ := 2

def tls12 : ℤ := 771

def tlsMaximumSupported : ℤ := -1

/-- `_validate_ssl_context`. -/
def validateSslContext (context : SslContext) : Except PyError Unit := do
  check (context.verifyMode = certRequired ∧ context.checkHostname)
    (.configuration "Production webhook TLS requires certificate and hostname verification.")
  check (tls12 ≤ context.minimumVersion)
    (.configuration "Production webhook TLS requires TLS 1.2 or newer.")
  check (context.maximumVersion = tlsMaximumSupported ∨ tls12 ≤ context.maximumVersion)
    (.configuration "Production webhook TLS maximum excludes TLS 1.2.")

/-! ## The request -/

def protectedHeaders : List Str := ["host", "content-length", "connection", "transfer-encoding"]

def crlf : Str := "\r\n"

/-- `text.encode("ascii")` of ASCII text. -/
def asciiBytes (text : Str) : Bytes := text.map fun c => UInt8.ofNat c.ord

section Request

variable [Platform]

/-- `sorted(headers.items(), key=lambda item: item[0].lower())`. -/
def sortHeaders (headers : List (Str × Str)) : List (Str × Str) :=
  headers.insertionSort fun a b => (Platform.lower a.1).le (Platform.lower b.1)

/-- The line of one header. -/
def headerLine (header : Str × Str) : Except PyError Str := do
  let (name, value) := header
  let normalized := Platform.lower name
  check (¬ protectedHeaders.contains normalized ∧ normalized ≠ [] ∧
      ¬ name.any (PyChar.isIn [] ['\r', '\n', ':']) ∧
      ¬ value.any (PyChar.isIn [] ['\r', '\n', '\x00']))
    (.configuration "Webhook request headers are invalid.")
  return name ++ ": " ++ value

/-- `_request_bytes`. -/
def requestBytes (endpoint : EndpointTarget) (body : Bytes) (headers : List (Str × Str)) :
    Except PyError Bytes := do
  let fields ← (sortHeaders headers).mapM headerLine
  let lines : List Str :=
    ["POST " ++ endpoint.requestTarget ++ " HTTP/1.1", "Host: " ++ endpoint.authority] ++ fields ++
      ["Content-Length: " ++ Str.ofChars (intText body.length), "Connection: close", [], []]
  let head : Str := crlf.intercalate lines
  check head.isAscii (.configuration "Webhook request headers must be ASCII.")
  return asciiBytes head ++ body

/-- What a request has after its first two lines: the headers it was given, and the body. -/
def signedPart (body : Bytes) (headers : List (Str × Str)) : Except PyError Bytes := do
  let fields ← (sortHeaders headers).mapM headerLine
  return asciiBytes (crlf.intercalate (fields ++
    ["Content-Length: " ++ Str.ofChars (intText body.length), "Connection: close", [], []])) ++ body

/-- What stands before it: the target and the host, which are the endpoint's. -/
def requestStart (endpoint : EndpointTarget) : Str :=
  "POST " ++ endpoint.requestTarget ++ " HTTP/1.1" ++ crlf ++ ("Host: " ++ endpoint.authority) ++ crlf

omit [Platform] in
theorem intercalate_cons {α : Type} (sep x y : List α) (rest : List (List α)) :
    sep.intercalate (x :: y :: rest) = x ++ sep ++ sep.intercalate (y :: rest) := by
  simp [List.intercalate, List.intersperse]

/-- Two requests with the same body and headers differ in their first two lines only. -/
theorem requestBytes_eq_ok {endpoint : EndpointTarget} {body request : Bytes}
    {headers : List (Str × Str)} (h : requestBytes endpoint body headers = .ok request) :
    ∃ rest, signedPart body headers = .ok rest ∧
      request = asciiBytes (requestStart endpoint) ++ rest := by
  unfold requestBytes at h
  obtain ⟨fields, hfields, h⟩ := bind_eq_ok.mp h
  obtain ⟨_, -, h⟩ := bind_eq_ok.mp h
  cases h
  refine ⟨_, bind_eq_ok.mpr ⟨fields, hfields, rfl⟩, ?_⟩
  have hcons : ∃ line lines, fields ++ ["Content-Length: " ++ Str.ofChars (intText body.length),
      Str.ofString "Connection: close", [], []] = line :: lines := by
    cases fields with
    | nil => exact ⟨_, _, rfl⟩
    | cons line lines => exact ⟨_, _, rfl⟩
  obtain ⟨line, lines, hcons⟩ := hcons
  simp only [List.cons_append, List.nil_append, hcons, intercalate_cons, requestStart, asciiBytes,
    List.map_append, List.append_assoc]

end Request

/-! ## Sending and resolving -/

section Send

variable [Platform] [Urllib] (A : Type) [IpAddress A]

/-- The address `send` connects to. -/
def ExplicitIPTransport.approve (transport : ExplicitIPTransport) (connectedIp : Str) :
    Except PyError Str :=
  if transport.production then do
    let approved ← validatePublicAddresses A [connectedIp]
    -- an answer set that is accepted is not empty
    orRaise approved.head? .key
  else .ok connectedIp

/-- `except (ssl.SSLError, OSError, TimeoutError)`. -/
def transportFailed : Raised → Raised
  | .network => .error (.retryableDelivery "webhook.transport_failed"
      "Webhook TLS or network transport failed." none)
  | e => e

/-- `ExplicitIPTransport.send`. -/
def ExplicitIPTransport.send (transport : ExplicitIPTransport) (endpoint : EndpointTarget)
    (connectedIp : Str) (body : Bytes) (headers : List (Str × Str)) : Net TransportResult := do
  let context ← Net.ask .sslContext
  Net.lift (if transport.production then validateSslContext context else .ok ())
  let approved ← Net.lift (transport.approve A connectedIp)
  let request ← Net.lift (requestBytes endpoint body headers)
  Net.lift (check (request.length ≤ transport.limits.maximumRequestBytes)
    (.permanentDelivery "webhook.request_oversized"
      "Webhook request exceeded its configured byte limit."))
  let useTls : Bool := endpoint.scheme = "https"
  let connection : Connection := {
    host := approved, port := endpoint.port
    ssl := if useTls then some context else none
    serverHostname := if useTls then some endpoint.hostname else none
    request }
  let response ← (Net.ask (.exchange connection)).tryCatch
    fun e => .raise (transportFailed e)
  return ⟨approved, response⟩

/-- `resolve_endpoint`. -/
def resolveEndpoint (value : Str) (production : Bool) (allowedPorts : List ℕ)
    (maximumAddresses : ℕ) : Net (EndpointTarget × List Str) := do
  let endpoint ← Net.lift (match parseEndpoint value production allowedPorts with
    | .error (.configuration _) => .error (.permanentDelivery "webhook.endpoint_invalid"
        "Webhook endpoint or redirect URL is invalid.")
    | parsed => parsed)
  let addresses ← Net.ask (.resolve endpoint.hostname endpoint.port)
  Net.lift (check (1 ≤ maximumAddresses ∧ maximumAddresses ≤ 64)
    (.configuration "Webhook address attempt limit is invalid."))
  let approved ← Net.lift (if production then validatePublicAddresses A addresses
    else do
      check (addresses ≠ []) (.configuration "Webhook DNS resolver returned no addresses.")
      return addresses)
  return (endpoint, approved.take maximumAddresses)

end Send

end FastapiEffects
