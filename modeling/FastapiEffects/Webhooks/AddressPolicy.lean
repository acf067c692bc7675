import FastapiEffects.Errors
import FastapiEffects.Python.Dumps

/-! # Webhook endpoints and their addresses

`parse_endpoint` and `validate_public_addresses`: which URLs a webhook may have, and which
addresses it may be sent to. The splitting, joining and quoting of URLs, the `idna` codec
and the classification of addresses are parameters.
-/

namespace FastapiEffects

open Python

/-- What `urlsplit` reads. -/
structure SplitResult where
  scheme : Str
  netloc : Str
  path : Str
  query : Str
  fragment : Str
  username : Option Str
  password : Option Str
  hostname : Option Str
  port : Option ℕ

/-- `urllib.parse` and the `idna` codec; `none` is a `ValueError`. -/
class Urllib where
  urlsplit : Str → Option SplitResult
  urlunsplit (scheme netloc path query fragment : Str) : Str
  urljoin (base url : Str) : Option Str
  quote (safe s : Str) : Option Str
  idna : Str → Option Str

/-- An address of `ipaddress`. -/
class IpAddress (A : Type) where
  ipAddress? : Str → Option A
  compressed : A → Str
  ipv4Mapped : A → Bool
  isGlobal : A → Bool
  isMulticast : A → Bool
  isReserved : A → Bool
  isUnspecified : A → Bool
  isLoopback : A → Bool
  isLinkLocal : A → Bool
  isPrivate : A → Bool

/-! ## Endpoints -/

/-- `EndpointTarget`. -/
structure EndpointTarget where
  url : Str
  scheme : Str
  hostname : Str
  port : ℕ
  authority : Str
  requestTarget : Str
deriving DecidableEq

/-- `_CONTROL_OR_SPACE.search`. -/
def hasControlOrSpace (s : Str) : Bool := s.any fun c => c.ord ≤ 32 ∨ c.ord = 127

def isHex (c : PyChar) : Bool := c.isIn [('0', '9'), ('A', 'F'), ('a', 'f')] []

/-- `_INVALID_PERCENT_ESCAPE.search`: a percent sign that two hexadecimal digits do not follow. -/
def hasInvalidPercentEscape : Str → Bool
  | [] => false
  | c :: rest =>
      (c = .scalar '%' ∧ ¬ ((rest.take 2).length = 2 ∧ (rest.take 2).all isHex)) ||
        hasInvalidPercentEscape rest

def pathSafe : Str := "/:@-._~!$&'()*+,;=%"

def querySafe : Str := "/?:@-._~!$&'()*+,;=%"

/-- `s.rstrip(".")`. -/
def rstripDots (s : Str) : Str := s.rdropWhile fun c => c = .scalar '.'

section Endpoint

variable [Urllib]

/-- `parse_endpoint`. -/
def parseEndpoint (value : Str) (production : Bool) (allowedPorts : List ℕ) :
    Except PyError EndpointTarget := do
  check (value ≠ [] ∧ value.length ≤ 2048 ∧ ¬ hasControlOrSpace value)
    (.configuration "Webhook endpoint URL is invalid.")
  let parsed ← orRaise (Urllib.urlsplit value)
    (.configuration "Webhook endpoint authority is invalid.")
  let scheme := parsed.scheme.map PyChar.asciiLower
  let allowedSchemes : List Str := if production then ["https"] else ["http", "https"]
  check (allowedSchemes.contains scheme)
    (.configuration "Webhook endpoint scheme is not allowed.")
  check (parsed.netloc ≠ [] ∧ parsed.username.isNone ∧ parsed.password.isNone ∧ parsed.fragment = [])
    (.configuration "Webhook endpoint authority is invalid.")
  let given ← orRaise parsed.hostname (.configuration "Webhook endpoint authority is invalid.")
  let encoded ← orRaise (Urllib.idna given)
    (.configuration "Webhook endpoint hostname is invalid.")
  let hostname := rstripDots (encoded.map PyChar.asciiLower)
  check (hostname ≠ [] ∧ hostname.length ≤ 253)
    (.configuration "Webhook endpoint hostname is invalid.")
  let defaultPort : ℕ := if scheme = "https" then 443 else 80
  -- a port of zero is no port
  let effectivePort := match parsed.port with
    | none | some 0 => defaultPort
    | some port => port
  check (allowedPorts.contains effectivePort)
    (.configuration "Webhook endpoint port is not allowed.")
  let displayHost : Str :=
    if hostname.contains (.scalar ':') then "[" ++ hostname ++ "]" else hostname
  let authority : Str := if effectivePort = defaultPort then displayHost
    else displayHost ++ ":" ++ Str.ofChars (intText effectivePort)
  check (¬ hasInvalidPercentEscape parsed.path ∧ ¬ hasInvalidPercentEscape parsed.query)
    (.configuration "Webhook endpoint URL contains an invalid percent escape.")
  let unicode := PyError.configuration "Webhook endpoint URL contains invalid Unicode."
  let path ← orRaise
    (Urllib.quote pathSafe (if parsed.path = [] then "/" else parsed.path)) unicode
  let query ← orRaise (Urllib.quote querySafe parsed.query) unicode
  let requestTarget : Str := if query = [] then path else path ++ [.scalar '?'] ++ query
  return {
    url := Urllib.urlunsplit scheme authority path query []
    scheme, hostname, port := effectivePort, authority, requestTarget }

/-- What is accepted in production: `https` on an allowed port. -/
theorem parseEndpoint_production {value : Str} {allowedPorts : List ℕ} {endpoint : EndpointTarget}
    (h : parseEndpoint value true allowedPorts = .ok endpoint) :
    endpoint.scheme = "https" ∧ endpoint.port ∈ allowedPorts := by
  unfold parseEndpoint at h
  obtain ⟨_, -, h⟩ := bind_eq_ok.mp h
  obtain ⟨parsed, -, h⟩ := bind_eq_ok.mp h
  obtain ⟨_, hscheme, h⟩ := bind_eq_ok.mp h
  obtain ⟨_, -, h⟩ := bind_eq_ok.mp h
  obtain ⟨given, -, h⟩ := bind_eq_ok.mp h
  obtain ⟨encoded, -, h⟩ := bind_eq_ok.mp h
  obtain ⟨_, -, h⟩ := bind_eq_ok.mp h
  obtain ⟨_, hport, h⟩ := bind_eq_ok.mp h
  obtain ⟨_, -, h⟩ := bind_eq_ok.mp h
  obtain ⟨path, -, h⟩ := bind_eq_ok.mp h
  obtain ⟨query, -, h⟩ := bind_eq_ok.mp h
  cases h
  refine ⟨?_, List.contains_iff_mem.mp (check_eq_ok.mp hport)⟩
  have hmem := List.contains_iff_mem.mp (check_eq_ok.mp hscheme)
  rw [if_pos rfl] at hmem
  exact List.mem_singleton.mp hmem

end Endpoint

/-! ## Addresses -/

section Addresses

variable (A : Type) [IpAddress A]

/-- `ipaddress.ip_address` and the checks of `validate_public_addresses` on one answer. -/
def publicAddress (value : Str) : Except PyError A := do
  let address ← orRaise (IpAddress.ipAddress? value : Option A)
    (.permanentDelivery "webhook.address_invalid" "Endpoint DNS returned an invalid address.")
  check (¬ IpAddress.ipv4Mapped address) (.permanentDelivery "webhook.address_forbidden"
    "Endpoint DNS returned an IPv4-mapped IPv6 address.")
  check (IpAddress.isGlobal address ∧ ¬ IpAddress.isMulticast address ∧
      ¬ IpAddress.isReserved address ∧ ¬ IpAddress.isUnspecified address ∧
      ¬ IpAddress.isLoopback address ∧ ¬ IpAddress.isLinkLocal address ∧
      ¬ IpAddress.isPrivate address)
    (.permanentDelivery "webhook.address_forbidden"
      "Endpoint DNS returned a forbidden non-global address.")
  return address

/-- The loop of `validate_public_addresses`. -/
def normalizeAddresses (normalized : List Str) : List Str → Except PyError (List Str)
  | [] => .ok normalized
  | value :: rest => do
      let address ← publicAddress A value
      let canonical := IpAddress.compressed address
      normalizeAddresses
        (if normalized.contains canonical then normalized else normalized ++ [canonical]) rest

/-- `validate_public_addresses`. -/
def validatePublicAddresses (addresses : List Str) : Except PyError (List Str) := do
  check (addresses ≠ [] ∧ addresses.length ≤ 32) (.permanentDelivery "webhook.dns_policy"
    "Endpoint DNS returned no acceptable bounded answer set.")
  normalizeAddresses A [] addresses

variable {A}

/-- An accepted answer is the text of its address. -/
theorem ipAddress?_of_publicAddress {value : Str} {a : A} (h : publicAddress A value = .ok a) :
    (IpAddress.ipAddress? value : Option A) = some a := by
  unfold publicAddress at h
  obtain ⟨b, hb, h⟩ := bind_eq_ok.mp h
  obtain ⟨_, -, h⟩ := bind_eq_ok.mp h
  obtain ⟨_, -, h⟩ := bind_eq_ok.mp h
  cases h
  exact orRaise_eq_ok.mp hb

/-- The loop accepts every answer, and what it collects are addresses of these. -/
theorem normalizeAddresses_eq_ok {normalized addresses approved : List Str}
    (h : normalizeAddresses A normalized addresses = .ok approved) :
    (∀ value ∈ addresses, ∃ a : A, publicAddress A value = .ok a) ∧
      ∀ host ∈ approved, host ∈ normalized ∨ ∃ value ∈ addresses, ∃ a : A,
        publicAddress A value = .ok a ∧ host = IpAddress.compressed a := by
  induction addresses generalizing normalized with
  | nil =>
      cases h
      exact ⟨fun value hvalue => absurd hvalue List.not_mem_nil, fun host hhost => Or.inl hhost⟩
  | cons value rest ih =>
      rw [normalizeAddresses] at h
      obtain ⟨a, ha, h⟩ := bind_eq_ok.mp h
      obtain ⟨hpass, hfrom⟩ := ih h
      constructor
      · intro v hv
        rcases List.mem_cons.mp hv with rfl | hv
        · exact ⟨a, ha⟩
        · exact hpass v hv
      · intro host hhost
        rcases hfrom host hhost with hin | ⟨v, hv, b, hb, hhost⟩
        · split_ifs at hin with hseen
          · exact Or.inl hin
          · rcases List.mem_append.mp hin with hin | hin
            · exact Or.inl hin
            · exact Or.inr ⟨value, List.mem_cons_self, a, ha, List.mem_singleton.mp hin⟩
        · exact Or.inr ⟨v, List.mem_cons_of_mem _ hv, b, hb, hhost⟩

/-- An answer set is accepted as a whole: every answer passes, and the result holds
addresses of answers only. -/
theorem validatePublicAddresses_eq_ok {addresses approved : List Str}
    (h : validatePublicAddresses A addresses = .ok approved) :
    (∀ value ∈ addresses, ∃ a : A, publicAddress A value = .ok a) ∧
      ∀ host ∈ approved, ∃ value ∈ addresses, ∃ a : A,
        publicAddress A value = .ok a ∧ host = IpAddress.compressed a := by
  unfold validatePublicAddresses at h
  obtain ⟨_, -, h⟩ := bind_eq_ok.mp h
  obtain ⟨hpass, hfrom⟩ := normalizeAddresses_eq_ok h
  refine ⟨hpass, fun host hhost => ?_⟩
  rcases hfrom host hhost with hnil | hex
  · cases hnil
  · exact hex

end Addresses

end FastapiEffects
