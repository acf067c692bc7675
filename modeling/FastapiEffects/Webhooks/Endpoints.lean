import FastapiEffects.Webhooks.AddressPolicy

/-! # What an endpoint is made of

`parse_endpoint` taken apart: from what it accepts to the parts of its target, and of which
characters these consist. What is relied on of `urllib` and of the `idna` codec is in
`LawfulUrllib`.
-/

namespace FastapiEffects

open Python

/-! ## Parts -/

def defaultPort (scheme : Str) : ℕ := if scheme = "https" then 443 else 80

/-- `port or (443 if ... else 80)`: a port of zero is no port. -/
def effectivePort (scheme : Str) : Option ℕ → ℕ
  | none | some 0 => defaultPort scheme
  | some port => port

/-- `display_host`. -/
def displayHost (hostname : Str) : Str :=
  if hostname.contains (.scalar ':') then "[" ++ hostname ++ "]" else hostname

def authorityOf (scheme hostname : Str) (port : ℕ) : Str :=
  if port = defaultPort scheme then displayHost hostname
  else displayHost hostname ++ ":" ++ Str.ofChars (intText port)

/-- The hostname that is connected to. -/
def hostnameOf (encoded : Str) : Str := rstripDots (encoded.map PyChar.asciiLower)

def requestTargetOf (path query : Str) : Str :=
  if query = [] then path else path ++ [.scalar '?'] ++ query

section Parses

variable [Urllib]

/-- What `parse_endpoint` makes of a URL on its way to the target. -/
structure Parses (value : Str) (production : Bool) (allowedPorts : List ℕ) (parsed : SplitResult)
    (given encoded path query : Str) (endpoint : EndpointTarget) : Prop where
  valid : value ≠ [] ∧ value.length ≤ 2048 ∧ hasControlOrSpace value = false
  split : Urllib.urlsplit value = some parsed
  scheme : endpoint.scheme = parsed.scheme.map PyChar.asciiLower ∧
    (endpoint.scheme = "https" ∨ production = false ∧ endpoint.scheme = "http")
  bare : parsed.netloc ≠ [] ∧ parsed.username = none ∧ parsed.password = none ∧ parsed.fragment = []
  host : parsed.hostname = some given
  idna : Urllib.idna given = some encoded
  hostname : endpoint.hostname = hostnameOf encoded ∧ endpoint.hostname ≠ [] ∧
    endpoint.hostname.length ≤ 253
  port : endpoint.port = effectivePort endpoint.scheme parsed.port ∧ endpoint.port ∈ allowedPorts
  authority : endpoint.authority = authorityOf endpoint.scheme endpoint.hostname endpoint.port
  escapes : hasInvalidPercentEscape parsed.path = false ∧ hasInvalidPercentEscape parsed.query = false
  quotedPath : Urllib.quote pathSafe (if parsed.path = [] then "/" else parsed.path) = some path
  quotedQuery : Urllib.quote querySafe parsed.query = some query
  requestTarget : endpoint.requestTarget = requestTargetOf path query
  url : endpoint.url = Urllib.urlunsplit endpoint.scheme endpoint.authority path query []

/-- A URL is accepted when each of its parts is. -/
theorem parseEndpoint_eq_ok {value : Str} {production : Bool} {allowedPorts : List ℕ}
    {endpoint : EndpointTarget} : parseEndpoint value production allowedPorts = .ok endpoint ↔
      ∃ parsed given encoded path query,
        Parses value production allowedPorts parsed given encoded path query endpoint := by
  constructor
  · intro h
    unfold parseEndpoint at h
    obtain ⟨_, hvalid, h⟩ := bind_eq_ok.mp h
    obtain ⟨parsed, hsplit, h⟩ := bind_eq_ok.mp h
    obtain ⟨_, hscheme, h⟩ := bind_eq_ok.mp h
    obtain ⟨_, hbare, h⟩ := bind_eq_ok.mp h
    obtain ⟨given, hgiven, h⟩ := bind_eq_ok.mp h
    obtain ⟨encoded, hencoded, h⟩ := bind_eq_ok.mp h
    obtain ⟨_, hhostname, h⟩ := bind_eq_ok.mp h
    obtain ⟨_, hallowed, h⟩ := bind_eq_ok.mp h
    obtain ⟨_, hescapes, h⟩ := bind_eq_ok.mp h
    obtain ⟨path, hpath, h⟩ := bind_eq_ok.mp h
    obtain ⟨query, hquery, h⟩ := bind_eq_ok.mp h
    cases h
    simp only [check_eq_ok, decide_eq_true_eq, Bool.not_eq_true, Option.isNone_iff_eq_none,
      List.contains_iff_mem] at hvalid hscheme hbare hhostname hallowed hescapes
    refine ⟨parsed, given, encoded, path, query, ⟨hvalid, orRaise_eq_ok.mp hsplit, ⟨rfl, ?_⟩,
      hbare, orRaise_eq_ok.mp hgiven, orRaise_eq_ok.mp hencoded, ⟨rfl, hhostname⟩,
      ⟨?_, hallowed⟩, ?_, hescapes, orRaise_eq_ok.mp hpath, orRaise_eq_ok.mp hquery, rfl, rfl⟩⟩
    · cases production with
      | true => exact .inl (List.mem_singleton.mp hscheme)
      | false =>
          simp only [Bool.false_eq_true, if_false, List.mem_cons, List.not_mem_nil, or_false]
            at hscheme
          exact hscheme.symm.imp id fun h => ⟨rfl, h⟩
    · rcases parsed.port with _ | _ | port <;> rfl
    · rfl
  · rintro ⟨parsed, given, encoded, path, query, h⟩
    obtain ⟨hscheme, hallowedScheme⟩ := h.scheme
    obtain ⟨hhostname, hhostname_valid⟩ := h.hostname
    obtain ⟨hport, hallowed⟩ := h.port
    have hauthority := h.authority
    have htarget := h.requestTarget
    have hurl := h.url
    have hport' := hport.symm
    obtain ⟨url, scheme, hostname, port, authority, requestTarget⟩ := endpoint
    dsimp only at hscheme hallowedScheme hhostname hhostname_valid hport hallowed hauthority
    dsimp only at htarget hurl hport'
    subst hscheme hhostname hauthority htarget hurl
    unfold parseEndpoint
    refine bind_eq_ok.mpr ⟨(), ?_, bind_eq_ok.mpr ⟨parsed, orRaise_eq_ok.mpr h.split,
      bind_eq_ok.mpr ⟨(), ?_, bind_eq_ok.mpr ⟨(), ?_, bind_eq_ok.mpr ⟨given, orRaise_eq_ok.mpr h.host,
        bind_eq_ok.mpr ⟨encoded, orRaise_eq_ok.mpr h.idna, bind_eq_ok.mpr ⟨(), ?_,
          bind_eq_ok.mpr ⟨(), ?_, bind_eq_ok.mpr ⟨(), ?_, bind_eq_ok.mpr ⟨path,
            orRaise_eq_ok.mpr h.quotedPath, bind_eq_ok.mpr ⟨query, orRaise_eq_ok.mpr h.quotedQuery,
              ?_⟩⟩⟩⟩⟩⟩⟩⟩⟩⟩⟩
    · simpa only [check_eq_ok, decide_eq_true_eq, Bool.not_eq_true] using h.valid
    · rw [check_eq_ok, List.contains_iff_mem]
      rcases hallowedScheme with heq | ⟨rfl, heq⟩
      · rw [heq]
        cases production <;> decide
      · rw [heq]
        decide
    · simpa only [check_eq_ok, decide_eq_true_eq, Option.isNone_iff_eq_none] using h.bare
    · rw [check_eq_ok, decide_eq_true_eq]
      exact hhostname_valid
    · rw [check_eq_ok, List.contains_iff_mem]
      rw [← hport'] at hallowed
      exact hallowed
    · simpa only [check_eq_ok, decide_eq_true_eq, Bool.not_eq_true] using h.escapes
    · rw [← hport']
      rfl

/-- It is refused with a configuration error. -/
theorem parseEndpoint_eq_error {value : Str} {production : Bool} {allowedPorts : List ℕ}
    {e : PyError} (h : parseEndpoint value production allowedPorts = .error e) :
    ∃ message, e = .configuration message := by
  have hcheck : ∀ {ok : Bool} {m : String}, check ok (.configuration m) = .error e →
      ∃ message, e = .configuration message := fun h => ⟨_, (check_eq_error.mp h).2⟩
  have hraise : ∀ {α : Type} {x : Option α} {m : String}, orRaise x (.configuration m) = .error e →
      ∃ message, e = .configuration message := fun h => ⟨_, (orRaise_eq_error.mp h).2⟩
  unfold parseEndpoint at h
  rcases bind_eq_error.mp h with h | ⟨_, -, h⟩
  · exact hcheck h
  rcases bind_eq_error.mp h with h | ⟨_, -, h⟩
  · exact hraise h
  rcases bind_eq_error.mp h with h | ⟨_, -, h⟩
  · exact hcheck h
  rcases bind_eq_error.mp h with h | ⟨_, -, h⟩
  · exact hcheck h
  rcases bind_eq_error.mp h with h | ⟨_, -, h⟩
  · exact hraise h
  rcases bind_eq_error.mp h with h | ⟨_, -, h⟩
  · exact hraise h
  rcases bind_eq_error.mp h with h | ⟨_, -, h⟩
  · exact hcheck h
  rcases bind_eq_error.mp h with h | ⟨_, -, h⟩
  · exact hcheck h
  rcases bind_eq_error.mp h with h | ⟨_, -, h⟩
  · exact hcheck h
  rcases bind_eq_error.mp h with h | ⟨_, -, h⟩
  · exact hraise h
  rcases bind_eq_error.mp h with h | ⟨_, -, h⟩
  · exact hraise h
  · cases h

end Parses

/-! ## Characters -/

/-- A control character of ASCII. -/
def isControl (c : PyChar) : Bool := c.ord < 32 ∨ c.ord = 127

/-- A character that `quote` leaves as it is whatever is safe. -/
def isAlwaysSafe (c : PyChar) : Bool :=
  c.isIn [('0', '9'), ('A', 'Z'), ('a', 'z')] ['_', '.', '-', '~']

/-- What is relied on: `quote` writes what it leaves and percent escapes, the codec writes ASCII
and no control character of its own, and a hostname is made of the URL. -/
class LawfulUrllib [Urllib] : Prop where
  quote_mem : ∀ safe s t, Urllib.quote safe s = some t →
    ∀ c ∈ t, isAlwaysSafe c = true ∨ c ∈ safe ∨ c = .scalar '%'
  idna_isAscii : ∀ s t, Urllib.idna s = some t → t.isAscii = true
  idna_control : ∀ s t, Urllib.idna s = some t → ∀ c ∈ t, isControl c = true → c ∈ s
  hostname_control : ∀ url parts host, Urllib.urlsplit url = some parts →
    parts.hostname = some host → ∀ c ∈ host, isControl c = true → c ∈ url

/-- A visible character of ASCII. -/
def isVisible (c : PyChar) : Bool := c.between '!' '~'

theorem isVisible_of_isAlwaysSafe {c : PyChar} (h : isAlwaysSafe c = true) : isVisible c = true := by
  have hlt : c.ord < 127 := PyChar.ord_lt_of_isIn (by decide) (by decide) h
  have hle : 33 ≤ c.ord := PyChar.le_ord_of_isIn (by decide) (by decide) h
  refine decide_eq_true ⟨hle, ?_⟩
  show c.ord ≤ 126
  omega

/-- A lower case letter is no control character, and stays in ASCII. -/
theorem ord_asciiLower {c : PyChar} : c.asciiLower.ord = c.ord ∨
    65 ≤ c.ord ∧ c.ord ≤ 90 ∧ c.asciiLower.ord = c.ord + 32 := by
  unfold PyChar.asciiLower
  split_ifs with h
  · have hbounds : 65 ≤ c.ord ∧ c.ord ≤ 90 := of_decide_eq_true h
    refine .inr ⟨hbounds.1, hbounds.2, ?_⟩
    have hvalid : (c.ord + 32).isValidChar := .inl (by omega)
    show (Char.ofNat (c.ord + 32)).toNat = c.ord + 32
    rw [Char.ofNat, dif_pos hvalid]
    rfl
  · exact .inl rfl

section Characters

variable [Urllib] [LawfulUrllib] {value : Str} {production : Bool} {allowedPorts : List ℕ}
  {parsed : SplitResult} {given encoded path query : Str} {endpoint : EndpointTarget}

theorem quote_visible {safe s t : Str} (hsafe : safe.all isVisible = true)
    (h : Urllib.quote safe s = some t) : ∀ c ∈ t, isVisible c = true := by
  intro c hc
  rcases LawfulUrllib.quote_mem safe s t h c hc with halways | hmem | rfl
  · exact isVisible_of_isAlwaysSafe halways
  · exact List.all_eq_true.mp hsafe c hmem
  · decide

/-- A request target has neither spaces nor line breaks. -/
theorem Parses.requestTarget_visible
    (h : Parses value production allowedPorts parsed given encoded path query endpoint) :
    ∀ c ∈ endpoint.requestTarget, isVisible c = true := by
  have hpath := quote_visible (by decide) h.quotedPath
  have hquery := quote_visible (by decide) h.quotedQuery
  rw [h.requestTarget, requestTargetOf]
  split_ifs
  · exact hpath
  · intro c hc
    rcases List.mem_append.mp hc with hc | hc
    · rcases List.mem_append.mp hc with hc | hc
      · exact hpath c hc
      · rw [List.mem_singleton.mp hc]
        decide
    · exact hquery c hc

/-- Neither a line break nor any other control character, and in ASCII. -/
def IsPlain (c : PyChar) : Prop := c.ord < 128 ∧ isControl c = false

instance (c : PyChar) : Decidable (IsPlain c) := inferInstanceAs (Decidable (_ ∧ _))

omit [Urllib] [LawfulUrllib] in
theorem isPlain_of_isVisible {c : PyChar} (h : isVisible c = true) : IsPlain c := by
  have hbounds : 33 ≤ c.ord ∧ c.ord ≤ 126 := of_decide_eq_true h
  exact ⟨by omega, decide_eq_false (by omega)⟩

/-- The control characters of a hostname were in the URL, which has none. -/
theorem Parses.hostname_plain
    (h : Parses value production allowedPorts parsed given encoded path query endpoint) :
    ∀ c ∈ endpoint.hostname, IsPlain c := by
  intro c hc
  rw [h.hostname.1, hostnameOf, rstripDots] at hc
  obtain ⟨c', hc', rfl⟩ := List.mem_map.mp ((List.rdropWhile_prefix _ _).subset hc)
  have hascii := Str.ord_lt_of_isAscii (LawfulUrllib.idna_isAscii _ _ h.idna) c' hc'
  have hcontrol : isControl c' = false := by
    rw [Bool.eq_false_iff]
    intro hcontrol
    have hmem := LawfulUrllib.hostname_control _ _ _ h.split h.host c'
      (LawfulUrllib.idna_control _ _ h.idna c' hc' hcontrol) hcontrol
    have hnone := List.any_eq_false.mp h.valid.2.2 c' hmem
    have hbounds : c'.ord < 32 ∨ c'.ord = 127 := of_decide_eq_true hcontrol
    exact hnone (decide_eq_true (by omega))
  have hbounds : ¬ (c'.ord < 32 ∨ c'.ord = 127) := of_decide_eq_false hcontrol
  have hlower := ord_asciiLower (c := c')
  exact ⟨by omega, decide_eq_false (by omega)⟩

omit [Urllib] [LawfulUrllib] in
theorem isPlain_intText (n : ℤ) : ∀ c ∈ Str.ofChars (intText n), IsPlain c := by
  have hdigits : ∀ m : ℕ, ∀ c ∈ Str.ofChars (Nat.toDigits 10 m), IsPlain c := by
    intro m c hc
    obtain ⟨d, hd, rfl⟩ := List.mem_map.mp hc
    have hdigit := Nat.isDigit_of_mem_toDigits (by norm_num) (by norm_num) hd
    have hbounds : 48 ≤ d.toNat ∧ d.toNat ≤ 57 := Char.isDigit_iff_toNat.mp hdigit
    refine isPlain_of_isVisible (decide_eq_true ?_)
    show 33 ≤ d.toNat ∧ d.toNat ≤ 126
    omega
  cases n with
  | ofNat m => exact hdigits m
  | negSucc m => exact List.forall_mem_cons.mpr ⟨by decide, hdigits _⟩

omit [Urllib] [LawfulUrllib] in
theorem isPlain_append {s t : Str} (hs : ∀ c ∈ s, IsPlain c) (ht : ∀ c ∈ t, IsPlain c) :
    ∀ c ∈ s ++ t, IsPlain c := by
  intro c hc
  rcases List.mem_append.mp hc with hc | hc
  · exact hs c hc
  · exact ht c hc

omit [Urllib] [LawfulUrllib] in
theorem isPlain_displayHost {hostname : Str} (h : ∀ c ∈ hostname, IsPlain c) :
    ∀ c ∈ displayHost hostname, IsPlain c := by
  unfold displayHost
  split_ifs
  · exact isPlain_append (isPlain_append (by decide) h) (by decide)
  · exact h

theorem Parses.authority_plain
    (h : Parses value production allowedPorts parsed given encoded path query endpoint) :
    ∀ c ∈ endpoint.authority, IsPlain c := by
  have hhost := isPlain_displayHost h.hostname_plain
  rw [h.authority, authorityOf]
  split_ifs
  · exact hhost
  · exact isPlain_append (isPlain_append hhost (by decide)) (isPlain_intText _)

end Characters

/-! ### Two hosts

`urllib` as it is on the URLs of the hosts `a` and `b`.
-/

namespace Hosts

/-- What `urlsplit` makes of `https://` with a host and the path `/`. -/
def splitResult (host : Str) : SplitResult :=
  ⟨"https", host, "/", [], [], none, none, some host, none⟩

scoped instance urllib : Urllib where
  urlsplit url :=
    if url = Str.ofString "https://a/" then some (splitResult "a")
    else if url = Str.ofString "https://b/" then some (splitResult "b") else none
  urlunsplit scheme netloc path query _ :=
    scheme ++ "://" ++ netloc ++ path ++ (if query = [] then [] else .scalar '?' :: query)
  -- the hosts are named in full, and one bracket alone is no host
  urljoin _ url := if url = Str.ofString "http://[" then none else some url
  quote safe s :=
    if s.all fun c => isAlwaysSafe c ∨ c ∈ safe ∨ c = .scalar '%' then some s else none
  idna s := if s.isAscii then some s else none

scoped instance : LawfulUrllib where
  quote_mem safe s t h c hc := by
    simp only [Urllib.quote] at h
    split_ifs at h with hall
    cases h
    exact of_decide_eq_true (List.all_eq_true.mp hall c hc)
  idna_isAscii s t h := by
    simp only [Urllib.idna] at h
    split_ifs at h with hascii
    cases h
    exact hascii
  idna_control s t h c hc hcontrol := by
    simp only [Urllib.idna] at h
    split_ifs at h with hascii
    cases h
    exact hc
  hostname_control url parts host hsplit hhost c hc hcontrol := by
    simp only [Urllib.urlsplit] at hsplit
    split_ifs at hsplit <;> cases hsplit <;> cases hhost
    · rw [List.mem_singleton.mp hc] at hcontrol
      exact absurd hcontrol (by decide)
    · rw [List.mem_singleton.mp hc] at hcontrol
      exact absurd hcontrol (by decide)

end Hosts

end FastapiEffects
