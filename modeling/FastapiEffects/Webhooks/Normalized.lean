import FastapiEffects.Python.Urlsplit
import FastapiEffects.Webhooks.Endpoints
import FastapiEffects.Webhooks.Transport

/-! # Endpoints that are parsed again

A subscription keeps the normalized URL of its endpoint, and a delivery parses that URL. With
`urllib` spelled out the second reading is compared with the first one: it gives the same target
when the URL is not too long and its host is one that a URL can name; and a port that is written
as zero is not the port of the target.
-/

namespace FastapiEffects

open Python

section Normalized

variable [Url.Hostnames]

/-- `urllib` as it is, the parts behind a hostname apart. -/
instance : Urllib where
  urlsplit url := do
    let parts ← Url.urlsplit? url
    let port ← Url.port? parts.netloc
    let (username, password) := Url.userinfo parts.netloc
    return {
      scheme := parts.scheme, netloc := parts.netloc, path := parts.path, query := parts.query
      fragment := parts.fragment, username, password, hostname := Url.hostname? parts.netloc, port }
  urlunsplit := Url.urlunsplit
  urljoin := Url.Hostnames.urljoin
  quote safe := Url.quote fun c => isAlwaysSafe c || safe.contains c
  idna := Url.idna

theorem urlsplit_eq_some {url : Str} {parsed : SplitResult} (h : Urllib.urlsplit url = some parsed) :
    ∃ parts port, Url.urlsplit? url = some parts ∧ Url.port? parts.netloc = some port ∧
      parsed = ⟨parts.scheme, parts.netloc, parts.path, parts.query, parts.fragment,
        (Url.userinfo parts.netloc).1, (Url.userinfo parts.netloc).2,
        Url.hostname? parts.netloc, port⟩ := by
  simp only [Urllib.urlsplit, Option.bind_eq_bind, Option.bind_eq_some_iff] at h
  obtain ⟨parts, hparts, port, hport, heq⟩ := h
  cases heq
  exact ⟨parts, port, hparts, hport, rfl⟩

omit [Url.Hostnames] in
theorem isAlwaysSafe_of_upperHex {c : PyChar} (h : c.isIn [('0', '9'), ('A', 'F')] [] = true) :
    isAlwaysSafe c = true := by
  simp only [PyChar.isIn, List.any_cons, List.any_nil, Bool.or_false, Bool.or_eq_true] at h
  have hletter : c.between 'A' 'F' = true → c.between 'A' 'Z' = true := by
    intro hbetween
    have hbounds : 65 ≤ c.ord ∧ c.ord ≤ 70 := of_decide_eq_true hbetween
    exact decide_eq_true ⟨hbounds.1, hbounds.2.trans (by decide)⟩
  simp only [isAlwaysSafe, PyChar.isIn, List.any_cons, Bool.or_eq_true]
  exact .inl (h.imp_right fun h => .inl (hletter h))

/-- It is what is relied on elsewhere. -/
instance : LawfulUrllib where
  quote_mem safe s t h c hc := by
    rcases Url.quote_mem h c hc with hsafe | hpercent | hdigit
    · rcases Bool.or_eq_true_iff.mp hsafe with halways | hmem
      · exact .inl halways
      · exact .inr (.inl (List.contains_iff_mem.mp hmem))
    · exact .inr (.inr hpercent)
    · exact .inl (isAlwaysSafe_of_upperHex hdigit)
  idna_isAscii s t h := Url.idna_isAscii h
  idna_control s t h c hc hcontrol := by
    by_cases hascii : s.isAscii = true
    · rw [((Url.idna_of_isAscii hascii).mp h).2] at hc
      exact hc
    · simp only [Urllib.idna, Url.idna, if_neg hascii] at h
      exact Url.Hostnames.idnaLabels_control s t h c hc (of_decide_eq_true hcontrol)
  hostname_control url parsed host hsplit hhost c hc hcontrol := by
    obtain ⟨parts, port, hparts, -, rfl⟩ := urlsplit_eq_some hsplit
    have hmem : c ∈ parts.netloc := Url.hostname?_control hhost hc (of_decide_eq_true hcontrol)
    obtain ⟨scheme, rest, hrest, hnetloc, -⟩ :=
      Url.urlsplit?_eq_some hparts (List.ne_nil_of_mem hmem)
    rw [hnetloc] at hmem
    exact hrest ((List.takeWhile_prefix _).subset hmem)

/-! ## The condition -/

/-- The characters of `display_host` and of a port that is not the default one. -/
def portText (scheme : Str) (port : ℕ) : Str :=
  if port = defaultPort scheme then [] else .scalar ':' :: Str.ofChars (intText port)

/-- A host that is read back of an authority: it has no delimiter and no `@`, and no bracket, unless
a colon puts it in brackets. -/
structure IsShown (host : Str) : Prop where
  undelimited : ∀ c ∈ ['/', '?', '#', '@'], .scalar c ∉ host
  brackets : .scalar ':' ∉ host → .scalar '[' ∉ host ∧ .scalar ']' ∉ host
  closing : .scalar ':' ∈ host → .scalar ']' ∉ host

/-- A host, as the codec writes it, that a URL can name: it has no space and no control character,
its labels are of the length the codec takes, and what stands in brackets is an address. -/
structure NamesHost (host : Str) : Prop extends IsShown host where
  visible : hasControlOrSpace host = false
  labels : Url.labelsFit host = true
  address : .scalar ':' ∈ host → Url.Hostnames.checkBracketedHost host = true

/-- The host that is connected to. -/
def hostOf (parsed : SplitResult) : Option Str := do
  let given ← parsed.hostname
  let encoded ← Urllib.idna given
  return hostnameOf encoded

/-- What `quote` leaves in a path and in a query. -/
def isPathSafe (c : PyChar) : Bool := isAlwaysSafe c || pathSafe.contains c

def isQuerySafe (c : PyChar) : Bool := isAlwaysSafe c || querySafe.contains c

/-- The number of characters of the normalized URL. -/
def normalizedLength (parsed : SplitResult) (host : Str) : ℕ :=
  let scheme := parsed.scheme.map PyChar.asciiLower
  scheme.length + 3 + (displayHost host).length +
    (portText scheme (effectivePort scheme parsed.port)).length +
    Url.quotedLength isPathSafe (if parsed.path = [] then "/" else parsed.path) +
    (if parsed.query = [] then 0 else 1 + Url.quotedLength isQuerySafe parsed.query)

/-- The port of a URL is not written as zero, its normal form has at most 2048 characters, and its
host is one that a URL can name. -/
structure ReadsBack (value : Str) : Prop where
  port : ∀ parsed, Urllib.urlsplit value = some parsed → parsed.port ≠ some 0
  length : ∀ parsed host, Urllib.urlsplit value = some parsed → hostOf parsed = some host →
    normalizedLength parsed host ≤ 2048
  host : ∀ parsed host, Urllib.urlsplit value = some parsed → hostOf parsed = some host →
    NamesHost host

/-! ## Parts of the target -/

variable {value : Str} {production : Bool} {allowedPorts : List ℕ} {parsed : SplitResult}
  {given encoded path query : Str} {endpoint : EndpointTarget}

omit [Url.Hostnames] in
theorem isQuerySafe_of_isPathSafe {c : PyChar} (h : isPathSafe c = true) : isQuerySafe c = true := by
  unfold isPathSafe at h
  unfold isQuerySafe
  rcases Bool.or_eq_true_iff.mp h with h | h
  · rw [h]
    rfl
  · have hsub : ∀ c ∈ pathSafe, querySafe.contains c = true := by decide
    rw [hsub c (List.contains_iff_mem.mp h), Bool.or_true]

omit [Url.Hostnames] in
theorem isVisible_of_isQuerySafe {c : PyChar} (h : isQuerySafe c = true) : isVisible c = true := by
  rcases Bool.or_eq_true_iff.mp h with h | h
  · exact isVisible_of_isAlwaysSafe h
  · have hall : ∀ c ∈ querySafe, isVisible c = true := by decide
    exact hall c (List.contains_iff_mem.mp h)

omit [Url.Hostnames] in
/-- What `quote` writes is safe again. -/
theorem quote_safe {safe : PyChar → Bool} {s t : Str} (hpercent : safe (.scalar '%') = true)
    (halways : ∀ c, isAlwaysSafe c = true → safe c = true) (h : Url.quote safe s = some t) :
    ∀ c ∈ t, safe c = true := by
  intro c hc
  rcases Url.quote_mem h c hc with hsafe | rfl | hdigit
  · exact hsafe
  · exact hpercent
  · exact halways c (isAlwaysSafe_of_upperHex hdigit)

theorem Parses.path_safe
    (h : Parses value production allowedPorts parsed given encoded path query endpoint) :
    ∀ c ∈ path, isPathSafe c = true :=
  quote_safe (by decide) (fun c hc => by rw [isPathSafe, hc]; rfl) h.quotedPath

theorem Parses.query_safe
    (h : Parses value production allowedPorts parsed given encoded path query endpoint) :
    ∀ c ∈ query, isQuerySafe c = true :=
  quote_safe (by decide) (fun c hc => by rw [isQuerySafe, hc]; rfl) h.quotedQuery

omit [Url.Hostnames] in
theorem isAscii_of_visible {s : Str} (h : ∀ c ∈ s, isVisible c = true) : s.isAscii = true := by
  refine Str.isAscii_iff.mpr fun c hc => ?_
  have hbounds : 33 ≤ c.ord ∧ c.ord ≤ 126 := of_decide_eq_true (h c hc)
  omega

omit [Url.Hostnames] in
/-- A path behind a network location is rooted or empty. -/
theorem splitRest_path_head (scheme netloc url : Str) :
    (Url.splitRest scheme netloc (url.dropWhile fun c => !Url.isDelimiter c)).path = [] ∨
      (Url.splitRest scheme netloc (url.dropWhile fun c => !Url.isDelimiter c)).path.head? =
        some (.scalar '/') := by
  have hpath : ∀ rest : Str, (Url.splitRest scheme netloc rest).path =
      (rest.takeWhile (· ≠ .scalar '#')).takeWhile (· ≠ .scalar '?') := fun _ => rfl
  rw [hpath]
  rcases hrest : url.dropWhile (fun c => !Url.isDelimiter c) with _ | ⟨c, rest⟩
  · exact .inl rfl
  · have hdelimiter : Url.isDelimiter c = true := by
      have hhead := List.head?_dropWhile_not (fun c => !Url.isDelimiter c) url
      rw [hrest] at hhead
      simpa using hhead
    have hcases : c = .scalar '/' ∨ c = .scalar '?' ∨ c = .scalar '#' := by
      simpa [Url.isDelimiter, PyChar.isIn] using hdelimiter
    rcases hcases with rfl | rfl | rfl
    · exact .inr rfl
    · exact .inl rfl
    · exact .inl rfl

theorem path_of_urlsplit {url : Str} (h : Urllib.urlsplit url = some parsed)
    (hnetloc : parsed.netloc ≠ []) : parsed.path = [] ∨ parsed.path.head? = some (.scalar '/') := by
  obtain ⟨parts, port, hparts, -, rfl⟩ := urlsplit_eq_some h
  obtain ⟨scheme, rest, -, -, hsplit⟩ := Url.urlsplit?_eq_some hparts hnetloc
  dsimp only
  rw [hsplit]
  exact splitRest_path_head _ _ _

/-- The path of the target is rooted. -/
theorem Parses.path_rooted
    (h : Parses value production allowedPorts parsed given encoded path query endpoint) :
    ∃ rest, path = .scalar '/' :: rest := by
  obtain ⟨tail, htail⟩ : ∃ tail, (if parsed.path = [] then "/" else parsed.path : Str) =
      .scalar '/' :: tail := by
    rcases path_of_urlsplit h.split h.bare.1 with hnil | hhead
    · rw [if_pos hnil]
      exact ⟨[], rfl⟩
    · obtain ⟨tail, htail⟩ := List.head?_eq_some_iff.mp hhead
      rw [if_neg (by rw [htail]; exact List.cons_ne_nil _ _)]
      exact ⟨tail, htail⟩
  have hquoted := h.quotedPath
  rw [htail] at hquoted
  obtain ⟨rest, -, hpath⟩ := Url.quote_cons_safe (by decide) (by decide) hquoted
  exact ⟨rest, hpath⟩

/-- A port that is connected to. -/
theorem Parses.port_bounds
    (h : Parses value production allowedPorts parsed given encoded path query endpoint) :
    endpoint.port ≠ 0 ∧ endpoint.port ≤ 65535 := by
  have hdefault : defaultPort endpoint.scheme ≠ 0 ∧ defaultPort endpoint.scheme ≤ 65535 := by
    unfold defaultPort
    split_ifs <;> decide
  obtain ⟨parts, port, -, hport, heq⟩ := urlsplit_eq_some h.split
  rw [h.port.1, heq]
  unfold effectivePort
  dsimp only
  split
  · exact hdefault
  · exact hdefault
  · rename_i number hne
    refine ⟨hne, ?_⟩
    simp only [Url.port?] at hport
    split_ifs at hport with hempty
    · cases hport
    · obtain ⟨n, hn, heq⟩ := Option.map_eq_some_iff.mp hport
      cases heq
      unfold Url.portNumber? at hn
      split_ifs at hn with hvalid
      cases hn
      exact hvalid.2.2

/-! ### The hostname and the authority -/

theorem Parses.hostname_lower
    (h : Parses value production allowedPorts parsed given encoded path query endpoint) :
    endpoint.hostname.map PyChar.asciiLower = endpoint.hostname := by
  rw [h.hostname.1, hostnameOf, rstripDots]
  refine (List.map_congr_left fun c hc => ?_).trans (List.map_id _)
  obtain ⟨c', -, rfl⟩ := List.mem_map.mp ((List.rdropWhile_prefix _ _).subset hc)
  exact PyChar.asciiLower_asciiLower c'

theorem Parses.hostname_isAscii
    (h : Parses value production allowedPorts parsed given encoded path query endpoint) :
    endpoint.hostname.isAscii = true := by
  rw [h.hostname.1, hostnameOf, rstripDots]
  refine Str.isAscii_iff.mpr fun c hc => ?_
  obtain ⟨c', hc', rfl⟩ := List.mem_map.mp ((List.rdropWhile_prefix _ _).subset hc)
  have hlt := Str.ord_lt_of_isAscii (Url.idna_isAscii h.idna) c' hc'
  have hlower := ord_asciiLower (c := c')
  omega

theorem Parses.hostnameOf_hostname
    (h : Parses value production allowedPorts parsed given encoded path query endpoint) :
    hostnameOf endpoint.hostname = endpoint.hostname := by
  rw [hostnameOf, h.hostname_lower, h.hostname.1, hostnameOf]
  exact List.rdropWhile_idempotent _ _

theorem Parses.scheme_lower
    (h : Parses value production allowedPorts parsed given encoded path query endpoint) :
    endpoint.scheme ≠ [] ∧ ∀ c ∈ endpoint.scheme, c.isIn [('a', 'z')] [] = true := by
  rcases h.scheme.2 with heq | ⟨-, heq⟩
  · rw [heq]
    decide
  · rw [heq]
    decide

omit [Url.Hostnames] in
theorem authorityOf_eq (scheme hostname : Str) (port : ℕ) :
    authorityOf scheme hostname port = displayHost hostname ++ portText scheme port := by
  unfold authorityOf portText
  split_ifs
  · exact (List.append_nil _).symm
  · rw [List.append_assoc]
    rfl

omit [Url.Hostnames] in
theorem displayHost_ne_nil {hostname : Str} (h : hostname ≠ []) : displayHost hostname ≠ [] := by
  unfold displayHost
  split_ifs
  · exact List.cons_ne_nil _ _
  · exact h

omit [Url.Hostnames] in
/-- A port is written with digits and a colon. -/
theorem mem_portText {scheme : Str} {port : ℕ} {c : PyChar} (h : c ∈ portText scheme port) :
    48 ≤ c.ord ∧ c.ord ≤ 58 := by
  unfold portText at h
  split_ifs at h
  · exact absurd h List.not_mem_nil
  · rcases List.mem_cons.mp h with rfl | h
    · decide
    · obtain ⟨d, hd, rfl⟩ := List.mem_map.mp h
      have hdigit := Nat.isDigit_of_mem_toDigits (by norm_num) (by norm_num) hd
      have hbounds : 48 ≤ d.toNat ∧ d.toNat ≤ 57 := Char.isDigit_iff_toNat.mp hdigit
      show 48 ≤ d.toNat ∧ d.toNat ≤ 58
      omega

omit [Url.Hostnames] in
theorem isPortText_portText (scheme : Str) (port : ℕ) : Url.IsPortText (portText scheme port) := by
  unfold portText
  split_ifs
  · exact .inl rfl
  · exact .inr rfl

omit [Url.Hostnames] in
theorem mem_displayHost {hostname : Str} {c : PyChar} (h : c ∈ displayHost hostname) :
    c ∈ hostname ∨ c = .scalar '[' ∨ c = .scalar ']' := by
  unfold displayHost at h
  split_ifs at h
  · rcases List.mem_append.mp h with h | h
    · rcases List.mem_append.mp h with h | h
      · exact .inr (.inl (List.mem_singleton.mp h))
      · exact .inl h
    · exact .inr (.inr (List.mem_singleton.mp h))
  · exact .inl h

theorem Parses.authority_eq
    (h : Parses value production allowedPorts parsed given encoded path query endpoint) :
    endpoint.authority = displayHost endpoint.hostname ++ portText endpoint.scheme endpoint.port := by
  rw [h.authority, authorityOf_eq]

/-- The normalized URL. -/
theorem Parses.url_eq
    (h : Parses value production allowedPorts parsed given encoded path query endpoint) :
    endpoint.url = endpoint.scheme ++ "://" ++ (endpoint.authority ++ endpoint.requestTarget) := by
  have hauthority : endpoint.authority ≠ [] := by
    rw [h.authority_eq]
    exact List.append_ne_nil_of_left_ne_nil (displayHost_ne_nil h.hostname.2.1) _
  obtain ⟨rest, hpath⟩ := h.path_rooted
  have hhead : path.head? = some (.scalar '/') := by
    rw [hpath]
    rfl
  rw [h.url, h.requestTarget]
  exact Url.urlunsplit_netloc h.scheme_lower.1 hauthority hhead

/-- A query is written when there is one. -/
theorem Parses.query_eq_nil
    (h : Parses value production allowedPorts parsed given encoded path query endpoint) :
    query = [] ↔ parsed.query = [] := by
  have hquoted := h.quotedQuery
  constructor
  · intro hnil
    rw [hnil] at hquoted
    exact Url.eq_nil_of_quote hquoted
  · intro hnil
    rw [hnil] at hquoted
    cases hquoted
    rfl

theorem Parses.url_length
    (h : Parses value production allowedPorts parsed given encoded path query endpoint) :
    endpoint.url.length = normalizedLength parsed endpoint.hostname := by
  have hpath : path.length =
      Url.quotedLength isPathSafe (if parsed.path = [] then "/" else parsed.path) :=
    Url.quote_length h.quotedPath
  have hquery : query.length = Url.quotedLength isQuerySafe parsed.query :=
    Url.quote_length h.quotedQuery
  rw [h.url_eq, h.authority_eq, h.requestTarget, requestTargetOf, normalizedLength, ← hpath, ← hquery,
    ← h.scheme.1, ← h.port.1]
  by_cases hnil : query = []
  · rw [if_pos hnil, if_pos (h.query_eq_nil.mp hnil)]
    simp [Str.ofString]
    omega
  · rw [if_neg hnil, if_neg fun heq => hnil (h.query_eq_nil.mpr heq)]
    simp [Str.ofString]
    omega

/-! ### Percent escapes -/

omit [Url.Hostnames] in
theorem isHex_upperHexDigit : ∀ n < 16, isHex (Url.upperHexDigit n) = true := by decide

omit [Url.Hostnames] in
theorem hasInvalidPercentEscape_cons {c : PyChar} {s : Str} (h : c ≠ .scalar '%') :
    hasInvalidPercentEscape (c :: s) = hasInvalidPercentEscape s := by
  rw [hasInvalidPercentEscape, decide_eq_false (fun hand => h hand.1), Bool.false_or]

omit [Url.Hostnames] in
/-- An escape is valid. -/
theorem hasInvalidPercentEscape_escape (b : UInt8) (s : Str) :
    hasInvalidPercentEscape (Url.escape b ++ s) = hasInvalidPercentEscape s := by
  have hhigh := isHex_upperHexDigit _ (Url.div_lt_of_byte b)
  have hlow := isHex_upperHexDigit _ (Nat.mod_lt b.toNat (by decide : 16 > 0))
  have hne : ∀ c, isHex c = true → c ≠ .scalar '%' := by
    rintro c hhex rfl
    exact absurd hhex (by decide)
  show hasInvalidPercentEscape (.scalar '%' :: Url.upperHexDigit (b.toNat / 16) ::
    Url.upperHexDigit (b.toNat % 16) :: s) = _
  rw [hasInvalidPercentEscape, hasInvalidPercentEscape_cons (hne _ hhigh),
    hasInvalidPercentEscape_cons (hne _ hlow)]
  simp [hhigh, hlow]

omit [Url.Hostnames] in
/-- What is written for other characters than a percent sign has valid escapes only. -/
theorem hasInvalidPercentEscape_flatMap {safe : PyChar → Bool} {bytes : Bytes} {s : Str}
    (h : 37 ∉ bytes) : hasInvalidPercentEscape (bytes.flatMap (Url.quoteByte safe) ++ s) =
      hasInvalidPercentEscape s := by
  induction bytes with
  | nil => rfl
  | cons b bytes ih =>
      rw [List.flatMap_cons, List.append_assoc, Url.quoteByte]
      have hrest := ih (List.not_mem_of_not_mem_cons h)
      split_ifs
      · have hne : Str.ofByte b ≠ .scalar '%' := by
          intro heq
          have hchar : Char.ofNat b.toNat = '%' := PyChar.scalar.inj heq
          have hvalid : b.toNat.isValidChar := .inl (b.toNat_lt.trans (by decide))
          have hvalue : b.toNat = 37 := by
            have hnat : (Char.ofNat b.toNat).toNat = 37 := congrArg Char.toNat hchar
            rw [Char.ofNat, dif_pos hvalid] at hnat
            exact hnat
          exact h (List.mem_cons.mpr (.inl (UInt8.toNat_inj.mp hvalue).symm))
        rw [List.singleton_append, hasInvalidPercentEscape_cons hne, hrest]
      · rw [hasInvalidPercentEscape_escape, hrest]

omit [Url.Hostnames] in
/-- Quoting keeps the escapes of a text valid. -/
theorem quote_escapes {safe : PyChar → Bool} (hpercent : safe (.scalar '%') = true)
    (hhex : ∀ c, isHex c = true → safe c = true) {s t : Str}
    (hvalid : hasInvalidPercentEscape s = false) (h : Url.quote safe s = some t) :
    hasInvalidPercentEscape t = false := by
  induction s generalizing t with
  | nil =>
      cases h
      rfl
  | cons c s ih =>
      by_cases hc : c = .scalar '%'
      · rw [hc] at h hvalid
        rw [hasInvalidPercentEscape, Bool.or_eq_false_iff, decide_eq_false_iff_not] at hvalid
        obtain ⟨rest, hrest, rfl⟩ := Url.quote_cons_safe (by decide) hpercent h
        have hdigits : (s.take 2).length = 2 ∧ (s.take 2).all isHex = true := by
          by_contra hne
          exact hvalid.1 ⟨rfl, hne⟩
        rw [hasInvalidPercentEscape, Bool.or_eq_false_iff, decide_eq_false_iff_not]
        refine ⟨fun hinvalid => hinvalid.2 ?_, ih hvalid.2 hrest⟩
        -- the two digits are written as they are
        obtain _ | ⟨x, _ | ⟨y, s'⟩⟩ := s
        · cases hdigits.1
        · cases hdigits.1
        · have hx : isHex x = true := List.all_eq_true.mp hdigits.2 x (by simp)
          have hy : isHex y = true := List.all_eq_true.mp hdigits.2 y (by simp)
          have hlt : ∀ d, isHex d = true → d.ord < 128 := fun d hd =>
            PyChar.ord_lt_of_isIn (by decide) (by decide) hd
          obtain ⟨rest', hrest', rfl⟩ := Url.quote_cons_safe (hlt x hx) (hhex x hx) hrest
          obtain ⟨rest'', -, rfl⟩ := Url.quote_cons_safe (hlt y hy) (hhex y hy) hrest'
          exact ⟨rfl, by simp [hx, hy]⟩
      · rw [hasInvalidPercentEscape_cons hc] at hvalid
        obtain ⟨head, rest, hhead, hrest, rfl⟩ := Url.quote_cons.mp h
        obtain ⟨bytes, hbytes, rfl⟩ := Option.map_eq_some_iff.mp hhead
        rw [hasInvalidPercentEscape_flatMap (Url.not_mem_encode?_singleton hc hbytes)]
        exact ih hvalid hrest

/-! ## Reading the normalized URL -/

theorem Parses.requestTarget_head
    (h : Parses value production allowedPorts parsed given encoded path query endpoint) :
    ∃ rest, endpoint.requestTarget = .scalar '/' :: rest := by
  obtain ⟨rest, rfl⟩ := h.path_rooted
  rw [h.requestTarget, requestTargetOf]
  split_ifs
  · exact ⟨rest, rfl⟩
  · exact ⟨rest ++ [.scalar '?'] ++ query, rfl⟩

/-- A request target that is split is the path and the query it was made of. -/
theorem Parses.splitRest_requestTarget
    (h : Parses value production allowedPorts parsed given encoded path query endpoint)
    (scheme netloc : Str) : Url.splitRest scheme netloc endpoint.requestTarget =
      ⟨scheme, netloc, path, query, []⟩ := by
  have hpath : ∀ c ∈ ['#', '?'], .scalar c ∉ path := by
    intro c hc hmem
    have hsafe := h.path_safe _ hmem
    rcases List.mem_cons.mp hc with rfl | hc
    · exact absurd hsafe (by decide)
    · rw [List.mem_singleton.mp hc] at hsafe
      exact absurd hsafe (by decide)
  have hquery : .scalar '#' ∉ query := fun hmem => absurd (h.query_safe _ hmem) (by decide)
  rw [h.requestTarget, requestTargetOf]
  by_cases hnil : query = []
  · rw [if_pos hnil, hnil]
    exact Url.splitRest_path hpath
  · rw [if_neg hnil, List.append_assoc]
    exact Url.splitRest_query hpath hquery

omit [Url.Hostnames] in
/-- A character that is in none of the parts of an authority is not in it. -/
theorem not_mem_authority {scheme hostname : Str} {port : ℕ} {d : Char} (hhost : .scalar d ∉ hostname)
    (hdigit : d.toNat < 48 ∨ 58 < d.toNat) (hbracket : d ≠ '[' ∧ d ≠ ']') :
    .scalar d ∉ displayHost hostname ++ portText scheme port := by
  rw [List.mem_append, not_or]
  constructor
  · intro hmem
    rcases mem_displayHost hmem with hmem | heq | heq
    · exact hhost hmem
    · exact hbracket.1 (PyChar.scalar.inj heq)
    · exact hbracket.2 (PyChar.scalar.inj heq)
  · intro hmem
    have hbounds : 48 ≤ d.toNat ∧ d.toNat ≤ 58 := mem_portText hmem
    omega

omit [Url.Hostnames] in
/-- The parts that are read of an authority. -/
theorem IsShown.hostAndPort {scheme hostname : Str} {port : ℕ} (h : IsShown hostname) :
    Url.hostAndPort (displayHost hostname ++ portText scheme port) =
      (hostname, (portText scheme port).tail) := by
  have hat : .scalar '@' ∉ portText scheme port := by
    intro hmem
    exact absurd (mem_portText hmem) (by decide)
  have hopening : .scalar '[' ∉ portText scheme port := by
    intro hmem
    exact absurd (mem_portText hmem) (by decide)
  by_cases hcolon : .scalar ':' ∈ hostname
  · have hshape : displayHost hostname ++ portText scheme port =
        .scalar '[' :: hostname ++ .scalar ']' :: portText scheme port := by
      rw [displayHost, if_pos (List.contains_iff_mem.mpr hcolon), List.append_assoc]
      rfl
    rw [hshape]
    refine Url.hostAndPort_brackets ?_ hat (isPortText_portText _ _)
    intro c hc
    rcases List.mem_cons.mp hc with rfl | hc
    · exact h.closing hcolon
    · rw [List.mem_singleton.mp hc]
      exact h.undelimited '@' (by decide)
  · have hshape : displayHost hostname = hostname := by
      rw [displayHost, if_neg fun hmem => hcolon (List.contains_iff_mem.mp hmem)]
    rw [hshape]
    refine Url.hostAndPort_plain ?_ ?_ (isPortText_portText _ _)
    · intro c hc
      rcases List.mem_cons.mp hc with rfl | hc
      · exact (h.brackets hcolon).1
      · rcases List.mem_cons.mp hc with rfl | hc
        · exact h.undelimited '@' (by decide)
        · rw [List.mem_singleton.mp hc]
          exact hcolon
    · intro c hc
      rcases List.mem_cons.mp hc with rfl | hc
      · exact hopening
      · rw [List.mem_singleton.mp hc]
        exact hat

omit [Url.Hostnames] in
theorem isAscii_authority {scheme hostname : Str} {port : ℕ} (h : hostname.isAscii = true) :
    Str.isAscii (displayHost hostname ++ portText scheme port) = true := by
  refine Str.isAscii_iff.mpr fun c hc => ?_
  rcases List.mem_append.mp hc with hc | hc
  · rcases mem_displayHost hc with hc | rfl | rfl
    · exact Str.ord_lt_of_isAscii h c hc
    · decide
    · decide
  · have hbounds := mem_portText hc
    omega

/-- Its brackets are accepted when what they hold is an address. -/
theorem IsShown.acceptsNetloc {scheme hostname : Str} {port : ℕ} (h : IsShown hostname)
    (hascii : hostname.isAscii = true) :
    Url.acceptsNetloc (displayHost hostname ++ portText scheme port) = true ↔
      (.scalar ':' ∈ hostname → Url.Hostnames.checkBracketedHost hostname = true) := by
  have hport : ∀ d : Char, d.toNat < 48 ∨ 58 < d.toNat → .scalar d ∉ portText scheme port := by
    intro d hd hmem
    have hbounds : 48 ≤ d.toNat ∧ d.toNat ≤ 58 := mem_portText hmem
    omega
  rw [Url.acceptsNetloc, isAscii_authority hascii, Bool.true_or, Bool.and_true]
  by_cases hcolon : .scalar ':' ∈ hostname
  · have hshape : displayHost hostname ++ portText scheme port =
        .scalar '[' :: hostname ++ .scalar ']' :: portText scheme port := by
      rw [displayHost, if_pos (List.contains_iff_mem.mpr hcolon), List.append_assoc]
      rfl
    have hchecked : Url.Hostnames.checkBrackets
        (.scalar '[' :: hostname ++ .scalar ']' :: portText scheme port) =
          Url.Hostnames.checkBracketedHost hostname := by
      refine Url.Hostnames.checkBrackets_host _ _ ?_ ?_ (isPortText_portText _ _)
      · simp only [List.forall_mem_cons]
        exact ⟨h.closing hcolon, h.undelimited '@' (by decide), nofun⟩
      · simp only [List.forall_mem_cons]
        exact ⟨hport _ (by decide), hport _ (by decide), nofun⟩
    have hopening : PyChar.scalar '[' ∈
        .scalar '[' :: hostname ++ .scalar ']' :: portText scheme port := by simp
    have hclosing : PyChar.scalar ']' ∈
        .scalar '[' :: hostname ++ .scalar ']' :: portText scheme port := by simp
    rw [hshape, if_pos (.inl hopening), decide_eq_true_eq, hchecked]
    exact ⟨fun haccepts _ => haccepts.2.2, fun haddress => ⟨hopening, hclosing, haddress hcolon⟩⟩
  · have hshape : displayHost hostname = hostname := by
      rw [displayHost, if_neg fun hmem => hcolon (List.contains_iff_mem.mp hmem)]
    have hbrackets : ¬ (PyChar.scalar '[' ∈ hostname ++ portText scheme port ∨
        PyChar.scalar ']' ∈ hostname ++ portText scheme port) := by
      simp only [List.mem_append, not_or]
      exact ⟨⟨(h.brackets hcolon).1, hport _ (by decide)⟩, (h.brackets hcolon).2, hport _ (by decide)⟩
    rw [hshape, if_neg hbrackets]
    exact ⟨fun _ hmem => absurd hmem hcolon, fun _ => rfl⟩

/-- The port that is read of an authority. -/
def readPort (scheme : Str) (port : ℕ) : Option ℕ :=
  if port = defaultPort scheme then none else some port

omit [Url.Hostnames] in
theorem effectivePort_readPort {scheme : Str} {port : ℕ} (h : port ≠ 0) :
    effectivePort scheme (readPort scheme port) = port := by
  unfold readPort
  split_ifs with hdefault
  · exact hdefault.symm
  · obtain ⟨n, rfl⟩ := Nat.exists_eq_succ_of_ne_zero h
    rfl

omit [Url.Hostnames] in
theorem IsShown.port? {scheme hostname : Str} {port : ℕ} (h : IsShown hostname)
    (hport : port ≤ 65535) : Url.port? (displayHost hostname ++ portText scheme port) =
      some (readPort scheme port) := by
  rw [Url.port?, h.hostAndPort]
  dsimp only
  unfold portText readPort
  by_cases hdefault : port = defaultPort scheme
  · rw [if_pos hdefault, if_pos hdefault]
    rfl
  · have hne : (Nat.toDigits 10 port).map PyChar.scalar ≠ [] := by
      rw [Ne, List.map_eq_nil_iff]
      exact Nat.toDigits_ne_nil
    rw [if_neg hdefault, if_neg hdefault]
    show (if (Nat.toDigits 10 port).map PyChar.scalar = [] then some none
      else (Url.portNumber? ((Nat.toDigits 10 port).map PyChar.scalar)).map some) = _
    rw [if_neg hne, Url.portNumber?_toDigits hport]
    rfl

omit [Url.Hostnames] in
theorem hasControlOrSpace_eq_false {s : Str} :
    hasControlOrSpace s = false ↔ ∀ c ∈ s, 32 < c.ord ∧ c.ord ≠ 127 := by
  unfold hasControlOrSpace
  rw [List.any_eq_false]
  refine forall₂_congr fun c _ => ?_
  rw [decide_eq_true_eq]
  omega

/-- A host that is visible makes a URL that is. -/
theorem Parses.url_visible
    (h : Parses value production allowedPorts parsed given encoded path query endpoint) :
    hasControlOrSpace endpoint.url = false ↔ hasControlOrSpace endpoint.hostname = false := by
  rw [hasControlOrSpace_eq_false, hasControlOrSpace_eq_false, h.url_eq, h.authority_eq]
  constructor
  · intro hurl c hc
    refine hurl c ?_
    have hshown : c ∈ displayHost endpoint.hostname := by
      unfold displayHost
      split_ifs
      · exact List.mem_append_left _ (List.mem_append_right _ hc)
      · exact hc
    simp only [List.mem_append]
    exact .inr (.inl (.inl hshown))
  · intro hhost c hc
    simp only [List.mem_append] at hc
    rcases hc with (hc | hc) | (hc | hc) | hc
    · have hle : 97 ≤ c.ord :=
        PyChar.le_ord_of_isIn (by decide) (by decide) (h.scheme_lower.2 c hc)
      have hlt : c.ord < 123 :=
        PyChar.ord_lt_of_isIn (by decide) (by decide) (h.scheme_lower.2 c hc)
      omega
    · revert c
      decide
    · rcases mem_displayHost hc with hc | rfl | rfl
      · exact hhost c hc
      · decide
      · decide
    · have hbounds := mem_portText hc
      omega
    · have hbounds : 33 ≤ c.ord ∧ c.ord ≤ 126 := of_decide_eq_true (h.requestTarget_visible c hc)
      omega

/-- How the normalized URL is split, whatever its host is. -/
theorem Parses.urlsplit?_url
    (h : Parses value production allowedPorts parsed given encoded path query endpoint)
    (hvisible : hasControlOrSpace endpoint.url = false) : Url.urlsplit? endpoint.url =
      if Url.acceptsNetloc ((endpoint.authority ++ endpoint.requestTarget).takeWhile fun c =>
          !Url.isDelimiter c) then
        some (Url.splitRest endpoint.scheme
          ((endpoint.authority ++ endpoint.requestTarget).takeWhile fun c => !Url.isDelimiter c)
          ((endpoint.authority ++ endpoint.requestTarget).dropWhile fun c => !Url.isDelimiter c))
      else none := by
  rw [h.url_eq] at hvisible ⊢
  refine Url.urlsplit?_append h.scheme_lower.1 h.scheme_lower.2 fun c hc => ?_
  exact (hasControlOrSpace_eq_false.mp hvisible c (List.mem_append_right _ hc)).1

omit [Url.Hostnames] in
theorem isDelimiter_iff {c : PyChar} :
    Url.isDelimiter c = true ↔ c = .scalar '/' ∨ c = .scalar '?' ∨ c = .scalar '#' := by
  simp [Url.isDelimiter, PyChar.isIn]

/-- A network location without delimiters ends where the request target begins. -/
theorem Parses.takeWhile_authority
    (h : Parses value production allowedPorts parsed given encoded path query endpoint)
    (hundelimited : ∀ c ∈ ['/', '?', '#'], .scalar c ∉ endpoint.hostname) :
    (endpoint.authority ++ endpoint.requestTarget).takeWhile (fun c => !Url.isDelimiter c) =
        endpoint.authority ∧
      (endpoint.authority ++ endpoint.requestTarget).dropWhile (fun c => !Url.isDelimiter c) =
        endpoint.requestTarget := by
  have hauthority : ∀ c ∈ endpoint.authority, (!Url.isDelimiter c) = true := by
    intro c hc
    rw [Bool.not_eq_true', Bool.eq_false_iff]
    intro hdelimiter
    rw [h.authority_eq] at hc
    rcases isDelimiter_iff.mp hdelimiter with rfl | rfl | rfl
    · exact not_mem_authority (hundelimited '/' (by decide)) (by decide) (by decide) hc
    · exact not_mem_authority (hundelimited '?' (by decide)) (by decide) (by decide) hc
    · exact not_mem_authority (hundelimited '#' (by decide)) (by decide) (by decide) hc
  obtain ⟨rest, htarget⟩ := h.requestTarget_head
  have hslash : ¬ (!Url.isDelimiter (.scalar '/')) = true := by decide
  have htake : (.scalar '/' :: rest : Str).takeWhile (fun c => !Url.isDelimiter c) = [] :=
    @List.takeWhile_cons_of_neg _ (fun c => !Url.isDelimiter c) _ _ hslash
  have hdrop : (.scalar '/' :: rest : Str).dropWhile (fun c => !Url.isDelimiter c) =
      .scalar '/' :: rest :=
    @List.dropWhile_cons_of_neg _ (fun c => !Url.isDelimiter c) _ _ hslash
  rw [List.takeWhile_append_of_pos hauthority, List.dropWhile_append_of_pos hauthority, htarget,
    htake, hdrop, List.append_nil]
  exact ⟨rfl, rfl⟩

/-- A URL whose host can be named is split into the parts it was made of. -/
theorem Parses.urlsplit_url
    (h : Parses value production allowedPorts parsed given encoded path query endpoint)
    (hnames : NamesHost endpoint.hostname) : Urllib.urlsplit endpoint.url =
      some ⟨endpoint.scheme, endpoint.authority, path, query, [], none, none, some endpoint.hostname,
        readPort endpoint.scheme endpoint.port⟩ := by
  have hparts := h.urlsplit?_url (h.url_visible.mpr hnames.visible)
  obtain ⟨htake, hdrop⟩ := h.takeWhile_authority fun c hc =>
    hnames.undelimited c (List.mem_append_left ['@'] hc)
  have haccepts : Url.acceptsNetloc endpoint.authority = true := by
    rw [h.authority_eq]
    exact (hnames.toIsShown.acceptsNetloc h.hostname_isAscii).mpr hnames.address
  rw [htake, hdrop, if_pos haccepts, h.splitRest_requestTarget] at hparts
  have hport : Url.port? endpoint.authority = some (readPort endpoint.scheme endpoint.port) := by
    rw [h.authority_eq]
    exact hnames.port? h.port_bounds.2
  have hhostname : Url.hostname? endpoint.authority = some endpoint.hostname := by
    refine Url.hostname?_eq_self ?_ h.hostname.2.1 h.hostname_isAscii h.hostname_lower
    rw [h.authority_eq, hnames.hostAndPort]
  have huserinfo : Url.userinfo endpoint.authority = (none, none) := by
    rw [Url.userinfo, if_neg]
    rw [h.authority_eq]
    exact not_mem_authority (hnames.undelimited '@' (by decide)) (by decide) (by decide)
  simp only [Urllib.urlsplit, hparts, Option.bind_eq_bind, Option.bind_some, hport, hhostname,
    huserinfo, Option.pure_def]

omit [Url.Hostnames] in
theorem isPathSafe_of_isHex {c : PyChar} (h : isHex c = true) : isPathSafe c = true := by
  have halways : isAlwaysSafe c = true := by
    simp only [isHex, PyChar.isIn, List.any_cons, List.any_nil, Bool.or_false, Bool.or_eq_true] at h
    simp only [isAlwaysSafe, PyChar.isIn, List.any_cons, List.any_nil, Bool.or_false, Bool.or_eq_true]
    have hrange : ∀ lo hi hi' : Char, hi.toNat ≤ hi'.toNat → c.between lo hi = true →
        c.between lo hi' = true := by
      intro lo hi hi' hle hbetween
      have hbounds : lo.toNat ≤ c.ord ∧ c.ord ≤ hi.toNat := of_decide_eq_true hbetween
      exact decide_eq_true ⟨hbounds.1, hbounds.2.trans hle⟩
    rcases h with h | h | h
    · exact .inl (.inl h)
    · exact .inl (.inr (.inl (hrange _ _ _ (by decide) h)))
    · exact .inl (.inr (.inr (hrange _ _ _ (by decide) h)))
  rw [isPathSafe, halways, Bool.true_or]

/-- A normalized URL whose host can be named is accepted again, with the same target. -/
theorem Parses.again
    (h : Parses value production allowedPorts parsed given encoded path query endpoint)
    (hnames : NamesHost endpoint.hostname) (hlength : endpoint.url.length ≤ 2048) :
    ∃ parsed', Parses endpoint.url production allowedPorts parsed' endpoint.hostname endpoint.hostname
      path query endpoint := by
  obtain ⟨rest, hpath⟩ := h.path_rooted
  have hpathAscii : path.isAscii = true := isAscii_of_visible fun c hc =>
    isVisible_of_isQuerySafe (isQuerySafe_of_isPathSafe (h.path_safe c hc))
  have hqueryAscii : query.isAscii = true := isAscii_of_visible fun c hc =>
    isVisible_of_isQuerySafe (h.query_safe c hc)
  have hscheme : endpoint.scheme.map PyChar.asciiLower = endpoint.scheme := by
    rw [h.scheme.1, PyChar.map_asciiLower_map]
  have hauthority : endpoint.authority ≠ [] := by
    rw [h.authority_eq]
    exact List.append_ne_nil_of_left_ne_nil (displayHost_ne_nil h.hostname.2.1) _
  have hurl : endpoint.url ≠ [] := by
    rw [h.url_eq, List.append_assoc]
    exact List.append_ne_nil_of_left_ne_nil h.scheme_lower.1 _
  refine ⟨_, ⟨hurl, hlength, h.url_visible.mpr hnames.visible⟩, h.urlsplit_url hnames,
    ⟨hscheme.symm, h.scheme.2⟩, ⟨hauthority, rfl, rfl, rfl⟩, rfl,
    (Url.idna_of_isAscii h.hostname_isAscii).mpr ⟨hnames.labels, rfl⟩,
    ⟨h.hostnameOf_hostname.symm, h.hostname.2⟩,
    ⟨(effectivePort_readPort h.port_bounds.1).symm, h.port.2⟩, h.authority, ⟨?_, ?_⟩, ?_, ?_,
    h.requestTarget, h.url⟩
  · have hvalid : hasInvalidPercentEscape (if parsed.path = [] then "/" else parsed.path) = false := by
      split_ifs
      · decide
      · exact h.escapes.1
    exact quote_escapes (by decide) (fun c hc => isPathSafe_of_isHex hc) hvalid h.quotedPath
  · exact quote_escapes (by decide)
      (fun c hc => isQuerySafe_of_isPathSafe (isPathSafe_of_isHex hc)) h.escapes.2 h.quotedQuery
  · rw [if_neg (by rw [hpath]; exact List.cons_ne_nil _ _)]
    exact Url.quote_eq_self hpathAscii h.path_safe
  · exact Url.quote_eq_self hqueryAscii h.query_safe

/-! ## What a second reading says of the first one -/

/-- What `urlsplit` reads of the normalized URL, up to its network location. -/
theorem Parses.netloc_url
    (h : Parses value production allowedPorts parsed given encoded path query endpoint)
    (hvisible : hasControlOrSpace endpoint.url = false) {parsed' : SplitResult}
    (hsplit : Urllib.urlsplit endpoint.url = some parsed') {netloc : Str}
    (hnetloc : netloc = (endpoint.authority ++ endpoint.requestTarget).takeWhile fun c =>
      !Url.isDelimiter c) :
    Url.acceptsNetloc netloc = true ∧ parsed'.username = (Url.userinfo netloc).1 ∧
      parsed'.hostname = Url.hostname? netloc := by
  obtain ⟨parts, port, hparts, -, rfl⟩ := urlsplit_eq_some hsplit
  rw [h.urlsplit?_url hvisible, ← hnetloc] at hparts
  split_ifs at hparts with haccepts
  cases hparts
  exact ⟨haccepts, rfl, rfl⟩

omit [Url.Hostnames] in
theorem not_mem_of_userinfo {netloc : Str} (h : (Url.userinfo netloc).1 = none) :
    .scalar '@' ∉ netloc := by
  intro hmem
  rw [Url.userinfo, if_pos hmem] at h
  cases h

omit [Url.Hostnames] in
/-- A letter in lower case is no other character. -/
theorem mem_of_mem_map_asciiLower {s : Str} {d : Char} (hupper : d.toNat < 65 ∨ 90 < d.toNat)
    (hlower : d.toNat < 97 ∨ 122 < d.toNat) (h : .scalar d ∈ s.map PyChar.asciiLower) :
    .scalar d ∈ s := by
  obtain ⟨c, hc, heq⟩ := List.mem_map.mp h
  rw [(PyChar.asciiLower_eq_iff hupper hlower).mp heq] at hc
  exact hc

omit [Url.Hostnames] in
theorem count_map_asciiLower {s : Str} {d : Char} (hupper : d.toNat < 65 ∨ 90 < d.toNat)
    (hlower : d.toNat < 97 ∨ 122 < d.toNat) :
    (s.map PyChar.asciiLower).count (.scalar d) = s.count (.scalar d) := by
  rw [List.count_eq_countP, List.countP_map, List.count_eq_countP]
  refine List.countP_congr fun c _ => ?_
  rw [Function.comp_apply, beq_iff_eq, beq_iff_eq]
  exact PyChar.asciiLower_eq_iff hupper hlower

/-- The hostname of a second reading stands in the network location that was read. -/
theorem Parses.hostname_of_netloc
    (h : Parses value production allowedPorts parsed given encoded path query endpoint)
    {netloc : Str} (hascii : (Url.hostAndPort netloc).1.isAscii = true)
    (hgiven : Url.hostname? netloc = some given) :
    endpoint.hostname <+: (Url.hostAndPort netloc).1.map PyChar.asciiLower := by
  have hlower := Url.hostname?_eq_some hascii hgiven
  have hgivenAscii : given.isAscii = true := by
    refine Str.isAscii_iff.mpr fun c hc => ?_
    have hmem : c.asciiLower ∈ (Url.hostAndPort netloc).1.map PyChar.asciiLower := by
      rw [← hlower]
      exact List.mem_map_of_mem hc
    obtain ⟨c', hc', heq⟩ := List.mem_map.mp hmem
    have hlt := Str.ord_lt_of_isAscii hascii c' hc'
    have hbounds := ord_asciiLower (c := c)
    have hbounds' := ord_asciiLower (c := c')
    rw [heq] at hbounds'
    omega
  have hencoded := ((Url.idna_of_isAscii hgivenAscii).mp h.idna).2
  rw [h.hostname.1, hostnameOf, hencoded, hlower]
  exact List.rdropWhile_prefix _ _

section Again

variable {allowedPorts' : List ℕ} {parsed' : SplitResult} {given' encoded' path' query' : Str}
  {endpoint' : EndpointTarget}

/-- When the normalized URL is accepted with the same hostname, this can be read of its authority. -/
theorem Parses.isShown_of_again
    (h : Parses value production allowedPorts parsed given encoded path query endpoint)
    (h' : Parses endpoint.url production allowedPorts parsed' given' encoded' path' query' endpoint')
    (hsame : endpoint'.hostname = endpoint.hostname) :
    IsShown endpoint.hostname ∧ Url.acceptsNetloc endpoint.authority = true ∧
      Url.hostname? endpoint.authority = some given' := by
  obtain ⟨netloc, hnetloc⟩ : ∃ netloc, netloc =
      (endpoint.authority ++ endpoint.requestTarget).takeWhile fun c => !Url.isDelimiter c := ⟨_, rfl⟩
  obtain ⟨haccepts, husername, hhostname⟩ := h.netloc_url h'.valid.2.2 h'.split hnetloc
  have hgiven : Url.hostname? netloc = some given' := by rw [← hhostname, h'.host]
  have hat : .scalar '@' ∉ netloc := not_mem_of_userinfo (by rw [← husername, h'.bare.2.1])
  have hascii : (Url.hostAndPort netloc).1.isAscii = true := by
    refine Str.isAscii_iff.mpr fun c hc => ?_
    have hmem := Url.hostAndPort_subset _ hc
    rw [hnetloc] at hmem
    rcases List.mem_append.mp ((List.takeWhile_prefix _).subset hmem) with hmem | hmem
    · rw [h.authority_eq] at hmem
      exact Str.ord_lt_of_isAscii (isAscii_authority h.hostname_isAscii) c hmem
    · have hbounds : 33 ≤ c.ord ∧ c.ord ≤ 126 := of_decide_eq_true (h.requestTarget_visible c hmem)
      omega
  have hread : endpoint.hostname <+: (Url.hostAndPort netloc).1.map PyChar.asciiLower := by
    rw [← hsame]
    exact h'.hostname_of_netloc hascii hgiven
  have hhost : ∀ d : Char, d.toNat < 65 ∨ 90 < d.toNat → d.toNat < 97 ∨ 122 < d.toNat →
      .scalar d ∈ endpoint.hostname → .scalar d ∈ (Url.hostAndPort netloc).1 := by
    intro d hupper hlower hd
    exact mem_of_mem_map_asciiLower hupper hlower (hread.subset hd)
  have hundelimited : ∀ d : Char, Url.isDelimiter (.scalar d) = true → .scalar d ∉ netloc := by
    intro d hdelimiter hmem
    rw [hnetloc] at hmem
    have hfalse := @List.mem_takeWhile_imp _ (fun c => !Url.isDelimiter c) _ _ hmem
    rw [hdelimiter] at hfalse
    cases hfalse
  have hslash : .scalar '/' ∉ endpoint.hostname := fun hmem =>
    hundelimited '/' (by decide) (Url.hostAndPort_subset _ (hhost '/' (by decide) (by decide) hmem))
  have hquestion : .scalar '?' ∉ endpoint.hostname := fun hmem =>
    hundelimited '?' (by decide) (Url.hostAndPort_subset _ (hhost '?' (by decide) (by decide) hmem))
  have hhash : .scalar '#' ∉ endpoint.hostname := fun hmem =>
    hundelimited '#' (by decide) (Url.hostAndPort_subset _ (hhost '#' (by decide) (by decide) hmem))
  have hhostAt : .scalar '@' ∉ endpoint.hostname := fun hmem =>
    hat (Url.hostAndPort_subset _ (hhost '@' (by decide) (by decide) hmem))
  have hall : ∀ c ∈ ['/', '?', '#'], .scalar c ∉ endpoint.hostname := by
    simp only [List.forall_mem_cons]
    exact ⟨hslash, hquestion, hhash, nofun⟩
  -- so the authority is all of the network location
  have hauthority : netloc = endpoint.authority := hnetloc.trans (h.takeWhile_authority hall).1
  rw [hauthority] at haccepts hgiven hat hread hhost
  refine ⟨⟨?_, ?_, ?_⟩, haccepts, hgiven⟩
  · simp only [List.forall_mem_cons]
    exact ⟨hslash, hquestion, hhash, hhostAt, nofun⟩
  · intro hcolon
    have hshape : endpoint.authority = endpoint.hostname ++ portText endpoint.scheme endpoint.port := by
      rw [h.authority_eq, displayHost, if_neg fun hmem => hcolon (List.contains_iff_mem.mp hmem)]
    have hport : .scalar '[' ∉ portText endpoint.scheme endpoint.port := by
      intro hmem
      exact absurd (mem_portText hmem) (by decide)
    -- a bracket would be read away, and the hostname have one bracket less
    have hopening : .scalar '[' ∉ endpoint.hostname := by
      intro hmem
      have hin : .scalar '[' ∈ endpoint.authority := by
        rw [hshape]
        exact List.mem_append_left _ hmem
      rw [← Url.hostinfo_eq_self hat] at hin
      obtain ⟨⟨first, rest, hjoin⟩, -⟩ := Url.hostAndPort_of_mem hin
      rw [Url.hostinfo_eq_self hat] at hjoin
      have hjoined := congrArg (List.count (.scalar '[')) hjoin
      have htotal : endpoint.authority.count (.scalar '[') =
          endpoint.hostname.count (.scalar '[') := by
        rw [hshape, List.count_append, List.count_eq_zero.mpr hport, add_zero]
      have hfewer := hread.sublist.count_le (.scalar '[')
      rw [count_map_asciiLower (by decide) (by decide)] at hfewer
      rw [htotal, List.count_append, List.count_cons_self, List.count_append] at hjoined
      omega
    refine ⟨hopening, fun hclosing => ?_⟩
    have hin : .scalar ']' ∈ endpoint.authority := by
      rw [hshape]
      exact List.mem_append_left _ hclosing
    rw [Url.acceptsNetloc, if_pos (.inr hin), Bool.and_eq_true] at haccepts
    have hboth := (of_decide_eq_true haccepts.1).1
    rw [hshape] at hboth
    rcases List.mem_append.mp hboth with hboth | hboth
    · exact hopening hboth
    · exact hport hboth
  · intro hcolon hclosing
    have hopening : .scalar '[' ∈ endpoint.authority := by
      rw [h.authority_eq, displayHost, if_pos (List.contains_iff_mem.mpr hcolon)]
      simp [Str.ofString]
    rw [← Url.hostinfo_eq_self hat] at hopening
    exact (Url.hostAndPort_of_mem hopening).2 (hhost ']' (by decide) (by decide) hclosing)

/-- When the normalized URL is accepted with the same hostname, its host can be named. -/
theorem Parses.namesHost_of_again
    (h : Parses value production allowedPorts parsed given encoded path query endpoint)
    (h' : Parses endpoint.url production allowedPorts parsed' given' encoded' path' query' endpoint')
    (hsame : endpoint'.hostname = endpoint.hostname) : NamesHost endpoint.hostname := by
  obtain ⟨hshown, haccepts, hgiven⟩ := h.isShown_of_again h' hsame
  have hread : Url.hostAndPort endpoint.authority =
      (endpoint.hostname, (portText endpoint.scheme endpoint.port).tail) := by
    rw [h.authority_eq]
    exact hshown.hostAndPort
  have hself : Url.hostname? endpoint.authority = some endpoint.hostname :=
    Url.hostname?_eq_self (by rw [hread]) h.hostname.2.1 h.hostname_isAscii h.hostname_lower
  rw [hself] at hgiven
  cases hgiven
  refine ⟨hshown, h.url_visible.mp h'.valid.2.2,
    ((Url.idna_of_isAscii h.hostname_isAscii).mp h'.idna).1, ?_⟩
  rw [h.authority_eq] at haccepts
  exact (hshown.acceptsNetloc h.hostname_isAscii).mp haccepts

end Again

/-! ## Endpoints that read back -/

/-- What is contacted for an endpoint. -/
structure EndpointTarget.SameTarget (a b : EndpointTarget) : Prop where
  scheme : a.scheme = b.scheme
  hostname : a.hostname = b.hostname
  port : a.port = b.port
  authority : a.authority = b.authority
  requestTarget : a.requestTarget = b.requestTarget

/-- The normalized URL is accepted and gives the same target, and a port that is written is the port
of the target. -/
structure Faithful (value : Str) (production : Bool) (allowedPorts : List ℕ)
    (endpoint : EndpointTarget) : Prop where
  again : ∃ endpoint', parseEndpoint endpoint.url production allowedPorts = .ok endpoint' ∧
    endpoint'.SameTarget endpoint
  port : ∀ parsed port, Urllib.urlsplit value = some parsed → parsed.port = some port →
    endpoint.port = port

theorem Parses.hostOf_eq
    (h : Parses value production allowedPorts parsed given encoded path query endpoint) :
    hostOf parsed = some endpoint.hostname := by
  rw [hostOf, h.host, h.hostname.1]
  simp only [Option.bind_eq_bind, Option.bind_some, h.idna, Option.pure_def]

/-- Of an accepted URL the condition is about its parts. -/
theorem Parses.readsBack_iff
    (h : Parses value production allowedPorts parsed given encoded path query endpoint) :
    ReadsBack value ↔ parsed.port ≠ some 0 ∧ endpoint.url.length ≤ 2048 ∧
      NamesHost endpoint.hostname := by
  have hparsed : ∀ parsed', Urllib.urlsplit value = some parsed' → parsed' = parsed := by
    intro parsed' h'
    exact Option.some.inj (h'.symm.trans h.split)
  have hhost : ∀ host, hostOf parsed = some host → host = endpoint.hostname := by
    intro host h'
    exact Option.some.inj (h'.symm.trans h.hostOf_eq)
  rw [h.url_length]
  constructor
  · intro hreads
    exact ⟨hreads.port _ h.split, hreads.length _ _ h.split h.hostOf_eq,
      hreads.host _ _ h.split h.hostOf_eq⟩
  · rintro ⟨hport, hlength, hnames⟩
    refine ⟨?_, ?_, ?_⟩
    · intro parsed' hsplit
      rw [hparsed _ hsplit]
      exact hport
    · intro parsed' host hsplit hof
      rw [hparsed _ hsplit] at hof ⊢
      rw [hhost _ hof]
      exact hlength
    · intro parsed' host hsplit hof
      rw [hparsed _ hsplit] at hof
      rw [hhost _ hof]
      exact hnames

/-- The normalized URL of an accepted one is accepted again, with the same target. -/
theorem Parses.parseEndpoint_url
    (h : Parses value production allowedPorts parsed given encoded path query endpoint)
    (hreads : ReadsBack value) :
    parseEndpoint endpoint.url production allowedPorts = .ok endpoint := by
  obtain ⟨-, hlength, hnames⟩ := h.readsBack_iff.mp hreads
  obtain ⟨parsed', hagain⟩ := h.again hnames hlength
  exact parseEndpoint_eq_ok.mpr ⟨_, _, _, _, _, hagain⟩

/-- An endpoint is read back as what it is exactly when no port of zero is written, its normal form
has at most 2048 characters and its host can be named; then a delivery to the normalized URL, which
a subscription keeps, resolves what the given URL is resolved to. -/
theorem endpoint_reads_back (A : Type) [IpAddress A]
    (h : parseEndpoint value production allowedPorts = .ok endpoint) :
    (Faithful value production allowedPorts endpoint ↔ ReadsBack value) ∧
      (ReadsBack value → ∀ most, resolveEndpoint A endpoint.url production allowedPorts most =
        resolveEndpoint A value production allowedPorts most) := by
  obtain ⟨parsed, given, encoded, path, query, hparses⟩ := parseEndpoint_eq_ok.mp h
  constructor
  · constructor
    · intro hfaithful
      obtain ⟨endpoint', hagain, hsame⟩ := hfaithful.again
      obtain ⟨parsed', given', encoded', path', query', hparses'⟩ := parseEndpoint_eq_ok.mp hagain
      refine hparses.readsBack_iff.mpr ⟨?_, hparses'.valid.2.1,
        hparses.namesHost_of_again hparses' hsame.hostname⟩
      intro hzero
      exact hparses.port_bounds.1 (hfaithful.port _ _ hparses.split hzero)
    · intro hreads
      refine ⟨⟨endpoint, hparses.parseEndpoint_url hreads, ⟨rfl, rfl, rfl, rfl, rfl⟩⟩, ?_⟩
      intro parsed' port hsplit hport
      obtain ⟨hzero, -⟩ := hparses.readsBack_iff.mp hreads
      rw [hparses.split] at hsplit
      cases hsplit
      rw [hport] at hzero
      rw [hparses.port.1, hport]
      obtain ⟨n, rfl⟩ := Nat.exists_eq_succ_of_ne_zero fun heq => hzero (congrArg some heq)
      rfl
  · intro hreads most
    unfold resolveEndpoint
    rw [h, hparses.parseEndpoint_url hreads]

end Normalized

/-! ### Hosts in ASCII -/

namespace PlainHosts

theorem mem_of_control {s : Str} {c : PyChar} (hc : c ∈ s.map PyChar.asciiLower)
    (hcontrol : c.ord < 32 ∨ c.ord = 127) : c ∈ s := by
  obtain ⟨c', hc', rfl⟩ := List.mem_map.mp hc
  cases hletter : c'.between 'A' 'Z' with
  | false => rwa [PyChar.asciiLower_eq_self hletter]
  | true =>
      have hbounds := PyChar.asciiLower_bounds hletter
      omega

/-- `str.lower` of hosts that have no letters but those of ASCII. -/
def lowerLetters (s : Str) : Str := s.map PyChar.asciiLower

/-- No host is an address in brackets, and none is international. -/
scoped instance hostnames : Url.Hostnames where
  lower := lowerLetters
  lower_ascii _ _ := rfl
  lower_control _ _ hc hcontrol := mem_of_control hc hcontrol
  checkNetloc _ := true
  checkBrackets _ := false
  checkBracketedHost _ := false
  checkBrackets_host _ _ _ _ _ := rfl
  idnaLabels _ := none
  urljoin _ url := some url
  idnaLabels_isAscii _ labels h := absurd h.symm (Option.some_ne_none labels)
  idnaLabels_control _ labels h := absurd h.symm (Option.some_ne_none labels)

/-- Nothing is an address. -/
scoped instance : IpAddress Unit where
  ipAddress? _ := none
  compressed _ := []
  ipv4Mapped _ := false
  isGlobal _ := false
  isMulticast _ := false
  isReserved _ := false
  isUnspecified _ := false
  isLoopback _ := false
  isLinkLocal _ := false
  isPrivate _ := false

/-- A host in capitals, the default port and a letter that is not ASCII. -/
def cafe : Str := "https://EXAMPLE.com:443/café"

def cafeTarget : EndpointTarget where
  url := "https://example.com/caf%C3%A9"
  scheme := "https"
  hostname := "example.com"
  port := 443
  authority := "example.com"
  requestTarget := "/caf%C3%A9"

/-- A path of 400 letters that are not ASCII. -/
def longUrl : Str := Str.ofString "https://example.com/" ++ List.replicate 400 (.scalar 'é')

end PlainHosts

section PlainHosts

open PlainHosts

theorem endpoint_reads_back_plain : parseEndpoint cafe true [443] = .ok cafeTarget ∧ ReadsBack cafe ∧
    ∀ most, resolveEndpoint Unit cafeTarget.url true [443] most =
      resolveEndpoint Unit cafe true [443] most := by
  have hparsed : parseEndpoint cafe true [443] = .ok cafeTarget := by decide +kernel
  have hagain : parseEndpoint cafeTarget.url true [443] = .ok cafeTarget := by decide +kernel
  have hport : (Urllib.urlsplit cafe).map (·.port) = some (some 443) := by decide +kernel
  obtain ⟨hiff, hresolved⟩ := endpoint_reads_back Unit hparsed
  have hreads : ReadsBack cafe := by
    refine hiff.mp ⟨⟨cafeTarget, hagain, ⟨rfl, rfl, rfl, rfl, rfl⟩⟩, ?_⟩
    intro parsed port hsplit hwritten
    rw [hsplit, Option.map_some, hwritten] at hport
    cases hport
    rfl
  exact ⟨hparsed, hreads, hresolved hreads⟩

/-- A port of zero is read as the default port, and a path that is not ASCII grows too long. -/
theorem endpoint_port_zero :
    (∃ endpoint, parseEndpoint "https://example.com:0/" true [443] = .ok endpoint ∧
      ¬ Faithful "https://example.com:0/" true [443] endpoint) ∧
    ∃ endpoint, parseEndpoint longUrl true [443] = .ok endpoint ∧
      ¬ Faithful longUrl true [443] endpoint := by
  have hzero : (parseEndpoint "https://example.com:0/" true [443]).map (·.port) = .ok 443 := by
    decide +kernel
  have hwritten : (Urllib.urlsplit (Str.ofString "https://example.com:0/")).map (·.port) =
      some (some 0) := by decide +kernel
  have hlong : (parseEndpoint longUrl true [443]).map (·.url.length) = .ok 2420 := by
    decide +kernel
  constructor
  · obtain ⟨endpoint, hparsed, hport⟩ := map_eq_ok.mp hzero
    obtain ⟨parsed, hsplit, hparsedPort⟩ := Option.map_eq_some_iff.mp hwritten
    refine ⟨endpoint, hparsed, fun hfaithful => ?_⟩
    have hport' := hfaithful.port parsed 0 hsplit hparsedPort
    rw [hport] at hport'
    cases hport'
  · obtain ⟨endpoint, hparsed, hlength⟩ := map_eq_ok.mp hlong
    refine ⟨endpoint, hparsed, fun hfaithful => ?_⟩
    obtain ⟨endpoint', hagain, -⟩ := hfaithful.again
    obtain ⟨_, _, _, _, _, hparses⟩ := parseEndpoint_eq_ok.mp hagain
    have hle := hparses.valid.2.1
    rw [hlength] at hle
    exact absurd hle (by decide)

end PlainHosts

end FastapiEffects
