import FastapiEffects.Python.Quote
import FastapiEffects.Python.Url

/-! # Splitting and joining URLs

`urllib.parse.urlsplit` with the parts of a network location, `urlunsplit`, and the `idna`
codec of text that is ASCII.
-/

namespace Python

namespace PyChar

theorem asciiLower_eq_self {c : PyChar} (h : c.between 'A' 'Z' = false) : c.asciiLower = c := by
  rw [asciiLower, if_neg]
  rw [h]
  decide

theorem asciiLower_bounds {c : PyChar} (h : c.between 'A' 'Z' = true) :
    97 ≤ c.asciiLower.ord ∧ c.asciiLower.ord ≤ 122 := by
  have hbounds : 65 ≤ c.ord ∧ c.ord ≤ 90 := of_decide_eq_true h
  have hord : c.asciiLower.ord = c.ord + 32 := by
    have hvalid : (c.ord + 32).isValidChar := .inl (by omega)
    rw [asciiLower, if_pos h]
    show (Char.ofNat (c.ord + 32)).toNat = c.ord + 32
    rw [Char.ofNat, dif_pos hvalid]
    rfl
  omega

theorem asciiLower_asciiLower (c : PyChar) : c.asciiLower.asciiLower = c.asciiLower := by
  cases hupper : c.between 'A' 'Z' with
  | false => rw [asciiLower_eq_self hupper, asciiLower_eq_self hupper]
  | true =>
      have hbounds := asciiLower_bounds hupper
      refine asciiLower_eq_self (decide_eq_false ?_)
      show ¬ (65 ≤ c.asciiLower.ord ∧ c.asciiLower.ord ≤ 90)
      omega

/-- A character that is no letter stays what it is, and no other becomes it. -/
theorem asciiLower_eq_iff {c : PyChar} {d : Char} (hupper : d.toNat < 65 ∨ 90 < d.toNat)
    (hlower : d.toNat < 97 ∨ 122 < d.toNat) : c.asciiLower = .scalar d ↔ c = .scalar d := by
  cases hletter : c.between 'A' 'Z' with
  | false => rw [asciiLower_eq_self hletter]
  | true =>
      have hbounds := asciiLower_bounds hletter
      have hletter_bounds : 65 ≤ c.ord ∧ c.ord ≤ 90 := of_decide_eq_true hletter
      constructor
      · intro heq
        rw [heq] at hbounds
        have hrange : 97 ≤ d.toNat ∧ d.toNat ≤ 122 := hbounds
        omega
      · rintro rfl
        have hrange : 65 ≤ d.toNat ∧ d.toNat ≤ 90 := hletter_bounds
        omega

theorem map_asciiLower_map (s : Str) :
    (s.map asciiLower).map asciiLower = s.map asciiLower := by
  rw [List.map_map]
  exact List.map_congr_left fun c _ => asciiLower_asciiLower c

end PyChar

namespace Url

/-- The parts of Python's library behind a hostname that the model does not spell out:
`str.lower`, NFKC and the `idna` codec of text that is not ASCII, which hosts may stand in
brackets, and `urljoin`. -/
class Hostnames where
  lower : Str → Str
  lower_ascii : ∀ s : Str, s.isAscii = true → lower s = s.map PyChar.asciiLower
  lower_control : ∀ s : Str, ∀ c ∈ lower s, c.ord < 32 ∨ c.ord = 127 → c ∈ s
  /-- `_checknetloc` of text that is not ASCII. -/
  checkNetloc : Str → Bool
  /-- The check of a network location with brackets. -/
  checkBrackets : Str → Bool
  /-- `_check_bracketed_host`. -/
  checkBracketedHost : Str → Bool
  checkBrackets_host : ∀ host port : Str, (∀ c ∈ [']', '@'], .scalar c ∉ host) →
    (∀ c ∈ [']', '@'], .scalar c ∉ port) → (port = [] ∨ port.head? = some (.scalar ':')) →
    checkBrackets (.scalar '[' :: host ++ .scalar ']' :: port) = checkBracketedHost host
  /-- The labels that `idna` writes for text that is not ASCII. -/
  idnaLabels : Str → Option Str
  urljoin : Str → Str → Option Str
  idnaLabels_isAscii : ∀ s t : Str, idnaLabels s = some t → t.isAscii = true
  idnaLabels_control : ∀ s t : Str, idnaLabels s = some t →
    ∀ c ∈ t, c.ord < 32 ∨ c.ord = 127 → c ∈ s

/-! ## Network locations -/

/-- What stands after the last `@` of a network location. -/
def hostinfo (netloc : Str) : Str := netloc.rtakeWhile (· ≠ .scalar '@')

/-- `_userinfo`. -/
def userinfo (netloc : Str) : Option Str × Option Str :=
  if .scalar '@' ∈ netloc then
    let (username, password) := Str.partition (.scalar ':')
      (netloc.rdropWhile (· ≠ .scalar '@')).dropLast
    (some username, password)
  else (none, none)

/-- `_hostinfo`: the host, and the text of the port, which may be empty. -/
def hostAndPort (netloc : Str) : Str × Str :=
  match (hostinfo netloc).partition (.scalar '[') with
  | (_, some bracketed) =>
      let (host, rest) := bracketed.partition (.scalar ']')
      (host, (((rest.getD []).partition (.scalar ':')).2).getD [])
  | (unbracketed, none) =>
      let (host, port) := unbracketed.partition (.scalar ':')
      (host, port.getD [])

/-- `int(port)` of a port that is digits, from 0 to 65535. -/
def portNumber? (port : Str) : Option ℕ :=
  if port.all (PyChar.between '0' '9') ∧ port.length ≤ 4300 ∧ port.digitsValue ≤ 65535 then
    some port.digitsValue
  else none

/-- `parsed.port`; `none` is a `ValueError`. -/
def port? (netloc : Str) : Option (Option ℕ) :=
  let port := (hostAndPort netloc).2
  if port = [] then some none else (portNumber? port).map some

section Hostname

variable [Hostnames]

/-- `parsed.hostname`. A zone is left as it is. -/
def hostname? (netloc : Str) : Option Str :=
  let host := (hostAndPort netloc).1
  if host = [] then none
  else
    let (name, zone) := host.partition (.scalar '%')
    some (Hostnames.lower name ++ zone.elim [] fun zone => .scalar '%' :: zone)

/-- Whether `urlsplit` takes a network location. -/
def acceptsNetloc (netloc : Str) : Bool :=
  (if .scalar '[' ∈ netloc ∨ .scalar ']' ∈ netloc then
      .scalar '[' ∈ netloc ∧ .scalar ']' ∈ netloc ∧ Hostnames.checkBrackets netloc
    else true) && (netloc.isAscii || Hostnames.checkNetloc netloc)

instance : Netloc where
  accepts := acceptsNetloc
  accepts_ascii s hascii hopening hclosing := by
    rw [acceptsNetloc, if_neg (by tauto), hascii]
    rfl

/-! ## `urlsplit` and `urlunsplit` -/

/-- The five parts of a URL. -/
structure Parts where
  scheme : Str
  netloc : Str
  path : Str
  query : Str
  fragment : Str

omit [Hostnames] in
/-- The scheme in lower case, and the text without it. -/
def splitScheme (url : Str) : Str × Str :=
  match url.partition (.scalar ':') with
  | (scheme, some rest) =>
      if scheme.head?.any (PyChar.isIn [('a', 'z'), ('A', 'Z')] []) ∧ scheme.all isSchemeChar
      then (scheme.map PyChar.asciiLower, rest) else ([], url)
  | (_, none) => ([], url)

omit [Hostnames] in
/-- The path, the query and the fragment. -/
def splitRest (scheme netloc rest : Str) : Parts :=
  let (body, fragment) := rest.partition (.scalar '#')
  let (path, query) := body.partition (.scalar '?')
  ⟨scheme, netloc, path, query.getD [], fragment.getD []⟩

/-- `urlsplit(url)`; `none` is a `ValueError`. -/
def urlsplit? (url : Str) : Option Parts :=
  let cleaned := (url.dropWhile fun c => c.ord ≤ 32).filter fun c => !isRemoved c
  let (scheme, url) := splitScheme cleaned
  if Str.ofString "//" <+: url then
    let netloc := (url.drop 2).takeWhile fun c => !isDelimiter c
    if acceptsNetloc netloc then
      some (splitRest scheme netloc ((url.drop 2).dropWhile fun c => !isDelimiter c))
    else none
  else some (splitRest scheme [] url)

omit [Hostnames] in
/-- `uses_netloc`. -/
def usesNetloc : List Str :=
  ["", "ftp", "http", "gopher", "nntp", "telnet", "imap", "wais", "file", "mms", "https", "shttp",
    "snews", "prospero", "rtsp", "rtsps", "rtspu", "rsync", "svn", "svn+ssh", "sftp", "nfs", "git",
    "git+ssh", "ws", "wss", "itms-services"]

omit [Hostnames] in
/-- `urlunsplit`. -/
def urlunsplit (scheme netloc path query fragment : Str) : Str :=
  let rooted : Str :=
    if path ≠ [] ∧ path.head? ≠ some (.scalar '/') then .scalar '/' :: path else path
  let url : Str :=
    if netloc ≠ [] ∨ scheme ≠ [] ∧ scheme ∈ usesNetloc ∨ Str.ofString "//" <+: path then
      "//" ++ netloc ++ rooted
    else path
  let url := if scheme = [] then url else scheme ++ ":" ++ url
  let url := if query = [] then url else url ++ "?" ++ query
  if fragment = [] then url else url ++ "#" ++ fragment

/-! ## The `idna` codec -/

omit [Hostnames] in
/-- No label is empty, the last one apart, and none has more than 63 characters. -/
def labelsFit (host : Str) : Bool :=
  let labels := host.splitOn (.scalar '.')
  labels.all (fun label => label.length < 64) && labels.dropLast.all (· ≠ [])

/-- `host.encode("idna")`; `none` is a `UnicodeError`. -/
def idna (host : Str) : Option Str :=
  if host.isAscii then if labelsFit host then some host else none else Hostnames.idnaLabels host

theorem idna_isAscii {s t : Str} (h : idna s = some t) : t.isAscii = true := by
  unfold idna at h
  by_cases hascii : s.isAscii = true
  · rw [if_pos hascii] at h
    split_ifs at h
    cases h
    exact hascii
  · rw [if_neg hascii] at h
    exact Hostnames.idnaLabels_isAscii s t h

theorem idna_of_isAscii {s t : Str} (hascii : s.isAscii = true) :
    idna s = some t ↔ labelsFit s = true ∧ t = s := by
  rw [idna, if_pos hascii]
  by_cases hfit : labelsFit s = true
  · simp [hfit, eq_comm]
  · simp [hfit]

/-- The path that `urlsplit` finds. -/
theorem urlPath?_eq (url : Str) : urlPath? url = (urlsplit? url).map (·.path) := by
  have hpath : ∀ scheme netloc rest : Str, (splitRest scheme netloc rest).path =
      (rest.takeWhile (· ≠ .scalar '#')).takeWhile (· ≠ .scalar '?') := fun _ _ _ => rfl
  have hscheme : ∀ url, (splitScheme url).2 = dropScheme url := by
    intro url
    unfold splitScheme dropScheme
    rcases url.partition (.scalar ':') with ⟨scheme, _ | rest⟩
    · rfl
    · dsimp only
      split_ifs <;> rfl
  have haccepts : ∀ netloc, Netloc.accepts netloc = acceptsNetloc netloc := fun _ => rfl
  simp only [urlPath?, urlsplit?, hscheme, haccepts]
  split_ifs <;> simp [hpath]

/-- A URL with a network location is split where this one ends. -/
theorem urlsplit?_eq_some {url : Str} {parts : Parts} (h : urlsplit? url = some parts)
    (hne : parts.netloc ≠ []) : ∃ scheme rest, rest ⊆ url ∧
      parts.netloc = rest.takeWhile (fun c => !isDelimiter c) ∧
      parts = splitRest scheme parts.netloc (rest.dropWhile fun c => !isDelimiter c) := by
  have hscheme : ∀ url, (splitScheme url).2 ⊆ url := by
    intro url
    unfold splitScheme
    rcases hparts : url.partition (.scalar ':') with ⟨scheme, _ | rest⟩
    · exact List.Subset.refl _
    · have hrest : rest = url.drop (scheme.length + 1) := by
        simp only [Str.partition, Prod.mk.injEq] at hparts
        obtain ⟨rfl, hrest⟩ := hparts
        split_ifs at hrest
        exact (Option.some.inj hrest).symm
      dsimp only
      split_ifs
      · rw [hrest]
        exact List.drop_subset _ _
      · exact List.Subset.refl _
  simp only [urlsplit?] at h
  split_ifs at h with hslashes haccepts
  · cases h
    refine ⟨_, _, fun c hc => ?_, rfl, rfl⟩
    have hcleaned := hscheme _ (List.drop_subset _ _ hc)
    exact (List.dropWhile_suffix _).subset (List.mem_of_mem_filter hcleaned)
  · cases h
    exact absurd rfl hne

end Hostname

/-! ## Reading back what is written -/

theorem partition_of_not_mem {sep : PyChar} {s : Str} (h : sep ∉ s) : s.partition sep = (s, none) := by
  have hhead : s.takeWhile (· ≠ sep) = s := by
    refine List.takeWhile_eq_self_iff.mpr fun c hc => decide_eq_true ?_
    rintro rfl
    exact h hc
  rw [Str.partition, hhead, if_neg (lt_irrefl _)]

theorem not_mem_partition (sep : PyChar) (s : Str) : sep ∉ (s.partition sep).1 := by
  intro hin
  have hne : decide (sep ≠ sep) = true :=
    @List.mem_takeWhile_imp _ (fun c => decide (c ≠ sep)) _ _ hin
  exact absurd rfl (of_decide_eq_true hne)

/-- The text of a port: nothing, or a colon and digits. -/
def IsPortText (port : Str) : Prop := port = [] ∨ port.head? = some (.scalar ':')

theorem hostinfo_eq_self {netloc : Str} (h : .scalar '@' ∉ netloc) : hostinfo netloc = netloc := by
  refine List.rtakeWhile_eq_self_iff.mpr fun c hc => decide_eq_true ?_
  rintro rfl
  exact h hc

/-- What is read as a port. -/
theorem partition_port {port : Str} (h : IsPortText port) :
    ((port.partition (.scalar ':')).2).getD [] = port.tail := by
  rcases h with rfl | h
  · rfl
  · cases port with
    | nil => rfl
    | cons c rest =>
        cases h
        rw [← List.nil_append (_ :: rest), Str.partition_append List.not_mem_nil]
        rfl

/-- A text is what stands before a separator and what stands after it. -/
theorem append_partition (sep : PyChar) (s : Str) :
    (s.partition sep).1 ++ ((s.partition sep).2.elim [] fun t => sep :: t) = s := by
  by_cases hmem : sep ∈ s
  · have hsplit := List.takeWhile_append_dropWhile (p := fun c => decide (c ≠ sep)) (l := s)
    obtain ⟨t, ht⟩ : ∃ t, s.dropWhile (fun c => decide (c ≠ sep)) = sep :: t := by
      rcases hrest : s.dropWhile (fun c => decide (c ≠ sep)) with _ | ⟨c, t⟩
      · have hall := List.dropWhile_eq_nil_iff.mp hrest sep hmem
        exact absurd rfl (of_decide_eq_true hall)
      · have hhead := List.head?_dropWhile_not (fun c => decide (c ≠ sep)) s
        rw [hrest] at hhead
        have hc : c = sep := by simpa using hhead
        exact ⟨t, by rw [hc]⟩
    rw [ht] at hsplit
    have hpartition := @Str.partition_append sep (s.takeWhile fun c => decide (c ≠ sep)) t
      (not_mem_partition sep s)
    rw [hsplit] at hpartition
    rw [hpartition]
    exact hsplit
  · rw [partition_of_not_mem hmem]
    exact List.append_nil s

/-- Where a host is read: after the first bracket, up to the one that closes it. -/
theorem hostAndPort_of_mem {netloc : Str} (hopening : .scalar '[' ∈ hostinfo netloc) :
    (∃ first rest, hostinfo netloc = first ++ .scalar '[' :: ((hostAndPort netloc).1 ++ rest)) ∧
      .scalar ']' ∉ (hostAndPort netloc).1 := by
  have hjoin := append_partition (.scalar '[') (hostinfo netloc)
  obtain ⟨first, bracketed, hpartition⟩ : ∃ first bracketed,
      (hostinfo netloc).partition (.scalar '[') = (first, some bracketed) := by
    rcases hparts : (hostinfo netloc).partition (.scalar '[') with ⟨first, _ | bracketed⟩
    · have hnone := not_mem_partition (.scalar '[') (hostinfo netloc)
      rw [hparts] at hnone hjoin
      rw [← hjoin, Option.elim_none, List.append_nil] at hopening
      exact absurd hopening hnone
    · exact ⟨first, bracketed, rfl⟩
  have hhost : (hostAndPort netloc).1 = (bracketed.partition (.scalar ']')).1 := by
    rw [hostAndPort, hpartition]
  rw [hpartition] at hjoin
  rw [hhost]
  constructor
  · refine ⟨first, (bracketed.partition (.scalar ']')).2.elim [] fun t => .scalar ']' :: t, ?_⟩
    rw [append_partition (.scalar ']') bracketed]
    exact hjoin.symm
  · exact not_mem_partition _ _

/-- A host is made of characters of its network location. -/
theorem hostAndPort_subset (netloc : Str) : (hostAndPort netloc).1 ⊆ netloc := by
  intro c hc
  have hsuffix : hostinfo netloc <:+ netloc := List.rtakeWhile_suffix _ _
  refine hsuffix.subset ?_
  by_cases hopening : .scalar '[' ∈ hostinfo netloc
  · obtain ⟨⟨first, rest, hjoin⟩, -⟩ := hostAndPort_of_mem hopening
    rw [hjoin]
    exact List.mem_append_right _ (List.mem_cons_of_mem _ (List.mem_append_left _ hc))
  · have hhost : (hostAndPort netloc).1 = ((hostinfo netloc).partition (.scalar ':')).1 := by
      rw [hostAndPort, partition_of_not_mem hopening]
    rw [hhost] at hc
    rw [← append_partition (.scalar ':') (hostinfo netloc)]
    exact List.mem_append_left _ hc

/-- The control characters of a hostname stand in its network location. -/
theorem hostname?_control [Hostnames] {netloc host : Str} (h : hostname? netloc = some host)
    {c : PyChar} (hc : c ∈ host) (hcontrol : c.ord < 32 ∨ c.ord = 127) : c ∈ netloc := by
  refine hostAndPort_subset netloc ?_
  simp only [hostname?] at h
  split_ifs at h with hempty
  cases h
  rw [← append_partition (.scalar '%') (hostAndPort netloc).1]
  rcases List.mem_append.mp hc with hc | hc
  · exact List.mem_append_left _ (Hostnames.lower_control _ c hc hcontrol)
  · exact List.mem_append_right _ hc

/-- A hostname differs from the host of the network location in the case of its letters only. -/
theorem hostname?_eq_some [Hostnames] {netloc given : Str}
    (hascii : (hostAndPort netloc).1.isAscii = true) (h : hostname? netloc = some given) :
    given.map PyChar.asciiLower = (hostAndPort netloc).1.map PyChar.asciiLower := by
  simp only [hostname?] at h
  split_ifs at h with hempty
  cases h
  have hjoin := append_partition (.scalar '%') (hostAndPort netloc).1
  have hname : ((hostAndPort netloc).1.partition (.scalar '%')).1.isAscii = true := by
    refine Str.isAscii_iff.mpr fun c hc => Str.ord_lt_of_isAscii hascii c ?_
    rw [← hjoin]
    exact List.mem_append_left _ hc
  conv_rhs => rw [← hjoin]
  rw [List.map_append, List.map_append, Hostnames.lower_ascii _ hname, PyChar.map_asciiLower_map]

/-- A host in lower case is its own hostname. -/
theorem hostname?_eq_self [Hostnames] {netloc host : Str} (hhost : (hostAndPort netloc).1 = host)
    (hne : host ≠ []) (hascii : host.isAscii = true) (hlower : host.map PyChar.asciiLower = host) :
    hostname? netloc = some host := by
  have hjoin := append_partition (.scalar '%') host
  have hname : (host.partition (.scalar '%')).1.isAscii = true := by
    refine Str.isAscii_iff.mpr fun c hc => Str.ord_lt_of_isAscii hascii c ?_
    rw [← hjoin]
    exact List.mem_append_left _ hc
  have hself : (host.partition (.scalar '%')).1.map PyChar.asciiLower =
      (host.partition (.scalar '%')).1 := by
    refine (List.map_congr_left fun c hc => ?_).trans (List.map_id _)
    have hmem : c ∈ host := by
      rw [← hjoin]
      exact List.mem_append_left _ hc
    exact List.map_inj_left.mp (hlower.trans host.map_id.symm) c hmem
  simp only [hostname?, hhost]
  rw [if_neg hne, Hostnames.lower_ascii _ hname, hself]
  exact congrArg some hjoin

/-- A host in brackets. -/
theorem hostAndPort_brackets {host port : Str} (hhost : ∀ c ∈ [']', '@'], .scalar c ∉ host)
    (hport : .scalar '@' ∉ port) (htext : IsPortText port) :
    hostAndPort (.scalar '[' :: host ++ .scalar ']' :: port) = (host, port.tail) := by
  have hinfo : hostinfo (.scalar '[' :: host ++ .scalar ']' :: port) =
      .scalar '[' :: host ++ .scalar ']' :: port := by
    refine hostinfo_eq_self ?_
    simp only [List.cons_append, List.mem_cons, List.mem_append, not_or]
    exact ⟨by decide, hhost '@' (by decide), by decide, hport⟩
  have hopening : Str.partition (.scalar '[') (.scalar '[' :: host ++ .scalar ']' :: port) =
      ([], some (host ++ .scalar ']' :: port)) := by
    exact Str.partition_append List.not_mem_nil
  rw [hostAndPort, hinfo, hopening]
  dsimp only
  rw [Str.partition_append (hhost ']' (by decide))]
  exact congrArg (Prod.mk host) (partition_port htext)

/-- A host without brackets. -/
theorem hostAndPort_plain {host port : Str} (hhost : ∀ c ∈ ['[', '@', ':'], .scalar c ∉ host)
    (hport : ∀ c ∈ ['[', '@'], .scalar c ∉ port) (htext : IsPortText port) :
    hostAndPort (host ++ port) = (host, port.tail) := by
  have hinfo : hostinfo (host ++ port) = host ++ port := by
    refine hostinfo_eq_self ?_
    rw [List.mem_append, not_or]
    exact ⟨hhost '@' (by decide), hport '@' (by decide)⟩
  have hopening : Str.partition (.scalar '[') (host ++ port) = (host ++ port, none) := by
    refine partition_of_not_mem ?_
    rw [List.mem_append, not_or]
    exact ⟨hhost '[' (by decide), hport '[' (by decide)⟩
  rw [hostAndPort, hinfo, hopening]
  dsimp only
  rcases htext with rfl | hcolon
  · rw [List.append_nil, partition_of_not_mem (hhost ':' (by decide))]
    rfl
  · cases port with
    | nil => cases hcolon
    | cons c digits =>
        cases hcolon
        rw [Str.partition_append (hhost ':' (by decide))]
        rfl

/-- The number of a port that is written in decimal. -/
theorem portNumber?_toDigits {port : ℕ} (h : port ≤ 65535) :
    portNumber? ((Nat.toDigits 10 port).map .scalar) = some port := by
  have hdigits : ∀ c ∈ Nat.toDigits 10 port, c.isDigit = true := fun c hc =>
    Nat.isDigit_of_mem_toDigits (by norm_num) (by norm_num) hc
  have hchars : ((Nat.toDigits 10 port).map PyChar.scalar).filterMap PyChar.scalar? =
      Nat.toDigits 10 port := by
    rw [List.filterMap_map]
    exact List.filterMap_some
  have hvalue : Str.digitsValue ((Nat.toDigits 10 port).map .scalar) = port := by
    rw [Str.digitsValue, hchars, Nat.ofDigitChars_toDigits (by norm_num) (by norm_num)]
  have hlength : (Nat.toDigits 10 port).length ≤ 4300 := by
    rcases Nat.eq_zero_or_pos port with rfl | hpos
    · decide
    · have hfive : (Nat.toDigits 10 port).length ≤ 5 := by
        rw [Nat.length_toDigits_le_iff (by norm_num) (by norm_num)]
        exact h.trans_lt (by norm_num)
      exact hfive.trans (by norm_num)
  rw [portNumber?, hvalue, if_pos]
  refine ⟨?_, by rwa [List.length_map], h⟩
  rw [List.all_map, List.all_eq_true]
  intro c hc
  have hbounds := Char.isDigit_iff_toNat.mp (hdigits c hc)
  exact decide_eq_true hbounds

theorem splitRest_path {scheme netloc path : Str} (h : ∀ c ∈ ['#', '?'], .scalar c ∉ path) :
    splitRest scheme netloc path = ⟨scheme, netloc, path, [], []⟩ := by
  rw [splitRest, partition_of_not_mem (h '#' (by decide))]
  dsimp only
  rw [partition_of_not_mem (h '?' (by decide))]
  rfl

theorem splitRest_query {scheme netloc path query : Str} (h : ∀ c ∈ ['#', '?'], .scalar c ∉ path)
    (hquery : .scalar '#' ∉ query) : splitRest scheme netloc (path ++ .scalar '?' :: query) =
      ⟨scheme, netloc, path, query, []⟩ := by
  have hbody : .scalar '#' ∉ path ++ .scalar '?' :: query := by
    rw [List.mem_append, List.mem_cons, not_or, not_or]
    exact ⟨h '#' (by decide), by decide, hquery⟩
  rw [splitRest, partition_of_not_mem hbody]
  dsimp only
  rw [Str.partition_append (h '?' (by decide))]
  rfl

/-- A scheme in lower case is read back. -/
theorem splitScheme_append {scheme rest : Str} (hne : scheme ≠ [])
    (hlower : ∀ c ∈ scheme, c.isIn [('a', 'z')] [] = true) :
    splitScheme (scheme ++ .scalar ':' :: rest) = (scheme, rest) := by
  have hcolon : .scalar ':' ∉ scheme := fun hmem => absurd (hlower _ hmem) (by decide)
  have hself : scheme.map PyChar.asciiLower = scheme := by
    refine (List.map_congr_left fun c hc => ?_).trans scheme.map_id
    have hbounds : 97 ≤ c.ord := PyChar.le_ord_of_isIn (by decide) (by decide) (hlower c hc)
    rw [PyChar.asciiLower, if_neg]
    · rfl
    · intro hupper
      have hle : c.ord ≤ 90 := (of_decide_eq_true hupper).2
      omega
  rw [splitScheme, Str.partition_append hcolon]
  dsimp only
  rw [if_pos, hself]
  constructor
  · cases scheme with
    | nil => exact absurd rfl hne
    | cons c rest => exact PyChar.isIn_mono (by decide) (by decide) (hlower c List.mem_cons_self)
  · exact List.all_eq_true.mpr fun c hc => PyChar.isIn_mono (by decide) (by decide) (hlower c hc)

/-- A URL without control characters is split as it stands. -/
theorem urlsplit?_append [Hostnames] {scheme rest : Str} (hne : scheme ≠ [])
    (hlower : ∀ c ∈ scheme, c.isIn [('a', 'z')] [] = true) (hrest : ∀ c ∈ rest, 32 < c.ord) :
    urlsplit? (scheme ++ "://" ++ rest) =
      if acceptsNetloc (rest.takeWhile fun c => !isDelimiter c) then
        some (splitRest scheme (rest.takeWhile fun c => !isDelimiter c)
          (rest.dropWhile fun c => !isDelimiter c))
      else none := by
  have hclean : ∀ c ∈ scheme ++ "://" ++ rest, 32 < c.ord := by
    intro c hc
    rw [List.mem_append, List.mem_append] at hc
    rcases hc with (hc | hc) | hc
    · have hbounds : 97 ≤ c.ord := PyChar.le_ord_of_isIn (by decide) (by decide) (hlower c hc)
      omega
    · revert c
      decide
    · exact hrest c hc
  have hdrop : (scheme ++ "://" ++ rest).dropWhile (fun c => c.ord ≤ 32) = scheme ++ "://" ++ rest := by
    refine List.dropWhile_eq_self_iff.mpr fun hlen => ?_
    have hfirst := hclean _ (List.getElem_mem hlen)
    rw [decide_eq_true_eq]
    omega
  have hfilter : (scheme ++ "://" ++ rest).filter (fun c => !isRemoved c) =
      scheme ++ "://" ++ rest := by
    refine List.filter_eq_self.mpr fun c hc => ?_
    rw [Bool.not_eq_true', Bool.eq_false_iff]
    intro hremoved
    have hlt : c.ord < 14 := PyChar.ord_lt_of_isIn (by decide) (by decide) hremoved
    have hle := hclean c hc
    omega
  have hshape : scheme ++ "://" ++ rest = scheme ++ .scalar ':' :: (Str.ofString "//" ++ rest) := by
    rw [List.append_assoc]
    rfl
  rw [urlsplit?, hdrop, hfilter, hshape, splitScheme_append hne hlower]
  dsimp only
  rw [if_pos (List.prefix_append _ _)]
  rfl

theorem urlunsplit_netloc {scheme netloc path query : Str} (hscheme : scheme ≠ []) (hnetloc : netloc ≠ [])
    (hpath : path.head? = some (.scalar '/')) : urlunsplit scheme netloc path query [] =
      scheme ++ "://" ++ (netloc ++ if query = [] then path else path ++ [.scalar '?'] ++ query) := by
  have hrooted : ¬ (path ≠ [] ∧ path.head? ≠ some (.scalar '/')) := fun h => h.2 hpath
  unfold urlunsplit
  simp only [if_neg hrooted, if_pos (Or.inl hnetloc : netloc ≠ [] ∨ _), if_neg hscheme,
    if_true]
  split_ifs
  · simp [Str.ofString]
  · simp [Str.ofString]

end Url

end Python
