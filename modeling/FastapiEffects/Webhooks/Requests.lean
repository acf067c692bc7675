import FastapiEffects.Framing
import FastapiEffects.Python.Digits
import FastapiEffects.Webhooks.Endpoints
import FastapiEffects.Webhooks.Transport

/-! # Requests as they are read

What `_request_bytes` writes, and what a reader makes of it: a head of lines up to the first
blank line, and the body after it. `readRequest` is that reader; it knows nothing of how a request
is written.
-/

namespace FastapiEffects

open Python

/-! ## Writing -/

section Writing

variable [Platform]

/-- A header that a request may have. -/
structure IsHeader (header : Str × Str) : Prop where
  free : Platform.lower header.1 ∉ protectedHeaders
  named : Platform.lower header.1 ≠ []
  name : ∀ c ∈ header.1, PyChar.isIn [] ['\r', '\n', ':'] c = false
  value : ∀ c ∈ header.2, PyChar.isIn [] ['\r', '\n', '\x00'] c = false

omit [Platform] in
def fieldLine (header : Str × Str) : Str := header.1 ++ ": " ++ header.2

theorem headerLine_eq_ok {header : Str × Str} {line : Str} :
    headerLine header = .ok line ↔ IsHeader header ∧ line = fieldLine header := by
  unfold headerLine
  simp only [bind_eq_ok, check_eq_ok, decide_eq_true_eq, Bool.not_eq_true, List.contains_eq_mem,
    List.any_eq_false]
  constructor
  · rintro ⟨_, ⟨hfree, hnamed, hname, hvalue⟩, heq⟩
    cases heq
    exact ⟨⟨hfree, hnamed, hname, hvalue⟩, rfl⟩
  · rintro ⟨⟨hfree, hnamed, hname, hvalue⟩, rfl⟩
    exact ⟨(), ⟨hfree, hnamed, hname, hvalue⟩, rfl⟩

/-- The lines of a head. -/
def requestLines (endpoint : EndpointTarget) (body : Bytes) (headers : List (Str × Str)) : List Str :=
  ["POST " ++ endpoint.requestTarget ++ " HTTP/1.1", "Host: " ++ endpoint.authority] ++
    (sortHeaders headers).map fieldLine ++
      ["Content-Length: " ++ Str.ofChars (intText body.length), "Connection: close"]

def requestHead (endpoint : EndpointTarget) (body : Bytes) (headers : List (Str × Str)) : Str :=
  crlf.intercalate (requestLines endpoint body headers)

theorem mem_sortHeaders {headers : List (Str × Str)} {header : Str × Str} :
    header ∈ sortHeaders headers ↔ header ∈ headers :=
  (List.perm_insertionSort _ headers).mem_iff

theorem pairwise_sortHeaders (headers : List (Str × Str)) :
    (sortHeaders headers).Pairwise fun a b => (Platform.lower a.1).le (Platform.lower b.1) = true := by
  have htotal : Std.Total fun a b : Str × Str => (Platform.lower a.1).le (Platform.lower b.1) = true :=
    ⟨fun a b => Str.le_total _ _⟩
  have htrans : IsTrans (Str × Str) fun a b => (Platform.lower a.1).le (Platform.lower b.1) = true :=
    ⟨fun _ _ _ => Str.le_trans⟩
  exact List.pairwise_insertionSort _ _

omit [Platform] in
theorem intercalate_blank {lines : List Str} (h : lines ≠ []) :
    crlf.intercalate (lines ++ [[], []]) = crlf.intercalate lines ++ crlf ++ crlf := by
  induction lines with
  | nil => exact absurd rfl h
  | cons line rest ih =>
      cases rest with
      | nil => simp [List.intercalate_cons_cons]
      | cons line' rest =>
          have ih := ih (List.cons_ne_nil _ _)
          rw [List.cons_append] at ih
          rw [List.cons_append, List.cons_append, List.intercalate_cons_cons,
            List.intercalate_cons_cons, ih]
          simp only [List.append_assoc]

omit [Platform] in
theorem asciiBytes_blank (s : Str) (body : Bytes) :
    asciiBytes (s ++ crlf ++ crlf) ++ body = asciiBytes s ++ 13 :: 10 :: 13 :: 10 :: body := by
  have hcrlf : asciiBytes crlf = [13, 10] := by decide
  have happend : ∀ s t : Str, asciiBytes (s ++ t) = asciiBytes s ++ asciiBytes t :=
    fun s t => List.map_append
  rw [happend, happend, hcrlf, List.append_assoc, List.append_assoc]
  rfl

omit [Platform] in
theorem isAscii_append {s t : Str} : (s ++ t).isAscii = (s.isAscii && t.isAscii) :=
  List.all_append

/-- A request is its head, a blank line and its body. -/
theorem requestBytes_iff {endpoint : EndpointTarget} {body request : Bytes}
    {headers : List (Str × Str)} : requestBytes endpoint body headers = .ok request ↔
      (∀ header ∈ headers, IsHeader header) ∧
        (requestHead endpoint body headers).isAscii = true ∧
          request = asciiBytes (requestHead endpoint body headers) ++ 13 :: 10 :: 13 :: 10 :: body := by
  have hfields : ∀ fields, (sortHeaders headers).mapM headerLine = .ok fields ↔
      (∀ header ∈ headers, IsHeader header) ∧ fields = (sortHeaders headers).map fieldLine := by
    intro fields
    rw [mapM_eq_ok_iff fun header line => headerLine_eq_ok]
    simp only [mem_sortHeaders]
  -- the two empty lines at the end of the head
  have hhead : crlf.intercalate (["POST " ++ endpoint.requestTarget ++ " HTTP/1.1",
        "Host: " ++ endpoint.authority] ++ (sortHeaders headers).map fieldLine ++
          ["Content-Length: " ++ Str.ofChars (intText body.length), "Connection: close", [], []]) =
      requestHead endpoint body headers ++ crlf ++ crlf := by
    rw [requestHead, ← intercalate_blank (by simp [requestLines]), requestLines]
    simp only [List.append_assoc]
    rfl
  have hascii : (requestHead endpoint body headers ++ crlf ++ crlf).isAscii =
      (requestHead endpoint body headers).isAscii := by
    have hcrlf : crlf.isAscii = true := by decide
    rw [isAscii_append, isAscii_append, hcrlf, Bool.and_true, Bool.and_true]
  unfold requestBytes
  simp only [bind_eq_ok, hfields, check_eq_ok]
  constructor
  · rintro ⟨_, ⟨hall, rfl⟩, _, hok, heq⟩
    cases heq
    rw [hhead, hascii] at hok
    rw [hhead, asciiBytes_blank]
    exact ⟨hall, hok, rfl⟩
  · rintro ⟨hall, hok, rfl⟩
    refine ⟨_, ⟨hall, rfl⟩, (), ?_, ?_⟩
    · rw [hhead, hascii]
      exact hok
    · rw [hhead, asciiBytes_blank]
      rfl

end Writing

/-! ## Reading -/

/-- A request as it is read. -/
structure ReadRequest where
  method : Str
  target : Str
  version : Str
  fields : List (Str × Str)
  body : Bytes
deriving DecidableEq

def isBlank (c : PyChar) : Bool := c = .scalar ' ' ∨ c = .scalar '\t'

/-- A value without the blanks around it. -/
def stripBlanks (s : Str) : Str := (s.dropWhile isBlank).rdropWhile isBlank

/-- A line is a name up to the first colon, and a value. -/
def fieldOf? (line : Str) : Option (Str × Str) :=
  match line.partition (.scalar ':') with
  | (name, some value) => some (name, stripBlanks value)
  | (_, none) => none

/-- The first line is a method, a target and a version. -/
def readHead (lines : List Str) (body : Bytes) : Option ReadRequest :=
  match lines with
  | [] => none
  | start :: rest =>
      match start.splitOn (.scalar ' ') with
      | [method, target, version] =>
          (rest.mapM fieldOf?).map fun fields => ⟨method, target, version, fields, body⟩
      | _ => none

/-- A request is split at its first blank line, and its head is read line by line. -/
def readRequest (request : Bytes) : Option ReadRequest :=
  (Framing.splitBlank 13 10 request).bind fun parts =>
    readHead ((Framing.lines 13 10 parts.1).map Bytes.latin1) parts.2

theorem fieldOf?_fieldLine {name value : Str} (h : PyChar.scalar ':' ∉ name) :
    fieldOf? (name ++ ": " ++ value) = some (name, stripBlanks value) := by
  have hparts : (name ++ Str.ofString ": " ++ value).partition (.scalar ':') =
      (name, some (.scalar ' ' :: value)) := by
    rw [List.append_assoc]
    exact Str.partition_append h
  rw [fieldOf?, hparts]
  have hblank : isBlank (.scalar ' ') = true := by decide
  simp only [stripBlanks, List.dropWhile_cons, hblank, if_true]

theorem latin1_asciiBytes {s : Str} (h : s.isAscii = true) : Bytes.latin1 (asciiBytes s) = s :=
  Str.map_ofByte h


theorem asciiBytes_intercalate (ls : List Str) :
    asciiBytes (crlf.intercalate ls) = [13, 10].intercalate (ls.map asciiBytes) := by
  induction ls with
  | nil => rfl
  | cons line rest ih =>
      cases rest with
      | nil => simp
      | cons line' rest =>
          have happend : ∀ s t : Str, asciiBytes (s ++ t) = asciiBytes s ++ asciiBytes t :=
            fun s t => List.map_append
          rw [List.intercalate_cons_cons, happend, happend, ih, List.map_cons, List.map_cons,
            List.map_cons, List.intercalate_cons_cons]
          rfl

theorem isAscii_of_intercalate {sep : Str} {ls : List Str} (h : Str.isAscii (sep.intercalate ls) = true) :
    ∀ line ∈ ls, line.isAscii = true := by
  induction ls with
  | nil => exact fun line hline => absurd hline List.not_mem_nil
  | cons line rest ih =>
      cases rest with
      | nil => simpa using h
      | cons line' rest =>
          rw [List.intercalate_cons_cons, isAscii_append, isAscii_append, Bool.and_eq_true,
            Bool.and_eq_true] at h
          exact List.forall_mem_cons.mpr ⟨h.1.1, ih h.2⟩

/-- A carriage return is one of the text. -/
theorem cr_not_mem_asciiBytes {s : Str} (hascii : s.isAscii = true) (h : PyChar.scalar '\r' ∉ s) :
    13 ∉ asciiBytes s := by
  intro hmem
  have hback := List.mem_map_of_mem (f := Str.ofByte) hmem
  rw [asciiBytes, Str.map_ofByte hascii] at hback
  exact h hback

section Reading

variable [Platform] [Urllib] [LawfulUrllib]

omit [Urllib] [LawfulUrllib] in
/-- The fields of a request: the host, what it was given, and two of its own. -/
def sentFields (endpoint : EndpointTarget) (body : Bytes) (headers : List (Str × Str)) :
    List (Str × Str) :=
  (Str.ofString "Host", endpoint.authority) :: sortHeaders headers ++
    [(Str.ofString "Content-Length", Str.ofChars (intText body.length)),
      (Str.ofString "Connection", Str.ofString "close")]

omit [Urllib] [LawfulUrllib] in
theorem requestLines_eq (endpoint : EndpointTarget) (body : Bytes) (headers : List (Str × Str)) :
    requestLines endpoint body headers = ("POST " ++ endpoint.requestTarget ++ " HTTP/1.1") ::
      (sentFields endpoint body headers).map fieldLine := by
  simp only [requestLines, sentFields, List.map_append, List.map_cons, List.map_nil,
    List.cons_append, List.nil_append]
  rfl

/-- Neither a line break in a field nor a colon in its name. -/
theorem sentFields_chars {value : Str} {production : Bool} {allowedPorts : List ℕ}
    {endpoint : EndpointTarget} {body : Bytes} {headers : List (Str × Str)}
    (hparse : parseEndpoint value production allowedPorts = .ok endpoint)
    (h : ∀ header ∈ headers, IsHeader header) :
    ∀ field ∈ sentFields endpoint body headers,
      PyChar.scalar ':' ∉ field.1 ∧ PyChar.scalar '\r' ∉ field.1 ∧ PyChar.scalar '\r' ∉ field.2 := by
  have hplain : ∀ {s : Str}, (∀ c ∈ s, IsPlain c) → PyChar.scalar '\r' ∉ s := by
    intro s hs hmem
    exact absurd (hs _ hmem) (by decide)
  obtain ⟨_, _, _, _, _, hparses⟩ := parseEndpoint_eq_ok.mp hparse
  intro field hfield
  rcases List.mem_append.mp hfield with hfield | hfield
  · rcases List.mem_cons.mp hfield with rfl | hfield
    · have hname : PyChar.scalar ':' ∉ Str.ofString "Host" ∧ PyChar.scalar '\r' ∉ Str.ofString "Host" := by
        decide
      exact ⟨hname.1, hname.2, hplain hparses.authority_plain⟩
    · have hheader := h field (mem_sortHeaders.mp hfield)
      refine ⟨fun hmem => ?_, fun hmem => ?_, fun hmem => ?_⟩
      · exact absurd (hheader.name _ hmem) (by decide)
      · exact absurd (hheader.name _ hmem) (by decide)
      · exact absurd (hheader.value _ hmem) (by decide)
  · rcases List.mem_cons.mp hfield with rfl | hfield
    · have hname : PyChar.scalar ':' ∉ Str.ofString "Content-Length" ∧
          PyChar.scalar '\r' ∉ Str.ofString "Content-Length" := by decide
      exact ⟨hname.1, hname.2, hplain (isPlain_intText _)⟩
    · rw [List.mem_singleton.mp hfield]
      decide

/-- Headers of plain text can be sent. -/
theorem exists_requestBytes {value : Str} {production : Bool} {allowedPorts : List ℕ}
    {endpoint : EndpointTarget} {headers : List (Str × Str)} (body : Bytes)
    (hparse : parseEndpoint value production allowedPorts = .ok endpoint)
    (h : ∀ header ∈ headers, IsHeader header ∧ (∀ c ∈ header.1, IsPlain c) ∧ ∀ c ∈ header.2, IsPlain c) :
    ∃ request, requestBytes endpoint body headers = .ok request := by
  obtain ⟨_, _, _, _, _, hparses⟩ := parseEndpoint_eq_ok.mp hparse
  have htarget : ∀ c ∈ endpoint.requestTarget, IsPlain c := fun c hc =>
    isPlain_of_isVisible (hparses.requestTarget_visible c hc)
  have hfields : ∀ field ∈ sentFields endpoint body headers,
      (∀ c ∈ field.1, IsPlain c) ∧ ∀ c ∈ field.2, IsPlain c := by
    intro field hfield
    rcases List.mem_append.mp hfield with hfield | hfield
    · rcases List.mem_cons.mp hfield with rfl | hfield
      · have hname : ∀ c ∈ Str.ofString "Host", IsPlain c := by decide
        exact ⟨hname, hparses.authority_plain⟩
      · exact (h field (mem_sortHeaders.mp hfield)).2
    · rcases List.mem_cons.mp hfield with rfl | hfield
      · have hname : ∀ c ∈ Str.ofString "Content-Length", IsPlain c := by decide
        exact ⟨hname, isPlain_intText _⟩
      · rw [List.mem_singleton.mp hfield]
        decide
  refine ⟨_, requestBytes_iff.mpr ⟨fun header hheader => (h header hheader).1, ?_, rfl⟩⟩
  refine Str.isAscii_iff.mpr (Framing.forall_mem_intercalate (by decide) ?_)
  rw [requestLines_eq]
  intro line hline c hc
  rcases List.mem_cons.mp hline with rfl | hline
  · exact (isPlain_append (isPlain_append (by decide) htarget) (by decide) c hc).1
  · obtain ⟨field, hfield, rfl⟩ := List.mem_map.mp hline
    obtain ⟨hname, hvalue⟩ := hfields field hfield
    exact (isPlain_append (isPlain_append hname (by decide)) hvalue c hc).1

omit [Platform] [Urllib] [LawfulUrllib] in
/-- The fields are read back one by one. -/
theorem mapM_fieldOf? {fields : List (Str × Str)}
    (h : ∀ field ∈ fields, PyChar.scalar ':' ∉ field.1) :
    (fields.map fieldLine).mapM fieldOf? =
      some (fields.map fun field => (field.1, stripBlanks field.2)) := by
  rw [mapM_eq_some_iff, List.forall₂_map_left_iff, List.forall₂_map_right_iff, List.forall₂_same]
  exact fun field hfield => fieldOf?_fieldLine (h field hfield)

omit [Platform] [Urllib] [LawfulUrllib] in
/-- The first line is read back as well. -/
theorem splitOn_requestLine {target : Str} (h : ∀ c ∈ target, isVisible c = true) :
    List.splitOn (.scalar ' ') (Str.ofString "POST " ++ target ++ Str.ofString " HTTP/1.1") =
      [Str.ofString "POST", target, Str.ofString "HTTP/1.1"] := by
  have hblank : ∀ s : Str, (∀ c ∈ s, isVisible c = true) → ∀ c ∈ s, (c == .scalar ' ') = false := by
    intro s hs c hc
    rw [beq_eq_false_iff_ne]
    rintro rfl
    exact absurd (hs _ hc) (by decide)
  have htext : Str.ofString "POST " ++ target ++ Str.ofString " HTTP/1.1" =
      Str.ofString "POST" ++ .scalar ' ' :: (target ++ .scalar ' ' :: Str.ofString "HTTP/1.1") := by
    rw [List.append_assoc]
    rfl
  rw [htext, List.splitOn,
    List.splitOnP_append_cons_of_forall_mem (hblank _ (by decide)) _ (by decide),
    List.splitOnP_append_cons_of_forall_mem (hblank _ h) _ (by decide),
    List.splitOnP_eq_singleton (hblank _ (by decide))]

omit [Urllib] [LawfulUrllib] in
/-- The head and the body of a request are found again. -/
theorem readRequest_requestBytes {endpoint : EndpointTarget} {body : Bytes}
    {headers : List (Str × Str)} (htarget : ∀ c ∈ endpoint.requestTarget, isVisible c = true)
    (hfields : ∀ field ∈ sentFields endpoint body headers,
      PyChar.scalar ':' ∉ field.1 ∧ PyChar.scalar '\r' ∉ field.1 ∧ PyChar.scalar '\r' ∉ field.2)
    (hascii : (requestHead endpoint body headers).isAscii = true) :
    readRequest (asciiBytes (requestHead endpoint body headers) ++ 13 :: 10 :: 13 :: 10 :: body) =
      some ⟨"POST", endpoint.requestTarget, "HTTP/1.1",
        (sentFields endpoint body headers).map fun field => (field.1, stripBlanks field.2), body⟩ := by
  have hlines : ∀ line ∈ requestLines endpoint body headers,
      PyChar.scalar '\r' ∉ line ∧ line ≠ [] := by
    rw [requestLines_eq]
    intro line hline
    rcases List.mem_cons.mp hline with rfl | hline
    · refine ⟨fun hmem => ?_, by simp [Str.ofString]⟩
      rcases List.mem_append.mp hmem with hmem | hmem
      · rcases List.mem_append.mp hmem with hmem | hmem
        · exact absurd hmem (by decide)
        · exact absurd (htarget _ hmem) (by decide)
      · exact absurd hmem (by decide)
    · obtain ⟨field, hfield, rfl⟩ := List.mem_map.mp hline
      obtain ⟨-, hname, hvalue⟩ := hfields field hfield
      refine ⟨fun hmem => ?_, by simp [fieldLine, Str.ofString]⟩
      rcases List.mem_append.mp hmem with hmem | hmem
      · rcases List.mem_append.mp hmem with hmem | hmem
        · exact hname hmem
        · exact absurd hmem (by decide)
      · exact hvalue hmem
  have hne : (requestLines endpoint body headers).map asciiBytes ≠ [] := by simp [requestLines]
  have hlines_ascii := isAscii_of_intercalate hascii
  have hbytes : ∀ line ∈ (requestLines endpoint body headers).map asciiBytes, 13 ∉ line ∧ line ≠ [] := by
    intro bytes hbytes
    obtain ⟨line, hline, rfl⟩ := List.mem_map.mp hbytes
    exact ⟨cr_not_mem_asciiBytes (hlines_ascii line hline) (hlines line hline).1,
      fun h => (hlines line hline).2 (List.map_eq_nil_iff.mp h)⟩
  have hback : ((requestLines endpoint body headers).map asciiBytes).map Bytes.latin1 =
      requestLines endpoint body headers := by
    rw [List.map_map]
    exact (List.map_congr_left fun line hline => latin1_asciiBytes (hlines_ascii line hline)).trans
      (List.map_id _)
  rw [readRequest, requestHead, asciiBytes_intercalate,
    Framing.splitBlank_intercalate (by decide) hne hbytes, Option.bind_some,
    Framing.lines_intercalate hne fun line hline => (hbytes line hline).1, hback, requestLines_eq,
    readHead, splitOn_requestLine htarget, mapM_fieldOf? fun field hfield => (hfields field hfield).1]
  rfl

/-- A request is unambiguous: read up to its first blank line, it is one request line with the
endpoint's target, one host with its authority, the headers it was given in the order of their
names, the length of its body and the wish to close the connection. None of the headers is named as
one of the others, and what follows is the body. -/
theorem request_unambiguous {value : Str} {production : Bool} {allowedPorts : List ℕ}
    {endpoint : EndpointTarget} {body request : Bytes} {headers : List (Str × Str)}
    (hparse : parseEndpoint value production allowedPorts = .ok endpoint)
    (hrequest : requestBytes endpoint body headers = .ok request) :
    readRequest request = some {
        method := "POST"
        target := endpoint.requestTarget
        version := "HTTP/1.1"
        fields := (sentFields endpoint body headers).map fun field => (field.1, stripBlanks field.2)
        body } ∧
      (sortHeaders headers).Perm headers ∧
      (sortHeaders headers).Pairwise (fun a b => (Platform.lower a.1).le (Platform.lower b.1)) ∧
      ∀ header ∈ headers, Platform.lower header.1 ∉ protectedHeaders := by
  obtain ⟨_, _, _, _, _, hparses⟩ := parseEndpoint_eq_ok.mp hparse
  obtain ⟨hall, hascii, rfl⟩ := requestBytes_iff.mp hrequest
  refine ⟨readRequest_requestBytes hparses.requestTarget_visible (sentFields_chars hparse hall)
    hascii, List.perm_insertionSort _ _, pairwise_sortHeaders headers,
    fun header hheader => (hall header hheader).free⟩

end Reading

namespace Hosts

/-- The endpoint `https://a/`. -/
def endpoint : EndpointTarget := ⟨"https://a/", "https", "a", 443, "a", "/"⟩

def headers : List (Str × Str) := [("X-B", "2"), ("x-a", "1 ")]

def request : Bytes := asciiBytes ("POST / HTTP/1.1\r\nHost: a\r\nx-a: 1 \r\nX-B: 2\r\n" ++
  "Content-Length: 2\r\nConnection: close\r\n\r\nok")

end Hosts

open Checksum Hosts in
theorem request_unambiguous_hosts : readRequest Hosts.request = some {
        method := "POST"
        target := "/"
        version := "HTTP/1.1"
        fields := (sentFields Hosts.endpoint [111, 107] Hosts.headers).map fun field =>
          (field.1, stripBlanks field.2)
        body := [111, 107] } ∧
    (sortHeaders Hosts.headers).Perm Hosts.headers ∧
    (sortHeaders Hosts.headers).Pairwise (fun a b => (Platform.lower a.1).le (Platform.lower b.1)) ∧
    ∀ header ∈ Hosts.headers, Platform.lower header.1 ∉ protectedHeaders := by
  have hparse : parseEndpoint "https://a/" true [443] = .ok Hosts.endpoint := by decide +kernel
  have hrequest : requestBytes Hosts.endpoint [111, 107] Hosts.headers = .ok Hosts.request := by
    decide +kernel
  exact request_unambiguous hparse hrequest

end FastapiEffects
