import FastapiEffects.Idempotency.Fingerprint
import FastapiEffects.Python.Digits
import FastapiEffects.Python.Measure
import FastapiEffects.Python.Time
import Mathlib.Algebra.Order.BigOperators.Group.List
import Mathlib.Data.List.Perm.Subperm

/-! # Captured responses

`capture_response` takes of a response what a completed command keeps: the status, the media type
without parameters, the body and a dictionary of safe headers. `to_response` builds a response of these
again, which is the first answer when its Content-Type has no parameters of its own and no header
stands twice.
-/

namespace FastapiEffects

open Python

/-! ## Constants -/

def maxResponseBodyBytes : ℕ := 256 * 1024

def maxResponseHeaderBytes : ℕ := 16 * 1024

/-- `_ALLOWED_MEDIA_TYPES`. -/
def allowedMediaTypes : List Str := ["application/json", "application/problem+json", "text/plain"]

/-- `_SAFE_HEADERS`. -/
def safeHeaders : List Str := ["cache-control", "content-language", "etag", "last-modified"]

/-- `_UNSAFE_HEADERS`. -/
def unsafeHeaders : List Str := ["authorization", "connection", "cookie", "keep-alive",
  "proxy-authenticate", "proxy-authorization", "set-cookie", "te", "trailer", "transfer-encoding",
  "upgrade", "www-authenticate"]

/-- The headers a response builds for itself. -/
def contentHeaders : List Str := ["content-type", "content-length"]

/-! ## Responses -/

/-- `starlette.responses.Response`; a streaming response has no body. -/
structure HttpResponse where
  statusCode : ℤ
  mediaType : Option Str
  body : Option Bytes
  rawHeaders : List (Bytes × Bytes)

/-- `headers.items()`: each raw pair. -/
def HttpResponse.items (r : HttpResponse) : List (Str × Str) :=
  r.rawHeaders.map fun h => (Bytes.latin1 h.1, Bytes.latin1 h.2)

/-- What the code calls of Starlette: the constructor of `Response` with its default charset, and
`headers.get(name, "")`. -/
structure Starlette where
  charset : Str
  response : Bytes → ℤ → List (Str × Str) → Str → HttpResponse
  getHeader : HttpResponse → Str → Str

/-- The Content-Type of a media type without parameters: texts get the default charset. -/
def Starlette.contentType (starlette : Starlette) (mediaType : Str) : Str :=
  if ("text/" : Str).isPrefixOf mediaType then mediaType ++ "; charset=" ++ starlette.charset
  else mediaType

section Capture

variable [Platform]

/-! ## Capturing -/

/-- The arguments of `CapturedResponse(...)`. -/
structure CapturedArgs where
  statusCode : ℤ
  mediaType : Str
  body : Bytes
  headers : Dict Str Str

/-- `media_type.lower().split(";", 1)[0].strip()`. -/
def replayMediaType (mediaType : Str) : Str :=
  Str.strip ((Platform.lower mediaType).takeWhile fun c => c ≠ .scalar ';')

/-- One header: the bytes so far, and the normalized headers. -/
def keepHeader (kept : ℕ × Dict Str Str) (header : Str × Str) : Except PyError (ℕ × Dict Str Str) := do
  let name := Platform.lower header.1
  check (name ∉ unsafeHeaders ∧ name ∈ safeHeaders ∧ hasBreak header.2 = false)
    (.configuration "Command response header is not replay-safe.")
  let encodedName ← orRaise name.encode? .value
  let encodedValue ← orRaise header.2.encode? .value
  return (kept.1 + (encodedName.length + encodedValue.length), kept.2.set name header.2)

/-- `CapturedResponse.__post_init__`: the fields it leaves. -/
def CapturedArgs.postInit (c : CapturedArgs) : Except PyError CapturedArgs := do
  check (200 ≤ c.statusCode ∧ c.statusCode ≤ 599)
    (.configuration "Command response status is not replay-safe.")
  let mediaType := replayMediaType c.mediaType
  check (mediaType ∈ allowedMediaTypes)
    (.configuration "Command response media type is not replay-safe.")
  check (c.body.length ≤ maxResponseBodyBytes) (.configuration "Command response body is oversized.")
  let kept ← c.headers.items.foldlM keepHeader (0, Dict.empty)
  check (kept.1 ≤ maxResponseHeaderBytes)
    (.configuration "Command response headers are oversized.")
  return { c with mediaType, headers := kept.2 }

/-- `CapturedResponse`. -/
structure CapturedResponse extends CapturedArgs where
  made : ∃ given : CapturedArgs, given.postInit = .ok toCapturedArgs

/-- `CapturedResponse(...)`. -/
def CapturedResponse.make (given : CapturedArgs) : Except PyError CapturedResponse :=
  match h : given.postInit with
  | .ok c => .ok ⟨c, given, h⟩
  | .error e => .error e

/-- One header of the response. -/
def collectHeader (headers : Dict Str Str) (header : Str × Str) : Except PyError (Dict Str Str) :=
  let normalized := Platform.lower header.1
  if normalized ∈ contentHeaders then .ok headers
  else if normalized ∈ unsafeHeaders then
    .error (.configuration "Command response contains an unsafe header.")
  else .ok (headers.set header.1 header.2)

/-- The media type `capture_response` finds. -/
def declaredMediaType (starlette : Starlette) (r : HttpResponse) : Str :=
  r.mediaType.getD ((starlette.getHeader r "content-type").takeWhile fun c => c ≠ .scalar ';')

/-- `capture_response`. -/
def captureResponse (starlette : Starlette) (r : HttpResponse) : Except PyError CapturedResponse := do
  let body ← orRaise r.body (.configuration "Streaming responses cannot be replayed.")
  let headers ← r.items.foldlM collectHeader Dict.empty
  CapturedResponse.make {
    statusCode := r.statusCode
    mediaType := declaredMediaType starlette r
    body := body
    headers := headers }

/-- `to_response`. -/
def CapturedResponse.toResponse (starlette : Starlette) (c : CapturedResponse) (replayed : Bool) :
    HttpResponse :=
  let headers := if replayed then c.headers.set "Idempotency-Replayed" "true" else c.headers
  starlette.response c.body c.statusCode headers.items c.mediaType

/-! ## The row of a command -/

/-- `CommandState`. -/
inductive CommandState where
  | inProgress
  | completed
  | superseded
deriving DecidableEq

/-- The columns of a `CommandRow` that its completion reads or writes, or that a constraint
compares with these. -/
structure CommandRow where
  isCurrent : Bool
  state : CommandState
  responseStatus : Option ℤ
  responseHeaders : Option (Dict Str Str)
  responseBody : Option Bytes
  responseMediaType : Option Str
  createdAt : Datetime
  updatedAt : Datetime
  completedAt : Option Datetime
  supersededAt : Option Datetime

omit [Platform] in
/-- The check constraints on these columns. -/
def CommandRow.coherent (row : CommandRow) : Bool :=
  let response := [row.responseStatus.isSome, row.responseHeaders.isSome, row.responseBody.isSome,
    row.responseMediaType.isSome, row.completedAt.isSome]
  row.createdAt ≤ row.updatedAt ∧
  row.responseStatus.all (fun status => 200 ≤ status ∧ status ≤ 599) ∧
  row.completedAt.all (row.createdAt ≤ ·) ∧ row.supersededAt.all (row.createdAt ≤ ·) ∧
  row.responseBody.all (fun body => body.length ≤ 262144) ∧
  row.responseMediaType.all (fun mediaType => mediaType ∈ allowedMediaTypes) ∧
  (row.state = .superseded ↔ row.isCurrent = false ∧ row.supersededAt.isSome) ∧
  (row.state = .completed ∧ response.all id ∨ row.state = .inProgress ∧ ¬ response.any id ∨
    row.state = .superseded)

/-- `CommandStore.complete`, on the row its `SELECT` finds, at the time of the database. -/
def CommandStore.complete (replayed : Bool) (found : Option CommandRow) (response : CapturedResponse)
    (completedAt : Datetime) : Except PyError CommandRow := do
  check (!replayed) (.configuration "A replayed command cannot be completed again.")
  let row ← orRaise found .commandInProgress
  check (row.state = .inProgress ∧ row.isCurrent) .commandInProgress
  let completed := { row with
    state := .completed
    responseStatus := some response.statusCode
    responseHeaders := some response.headers
    responseBody := some response.body
    responseMediaType := some response.mediaType
    completedAt := some completedAt
    updatedAt := completedAt }
  check completed.coherent .integrity
  return completed

/-- `_response_from_row`. -/
def responseFromRow (row : CommandRow) : Except PyError CapturedResponse :=
  match row.responseStatus, row.responseHeaders, row.responseBody, row.responseMediaType with
  | some statusCode, some headers, some body, some mediaType =>
      CapturedResponse.make ⟨statusCode, mediaType, body, headers⟩
  | _, _, _, _ => .error (.configuration "Completed command response is unavailable.")

omit [Platform] in
/-- What the database returns of a row: a `jsonb` column keeps no order of its members. -/
structure CommandRow.StoredAs (row stored : CommandRow) : Prop where
  headers : ∀ headers, row.responseHeaders = some headers →
    ∃ headers', stored.responseHeaders = some headers' ∧ headers'.items.Perm headers.items
  others : stored = { row with responseHeaders := stored.responseHeaders }

/-! ## What a replay is -/

/-- The values of a header, in their order. -/
def HttpResponse.values (r : HttpResponse) (name : Str) : List Str :=
  (r.items.filter fun h => Platform.lower h.1 = name).map Prod.snd

/-- A response that repeats another: the status, the body, the Content-Type and every occurrence of
every other header, the Content-Length and the marker of a replay aside. -/
structure HttpResponse.RepeatedBy (r r' : HttpResponse) : Prop where
  status : r'.statusCode = r.statusCode
  body : r'.body = r.body
  contentType : r'.values "content-type" = r.values "content-type"
  others : ∀ name : Str, name ∉ contentHeaders → name ≠ "idempotency-replayed" →
    r'.values name = r.values name

/-- The answer of a command that is completed with `c` is a repetition of `r`: a row in progress can be
completed, and whatever is read back of the completed row is. -/
structure HttpResponse.ReplayedFrom (starlette : Starlette) (r : HttpResponse) (c : CapturedResponse) :
    Prop where
  completes : ∀ (row : CommandRow) (completedAt : Datetime), row.coherent = true →
    row.state = .inProgress → row.isCurrent = true → row.createdAt ≤ completedAt →
      ∃ completed, CommandStore.complete false (some row) c completedAt = .ok completed
  answers : ∀ (row : CommandRow) (completedAt : Datetime) (completed stored : CommandRow),
    CommandStore.complete false (some row) c completedAt = .ok completed → completed.StoredAs stored →
      ∃ c', responseFromRow stored = .ok c' ∧
        ∀ replayed, r.RepeatedBy (c'.toResponse starlette replayed)

/-- A response whose Content-Type is the one that is built of its media type, and in which no other
header stands twice. -/
structure HttpResponse.Replayable (starlette : Starlette) (r : HttpResponse) : Prop where
  contentType : r.values "content-type" =
    [starlette.contentType (replayMediaType (declaredMediaType starlette r))]
  once : ∀ name : Str, name ∉ contentHeaders → (r.values name).length ≤ 1

/-- What Starlette documents of the constructor of `Response`: it keeps the status and the body, and
its headers are the given ones with their names in lower case, a Content-Length, and the Content-Type
of the media type. -/
structure Starlette.Documented (starlette : Starlette) : Prop where
  status : ∀ body status headers mediaType,
    (starlette.response body status headers mediaType).statusCode = status
  body : ∀ body status headers mediaType,
    (starlette.response body status headers mediaType).body = some body
  items : ∀ body status headers mediaType,
    (∀ h ∈ headers, h.1.isAscii = true ∧ Platform.lower h.1 ∉ contentHeaders ∧
      ∀ c ∈ h.2, c.ord < 256) → mediaType ∈ allowedMediaTypes →
    ((starlette.response body status headers mediaType).items.filter fun h : Str × Str =>
      h.1 ≠ Str.ofString "content-length").Perm
      ((headers.map fun h => (Platform.lower h.1, h.2)) ++
        [(Str.ofString "content-type", starlette.contentType mediaType)])

/-! ## The loops over headers -/

/-- A header that `CapturedResponse` accepts. -/
structure SafeHeader (h : Str × Str) : Prop where
  safe : Platform.lower h.1 ∈ safeHeaders
  unbroken : hasBreak h.2 = false
  encodes : (Platform.lower h.1).encodes = true ∧ h.2.encodes = true

/-- The bytes of a header. -/
def headerSize (h : Str × Str) : ℕ := (Platform.lower h.1).utf8Size + h.2.utf8Size

omit [Platform] in
theorem not_mem_unsafeHeaders {name : Str} (h : name ∈ safeHeaders) : name ∉ unsafeHeaders := by
  revert h
  simp only [safeHeaders, List.mem_cons, List.not_mem_nil, or_false]
  rintro (rfl | rfl | rfl | rfl) <;> decide

theorem keepHeader_eq_ok {kept kept' : ℕ × Dict Str Str} {h : Str × Str} :
    keepHeader kept h = .ok kept' ↔
      SafeHeader h ∧ kept' = (kept.1 + headerSize h, kept.2.set (Platform.lower h.1) h.2) := by
  simp only [keepHeader, bind_eq_ok, check_eq_ok, orRaise_eq_ok, decide_eq_true_eq]
  constructor
  · rintro ⟨_, ⟨-, hsafe, hbreak⟩, name, hname, value, hvalue, heq⟩
    cases heq
    have hencodes : (Platform.lower h.1).encodes = true ∧ h.2.encodes = true := by
      rw [← Str.isSome_encode?, ← Str.isSome_encode?, hname, hvalue]
      exact ⟨rfl, rfl⟩
    rw [Str.length_encode? hname, Str.length_encode? hvalue]
    exact ⟨⟨hsafe, hbreak, hencodes⟩, rfl⟩
  · rintro ⟨⟨hsafe, hbreak, hname, hvalue⟩, rfl⟩
    rw [← Str.isSome_encode?] at hname hvalue
    obtain ⟨name, hname⟩ := Option.isSome_iff_exists.mp hname
    obtain ⟨value, hvalue⟩ := Option.isSome_iff_exists.mp hvalue
    refine ⟨(), ⟨not_mem_unsafeHeaders hsafe, hsafe, hbreak⟩, name, hname, value, hvalue, ?_⟩
    rw [Str.length_encode? hname, Str.length_encode? hvalue]
    rfl

/-- A header under its name in lower case. -/
def lowered (h : Str × Str) : Str × Str := (Platform.lower h.1, h.2)

/-- The loop of `CapturedResponse`. -/
theorem foldlM_keepHeader {headers : List (Str × Str)} {kept kept' : ℕ × Dict Str Str} :
    headers.foldlM keepHeader kept = .ok kept' ↔ (∀ h ∈ headers, SafeHeader h) ∧
      kept' = (kept.1 + (headers.map headerSize).sum, kept.2.update (headers.map lowered)) := by
  induction headers generalizing kept with
  | nil => simp [Dict.update, eq_comm, pure, Except.pure]
  | cons h rest ih =>
      rw [List.foldlM_cons, bind_eq_ok, List.forall_mem_cons]
      constructor
      · rintro ⟨next, hnext, hrest⟩
        obtain ⟨hsafe, rfl⟩ := keepHeader_eq_ok.mp hnext
        obtain ⟨hsafes, rfl⟩ := ih.mp hrest
        refine ⟨⟨hsafe, hsafes⟩, ?_⟩
        rw [List.map_cons, List.map_cons, List.sum_cons, Nat.add_assoc]
        rfl
      · rintro ⟨⟨hsafe, hsafes⟩, rfl⟩
        refine ⟨_, keepHeader_eq_ok.mpr ⟨hsafe, rfl⟩, ih.mpr ⟨hsafes, ?_⟩⟩
        rw [List.map_cons, List.map_cons, List.sum_cons, Nat.add_assoc]
        rfl

/-- The headers of a response that are captured. -/
def HttpResponse.plainHeaders (r : HttpResponse) : List (Str × Str) :=
  r.items.filter fun h => Platform.lower h.1 ∉ contentHeaders

/-- The loop of `capture_response`. -/
theorem foldlM_collectHeader {headers : List (Str × Str)} {d d' : Dict Str Str}
    (h : headers.foldlM collectHeader d = .ok d') :
    d' = d.update (headers.filter fun h => Platform.lower h.1 ∉ contentHeaders) := by
  induction headers generalizing d with
  | nil =>
      cases h
      rfl
  | cons header rest ih =>
      rw [List.foldlM_cons, bind_eq_ok] at h
      obtain ⟨next, hnext, hrest⟩ := h
      rw [ih hrest]
      unfold collectHeader at hnext
      simp only at hnext
      split_ifs at hnext with hcontent hunsafe
      · cases hnext
        rw [List.filter_cons_of_neg (by simpa using hcontent)]
      · cases hnext
        rw [List.filter_cons_of_pos (by simpa using hcontent)]
        rfl

/-! ## What `CapturedResponse` accepts -/

theorem lower_safe {name : Str} (h : name ∈ safeHeaders) :
    name.isAscii = true ∧ Platform.lower name = name ∧ name ∉ contentHeaders ∧
      name ≠ "idempotency-replayed" := by
  have hname : name.isAscii = true ∧ name.map PyChar.asciiLower = name ∧ name ∉ contentHeaders ∧
      name ≠ "idempotency-replayed" := by
    revert h
    simp only [safeHeaders, List.mem_cons, List.not_mem_nil, or_false]
    rintro (rfl | rfl | rfl | rfl) <;> decide +kernel
  exact ⟨hname.1, (Platform.lower_ascii name hname.1).trans hname.2.1, hname.2.2⟩

theorem replayMediaType_allowed {mediaType : Str} (h : mediaType ∈ allowedMediaTypes) :
    replayMediaType mediaType = mediaType := by
  have hmedia : mediaType.isAscii = true ∧
      Str.strip ((mediaType.map PyChar.asciiLower).takeWhile fun c => c ≠ .scalar ';') = mediaType := by
    revert h
    simp only [allowedMediaTypes, List.mem_cons, List.not_mem_nil, or_false]
    rintro (rfl | rfl | rfl) <;> decide +kernel
  rw [replayMediaType, Platform.lower_ascii mediaType hmedia.1, hmedia.2]

theorem lowered_safe {h : Str × Str} (hname : h.1 ∈ safeHeaders) : lowered h = h := by
  rw [lowered, (lower_safe hname).2.1]

theorem SafeHeader.lowered {h : Str × Str} (hsafe : SafeHeader h) :
    SafeHeader (lowered h) ∧ headerSize (lowered h) = headerSize h := by
  have hlower := (lower_safe hsafe.safe).2.1
  constructor
  · refine ⟨?_, hsafe.unbroken, ?_, hsafe.encodes.2⟩
    · show Platform.lower (Platform.lower h.1) ∈ safeHeaders
      rw [hlower]
      exact hsafe.safe
    · show (Platform.lower (Platform.lower h.1)).encodes = true
      rw [hlower]
      exact hsafe.encodes.1
  · unfold headerSize FastapiEffects.lowered
    rw [hlower]

namespace CapturedArgs

/-- Arguments that `CapturedResponse` accepts. -/
structure Safe (c : CapturedArgs) : Prop where
  status : 200 ≤ c.statusCode ∧ c.statusCode ≤ 599
  mediaType : replayMediaType c.mediaType ∈ allowedMediaTypes
  body : c.body.length ≤ maxResponseBodyBytes
  headers : ∀ h ∈ c.headers.items, SafeHeader h
  size : (c.headers.items.map headerSize).sum ≤ maxResponseHeaderBytes

/-- The fields it leaves of them. -/
def normalized (c : CapturedArgs) : CapturedArgs :=
  { c with
    mediaType := replayMediaType c.mediaType
    headers := Dict.empty.update (c.headers.items.map lowered) }

theorem postInit_eq_ok {c c' : CapturedArgs} : c.postInit = .ok c' ↔ c.Safe ∧ c' = c.normalized := by
  simp only [postInit, bind_eq_ok, check_eq_ok, decide_eq_true_eq]
  constructor
  · rintro ⟨_, hstatus, _, hmedia, _, hbody, kept, hkept, _, hsize, hc⟩
    obtain ⟨hsafe, rfl⟩ := foldlM_keepHeader.mp hkept
    cases hc
    exact ⟨⟨hstatus, hmedia, hbody, hsafe, by simpa using hsize⟩, rfl⟩
  · rintro ⟨hsafe, rfl⟩
    exact ⟨(), hsafe.status, (), hsafe.mediaType, (), hsafe.body, _,
      foldlM_keepHeader.mpr ⟨hsafe.headers, rfl⟩, (), by simpa using hsafe.size, rfl⟩

/-- Accepted arguments that are left as they are. -/
structure Normal (c : CapturedArgs) : Prop extends Safe c where
  names : ∀ h ∈ c.headers.items, h.1 ∈ safeHeaders
  bare : c.mediaType ∈ allowedMediaTypes

theorem Normal.normalized_eq {c : CapturedArgs} (h : c.Normal) : c.normalized = c := by
  have hitems : c.headers.items.map lowered = c.headers.items := by
    refine (List.map_congr_left fun m hm => ?_).trans c.headers.items.map_id
    exact lowered_safe (h.names m hm)
  have hheaders : Dict.empty.update c.headers.items = c.headers := by
    have hupdate : (Dict.empty.update c.headers.items).items = c.headers.items :=
      Dict.items_update_of_nodup (d := Dict.empty) c.headers.nodup
    cases hd : Dict.empty.update c.headers.items with
    | mk items nodup =>
        rw [hd] at hupdate
        cases hupdate
        rfl
  rw [normalized, hitems, hheaders, replayMediaType_allowed h.bare]

/-- What is left of accepted arguments is accepted. -/
theorem Safe.normal {c : CapturedArgs} (h : c.Safe) : c.normalized.Normal := by
  have hmem : ∀ m ∈ c.normalized.headers.items, m ∈ c.headers.items.map lowered := by
    intro m hm
    rcases Dict.mem_or_of_get_update (Dict.get_eq_some.mpr hm) with hitem | hempty
    · exact hitem
    · cases hempty
  have hsafe : ∀ m ∈ c.headers.items.map lowered, SafeHeader m ∧ m.1 ∈ safeHeaders := by
    intro m hm
    obtain ⟨n, hn, rfl⟩ := List.mem_map.mp hm
    exact ⟨(h.headers n hn).lowered.1, (h.headers n hn).safe⟩
  have hsize : (c.normalized.headers.items.map headerSize).sum ≤
      ((c.headers.items.map lowered).map headerSize).sum := by
    obtain ⟨kept, hperm, hsub⟩ := (c.normalized.headers.nodup.of_map Prod.fst).subperm hmem
    rw [← (hperm.map headerSize).sum_eq]
    exact (hsub.map headerSize).sum_le_sum fun _ _ => Nat.zero_le _
  have hsame : ((c.headers.items.map lowered).map headerSize) = c.headers.items.map headerSize := by
    rw [List.map_map]
    exact List.map_congr_left fun n hn => (h.headers n hn).lowered.2
  have hbare : replayMediaType (replayMediaType c.mediaType) = replayMediaType c.mediaType :=
    replayMediaType_allowed h.mediaType
  exact {
    status := h.status
    mediaType := hbare.symm ▸ h.mediaType
    body := h.body
    headers := fun m hm => (hsafe m (hmem m hm)).1
    size := (hsize.trans_eq (congrArg List.sum hsame)).trans h.size
    names := fun m hm => (hsafe m (hmem m hm)).2
    bare := h.mediaType }

/-- The order of the headers does not matter. -/
theorem Normal.of_perm {c : CapturedArgs} (h : c.Normal) {headers : Dict Str Str}
    (hperm : headers.items.Perm c.headers.items) : { c with headers }.Normal where
  status := h.status
  mediaType := h.mediaType
  body := h.body
  headers m hm := h.headers m (hperm.mem_iff.mp hm)
  size := (hperm.map headerSize).sum_eq.trans_le h.size
  names m hm := h.names m (hperm.mem_iff.mp hm)
  bare := h.bare

end CapturedArgs

theorem CapturedResponse.make_eq_ok {given : CapturedArgs} {c : CapturedResponse} :
    CapturedResponse.make given = .ok c ↔ given.postInit = .ok c.toCapturedArgs := by
  unfold CapturedResponse.make
  split
  next c' h =>
    constructor
    · intro heq
      cases heq
      exact h
    · intro hc
      cases c
      cases h.symm.trans hc
      rfl
  next e h =>
    rw [h]
    constructor <;> exact nofun

theorem CapturedResponse.normal (c : CapturedResponse) : c.toCapturedArgs.Normal := by
  obtain ⟨given, hgiven⟩ := c.made
  obtain ⟨hsafe, heq⟩ := CapturedArgs.postInit_eq_ok.mp hgiven
  rw [heq]
  exact hsafe.normal

/-! ## What `capture_response` keeps -/

/-- What a captured response has of the response. -/
structure HttpResponse.CapturedAs (starlette : Starlette) (r : HttpResponse) (c : CapturedArgs) : Prop where
  body : r.body = some c.body
  status : c.statusCode = r.statusCode
  mediaType : c.mediaType = replayMediaType (declaredMediaType starlette r)
  safe : ∀ h ∈ (Dict.empty.update r.plainHeaders).items, SafeHeader h
  headers : c.headers = Dict.empty.update ((Dict.empty.update r.plainHeaders).items.map lowered)

theorem captureResponse_eq_ok {starlette : Starlette} {r : HttpResponse} {c : CapturedResponse}
    (h : captureResponse starlette r = .ok c) : r.CapturedAs starlette c.toCapturedArgs := by
  simp only [captureResponse, bind_eq_ok, orRaise_eq_ok, CapturedResponse.make_eq_ok] at h
  obtain ⟨body, hbody, headers, hheaders, hmake⟩ := h
  obtain ⟨hsafe, heq⟩ := CapturedArgs.postInit_eq_ok.mp hmake
  have hplain := foldlM_collectHeader hheaders
  subst hplain
  rw [heq]
  exact ⟨hbody, rfl, rfl, hsafe.headers, rfl⟩

theorem HttpResponse.mem_values {r : HttpResponse} {name value : Str} :
    value ∈ r.values name ↔ ∃ h ∈ r.items, Platform.lower h.1 = name ∧ h.2 = value := by
  simp [HttpResponse.values, and_assoc]

omit [Platform] in
/-- The text of a raw header is Latin-1. -/
theorem HttpResponse.ord_lt {r : HttpResponse} {h : Str × Str} (hmem : h ∈ r.items) :
    ∀ c ∈ h.2, c.ord < 256 := by
  obtain ⟨raw, -, rfl⟩ := List.mem_map.mp hmem
  exact Bytes.ord_lt_latin1 raw.2

namespace HttpResponse.CapturedAs

variable {starlette : Starlette} {r : HttpResponse} {c : CapturedArgs}

/-- A header that is kept is one of the response. -/
theorem mem_items (h : r.CapturedAs starlette c) {name value : Str}
    (hget : c.headers.get name = some value) :
    ∃ header ∈ r.items, Platform.lower header.1 = name ∧ header.2 = value := by
  rw [h.headers] at hget
  rcases Dict.mem_or_of_get_update hget with hitem | hempty
  · obtain ⟨header, hheader, heq⟩ := List.mem_map.mp hitem
    rcases Dict.mem_or_of_get_update (Dict.get_eq_some.mpr hheader) with hplain | hempty
    · exact ⟨header, (List.mem_filter.mp hplain).1, congrArg Prod.fst heq, congrArg Prod.snd heq⟩
    · cases hempty
  · cases hempty

/-- Of every name of the response a header is kept. -/
theorem isSome_get (h : r.CapturedAs starlette c) {name value : Str} (hname : name ∉ contentHeaders)
    (hvalue : value ∈ r.values name) : name ∈ safeHeaders ∧ (c.headers.get name).isSome = true := by
  obtain ⟨header, hheader, rfl, -⟩ := HttpResponse.mem_values.mp hvalue
  have hplain : header ∈ r.plainHeaders := List.mem_filter.mpr ⟨hheader, decide_eq_true hname⟩
  have hkept : ((Dict.empty.update r.plainHeaders).get header.1).isSome = true :=
    Dict.isSome_get_update.mpr (.inl (List.mem_map_of_mem hplain))
  obtain ⟨last, hlast⟩ := Option.isSome_iff_exists.mp hkept
  have hitem := Dict.get_eq_some.mp hlast
  refine ⟨(h.safe _ hitem).safe, ?_⟩
  rw [h.headers]
  exact Dict.isSome_get_update.mpr
    (.inl (List.mem_map.mpr ⟨_, List.mem_map_of_mem hitem, rfl⟩))

/-- Nothing of a name is lost unless it stands twice. -/
theorem toList_get_iff (h : r.CapturedAs starlette c) {name : Str} (hname : name ∉ contentHeaders) :
    (c.headers.get name).toList = r.values name ↔ (r.values name).length ≤ 1 := by
  cases hvalues : r.values name with
  | nil =>
      have hnone : c.headers.get name = none := by
        refine Option.eq_none_iff_forall_ne_some.mpr fun value hvalue => ?_
        have hmem := HttpResponse.mem_values.mpr (h.mem_items hvalue)
        rw [hvalues] at hmem
        cases hmem
      simp [hnone]
  | cons value rest =>
      have hfirst : value ∈ r.values name := hvalues ▸ List.mem_cons_self
      obtain ⟨kept, hkept⟩ := Option.isSome_iff_exists.mp (h.isSome_get hname hfirst).2
      have hmem := HttpResponse.mem_values.mpr (h.mem_items hkept)
      rw [hvalues] at hmem
      rw [hkept]
      constructor
      · intro heq
        rw [← heq]
        exact le_rfl
      · intro hlen
        have hrest : rest = [] := by simpa using hlen
        rw [hrest, List.mem_singleton] at hmem
        rw [hrest, hmem]
        rfl

end HttpResponse.CapturedAs

/-! ## Completing a command -/

theorem CommandStore.complete_isOk {row : CommandRow} (hcoherent : row.coherent = true)
    (hstate : row.state = .inProgress) (hcurrent : row.isCurrent = true) (c : CapturedResponse)
    {completedAt : Datetime} (htime : row.createdAt ≤ completedAt) :
    ∃ completed, CommandStore.complete false (some row) c completedAt = .ok completed := by
  simp only [CommandStore.complete, bind_eq_ok, check_eq_ok, orRaise_eq_ok, decide_eq_true_eq]
  refine ⟨_, (), rfl, row, rfl, (), ⟨hstate, hcurrent⟩, (), ?_, rfl⟩
  have hnormal := c.normal
  simp only [CommandRow.coherent, hstate, hcurrent, decide_eq_true_eq] at hcoherent ⊢
  obtain ⟨-, -, -, hsuperseded, -⟩ := hcoherent
  refine ⟨htime, ?_, ?_, hsuperseded, ?_, ?_, ?_, ?_⟩
  · simpa using hnormal.status
  · simpa using htime
  · simpa [maxResponseBodyBytes] using hnormal.body
  · simpa using hnormal.bare
  · simp
  · simp

/-- What a completed row has of the response. -/
theorem CommandStore.complete_eq_ok {found : Option CommandRow} {c : CapturedResponse}
    {completedAt : Datetime} {completed : CommandRow}
    (h : CommandStore.complete false found c completedAt = .ok completed) :
    completed.responseStatus = some c.statusCode ∧ completed.responseHeaders = some c.headers ∧
      completed.responseBody = some c.body ∧ completed.responseMediaType = some c.mediaType := by
  simp only [CommandStore.complete, bind_eq_ok, check_eq_ok, orRaise_eq_ok] at h
  obtain ⟨_, -, row, -, _, -, _, -, heq⟩ := h
  cases heq
  exact ⟨rfl, rfl, rfl, rfl⟩

/-- A stored response is read back as it was, but for the order of its headers. -/
theorem responseFromRow_stored {found : Option CommandRow} {c : CapturedResponse}
    {completedAt : Datetime} {completed stored : CommandRow}
    (hcomplete : CommandStore.complete false found c completedAt = .ok completed)
    (hstored : completed.StoredAs stored) : ∃ c' headers, responseFromRow stored = .ok c' ∧
      c'.toCapturedArgs = { c.toCapturedArgs with headers } ∧ headers.items.Perm c.headers.items := by
  obtain ⟨hstatus, hheaders, hbody, hmedia⟩ := CommandStore.complete_eq_ok hcomplete
  obtain ⟨headers, hread, hperm⟩ := hstored.headers _ hheaders
  have hnormal : { c.toCapturedArgs with headers }.Normal := c.normal.of_perm hperm
  have hpost : { c.toCapturedArgs with headers }.postInit = .ok { c.toCapturedArgs with headers } :=
    CapturedArgs.postInit_eq_ok.mpr ⟨hnormal.toSafe, hnormal.normalized_eq.symm⟩
  refine ⟨⟨{ c.toCapturedArgs with headers }, _, hpost⟩, headers, ?_, rfl, hperm⟩
  have hothers := hstored.others
  unfold responseFromRow
  rw [hread]
  rw [hothers]
  simp only [hstatus, hbody, hmedia]
  exact CapturedResponse.make_eq_ok.mpr hpost

/-! ## The headers of a replay -/

/-- The headers of a replay that are of one name. -/
theorem Starlette.Documented.values {starlette : Starlette} (hdoc : starlette.Documented) (body : Bytes)
    (status : ℤ) {headers : List (Str × Str)} {mediaType : Str}
    (hheaders : ∀ h ∈ headers, h.1.isAscii = true ∧ Platform.lower h.1 ∉ contentHeaders ∧
      ∀ c ∈ h.2, c.ord < 256) (hmedia : mediaType ∈ allowedMediaTypes) {name : Str}
    (hname : name ≠ "content-length") :
    ((starlette.response body status headers mediaType).values name).Perm
      ((((headers.map lowered) ++ [(Str.ofString "content-type", starlette.contentType mediaType)]).filter
        fun h => Platform.lower h.1 = name).map Prod.snd) := by
  have hlength : Platform.lower (Str.ofString "content-length") = "content-length" := by
    rw [Platform.lower_ascii _ (by decide)]
    decide
  have hitems := hdoc.items body status headers mediaType hheaders hmedia
  have hfilter : ∀ items : List (Str × Str), (items.filter fun h => Platform.lower h.1 = name) =
      (items.filter fun h => h.1 ≠ Str.ofString "content-length").filter
        fun h => Platform.lower h.1 = name := by
    intro items
    rw [List.filter_filter]
    refine List.filter_congr fun h _ => ?_
    by_cases hlower : Platform.lower h.1 = name
    · have hne : h.1 ≠ Str.ofString "content-length" := by
        rintro heq
        rw [heq, hlength] at hlower
        exact hname hlower.symm
      simp [hlower, hne]
    · simp [hlower]
  rw [HttpResponse.values, hfilter]
  exact (hitems.filter _).map Prod.snd

namespace CapturedResponse

variable {starlette : Starlette} {c : CapturedResponse}

/-- The header that marks a replay. -/
def replayMarker : Str × Str := (Str.ofString "Idempotency-Replayed", Str.ofString "true")

theorem lower_replayMarker : Platform.lower replayMarker.1 = "idempotency-replayed" ∧
    Platform.lower (Platform.lower replayMarker.1) = "idempotency-replayed" := by
  have hlower : Platform.lower replayMarker.1 = "idempotency-replayed" := by
    rw [Platform.lower_ascii _ (by decide)]
    decide
  refine ⟨hlower, ?_⟩
  rw [hlower, Platform.lower_ascii _ (by decide)]
  decide

/-- The headers that `to_response` passes: those of the captured response, and the marker. -/
theorem toResponse_eq (starlette : Starlette) (c : CapturedResponse) (replayed : Bool) :
    ∃ marks : List (Str × Str), (∀ m ∈ marks, m = replayMarker) ∧ c.toResponse starlette replayed =
      starlette.response c.body c.statusCode (c.headers.items ++ marks) c.mediaType := by
  cases replayed with
  | false => exact ⟨[], by simp, by simp [toResponse]⟩
  | true =>
      have hnew : c.headers.get "Idempotency-Replayed" = none := by
        refine Dict.get_eq_none.mpr fun m hm heq => ?_
        have hsafe := c.normal.names m hm
        rw [heq] at hsafe
        exact absurd hsafe (by decide)
      refine ⟨[replayMarker], fun m hm => List.mem_singleton.mp hm, ?_⟩
      rw [toResponse, if_pos rfl, Dict.items_set_of_get_eq_none hnew]
      rfl

/-- The captured headers of one name. -/
theorem filter_lowered (c : CapturedResponse) (name : Str) :
    ((c.headers.items.map lowered).filter fun h => Platform.lower h.1 = name).map Prod.snd =
      (c.headers.get name).toList := by
  have hnames := c.normal.names
  have hsame : c.headers.items.map lowered = c.headers.items := by
    refine (List.map_congr_left fun m hm => ?_).trans c.headers.items.map_id
    exact lowered_safe (hnames m hm)
  rw [hsame, Dict.toList_get]
  congr 1
  refine List.filter_congr fun h hh => ?_
  rw [(lower_safe (hnames h hh)).2.1]

/-- The headers of a replay that are of one name. -/
theorem values_toResponse (hdoc : starlette.Documented)
    (hlatin : ∀ m ∈ c.headers.items, ∀ x ∈ m.2, x.ord < 256) (replayed : Bool) {name : Str}
    (hlength : name ≠ "content-length") (hreplayed : name ≠ "idempotency-replayed") :
    (c.toResponse starlette replayed).values name =
      if name = "content-type" then [starlette.contentType c.mediaType]
      else (c.headers.get name).toList := by
  obtain ⟨marks, hmarks, heq⟩ := toResponse_eq starlette c replayed
  have hnormal := c.normal
  have hheaders : ∀ h ∈ c.headers.items ++ marks, h.1.isAscii = true ∧
      Platform.lower h.1 ∉ contentHeaders ∧ ∀ x ∈ h.2, x.ord < 256 := by
    intro h hh
    rcases List.mem_append.mp hh with hkept | hmarked
    · obtain ⟨hascii, hlower, hother, -⟩ := lower_safe (hnormal.names h hkept)
      rw [hlower]
      exact ⟨hascii, hother, hlatin h hkept⟩
    · rw [hmarks h hmarked, lower_replayMarker.1]
      decide +kernel
  have hmarked : ((marks.map lowered).filter fun h => Platform.lower h.1 = name) = [] := by
    refine List.filter_eq_nil_iff.mpr fun h hh => ?_
    obtain ⟨m, hm, rfl⟩ := List.mem_map.mp hh
    rw [decide_eq_true_eq]
    rw [hmarks m hm]
    exact fun hname => hreplayed (hname.symm.trans lower_replayMarker.2)
  have htype : Platform.lower (Str.ofString "content-type") = "content-type" := by
    rw [Platform.lower_ascii _ (by decide)]
    decide
  have hvalues := hdoc.values c.body c.statusCode hheaders hnormal.bare hlength
  rw [← heq, List.map_append, List.filter_append, List.filter_append, hmarked, List.append_nil,
    List.map_append, filter_lowered] at hvalues
  split_ifs with hname
  · subst hname
    have hnone : c.headers.get "content-type" = none := by
      refine Dict.get_eq_none.mpr fun m hm hkey => ?_
      have hsafe := hnormal.names m hm
      rw [hkey] at hsafe
      exact absurd hsafe (by decide)
    rw [hnone, List.filter_cons_of_pos (by simpa using htype)] at hvalues
    exact List.perm_singleton.mp hvalues
  · rw [List.filter_cons_of_neg (by simpa [htype] using Ne.symm hname)] at hvalues
    -- At most one header has the name, so that its values are not only permuted.
    cases hget : c.headers.get name with
    | none =>
        rw [hget] at hvalues
        exact List.perm_nil.mp hvalues
    | some value =>
        rw [hget] at hvalues
        exact List.perm_singleton.mp hvalues
end CapturedResponse

/-- What is built of a stored row repeats the response if and only if that can be built. -/
theorem responseFromRow_repeats {starlette : Starlette} (hdoc : starlette.Documented)
    {r : HttpResponse} {c : CapturedResponse} (hcapture : captureResponse starlette r = .ok c)
    {found : Option CommandRow} {completedAt : Datetime} {completed stored : CommandRow}
    (hcomplete : CommandStore.complete false found c completedAt = .ok completed)
    (hstored : completed.StoredAs stored) : ∃ c', responseFromRow stored = .ok c' ∧
      ∀ replayed, r.RepeatedBy (c'.toResponse starlette replayed) ↔ r.Replayable starlette := by
  have hcaptured := captureResponse_eq_ok hcapture
  obtain ⟨c', headers, hread, heq, hperm⟩ := responseFromRow_stored hcomplete hstored
  refine ⟨c', hread, fun replayed => ?_⟩
  have hheaders : c'.headers = headers := congrArg CapturedArgs.headers heq
  have hget : ∀ name, c'.headers.get name = c.headers.get name := by
    intro name
    refine Option.ext fun value => ?_
    rw [hheaders, Dict.get_eq_some, Dict.get_eq_some, hperm.mem_iff]
  have hlatin : ∀ m ∈ c'.headers.items, ∀ x ∈ m.2, x.ord < 256 := by
    intro m hm
    obtain ⟨header, hheader, -, hvalue⟩ :=
      hcaptured.mem_items ((hget m.1).symm.trans (Dict.get_eq_some.mpr hm))
    rw [← hvalue]
    exact HttpResponse.ord_lt hheader
  have hmedia : c'.mediaType = replayMediaType (declaredMediaType starlette r) :=
    (congrArg CapturedArgs.mediaType heq).trans hcaptured.mediaType
  have htype : (c'.toResponse starlette replayed).values "content-type" =
      [starlette.contentType (replayMediaType (declaredMediaType starlette r))] := by
    rw [CapturedResponse.values_toResponse hdoc hlatin replayed (by decide) (by decide), if_pos rfl, hmedia]
  have hother : ∀ name : Str, name ∉ contentHeaders → name ≠ "idempotency-replayed" →
      (c'.toResponse starlette replayed).values name = (c.headers.get name).toList := by
    intro name hname hreplayed
    simp only [contentHeaders, List.mem_cons, List.not_mem_nil, or_false, not_or] at hname
    rw [CapturedResponse.values_toResponse hdoc hlatin replayed hname.2 hreplayed, if_neg hname.1, hget]
  constructor
  · intro hrepeated
    constructor
    · rw [← hrepeated.contentType, htype]
    · intro name hname
      by_cases hreplayed : name = "idempotency-replayed"
      · -- A captured response has no marker of its own: it is not a safe header.
        have hempty : r.values name = [] := by
          refine List.eq_nil_iff_forall_not_mem.mpr fun value hvalue => ?_
          have hsafe := (hcaptured.isSome_get hname hvalue).1
          exact (lower_safe hsafe).2.2.2 hreplayed
        rw [hempty]
        exact Nat.zero_le 1
      · rw [← hcaptured.toList_get_iff hname, ← hother name hname hreplayed]
        exact hrepeated.others name hname hreplayed
  · intro hreplayable
    exact {
      status := ((hdoc.status _ _ _ _).trans (congrArg CapturedArgs.statusCode heq)).trans hcaptured.status
      body := by
        rw [hcaptured.body, ← congrArg CapturedArgs.body heq]
        exact hdoc.body _ _ _ _
      contentType := htype.trans hreplayable.contentType.symm
      others := by
        intro name hname hreplayed
        rw [hother name hname hreplayed]
        exact (hcaptured.toList_get_iff hname).mpr (hreplayable.once name hname) }

omit [Platform] in
theorem CommandRow.StoredAs.refl (row : CommandRow) : row.StoredAs row where
  headers headers h := ⟨headers, h, .refl headers.items⟩
  others := rfl

/-- A command in progress. -/
def CommandRow.opened (now : Datetime) : CommandRow where
  isCurrent := true
  state := .inProgress
  responseStatus := none
  responseHeaders := none
  responseBody := none
  responseMediaType := none
  createdAt := now
  updatedAt := now
  completedAt := none
  supersededAt := none

/-- Only a response that can be built again is repeated. -/
theorem HttpResponse.ReplayedFrom.replayable {starlette : Starlette} (hdoc : starlette.Documented)
    {r : HttpResponse} {c : CapturedResponse} (hcapture : captureResponse starlette r = .ok c)
    (hreplayed : r.ReplayedFrom starlette c) : r.Replayable starlette := by
  have hcoherent : (CommandRow.opened 0).coherent = true := by decide
  obtain ⟨completed, hcomplete⟩ := hreplayed.completes _ 0 hcoherent rfl rfl le_rfl
  obtain ⟨c', hread, hrepeats⟩ := hreplayed.answers _ 0 _ _ hcomplete (.refl completed)
  obtain ⟨c'', hread', hiff⟩ := responseFromRow_repeats hdoc hcapture hcomplete (.refl completed)
  cases hread.symm.trans hread'
  exact (hiff false).mp (hrepeats false)

/-- A captured response is repeated if and only if it has the Content-Type which is built of its media
type, and no other header twice. -/
theorem captured_response_replays {starlette : Starlette} (hdoc : starlette.Documented)
    {r : HttpResponse} {c : CapturedResponse} (hcapture : captureResponse starlette r = .ok c) :
    r.ReplayedFrom starlette c ↔ r.Replayable starlette := by
  constructor
  · intro hreplayed
    exact hreplayed.replayable hdoc hcapture
  · intro hreplayable
    constructor
    · intro row completedAt hcoherent hstate hcurrent htime
      exact CommandStore.complete_isOk hcoherent hstate hcurrent c htime
    · intro row completedAt completed stored hcomplete hstored
      obtain ⟨c', hread, hiff⟩ := responseFromRow_repeats hdoc hcapture hcomplete hstored
      exact ⟨c', hread, fun replayed => (hiff replayed).mpr hreplayable⟩

theorem HttpResponse.length_values_le {r : HttpResponse}
    (h : (r.items.map fun header => Platform.lower header.1).Nodup) (name : Str) :
    (r.values name).length ≤ 1 := by
  have hcount := List.nodup_iff_count_le_one.mp h name
  rw [List.count_eq_countP, List.countP_map, List.countP_eq_length_filter] at hcount
  rw [HttpResponse.values, List.length_map]
  refine (congrArg List.length (List.filter_congr fun header _ => ?_)).trans_le hcount
  exact (beq_eq_decide (Platform.lower header.1) name).symm

end Capture

/-! ## The responses of Starlette -/

section Plain

open scoped Checksum

/-- `text.encode("latin-1")`. -/
def latin1Bytes (text : Str) : Bytes := text.map fun c => UInt8.ofNat c.ord

/-- The Content-Length, when no header has that name. -/
def lengthHeader (names : List Bytes) (body : Bytes) (statusCode : ℤ) : List (Bytes × Bytes) :=
  if names.any (· = latin1Bytes "content-length") ∨ statusCode < 200 ∨ statusCode = 204 ∨
    statusCode = 304 then [] else [(latin1Bytes "content-length", latin1Bytes (toString body.length))]

/-- The Content-Type, when no header has that name. -/
def typeHeader (names : List Bytes) (mediaType : Str) : List (Bytes × Bytes) :=
  let declared :=
    if ("text/" : Str).isPrefixOf mediaType ∧ ¬ ("charset=" : Str) <:+: Platform.lower mediaType
    then mediaType ++ "; charset=utf-8" else mediaType
  if names.any (· = latin1Bytes "content-type") then []
  else [(latin1Bytes "content-type", latin1Bytes declared)]

/-- A given header, raw. -/
def rawHeader (h : Str × Str) : Bytes × Bytes := (latin1Bytes (Platform.lower h.1), latin1Bytes h.2)

/-- A raw header, as text. -/
def headerText (h : Bytes × Bytes) : Str × Str := (Bytes.latin1 h.1, Bytes.latin1 h.2)

/-- `Response` of Starlette, and the first header of a name. -/
def plainStarlette : Starlette where
  charset := "utf-8"
  response body statusCode headers mediaType :=
    let raw := headers.map rawHeader
    let names := raw.map Prod.fst
    { statusCode := statusCode
      mediaType := some mediaType
      body := some body
      rawHeaders := raw ++ lengthHeader names body statusCode ++ typeHeader names mediaType }
  getHeader r name := ((r.items.find? fun h => Platform.lower h.1 = Platform.lower name).map Prod.snd).getD ""

theorem latin1_latin1Bytes {text : Str} (h : ∀ c ∈ text, c.ord < 256) :
    Bytes.latin1 (latin1Bytes text) = text := by
  rw [Bytes.latin1, latin1Bytes, List.map_map]
  refine (List.map_congr_left fun c hc => ?_).trans text.map_id
  have hord := h c hc
  cases c with
  | surrogate n =>
      simp only [PyChar.ord] at hord
      omega
  | scalar c =>
      have hmod : c.toNat % 256 = c.toNat := Nat.mod_eq_of_lt hord
      simp [Str.ofByte, PyChar.ord, hmod]

theorem typeHeader_eq {names : List Bytes} {mediaType : Str} (h : latin1Bytes "content-type" ∉ names)
    (hmedia : mediaType ∈ allowedMediaTypes) :
    (typeHeader names mediaType).map headerText =
      [(Str.ofString "content-type", plainStarlette.contentType mediaType)] := by
  have hnone : ¬ names.any (· = latin1Bytes "content-type") = true := by
    simpa using h
  unfold typeHeader
  simp only [if_neg hnone]
  simp only [allowedMediaTypes, List.mem_cons, List.not_mem_nil, or_false] at hmedia
  rcases hmedia with rfl | rfl | rfl <;> decide +kernel

theorem filter_lengthHeader (names : List Bytes) (body : Bytes) (statusCode : ℤ) :
    (((lengthHeader names body statusCode).map headerText).filter
      fun h => h.1 ≠ Str.ofString "content-length") = [] := by
  have hname : Bytes.latin1 (latin1Bytes "content-length") = "content-length" := by decide
  unfold lengthHeader
  split_ifs
  · rfl
  · simp [headerText, hname]

theorem plainStarlette_documented : plainStarlette.Documented where
  status body status headers mediaType := rfl
  body body status headers mediaType := rfl
  items := by
    intro body status headers mediaType hheaders hmedia
    have hlower : ∀ h ∈ headers, Bytes.latin1 (latin1Bytes (Platform.lower h.1)) = Platform.lower h.1 := by
      intro h hh
      refine latin1_latin1Bytes fun c hc => ?_
      rw [Platform.lower_ascii h.1 (hheaders h hh).1] at hc
      obtain ⟨d, hd, rfl⟩ := List.mem_map.mp hc
      exact PyChar.forall_ascii (p := fun c => c.asciiLower.ord < 256) (by decide +kernel)
        (Str.ord_lt_of_isAscii (hheaders h hh).1 d hd)
    have hraw : (headers.map rawHeader).map headerText = headers.map lowered := by
      rw [List.map_map]
      refine List.map_congr_left fun h hh => ?_
      rw [Function.comp_apply, rawHeader, headerText, hlower h hh, latin1_latin1Bytes (hheaders h hh).2.2]
      rfl
    have hname : latin1Bytes "content-type" ∉ (headers.map rawHeader).map Prod.fst := by
      intro hmem
      obtain ⟨raw, hraw, heq⟩ := List.mem_map.mp hmem
      obtain ⟨h, hh, rfl⟩ := List.mem_map.mp hraw
      have hcollide : Platform.lower h.1 = "content-type" := by
        rw [← hlower h hh]
        exact (congrArg Bytes.latin1 heq).trans (by decide)
      have hcontent : Platform.lower h.1 ∈ contentHeaders := by
        rw [hcollide]
        decide
      exact (hheaders h hh).2.1 hcontent
    have hkept : ((headers.map lowered).filter fun h => h.1 ≠ Str.ofString "content-length") =
        headers.map lowered := by
      refine List.filter_eq_self.mpr fun h hh => ?_
      obtain ⟨header, hheader, rfl⟩ := List.mem_map.mp hh
      rw [decide_eq_true_eq]
      intro heq
      have hcontent : (lowered header).1 ∈ contentHeaders := by
        rw [heq]
        decide
      exact (hheaders header hheader).2.1 hcontent
    have htype : Str.ofString "content-type" ≠ Str.ofString "content-length" := by decide
    have hitems : (plainStarlette.response body status headers mediaType).items =
        (headers.map rawHeader).map headerText ++
          (lengthHeader ((headers.map rawHeader).map Prod.fst) body status).map headerText ++
          (typeHeader ((headers.map rawHeader).map Prod.fst) mediaType).map headerText := by
      show List.map headerText (_ ++ _ ++ _) = _
      rw [List.map_append, List.map_append]
    refine .of_eq ?_
    rw [hitems, hraw, typeHeader_eq hname hmedia, List.filter_append, List.filter_append, hkept,
      filter_lengthHeader, List.append_nil]
    exact congrArg _ (List.filter_cons_of_pos (decide_eq_true htype))

/-- A text in another charset than the default one. -/
def latinAnswer : HttpResponse where
  statusCode := 200
  mediaType := some "text/plain; charset=iso-8859-1"
  body := some [99, 97, 102, 233]
  rawHeaders := [(latin1Bytes "content-length", latin1Bytes "4"),
    (latin1Bytes "content-type", latin1Bytes "text/plain; charset=iso-8859-1")]

/-- An answer with the headers of an invoice, and with what `headers.append` added. -/
def invoiceAnswer (added : List (Bytes × Bytes)) : HttpResponse where
  statusCode := 201
  mediaType := some "application/json"
  body := some [123, 125]
  rawHeaders := [(latin1Bytes "etag", latin1Bytes "\"7\""),
    (latin1Bytes "cache-control", latin1Bytes "no-store"), (latin1Bytes "content-length", latin1Bytes "2"),
    (latin1Bytes "content-type", latin1Bytes "application/json")] ++ added

theorem captured_response_replays_invoice : ∃ c,
    captureResponse plainStarlette (invoiceAnswer []) = .ok c ∧
      (invoiceAnswer []).ReplayedFrom plainStarlette c := by
  have haccepted : (captureResponse plainStarlette (invoiceAnswer [])).isOk = true := by decide +kernel
  obtain ⟨c, hc⟩ := exists_eq_ok haccepted
  refine ⟨c, hc, (captured_response_replays plainStarlette_documented hc).mpr ?_⟩
  constructor
  · decide +kernel
  · intro name _
    exact HttpResponse.length_values_le (by decide +kernel) name

/-- The charset of a text is lost, and all but the last of the headers of one name. -/
theorem repetition_loses_headers : plainStarlette.Documented ∧
    ∀ r ∈ [latinAnswer, invoiceAnswer [(latin1Bytes "cache-control", latin1Bytes "private")]],
      ∃ c, captureResponse plainStarlette r = .ok c ∧ ¬ r.ReplayedFrom plainStarlette c := by
  refine ⟨plainStarlette_documented, ?_⟩
  intro r hr
  have haccepted : (captureResponse plainStarlette r).isOk = true := by
    revert r
    decide +kernel
  obtain ⟨c, hc⟩ := exists_eq_ok haccepted
  refine ⟨c, hc, fun hreplayed => ?_⟩
  have hreplayable := hreplayed.replayable plainStarlette_documented hc
  rcases List.mem_cons.mp hr with rfl | hr
  · exact absurd hreplayable.contentType (by decide +kernel)
  · have htwice := hreplayable.once "cache-control" (by decide)
    rw [List.mem_singleton.mp hr] at htwice
    exact absurd htwice (by decide +kernel)

end Plain

end FastapiEffects
