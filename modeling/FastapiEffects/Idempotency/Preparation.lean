import FastapiEffects.Idempotency.Fingerprint
import FastapiEffects.Idempotency.Windows

/-! # Preparing a command

`prepare_request`: from a request as it arrives to the identity of its command and its
fingerprint. The body is collected from the stream under a bound, and a header counts by its one
value. However the body is cut into chunks and whatever else the headers hold, the same command is
prepared; and two requests are prepared to one command exactly when the parts that identify them
are equal.
-/

namespace FastapiEffects

open Python ReadCommitted

/-! ## The request -/

/-- A Starlette `Request`, as far as it is read; `ε` is what reading the body may raise. -/
structure StreamedRequest (ε : Type) where
  method : Str
  headers : List (Bytes × Bytes)
  /-- `path_params`, each key and value as its `str` -/
  pathParams : Dict Str Str
  /-- `scope.get("query_string", b"")`, when it is a byte string -/
  queryString : Option Bytes
  /-- what `stream()` yields, -/
  chunks : List Bytes
  /-- and what it then raises instead of ending -/
  fault : Option ε

/-- The other arguments of `prepare_request`. -/
structure PreparationArgs where
  principal : Principal
  routeId : Str
  bodyMode : BodyFingerprintMode := .canonicalJson
  representationHeaders : List Str := ["content-encoding", "if-match", "if-none-match"]
  maximumBodyBytes : ℤ := 1024 * 1024

/-- `PreparedCommand`. -/
structure PreparedCommand where
  identity : CommandIdentity
  fingerprint : RequestFingerprint
deriving DecidableEq

/-- What a preparation leaves in the `_body` of the request, and what it returns or raises. -/
structure Preparation (ε : Type) where
  body : Option Bytes
  result : Except (PyError ⊕ ε) PreparedCommand

/-! ## Headers -/

/-- `b.lower()` of one byte. -/
def lowerByte (b : UInt8) : UInt8 := if 65 ≤ b ∧ b ≤ 90 then b + 32 else b

/-- The values of the headers of a name, which is in lower case. -/
def headerValues (headers : List (Bytes × Bytes)) (name : Bytes) : List Bytes :=
  (headers.filter fun header => header.1.map lowerByte = name).map Prod.snd

/-- `_one_raw_header`. -/
def oneRawHeader (headers : List (Bytes × Bytes)) (name : Bytes) (required : Bool) :
    Except PyError (Option Bytes) := do
  let values := headerValues headers name
  check (values.length ≤ 1 ∧ (required = true → values ≠ []))
    (.configuration "Required command request header is missing or repeated.")
  return values.head?

/-- `int(s)` of a text in which only the ASCII digits are decimal; `none` is the `ValueError`. -/
def decimalInt? (s : Str) : Option ℤ :=
  let underscore : PyChar := .scalar '_'
  let digit? (c : PyChar) : Option ℕ := if c.between '0' '9' then some (c.ord - 48) else none
  let value (s : Str) : Option ℤ :=
    if s = [] ∨ s.head? = some underscore ∨ s.getLast? = some underscore ∨
        [underscore, underscore] <:+: s then none
    else ((s.filter (· ≠ underscore)).mapM digit?).bind fun ds =>
      if ds.length ≤ 4300 then some (ds.foldl (fun (n : ℤ) (d : ℕ) => n * 10 + d) 0) else none
  match s.strip with
  | .scalar '-' :: rest => (value rest).map fun n => -n
  | .scalar '+' :: rest => value rest
  | rest => value rest

/-- `request.headers.get("content-length")`: the first header of that very name. -/
def declaredLength (headers : List (Bytes × Bytes)) : Option Str :=
  (headers.find? fun header => header.1 = encodeAscii "content-length").map fun header =>
    Bytes.latin1 header.2

/-! ## The body -/

def bodyOversized : PyError := .configuration "Command request body is oversized."

/-- The loop of `_bounded_body`, with the body so far. -/
def readChunks {ε : Type} (maximum : ℤ) (fault : Option ε) (body : Bytes) :
    List Bytes → Except (PyError ⊕ ε) Bytes
  | [] =>
      match fault with
      | some e => .error (.inr e)
      | none => .ok body
  | chunk :: rest =>
      if maximum < (body ++ chunk).length then .error (.inl bodyOversized)
      else readChunks maximum fault (body ++ chunk) rest

/-- The checks of `_bounded_body` before it reads. -/
def checkDeclared (maximum : ℤ) (headers : List (Bytes × Bytes)) : Except PyError Unit := do
  check (0 ≤ maximum ∧ maximum ≤ 16 * 1024 * 1024)
    (.configuration "Command request body limit is invalid.")
  match declaredLength headers with
  | none => return ()
  | some declared =>
      let size ← orRaise (decimalInt? declared)
        (.configuration "Command Content-Length is invalid.")
      check (0 ≤ size ∧ size ≤ maximum) bodyOversized

/-- What a part without reading raises. -/
def raisedBefore {ε α : Type} : Except PyError α → Except (PyError ⊕ ε) α
  | .ok a => .ok a
  | .error e => .error (.inl e)

/-- `_bounded_body`. -/
def boundedBody {ε : Type} (maximum : ℤ) (request : StreamedRequest ε) :
    Except (PyError ⊕ ε) Bytes :=
  match checkDeclared maximum request.headers with
  | .error e => .error (.inl e)
  | .ok () => readChunks maximum request.fault [] request.chunks

/-! ## The command -/

section Preparation

variable [Platform] (upper : Str → Str)

/-- `CommandIdentity(...)`. -/
def CommandIdentity.make (i : CommandIdentityArgs) : Except PyError CommandIdentity :=
  match h : i.postInit with
  | .ok () => .ok ⟨i, h⟩
  | .error e => .error e

/-- `CommandIdentity.from_key` of a byte string; `upper` is `str.upper`. -/
def CommandIdentity.fromKey (tenantId : UUID) (routeId method : Str) (key : Bytes) :
    Except PyError CommandIdentity := do
  check (1 ≤ key.length ∧ key.length ≤ 512 ∧ key.all fun b => 0x20 ≤ b.toNat ∧ b.toNat ≠ 0x7F)
    (.configuration "Idempotency key is invalid or oversized.")
  CommandIdentity.make ⟨tenantId, routeId, upper method, (Platform.sha256 key).toList⟩

/-- What the loop adds for the header of a name. -/
def selectHeader (name : Str) : Option Bytes → Except PyError (List (Str × Str))
  | none => .ok []
  | some value => do
      let text ← orRaise (Str.decode? value)
        (.configuration "Command representation header value is invalid.")
      return [(name, text)]

/-- The loop over the configured headers; `names` are those it has met. -/
def selectHeaders (headers : List (Bytes × Bytes)) (names : List Bytes) :
    List Str → Except PyError (List (Str × Str))
  | [] => return []
  | configured :: rest => do
      let name := Platform.lower configured
      check name.isAscii (.configuration "Command representation header name is invalid.")
      check (isCommandHeaderName name ∧ ¬ names.contains (encodeAscii name))
        (.configuration "Command representation header name is invalid.")
      let selected ← selectHeader name (← oneRawHeader headers (encodeAscii name) false)
      let others ← selectHeaders headers (encodeAscii name :: names) rest
      return selected ++ others

/-- `content_type.decode("ascii").split(";", 1)[0].strip()`. -/
def contentMediaType (contentType : Bytes) : Str :=
  (Str.partition (.scalar ';') (Bytes.latin1 contentType)).1.strip

/-- `media_type`. -/
def preparedMediaType : Option Bytes → Except PyError (Option Str)
  | none => .ok none
  | some contentType => do
      check (contentType.all (· < 128)) (.configuration "Command media type is invalid.")
      return some (contentMediaType contentType)

/-- What `prepare_request` reads before the body. -/
def prepareHeaders (args : PreparationArgs) (headers : List (Bytes × Bytes)) :
    Except PyError (Bytes × List (Str × Str)) := do
  let found ← oneRawHeader headers (encodeAscii "idempotency-key") true
  let key ← orRaise found (.configuration "Idempotency-Key is required.")
  let selected ← selectHeaders headers [] args.representationHeaders
  return (key, selected)

/-- What it makes of the request after the body. -/
def prepareBody {ε : Type} (args : PreparationArgs) (request : StreamedRequest ε) (key : Bytes)
    (selected : List (Str × Str)) (body : Bytes) : Except PyError PreparedCommand := do
  let contentType ← oneRawHeader request.headers (encodeAscii "content-type") false
  let mediaType ← preparedMediaType contentType
  let rawQuery ← orRaise request.queryString
    (.configuration "Command query representation is invalid.")
  let identity ← CommandIdentity.fromKey upper args.principal.tenantId args.routeId request.method
    key
  let fingerprint ← fingerprintRequest
    { pathParameters := request.pathParams, rawQuery, headers := selected, mediaType, body
      mode := args.bodyMode, maximumBodyBytes := args.maximumBodyBytes }
  return ⟨identity, fingerprint⟩

/-- `prepare_request`. -/
def prepareRequest {ε : Type} (args : PreparationArgs) (request : StreamedRequest ε) :
    Preparation ε :=
  match prepareHeaders args request.headers with
  | .error e => ⟨none, .error (.inl e)⟩
  | .ok (key, selected) =>
      match boundedBody args.maximumBodyBytes request with
      | .error e => ⟨none, .error e⟩
      | .ok body => ⟨some body, raisedBefore (prepareBody upper args request key selected body)⟩

/-! ## What a preparation depends on -/

/-- The value of `Idempotency-Key`. -/
def StreamedRequest.key {ε : Type} (request : StreamedRequest ε) : Bytes :=
  (headerValues request.headers (encodeAscii "idempotency-key")).headD []

/-- The header of a configured name that is kept. -/
def keptHeader (headers : List (Bytes × Bytes)) (configured : Str) : List (Str × Str) :=
  let name := Platform.lower configured
  ((headerValues headers (encodeAscii name)).head?.bind Str.decode?).toList.map fun text =>
    (name, text)

/-- What the fingerprint of a request is made of. -/
def commandRequestOf {ε : Type} (args : PreparationArgs) (request : StreamedRequest ε) :
    CommandRequest where
  pathParameters := request.pathParams
  rawQuery := request.queryString.getD []
  headers := args.representationHeaders.flatMap (keptHeader request.headers)
  mediaType :=
    (headerValues request.headers (encodeAscii "content-type")).head?.map contentMediaType
  body := request.chunks.flatten
  mode := args.bodyMode
  maximumBodyBytes := args.maximumBodyBytes

/-- Two requests that agree in the parts that are read: the body as a whole, and of the headers the
values of the names that count. -/
structure SameParts {ε : Type} (args : PreparationArgs) (r r' : StreamedRequest ε) : Prop where
  method : r.method = r'.method
  pathParams : r.pathParams = r'.pathParams
  queryString : r.queryString = r'.queryString
  body : r.chunks.flatten = r'.chunks.flatten
  fault : r.fault = r'.fault
  declared : declaredLength r.headers = declaredLength r'.headers
  key : headerValues r.headers (encodeAscii "idempotency-key") =
    headerValues r'.headers (encodeAscii "idempotency-key")
  contentType : headerValues r.headers (encodeAscii "content-type") =
    headerValues r'.headers (encodeAscii "content-type")
  representation : ∀ configured ∈ args.representationHeaders,
    headerValues r.headers (encodeAscii (Platform.lower configured)) =
      headerValues r'.headers (encodeAscii (Platform.lower configured))

variable {ε : Type} {args args' : PreparationArgs} {r r' : StreamedRequest ε}
  {p p' : PreparedCommand}

omit [Platform] in
theorem oneRawHeader_eq_ok {headers : List (Bytes × Bytes)} {name : Bytes} {required : Bool}
    {x : Option Bytes} : oneRawHeader headers name required = .ok x ↔
      ((headerValues headers name).length ≤ 1 ∧
        (required = true → headerValues headers name ≠ [])) ∧
          x = (headerValues headers name).head? := by
  simp only [oneRawHeader, bind_eq_ok, check_eq_ok, decide_eq_true_eq]
  constructor
  · rintro ⟨-, hone, hreturn⟩
    cases hreturn
    exact ⟨hone, rfl⟩
  · rintro ⟨hone, rfl⟩
    exact ⟨(), hone, rfl⟩

omit [Platform] in
theorem selectHeader_eq_ok {name : Str} {value : Option Bytes} {selected : List (Str × Str)}
    (h : selectHeader name value = .ok selected) :
    selected = (value.bind Str.decode?).toList.map fun text => (name, text) := by
  cases value with
  | none =>
      cases h
      rfl
  | some value =>
      obtain ⟨text, htext, hreturn⟩ := bind_eq_ok.mp h
      cases hreturn
      rw [Option.bind_some, orRaise_eq_ok.mp htext]
      rfl

/-- The configured headers that are there, each with its one value. -/
theorem selectHeaders_eq_ok {headers : List (Bytes × Bytes)} {configured : List Str}
    {names : List Bytes} {selected : List (Str × Str)}
    (h : selectHeaders headers names configured = .ok selected) :
    selected = configured.flatMap (keptHeader headers) := by
  induction configured generalizing names selected with
  | nil =>
      cases h
      rfl
  | cons name rest ih =>
      obtain ⟨-, -, h⟩ := bind_eq_ok.mp h
      obtain ⟨-, -, h⟩ := bind_eq_ok.mp h
      obtain ⟨value, hvalue, h⟩ := bind_eq_ok.mp h
      obtain ⟨own, hown, h⟩ := bind_eq_ok.mp h
      obtain ⟨others, hothers, hreturn⟩ := bind_eq_ok.mp h
      cases hreturn
      rw [List.flatMap_cons, ih hothers, selectHeader_eq_ok hown, (oneRawHeader_eq_ok.mp hvalue).2]
      rfl

/-- Only the values of the configured names are read. -/
theorem selectHeaders_congr {headers headers' : List (Bytes × Bytes)} {configured : List Str}
    (h : ∀ name ∈ configured, headerValues headers (encodeAscii (Platform.lower name)) =
      headerValues headers' (encodeAscii (Platform.lower name))) (names : List Bytes) :
    selectHeaders headers names configured = selectHeaders headers' names configured := by
  induction configured generalizing names with
  | nil => rfl
  | cons name rest ih =>
      have hname := h name List.mem_cons_self
      have hrest := ih fun other hother => h other (List.mem_cons_of_mem _ hother)
      simp only [selectHeaders, oneRawHeader, hname, hrest]

omit [Platform] in
/-- The loop refuses a body that is longer than the maximum, wherever it is cut. -/
theorem readChunks_eq {maximum : ℤ} {fault : Option ε} {body : Bytes} {chunks : List Bytes}
    (hbody : (body.length : ℤ) ≤ maximum) : readChunks maximum fault body chunks =
      if maximum < (body ++ chunks.flatten).length then .error (.inl bodyOversized)
      else readChunks maximum fault (body ++ chunks.flatten) [] := by
  induction chunks generalizing body with
  | nil =>
      rw [List.flatten_nil, List.append_nil, if_neg (not_lt.mpr hbody)]
  | cons chunk rest ih =>
      rw [readChunks, List.flatten_cons, ← List.append_assoc]
      split_ifs with hchunk hall
      · rfl
      · -- the chunk already is too long, and the rest only adds to it
        refine absurd ?_ hall
        rw [List.length_append]
        omega
      · rw [ih (not_lt.mp hchunk), if_pos ‹_›]
      · rw [ih (not_lt.mp hchunk), if_neg ‹_›]

omit [Platform] in
theorem checkDeclared_maximum {maximum : ℤ} {headers : List (Bytes × Bytes)} {u : Unit}
    (h : checkDeclared maximum headers = .ok u) : 0 ≤ maximum := by
  obtain ⟨_, hmaximum, -⟩ := bind_eq_ok.mp h
  exact (of_decide_eq_true (check_eq_ok.mp hmaximum)).1

omit [Platform] in
/-- A body that is accepted is the whole body, within the maximum. -/
theorem boundedBody_eq_ok {maximum : ℤ} {body : Bytes} (h : boundedBody maximum r = .ok body) :
    body = r.chunks.flatten ∧ (r.chunks.flatten.length : ℤ) ≤ maximum ∧ r.fault = none := by
  unfold boundedBody at h
  split at h
  · cases h
  · rename_i hchecked
    rw [readChunks_eq (checkDeclared_maximum hchecked), List.nil_append] at h
    split_ifs at h with hlong
    unfold readChunks at h
    split at h
    · cases h
    · rename_i hfault
      cases h
      exact ⟨rfl, not_lt.mp hlong, hfault⟩

omit [Platform] in
theorem boundedBody_congr {maximum : ℤ}
    (hdeclared : declaredLength r.headers = declaredLength r'.headers)
    (hbody : r.chunks.flatten = r'.chunks.flatten) (hfault : r.fault = r'.fault) :
    boundedBody maximum r = boundedBody maximum r' := by
  unfold boundedBody
  have hchecks : checkDeclared maximum r.headers = checkDeclared maximum r'.headers := by
    rw [checkDeclared, checkDeclared, hdeclared]
  rw [← hchecks]
  split
  · rfl
  · rename_i hchecked
    have hmaximum : (([] : Bytes).length : ℤ) ≤ maximum := checkDeclared_maximum hchecked
    rw [readChunks_eq hmaximum, readChunks_eq hmaximum, hbody, hfault]

omit [Platform] in
theorem CommandIdentity.eq_of_args {i j : CommandIdentity}
    (h : i.toCommandIdentityArgs = j.toCommandIdentityArgs) : i = j := by
  obtain ⟨i, _⟩ := i
  obtain ⟨j, _⟩ := j
  cases h
  rfl

omit [Platform] in
theorem preparedMediaType_eq_ok {contentType : Option Bytes} {mediaType : Option Str}
    (h : preparedMediaType contentType = .ok mediaType) :
    mediaType = contentType.map contentMediaType := by
  cases contentType with
  | none =>
      cases h
      rfl
  | some value =>
      obtain ⟨-, -, hreturn⟩ := bind_eq_ok.mp h
      cases hreturn
      rfl

/-- A key is made part of an identity. -/
theorem CommandIdentity.fromKey_eq_ok {tenantId : UUID} {routeId method : Str}
    {key : Bytes} {identity : CommandIdentity}
    (h : CommandIdentity.fromKey upper tenantId routeId method key = .ok identity) :
    identity.toCommandIdentityArgs =
      ⟨tenantId, routeId, upper method, (Platform.sha256 key).toList⟩ := by
  obtain ⟨-, -, hmake⟩ := bind_eq_ok.mp h
  unfold CommandIdentity.make at hmake
  split at hmake
  · cases hmake
    rfl
  · cases hmake

/-- What is made of the headers and the body. -/
theorem prepareBody_eq_ok {key body : Bytes} {selected : List (Str × Str)}
    (h : prepareBody upper args r key selected body = .ok p) (hbody : body = r.chunks.flatten)
    (hselected : selected = args.representationHeaders.flatMap (keptHeader r.headers)) :
    p.identity.toCommandIdentityArgs = ⟨args.principal.tenantId, args.routeId, upper r.method,
        (Platform.sha256 key).toList⟩ ∧
      fingerprintRequest (commandRequestOf args r) = .ok p.fingerprint := by
  obtain ⟨contentType, hcontent, hprepared⟩ := bind_eq_ok.mp h
  obtain ⟨mediaType, hmedia, hprepared⟩ := bind_eq_ok.mp hprepared
  obtain ⟨rawQuery, hquery, hprepared⟩ := bind_eq_ok.mp hprepared
  obtain ⟨identity, hidentity, hprepared⟩ := bind_eq_ok.mp hprepared
  obtain ⟨fingerprint, hfingerprint, hreturn⟩ := bind_eq_ok.mp hprepared
  cases hreturn
  refine ⟨CommandIdentity.fromKey_eq_ok upper hidentity, ?_⟩
  rw [← hfingerprint]
  unfold commandRequestOf
  rw [← hselected, ← hbody, orRaise_eq_ok.mp hquery, preparedMediaType_eq_ok hmedia,
    (oneRawHeader_eq_ok.mp hcontent).2]
  rfl

/-- The command that is prepared, by its parts. -/
theorem prepareRequest_eq_ok (h : (prepareRequest upper args r).result = .ok p) :
    (prepareRequest upper args r).body = some r.chunks.flatten ∧
      (r.chunks.flatten.length : ℤ) ≤ args.maximumBodyBytes ∧
      p.identity.toCommandIdentityArgs = ⟨args.principal.tenantId, args.routeId, upper r.method,
        (Platform.sha256 r.key).toList⟩ ∧
      fingerprintRequest (commandRequestOf args r) = .ok p.fingerprint := by
  unfold prepareRequest at h ⊢
  cases hheaders : prepareHeaders args r.headers with
  | error e =>
      rw [hheaders] at h
      cases h
  | ok read =>
      obtain ⟨key, selected⟩ := read
      cases hbody : boundedBody args.maximumBodyBytes r with
      | error e =>
          simp only [hheaders, hbody] at h
          cases h
      | ok body =>
          simp only [hheaders, hbody] at h ⊢
          obtain ⟨rfl, hlength, -⟩ := boundedBody_eq_ok hbody
          have hprepared : prepareBody upper args r key selected r.chunks.flatten = .ok p := by
            cases hresult : prepareBody upper args r key selected r.chunks.flatten with
            | error e =>
                rw [hresult] at h
                cases h
            | ok p =>
                rw [hresult] at h
                cases h
                rfl
          -- the headers
          obtain ⟨found, hfound, hheaders⟩ := bind_eq_ok.mp hheaders
          obtain ⟨key', hkey, hheaders⟩ := bind_eq_ok.mp hheaders
          obtain ⟨selected', hselected, hreturn⟩ := bind_eq_ok.mp hheaders
          cases hreturn
          have hvalue : r.key = key := by
            rw [(oneRawHeader_eq_ok.mp hfound).2, orRaise_eq_ok] at hkey
            rw [StreamedRequest.key, List.headD_eq_head?_getD, hkey]
            rfl
          rw [hvalue]
          exact ⟨rfl, hlength, prepareBody_eq_ok upper hprepared rfl (selectHeaders_eq_ok hselected)⟩

/-- Requests that agree in the parts that are read are prepared alike. -/
theorem prepareRequest_congr (h : SameParts args r r') :
    prepareRequest upper args r = prepareRequest upper args r' := by
  have hheaders : prepareHeaders args r.headers = prepareHeaders args r'.headers := by
    simp only [prepareHeaders, oneRawHeader, h.key, selectHeaders_congr h.representation]
  have hbody : ∀ key selected body, prepareBody upper args r key selected body =
      prepareBody upper args r' key selected body := by
    intro key selected body
    simp only [prepareBody, oneRawHeader, h.contentType, h.queryString, h.method, h.pathParams]
  simp only [prepareRequest, hheaders, hbody, boundedBody_congr h.declared h.body h.fault]

/-- The preparation of commands. What is prepared depends on the method, the path parameters, the
query, the body as a whole and the values of the headers that are configured: not on how the body
arrives in chunks, nor on the order of the headers or on others. A body longer than the maximum is
refused, and the body that is kept for later readers is the whole one. And as far as SHA-256 tells
apart what is hashed, two requests are prepared to one command exactly when tenant, route, method
and key are equal, and the parts of the fingerprint are. -/
theorem preparation_identity :
    (∀ args (r r' : StreamedRequest ε), SameParts args r r' →
      prepareRequest upper args r = prepareRequest upper args r') ∧
    (∀ args (r : StreamedRequest ε) p, (prepareRequest upper args r).result = .ok p →
      (prepareRequest upper args r).body = some r.chunks.flatten ∧
        (r.chunks.flatten.length : ℤ) ≤ args.maximumBodyBytes) ∧
    ∀ args args' (r r' : StreamedRequest ε) p p',
      (prepareRequest upper args r).result = .ok p →
      (prepareRequest upper args' r').result = .ok p' →
      (Platform.sha256 r.key = Platform.sha256 r'.key → r.key = r'.key) →
      CollisionFree (commandRequestOf args r) (commandRequestOf args' r') →
      (p = p' ↔ args.principal.tenantId = args'.principal.tenantId ∧
        args.routeId = args'.routeId ∧ upper r.method = upper r'.method ∧ r.key = r'.key ∧
        SameRequest (commandRequestOf args r) (commandRequestOf args' r')) := by
  refine ⟨fun args r r' h => prepareRequest_congr upper h, fun args r p h => ?_, ?_⟩
  · obtain ⟨hbody, hlength, -⟩ := prepareRequest_eq_ok upper h
    exact ⟨hbody, hlength⟩
  · intro args args' r r' p p' h h' hkeys hfree
    obtain ⟨-, -, hidentity, hfingerprint⟩ := prepareRequest_eq_ok upper h
    obtain ⟨-, -, hidentity', hfingerprint'⟩ := prepareRequest_eq_ok upper h'
    have hprints := fingerprint_identity hfingerprint hfingerprint' hfree
    have hsame : p = p' ↔ p.identity.toCommandIdentityArgs = p'.identity.toCommandIdentityArgs ∧
        p.fingerprint = p'.fingerprint := by
      constructor
      · rintro rfl
        exact ⟨rfl, rfl⟩
      · rintro ⟨hid, hprint⟩
        obtain ⟨i, f⟩ := p
        obtain ⟨j, g⟩ := p'
        rw [PreparedCommand.mk.injEq]
        exact ⟨CommandIdentity.eq_of_args hid, hprint⟩
    rw [hsame, hprints, hidentity, hidentity', CommandIdentityArgs.mk.injEq, Vector.toList_inj]
    constructor
    · rintro ⟨⟨htenant, hroute, hmethod, hdigest⟩, hparts⟩
      exact ⟨htenant, hroute, hmethod, hkeys hdigest, hparts⟩
    · rintro ⟨htenant, hroute, hmethod, hkey, hparts⟩
      exact ⟨⟨htenant, hroute, hmethod, congrArg _ hkey⟩, hparts⟩

/-! ## Replays -/

/-- The arguments of `acquire` are those of a prepared request. -/
structure AcquireArgs.PreparedFrom (request : AcquireArgs) (args : PreparationArgs)
    (r : StreamedRequest ε) : Prop where
  prepared : (prepareRequest upper args r).result = .ok ⟨request.identity, request.fingerprint⟩
  principal : request.principal = args.principal

/-- In every run of the ledger, a transaction that returns a replay returns the response that a
committed transaction stored for the same request: for requests prepared by `prepare_request`, of
the same tenant and subject, with the same route, method and key, and the same parts of the
fingerprint, as far as SHA-256 tells apart what is hashed. -/
theorem replays_same_request {timely : Bool} {now : Datetime} {w : LedgerWorld} {t : ℕ}
    {x : Txn LedgerKey LedgerRow UUID PyError LedgerOp LedgerOutcome} {request : AcquireArgs}
    {response : Option CapturedResponse} {a : Acquisition}
    (hreach : Reachable (ledger timely) (LedgerWorld.start now) w) (hx : w.txn t = some x)
    (hop : x.op = .run request response) (hp : x.prog = .ret (.acquired a))
    (ha : a.replayed = true) : ∃ e ∈ w.store.log, ∃ (d : Claim) (c c' : CapturedResponse),
      d.LoggedAs e ∧ d.response = some c ∧ c.Same c' ∧ a.response = some c' ∧
      ∀ args args' (r r' : StreamedRequest ε), d.request.PreparedFrom upper args r →
        request.PreparedFrom upper args' r' →
        (Platform.sha256 r.key = Platform.sha256 r'.key → r.key = r'.key) →
        CollisionFree (commandRequestOf args r) (commandRequestOf args' r') →
        args.principal.tenantId = args'.principal.tenantId ∧
          args.principal.subjectId = args'.principal.subjectId ∧ args.routeId = args'.routeId ∧
          upper r.method = upper r'.method ∧ r.key = r'.key ∧
          SameRequest (commandRequestOf args r) (commandRequestOf args' r') := by
  have hpromised := ledger_promised hreach hx
  obtain ⟨op, beganDb, beganAt, prog, ctx⟩ := x
  cases hop
  cases hp
  obtain ⟨a', heq, hreturns⟩ := hpromised
  cases heq
  obtain ⟨e, he, d, c, c', hd, hc, hid, hsubject, hfingerprint, hsame, hresponse⟩ :=
    (hreturns.logged ha).origin
  refine ⟨e, he, d, c, c', hd, hc, hsame, hresponse, ?_⟩
  intro args args' r r' hfrom hfrom' hkeys hfree
  have hequal : (⟨d.request.identity, d.request.fingerprint⟩ : PreparedCommand) =
      ⟨request.identity, request.fingerprint⟩ := by
    rw [PreparedCommand.mk.injEq]
    exact ⟨CommandIdentity.eq_of_args hid, hfingerprint⟩
  obtain ⟨-, -, hidentify⟩ := preparation_identity (ε := ε) upper
  obtain ⟨htenant, hroute, hmethod, hkey, hparts⟩ := (hidentify args args' r r' _ _ hfrom.prepared
    hfrom'.prepared hkeys hfree).mp hequal
  rw [hfrom.principal, hfrom'.principal] at hsubject
  exact ⟨htenant, hsubject, hroute, hmethod, hkey, hparts⟩

end Preparation

/-! An order that is sent twice, the second time in one piece. -/

namespace PostedOrder

open scoped Checksum
open Variants (asciiMessage)

def args : PreparationArgs where
  principal := Commanding.request.principal
  routeId := "orders.create"
  representationHeaders := ["If-Match"]

def sent : StreamedRequest Empty where
  method := "POST"
  headers := [(asciiMessage "Idempotency-Key", asciiMessage "k"),
    (asciiMessage "if-match", [34, 34]),
    (asciiMessage "content-type", asciiMessage "application/json; charset=utf-8")]
  pathParams := .empty
  queryString := some []
  chunks := [asciiMessage "\x7b\"a\":", asciiMessage " 1\x7d", []]
  fault := none

def resent : StreamedRequest Empty :=
  { sent with
    headers := (asciiMessage "accept", []) :: sent.headers.reverse
    chunks := [asciiMessage "\x7b\"a\": 1\x7d"] }

theorem same_parts : SameParts args sent resent where
  method := rfl
  pathParams := rfl
  queryString := rfl
  body := by decide
  fault := rfl
  declared := by decide
  key := by decide
  contentType := by decide
  representation := by decide

@[irreducible] def prepared : PreparedCommand :=
  (prepareRequest id args sent).result.toOption.getD
    ⟨Commanding.request.identity, Commanding.request.fingerprint⟩

theorem prepared_eq : (prepareRequest id args sent).result = .ok prepared := by
  have hsome : (prepareRequest id args sent).result.toOption.isSome = true := by decide +kernel
  unfold prepared
  cases hresult : (prepareRequest id args sent).result with
  | ok p => rfl
  | error e =>
      rw [hresult] at hsome
      cases hsome

theorem resent_eq : (prepareRequest id args resent).result = .ok prepared := by
  rw [← prepareRequest_congr id same_parts]
  exact prepared_eq

/-- The two messages that are hashed differ in their first byte. -/
theorem order_messages :
    (commandRequestOf args sent).bodyIdentity.toOption.map (·.getD 0 0) = some 102 ∧
      (commandRequestOf args sent).representation.toOption.map (·.getD 0 0) = some 123 := by
  decide +kernel

theorem same_order : commandRequestOf args resent = commandRequestOf args sent := by
  rfl

theorem order_collisionFree :
    CollisionFree (commandRequestOf args sent) (commandRequestOf args resent) := by
  rw [same_order]
  obtain ⟨hbody, hrepresentation⟩ := order_messages
  intro x y hx hy hdigest
  have hhead : x.getD 0 0 = y.getD 0 0 := by
    have hentries := congrArg (fun digest : Vector UInt8 32 => digest[0]) hdigest
    simpa [Platform.sha256] using hentries
  rcases hx with hx | hx <;> rcases hy with hy | hy
  · rw [hx] at hy
    exact Except.ok.inj hy
  · rw [hx] at hbody
    rw [hy] at hrepresentation
    rw [show x.getD 0 0 = 102 from Option.some.inj hbody,
      show y.getD 0 0 = 123 from Option.some.inj hrepresentation] at hhead
    contradiction
  · rw [hy] at hbody
    rw [hx] at hrepresentation
    rw [show y.getD 0 0 = 102 from Option.some.inj hbody,
      show x.getD 0 0 = 123 from Option.some.inj hrepresentation] at hhead
    contradiction
  · rw [hx] at hy
    exact Except.ok.inj hy

/-- What `acquire` gets of the order. -/
def acquiring : AcquireArgs where
  principal := args.principal
  identity := prepared.identity
  fingerprint := prepared.fingerprint
  version := by decide +kernel
  ttl := 1000000

theorem acquiring_prepared : acquiring.PreparedFrom id args resent where
  prepared := by
    have heta : ∀ p : PreparedCommand, p = ⟨p.identity, p.fingerprint⟩ := fun _ => rfl
    exact resent_eq.trans (congrArg Except.ok (heta prepared))
  principal := rfl

/-- The order is executed, and sent again. -/
def resending : List (Act UUID LedgerOp) :=
  .start (.run acquiring (some Commanding.response)) :: Commanding.steps 0 3 ++ .mint 0 100 ::
    Commanding.steps 0 5 ++ .start (.run acquiring none) :: Commanding.steps 1 4

deriving instance DecidableEq for AcquireArgs

/-- Whether an operation acquires the order. -/
def isResent : LedgerOp → Bool
  | .run request _ => request = acquiring
  | .prune _ _ => false

/-- The acquisition a transaction is about to return. -/
def returned : LedgerTx LedgerOutcome → Option Acquisition
  | .ret (.acquired a) => some a
  | _ => none

end PostedOrder

open Checksum PostedOrder in
/-- The order in its two shapes is prepared to one command. -/
theorem preparation_identity_order : (prepareRequest id args sent).result = .ok prepared ∧
    (prepareRequest id args resent).result = .ok prepared ∧
      SameRequest (commandRequestOf args sent) (commandRequestOf args resent) := by
  obtain ⟨-, -, hidentify⟩ := preparation_identity (ε := Empty) id
  obtain ⟨-, -, -, -, hsame⟩ := (hidentify args args sent resent prepared prepared prepared_eq
    resent_eq (fun _ => rfl) order_collisionFree).mp rfl
  exact ⟨prepared_eq, resent_eq, hsame⟩

open Checksum PostedOrder in
/-- The order is answered, when it is sent again, with the response that was stored for it. -/
theorem replays_same_request_order : ∃ (w : LedgerWorld) (a : Acquisition),
    a.replayed = true ∧ acquiring.PreparedFrom id args resent ∧ ∃ e ∈ w.store.log,
      ∃ (d : Claim) (c c' : CapturedResponse), d.LoggedAs e ∧ d.response = some c ∧ c.Same c' ∧
        a.response = some c' := by
  have hrun : ((LedgerWorld.start 0).run (ledger true) resending).any (fun w =>
      (w.txn 1).any fun x => isResent x.op && (returned x.prog).any
        fun a => a.replayed) = true := by
    decide +kernel
  simp only [Option.any_eq_true, Bool.and_eq_true] at hrun
  obtain ⟨w, hw, x, hx, hop, a, hreturned, ha⟩ := hrun
  obtain ⟨response, hop⟩ : ∃ response, x.op = .run acquiring response := by
    cases hx' : x.op with
    | run request response =>
        rw [hx'] at hop
        exact ⟨response, by rw [of_decide_eq_true hop]⟩
    | prune before batchSize =>
        rw [hx'] at hop
        cases hop
  have hp : x.prog = .ret (.acquired a) := by
    unfold returned at hreturned
    split at hreturned
    · rename_i hprog
      cases hreturned
      exact hprog
    · cases hreturned
  obtain ⟨e, he, d, c, c', hd, hc, hsame, hresponse, -⟩ :=
    replays_same_request (ε := Empty) id (World.run_reachable hw) hx hop hp ha
  exact ⟨w, a, ha, acquiring_prepared, e, he, d, c, c', hd, hc, hsame, hresponse⟩

end FastapiEffects
