import FastapiEffects.Python.Base64
import FastapiEffects.Python.Dict
import FastapiEffects.Python.UuidText
import FastapiEffects.Sqlalchemy.Normalize

/-! # Fingerprints of command requests

`fingerprint_request`: the digest of a canonical JSON object that holds the normalized parts of a
request, its body by a digest of its own. Two accepted requests have one fingerprint exactly when
their normalized parts are equal, as far as SHA-256 tells apart what is hashed for the two.
-/

namespace FastapiEffects

open Python

/-! ## The arguments -/

/-- `BodyFingerprintMode`. -/
inductive BodyFingerprintMode where
  | raw
  | canonicalJson
deriving DecidableEq

/-- `mode.value`. -/
def BodyFingerprintMode.value : BodyFingerprintMode → Str
  | .raw => "raw"
  | .canonicalJson => "canonical_json"

/-- The arguments of `fingerprint_request`. Headers are the items of a mapping, or pairs. -/
structure CommandRequest where
  pathParameters : Dict Str Str
  rawQuery : Bytes
  headers : List (Str × Str)
  mediaType : Option Str
  body : Bytes
  mode : BodyFingerprintMode
  maximumBodyBytes : ℤ := 1024 * 1024

/-- `RequestFingerprint`. -/
structure RequestFingerprint where
  version : ℤ
  digest : Vector UInt8 32
deriving DecidableEq

/-- `FINGERPRINT_VERSION`. -/
def fingerprintVersion : ℤ := 1

/-! ## Path parameters -/

def pathParameterInvalid : PyError := .configuration "Command path parameter is invalid."

/-- The checks of `_path_parameters` on one of them. -/
def checkPathParameter (parameter : Str × Str) : Except PyError Unit := do
  check (parameter.1 ≠ [] ∧ parameter.1.length ≤ 128) pathParameterInvalid
  -- the `UnicodeEncodeError` of `encode` is a `ValueError`
  let encoded ← orRaise parameter.2.encode? .value
  check (encoded.length ≤ 4096) pathParameterInvalid

/-- `_path_parameters`. -/
def commandPathParameters (value : Dict Str Str) : Except PyError (Dict Str Str) := do
  check (value.items.length ≤ 64) (.configuration "Command path parameters are oversized.")
  value.items.forM checkPathParameter
  return value

/-! ## Headers and the media type -/

/-- `_HEADER_NAME.fullmatch`. -/
def isCommandHeaderName (name : Str) : Bool :=
  name.fullmatch isNameChar isNameChar 127
where
  isNameChar : PyChar → Bool := PyChar.isIn [('a', 'z'), ('0', '9')]
    ['!', '#', '$', '%', '&', '\'', '*', '+', '-', '.', '^', '_', '\x60', '|', '~']

/-- `_FORBIDDEN_HEADERS`. -/
def forbiddenHeaders : List Str :=
  ["authorization", "proxy-authorization", "cookie", "set-cookie", "idempotency-key"]

/-- Whether a text has a line break or a null character. -/
def hasBreak (s : Str) : Bool := s.any (PyChar.isIn [] ['\r', '\n', '\x00'])

/-- `" ".join(value.strip().split())`. -/
def collapseSpace (value : Str) : Str := [.scalar ' '].intercalate value.strip.splitSpace

section Fingerprint

variable [Platform]

/-- The loop of `_headers`, with what it has so far. -/
def commandHeaders (result : Dict Str Str) : List (Str × Str) → Except PyError (Dict Str Str)
  | [] => .ok result
  | (rawName, rawValue) :: rest => do
      let name := Platform.lower rawName
      check (isCommandHeaderName name ∧ name ∉ forbiddenHeaders ∧ (result.get name).isNone ∧
          rawValue.length ≤ 4096 ∧ ¬ hasBreak rawValue)
        (.configuration "Command representation header is invalid.")
      commandHeaders (result.set name (collapseSpace rawValue)) rest

/-- `value.lower().strip()`. -/
def normalMediaType (value : Str) : Str := (Platform.lower value).strip

/-- `_media_type`. -/
def commandMediaType : Option Str → Except PyError (Option Str)
  | none => .ok none
  | some value => do
      check (value.length ≤ 128 ∧ ¬ hasBreak value) (.configuration "Command media type is invalid.")
      return some (normalMediaType value)

/-! ## The fingerprint -/

/-- `b"fastapi_effects:command-raw:v1\n"`. -/
def commandRawPrefix : Bytes :=
  "fastapi_effects:command-raw:v1\n".toList.map fun c => UInt8.ofNat c.toNat

/-- `body_identity`. -/
def CommandRequest.bodyIdentity (request : CommandRequest) : Except PyError Bytes :=
  match request.mode with
  | .canonicalJson => do
      let parsed ← strictJsonLoads request.body request.maximumBodyBytes
      versionedCanonicalBytes parsed request.maximumBodyBytes
  | .raw => .ok (commandRawPrefix ++ request.body)

/-- An object of strings. -/
def stringObject (items : List (Str × Str)) : Json := .obj (items.map fun m => (m.1, .str m.2))

/-- The object that is hashed. -/
def representationTree (mode bodySha256 : Str) (headers : List (Str × Str)) (mediaType : Option Str)
    (path : List (Str × Str)) (query : Str) : Json :=
  .obj [
    ("body_mode", .str mode),
    ("body_sha256", .str bodySha256),
    ("headers", stringObject headers),
    ("media_type", mediaType.elim .null .str),
    ("path_parameters", stringObject path),
    ("query_base64", .str query),
    ("version", .int fingerprintVersion)]

/-- `fingerprint_request`, up to what is hashed. -/
def CommandRequest.representation (request : CommandRequest) : Except PyError Bytes := do
  check (1 ≤ request.maximumBodyBytes) (.configuration "Command request body limit is invalid.")
  check (request.rawQuery.length ≤ 16 * 1024)
    (.configuration "Command query representation is oversized.")
  check (request.body.length ≤ request.maximumBodyBytes)
    (.configuration "Command request body is oversized.")
  let path ← commandPathParameters request.pathParameters
  let headers ← commandHeaders .empty request.headers
  let identity ← request.bodyIdentity
  let mediaType ← commandMediaType request.mediaType
  canonicalJsonBytes (representationTree request.mode.value
    (Bytes.hex (Platform.sha256 identity).toList) headers.items mediaType path.items
    (Base64.encode request.rawQuery)) (64 * 1024)

/-- `fingerprint_request`. -/
def fingerprintRequest (request : CommandRequest) : Except PyError RequestFingerprint := do
  let representation ← request.representation
  return ⟨fingerprintVersion, Platform.sha256 representation⟩

end Fingerprint

/-! ## What is accepted -/

section Accepted

variable [Platform]

/-- A header as it is compared: its name in lower case, and single spaces in its value. -/
def normalHeader (header : Str × Str) : Str × Str :=
  (Platform.lower header.1, collapseSpace header.2)

/-- Every header that is accepted is kept in its normal form. -/
theorem commandHeaders_eq_ok {headers : List (Str × Str)} {result result' : Dict Str Str}
    (h : commandHeaders result headers = .ok result') :
    result'.items = result.items ++ headers.map normalHeader := by
  induction headers generalizing result with
  | nil =>
      cases h
      rw [List.map_nil, List.append_nil]
  | cons header rest ih =>
      obtain ⟨rawName, rawValue⟩ := header
      rw [commandHeaders] at h
      obtain ⟨_, hcheck, h⟩ := bind_eq_ok.mp h
      rw [check_eq_ok, decide_eq_true_eq] at hcheck
      have hnew : result.get (Platform.lower rawName) = none := by simpa using hcheck.2.2.1
      rw [ih h, Dict.items_set_of_get_eq_none hnew, List.append_assoc]
      rfl

omit [Platform] in
theorem commandPathParameters_eq_ok {value result : Dict Str Str}
    (h : commandPathParameters value = .ok result) : result = value := by
  unfold commandPathParameters at h
  obtain ⟨_, -, h⟩ := bind_eq_ok.mp h
  obtain ⟨_, -, h⟩ := bind_eq_ok.mp h
  cases h
  rfl

theorem commandMediaType_eq_ok {value result : Option Str} (h : commandMediaType value = .ok result) :
    result = value.map normalMediaType := by
  cases value with
  | none =>
      cases h
      rfl
  | some value =>
      obtain ⟨_, -, h⟩ := bind_eq_ok.mp h
      cases h
      rfl

/-- The normal form of the headers, whose names differ. -/
theorem commandHeaders_empty {headers : List (Str × Str)} {result : Dict Str Str}
    (h : commandHeaders .empty headers = .ok result) : result.items = headers.map normalHeader := by
  rw [commandHeaders_eq_ok h]
  rfl

/-- What the representation of an accepted request is. -/
theorem representation_eq_ok {request : CommandRequest} {bytes : Bytes}
    (h : request.representation = .ok bytes) : ∃ identity,
      request.bodyIdentity = .ok identity ∧ ((request.headers.map normalHeader).map Prod.fst).Nodup ∧
      canonicalJsonBytes (representationTree request.mode.value
        (Bytes.hex (Platform.sha256 identity).toList) (request.headers.map normalHeader)
        (request.mediaType.map normalMediaType) request.pathParameters.items
        (Base64.encode request.rawQuery)) (64 * 1024) = .ok bytes := by
  unfold CommandRequest.representation at h
  obtain ⟨_, -, h⟩ := bind_eq_ok.mp h
  obtain ⟨_, -, h⟩ := bind_eq_ok.mp h
  obtain ⟨_, -, h⟩ := bind_eq_ok.mp h
  obtain ⟨path, hpath, h⟩ := bind_eq_ok.mp h
  obtain ⟨headers, hheaders, h⟩ := bind_eq_ok.mp h
  obtain ⟨identity, hidentity, h⟩ := bind_eq_ok.mp h
  obtain ⟨mediaType, hmedia, h⟩ := bind_eq_ok.mp h
  cases commandPathParameters_eq_ok hpath
  rw [commandMediaType_eq_ok hmedia] at h
  rw [commandHeaders_empty hheaders] at h
  exact ⟨identity, hidentity, commandHeaders_empty hheaders ▸ headers.nodup, h⟩

end Accepted

/-! ## When two representations are the same -/

theorem stringObject_sorted (items : List (Str × Str)) : (stringObject items).sorted =
    .obj (Json.sortMembers (items.map fun m => (m.1, .str m.2))) := by
  have hmembers : ∀ items : List (Str × Str),
      Json.sortedMembers (items.map fun m => (m.1, .str m.2)) = items.map fun m => (m.1, .str m.2) := by
    intro items
    induction items with
    | nil => rfl
    | cons m rest ih =>
        rw [List.map_cons, Json.sortedMembers, ih]
        rfl
  rw [stringObject, Json.sorted, hmembers]

/-- Two objects of strings are the same when they have the same members. -/
theorem stringObject_sorted_inj {items items' : List (Str × Str)} (h : (items.map Prod.fst).Nodup) :
    (stringObject items).sorted = (stringObject items').sorted ↔ items.Perm items' := by
  have hinjective : Function.Injective fun m : Str × Str => (m.1, Json.str m.2) := by
    rintro ⟨k, x⟩ ⟨l, y⟩ heq
    simp only [Prod.mk.injEq, Json.str.injEq] at heq
    exact Prod.ext heq.1 heq.2
  rw [stringObject_sorted, stringObject_sorted, Json.obj.injEq]
  constructor
  · intro heq
    have hperm := (Json.sortMembers_perm _).symm.trans (heq ▸ Json.sortMembers_perm _)
    exact ((List.map_perm_map_iff hinjective).mp hperm).symm
  · intro hperm
    refine Json.sortMembers_congr ?_ (hperm.map _)
    rw [List.map_map]
    exact h

theorem representationTree_get?_sorted {mode digest query : Str} {headers path : List (Str × Str)}
    {mediaType : Option Str} (key : Str) :
    (representationTree mode digest headers mediaType path query).sorted.get? key =
      ((representationTree mode digest headers mediaType path query).get? key).map Json.sorted := by
  have hkeys : [Str.ofString "body_mode", Str.ofString "body_sha256", Str.ofString "headers",
      Str.ofString "media_type", Str.ofString "path_parameters", Str.ofString "query_base64",
      Str.ofString "version"].Nodup := by decide
  unfold representationTree
  refine Json.get?_sorted ?_ key
  exact hkeys

/-- Representations are the same when their parts are. -/
theorem representationTree_sorted_inj {mode mode' digest digest' query query' : Str}
    {headers headers' path path' : List (Str × Str)} {mediaType mediaType' : Option Str}
    (hheaders : (headers.map Prod.fst).Nodup) (hpath : (path.map Prod.fst).Nodup) :
    (representationTree mode digest headers mediaType path query).sorted =
        (representationTree mode' digest' headers' mediaType' path' query').sorted ↔
      mode = mode' ∧ digest = digest' ∧ headers.Perm headers' ∧ mediaType = mediaType' ∧
        path.Perm path' ∧ query = query' := by
  have hmedia : ∀ mediaType : Option Str,
      (mediaType.elim Json.null Json.str).sorted = mediaType.elim Json.null Json.str := by
    rintro (_ | _) <;> rfl
  constructor
  · intro heq
    -- member by member
    have hmember : ∀ key, ((representationTree mode digest headers mediaType path query).get? key).map
        Json.sorted = ((representationTree mode' digest' headers' mediaType' path' query').get?
          key).map Json.sorted := by
      intro key
      rw [← representationTree_get?_sorted, ← representationTree_get?_sorted, heq]
    have hmode : some (Json.str mode) = some (Json.str mode') := hmember "body_mode"
    have hdigest : some (Json.str digest) = some (Json.str digest') := hmember "body_sha256"
    have hheaders' : some (stringObject headers).sorted = some (stringObject headers').sorted :=
      hmember "headers"
    have hmedia' : some (mediaType.elim Json.null Json.str).sorted =
        some (mediaType'.elim Json.null Json.str).sorted := hmember "media_type"
    have hpath' : some (stringObject path).sorted = some (stringObject path').sorted :=
      hmember "path_parameters"
    have hquery : some (Json.str query) = some (Json.str query') := hmember "query_base64"
    rw [hmedia, hmedia, Option.some.injEq] at hmedia'
    refine ⟨?_, ?_, (stringObject_sorted_inj hheaders).mp (Option.some.inj hheaders'), ?_,
      (stringObject_sorted_inj hpath).mp (Option.some.inj hpath'), ?_⟩
    · cases hmode
      rfl
    · cases hdigest
      rfl
    · cases mediaType <;> cases mediaType' <;> cases hmedia' <;> rfl
    · cases hquery
      rfl
  · rintro ⟨rfl, rfl, hheaders', rfl, hpath', rfl⟩
    have hheadersSorted := (stringObject_sorted_inj hheaders).mpr hheaders'
    have hpathSorted := (stringObject_sorted_inj hpath).mpr hpath'
    simp only [representationTree, Json.sorted, Json.sortedMembers, hheadersSorted, hpathSorted]

section Identity

variable [Platform]

/-- Two requests whose normalized parts are equal. -/
structure SameRequest (a b : CommandRequest) : Prop where
  mode : a.mode = b.mode
  raw : a.mode = .raw → a.body = b.body
  canonical : a.mode = .canonicalJson → ∃ v w, strictJsonLoads a.body a.maximumBodyBytes = .ok v ∧
    strictJsonLoads b.body b.maximumBodyBytes = .ok w ∧ v.same w
  query : a.rawQuery = b.rawQuery
  headers : (a.headers.map normalHeader).Perm (b.headers.map normalHeader)
  mediaType : a.mediaType.map normalMediaType = b.mediaType.map normalMediaType
  path : a.pathParameters.items.Perm b.pathParameters.items

/-- The messages that are hashed for a request. -/
inductive CommandRequest.Hashes (request : CommandRequest) : Bytes → Prop
  | body {message : Bytes} : request.bodyIdentity = .ok message → request.Hashes message
  | representation {message : Bytes} : request.representation = .ok message → request.Hashes message

/-- SHA-256 tells apart what is hashed for the two requests. -/
def CollisionFree (a b : CommandRequest) : Prop :=
  ∀ x y, a.Hashes x → b.Hashes y → Platform.sha256 x = Platform.sha256 y → x = y

theorem fingerprintRequest_eq_ok {request : CommandRequest} {f : RequestFingerprint} :
    fingerprintRequest request = .ok f ↔ ∃ representation,
      request.representation = .ok representation ∧
        f = ⟨fingerprintVersion, Platform.sha256 representation⟩ := by
  rw [fingerprintRequest, bind_eq_ok]
  constructor
  · rintro ⟨representation, h, heq⟩
    cases heq
    exact ⟨representation, h, rfl⟩
  · rintro ⟨representation, h, rfl⟩
    exact ⟨representation, h, rfl⟩

/-- In canonical mode the identity of a body is that of its value. -/
theorem bodyIdentity_canonicalJson {request : CommandRequest} {identity : Bytes}
    (hmode : request.mode = .canonicalJson) (h : request.bodyIdentity = .ok identity) :
    ∃ value body, strictJsonLoads request.body request.maximumBodyBytes = .ok value ∧
      canonicalJsonBytes value (request.maximumBodyBytes - canonicalPrefix.length) = .ok body ∧
      identity = canonicalPrefix ++ body := by
  unfold CommandRequest.bodyIdentity at h
  rw [hmode] at h
  obtain ⟨value, hvalue, h⟩ := bind_eq_ok.mp h
  obtain ⟨body, hbody, rfl⟩ := versionedCanonicalBytes_eq_ok.mp h
  exact ⟨value, body, hvalue, hbody, rfl⟩

theorem bodyIdentity_raw {request : CommandRequest} {identity : Bytes} (hmode : request.mode = .raw)
    (h : request.bodyIdentity = .ok identity) : identity = commandRawPrefix ++ request.body := by
  unfold CommandRequest.bodyIdentity at h
  rw [hmode] at h
  cases h
  rfl

/-- Bodies of one mode have one identity when they are the same. -/
theorem bodyIdentity_inj {a b : CommandRequest} {x y : Bytes} (hmode : a.mode = b.mode)
    (ha : a.bodyIdentity = .ok x) (hb : b.bodyIdentity = .ok y) :
    x = y ↔ (a.mode = .raw → a.body = b.body) ∧
      (a.mode = .canonicalJson → ∃ v w, strictJsonLoads a.body a.maximumBodyBytes = .ok v ∧
        strictJsonLoads b.body b.maximumBodyBytes = .ok w ∧ v.same w) := by
  cases hraw : a.mode with
  | raw =>
      rw [bodyIdentity_raw hraw ha, bodyIdentity_raw (hmode ▸ hraw) hb, List.append_cancel_left_eq]
      constructor
      · intro h
        exact ⟨fun _ => h, nofun⟩
      · intro h
        exact h.1 rfl
  | canonicalJson =>
      obtain ⟨v, body, hv, hbody, rfl⟩ := bodyIdentity_canonicalJson hraw ha
      obtain ⟨w, body', hw, hbody', rfl⟩ := bodyIdentity_canonicalJson (hmode ▸ hraw) hb
      rw [List.append_cancel_left_eq, canonicalJsonBytes_inj hbody hbody']
      constructor
      · intro h
        exact ⟨nofun, fun _ => ⟨v, w, hv, hw, h⟩⟩
      · rintro ⟨-, h⟩
        obtain ⟨v', w', hv', hw', hsame⟩ := h rfl
        rw [hv] at hv'
        rw [hw] at hw'
        cases hv'
        cases hw'
        exact hsame

omit [Platform] in
theorem BodyFingerprintMode.value_inj {mode mode' : BodyFingerprintMode} :
    mode.value = mode'.value ↔ mode = mode' := by
  cases mode <;> cases mode' <;> decide

omit [Platform] in
theorem digest_hex_inj {x y : Vector UInt8 32} :
    Bytes.hex x.toList = Bytes.hex y.toList ↔ x = y := by
  constructor
  · intro h
    exact Vector.toList_inj.mp (Bytes.hex_inj h)
  · rintro rfl
    rfl

omit [Platform] in
theorem Base64.encode_inj {x y : Bytes} : Base64.encode x = Base64.encode y ↔ x = y := by
  constructor
  · intro h
    have hread := Base64.decode?_encode x
    rw [h, Base64.decode?_encode] at hread
    exact (Option.some.inj hread).symm
  · rintro rfl
    rfl

/-- The fingerprints of two accepted requests are equal exactly when the parts that identify them
are: as far as SHA-256 tells apart what is hashed, no part stands for another. -/
theorem fingerprint_identity {a b : CommandRequest} {f g : RequestFingerprint}
    (ha : fingerprintRequest a = .ok f) (hb : fingerprintRequest b = .ok g)
    (hfree : CollisionFree a b) : f = g ↔ SameRequest a b := by
  obtain ⟨representation, hrepr, rfl⟩ := fingerprintRequest_eq_ok.mp ha
  obtain ⟨representation', hrepr', rfl⟩ := fingerprintRequest_eq_ok.mp hb
  obtain ⟨identity, hidentity, hheaders, hbytes⟩ := representation_eq_ok hrepr
  obtain ⟨identity', hidentity', -, hbytes'⟩ := representation_eq_ok hrepr'
  have hdigest : Platform.sha256 identity = Platform.sha256 identity' ↔ identity = identity' :=
    ⟨hfree _ _ (.body hidentity) (.body hidentity'), congrArg _⟩
  have hsame := canonicalJsonBytes_inj hbytes hbytes'
  rw [same_iff_sorted _ _ (canonicalJsonBytes_spec hbytes).1 (canonicalJsonBytes_spec hbytes').1,
    representationTree_sorted_inj hheaders a.pathParameters.nodup, BodyFingerprintMode.value_inj,
    digest_hex_inj, hdigest, Base64.encode_inj] at hsame
  constructor
  · intro heq
    rw [RequestFingerprint.mk.injEq] at heq
    obtain ⟨hmode, hbody, hheaders', hmedia, hpath, hquery⟩ :=
      hsame.mp (hfree _ _ (.representation hrepr) (.representation hrepr') heq.2)
    obtain ⟨hraw, hcanonical⟩ := (bodyIdentity_inj hmode hidentity hidentity').mp hbody
    exact ⟨hmode, hraw, hcanonical, hquery, hheaders', hmedia, hpath⟩
  · rintro ⟨hmode, hraw, hcanonical, hquery, hheaders', hmedia, hpath⟩
    have hbody := (bodyIdentity_inj hmode hidentity hidentity').mpr ⟨hraw, hcanonical⟩
    rw [hsame.mpr ⟨hmode, hbody, hheaders', hmedia, hpath, hquery⟩]

end Identity

namespace Variants

open scoped Checksum

/-- The bytes of an ASCII text. -/
def asciiMessage (text : String) : Bytes := text.toList.map fun c => UInt8.ofNat c.toNat

def first : CommandRequest where
  pathParameters := Dict.empty.set "order" "7"
  rawQuery := asciiMessage "page=2"
  headers := [("Accept", "text/plain,  text/html"), ("X-Tenant", "t")]
  mediaType := some "Application/JSON "
  body := asciiMessage "\x7b\"b\":1,\"a\":2\x7d"
  mode := .canonicalJson

/-- The same request with its headers and members in another order and spelling. -/
def second : CommandRequest :=
  { first with
    headers := [("x-tenant", " t"), ("accept", "text/plain, text/html")]
    mediaType := some "application/json"
    body := asciiMessage "\x7b \"a\": 2, \"b\": 1 \x7d" }

/-- The two requests hash the same messages, which differ in their first byte. -/
theorem messages :
    second.bodyIdentity.toOption = first.bodyIdentity.toOption ∧
      second.representation.toOption = first.representation.toOption ∧
      first.bodyIdentity.toOption.map (·.getD 0 0) = some 102 ∧
      first.representation.toOption.map (·.getD 0 0) = some 123 := by
  decide +kernel

theorem first_hashes {x : Bytes} (h : first.Hashes x) :
    (first.bodyIdentity.toOption = some x ∧ x.getD 0 0 = 102) ∨
      (first.representation.toOption = some x ∧ x.getD 0 0 = 123) := by
  obtain ⟨-, -, hbody, hrepresentation⟩ := messages
  rcases h with h | h
  · rw [h] at hbody ⊢
    exact .inl ⟨rfl, Option.some.inj hbody⟩
  · rw [h] at hrepresentation ⊢
    exact .inr ⟨rfl, Option.some.inj hrepresentation⟩

theorem second_hashes {y : Bytes} (h : second.Hashes y) :
    (first.bodyIdentity.toOption = some y ∧ y.getD 0 0 = 102) ∨
      (first.representation.toOption = some y ∧ y.getD 0 0 = 123) := by
  obtain ⟨hbody, hrepresentation, hbodyHead, hrepresentationHead⟩ := messages
  rcases h with h | h
  · rw [h] at hbody
    rw [← hbody] at hbodyHead ⊢
    exact .inl ⟨rfl, Option.some.inj hbodyHead⟩
  · rw [h] at hrepresentation
    rw [← hrepresentation] at hrepresentationHead ⊢
    exact .inr ⟨rfl, Option.some.inj hrepresentationHead⟩

/-- A hash of the first bytes tells the body of these requests from their representation. -/
theorem collisionFree : CollisionFree first second := by
  intro x y hx hy hdigest
  have hhead : x.getD 0 0 = y.getD 0 0 := by
    have hentries := congrArg (fun digest : Vector UInt8 32 => digest[0]) hdigest
    simpa [Platform.sha256] using hentries
  rcases first_hashes hx with ⟨hx, hx0⟩ | ⟨hx, hx0⟩ <;>
    rcases second_hashes hy with ⟨hy, hy0⟩ | ⟨hy, hy0⟩
  · exact Option.some.inj (hx.symm.trans hy)
  · rw [hx0, hy0] at hhead
    contradiction
  · rw [hx0, hy0] at hhead
    contradiction
  · exact Option.some.inj (hx.symm.trans hy)

end Variants

theorem eq_ok_of_toOption {α ε : Type} {x : Except ε α} {a : α} (h : x.toOption = some a) :
    x = .ok a := by
  cases x with
  | ok b =>
      cases h
      rfl
  | error e => cases h

open Checksum Variants in
/-- One request in two spellings, which have one fingerprint. -/
theorem fingerprint_identity_variants : ∃ f g, fingerprintRequest first = .ok f ∧
    fingerprintRequest second = .ok g ∧ (f = g ↔ SameRequest first second) := by
  obtain ⟨-, hsame, -, hhead⟩ := messages
  obtain ⟨representation, hfirst, -⟩ := Option.map_eq_some_iff.mp hhead
  rw [hfirst] at hsame
  have hf := fingerprintRequest_eq_ok.mpr ⟨representation, eq_ok_of_toOption hfirst, rfl⟩
  have hg := fingerprintRequest_eq_ok.mpr ⟨representation, eq_ok_of_toOption hsame, rfl⟩
  exact ⟨_, _, hf, hg, fingerprint_identity hf hg collisionFree⟩

end FastapiEffects
