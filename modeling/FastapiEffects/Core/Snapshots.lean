import FastapiEffects.Core.Routing
import FastapiEffects.Sqlalchemy.Limits

/-! # Which routes can be snapshotted

The constructor of a route holds every field against a limit of its own, and `snapshot_bytes` the
whole. An accepted route has a snapshot when its numbers can be written, its metadata leaves a level
of nesting, and all of it fits in 32 KiB.
-/

namespace FastapiEffects

open Python

/-! ## Keys and scopes as text -/

/-- The characters of a scope need no escape. -/
theorem isVerbatim_scopeChar {c : PyChar}
    (h : c.isIn [('A', 'Z'), ('a', 'z'), ('0', '9')] ['.', '_', ':', '-'] = true) :
    c.isVerbatim = true :=
  PyChar.forall_ascii (p := fun c => c.isIn [('A', 'Z'), ('a', 'z'), ('0', '9')]
    ['.', '_', ':', '-'] = true → c.isVerbatim = true) (by decide +kernel)
    (PyChar.ord_lt_of_isIn (by decide) (by decide) h) h

theorem isVerbatim_scope {s : Str} (h : isScope s = true) : ∀ c ∈ s, c.isVerbatim = true := by
  have hfirst : ∀ c : PyChar, c.isIn [('A', 'Z'), ('a', 'z'), ('0', '9')] [] = true →
      c.isVerbatim = true := fun c hc => isVerbatim_scopeChar (PyChar.isIn_mono (by simp) (by simp) hc)
  exact (Str.forall_of_fullmatch hfirst (fun c => isVerbatim_scopeChar) h).2

/-- A stable key is a scope. -/
theorem isScope_of_stableKey {s : Str} (h : isStableKey s = true) : isScope s = true :=
  Str.fullmatch_mono (fun _ => PyChar.isIn_mono (by simp) (by simp))
    (fun _ => PyChar.isIn_mono (by simp) (by simp)) (le_refl _) h

/-- The bytes of a text that only gets its quotes. -/
def textSize (s : Str) : ℕ := s.length + 2

theorem isAscii_verbatim {s : Str} (h : ∀ c ∈ s, c.isVerbatim = true) : s.isAscii = true :=
  Str.isAscii_iff.mpr fun c hc => PyChar.ord_lt_of_isVerbatim (h c hc)

theorem utf8Size_quote {s : Str} (h : ∀ c ∈ s, c.isVerbatim = true) :
    (quote s).utf8Size = textSize s := by
  have hquote : Str.utf8Size (Str.ofString "\"") = 1 := by decide
  rw [quote_verbatim h, Str.utf8Size_append, Str.utf8Size_append, hquote,
    Str.utf8Size_ascii (isAscii_verbatim h), textSize]
  omega

theorem encodes_ascii {s : Str} (h : s.isAscii = true) : s.encodes = true := by
  rw [← Str.isSome_encode?, Str.encode?_ascii h]
  rfl

theorem encodes_verbatim {s : Str} (h : ∀ c ∈ s, c.isVerbatim = true) : s.encodes = true :=
  encodes_ascii (isAscii_verbatim h)

/-! ## The snapshot as a tree -/

namespace RetryPolicy

/-- `float(...)` of a number that is not too large. -/
def asFloat (a : Number) : PyFloat := a.toFloat?.getD .nan

theorem finiteNumber_field {name : String} {a : Number} {x : Binary64}
    (h : finiteNumber name a = .ok x) : floatField a = .ok (.float (.finite x)) ∧
      asFloat a = .finite x := by
  have hfloat : a.toFloat? = some (.finite x) := by
    unfold finiteNumber at h
    split at h
    · next hx =>
        cases h
        exact hx
    · cases h
    · cases h
  constructor
  · rw [floatField, hfloat]
    rfl
  · rw [asFloat, hfloat]
    rfl

/-- The numbers of a policy that are floats in its snapshot. -/
def floats (p : RetryPolicy) : List Number :=
  [p.baseDelaySeconds, p.maximumDelaySeconds, p.handlerTimeoutSeconds, p.leaseDurationSeconds]

/-- What `to_dict` returns. -/
def document (p : RetryPolicy) : Json :=
  .obj [
    ("name", .str p.name),
    ("version", .int p.version),
    ("max_attempts", .int p.maxAttempts),
    ("maximum_elapsed_seconds", .int p.maximumElapsedSeconds),
    ("base_delay_seconds", .float (asFloat p.baseDelaySeconds)),
    ("maximum_delay_seconds", .float (asFloat p.maximumDelaySeconds)),
    ("handler_timeout_seconds", .float (asFloat p.handlerTimeoutSeconds)),
    ("lease_duration_seconds", .float (asFloat p.leaseDurationSeconds)),
    ("jitter", .str p.jitter)]

/-- What the constructor of a policy accepts of the texts and the floats. -/
theorem accepted (p : RetryPolicy) : isStableKey p.name = true ∧ p.jitter = "full" ∧
    (∀ a ∈ p.floats, floatField a = .ok (.float (asFloat a)) ∧ (asFloat a).isfinite = true) := by
  have h := p.valid
  unfold RetryPolicyArgs.postInit at h
  obtain ⟨_, hname, h⟩ := bind_eq_ok.mp h
  obtain ⟨_, -, h⟩ := bind_eq_ok.mp h
  obtain ⟨_, -, h⟩ := bind_eq_ok.mp h
  obtain ⟨base, hbase, h⟩ := bind_eq_ok.mp h
  obtain ⟨maximum, hmaximum, h⟩ := bind_eq_ok.mp h
  obtain ⟨timeout, htimeout, h⟩ := bind_eq_ok.mp h
  obtain ⟨lease, hlease, h⟩ := bind_eq_ok.mp h
  obtain ⟨_, -, h⟩ := bind_eq_ok.mp h
  obtain ⟨_, -, h⟩ := bind_eq_ok.mp h
  obtain ⟨_, -, h⟩ := bind_eq_ok.mp h
  obtain ⟨_, -, h⟩ := bind_eq_ok.mp h
  obtain ⟨_, -, hjitter⟩ := bind_eq_ok.mp h
  refine ⟨check_eq_ok.mp hname, of_decide_eq_true (check_eq_ok.mp hjitter), ?_⟩
  have hfinite : ∀ {name : String} {a : Number} {x : Binary64}, finiteNumber name a = .ok x →
      floatField a = .ok (.float (asFloat a)) ∧ (asFloat a).isfinite = true := by
    intro name a x ha
    obtain ⟨hfield, hfloat⟩ := finiteNumber_field ha
    rw [hfloat]
    exact ⟨hfield, rfl⟩
  simp only [floats, List.forall_mem_cons, List.not_mem_nil, false_implies, implies_true,
    and_true]
  exact ⟨hfinite hbase, hfinite hmaximum, hfinite htimeout, hfinite hlease⟩

theorem toDict_eq (p : RetryPolicy) : p.toDict = .ok p.document := by
  have hfloats := p.accepted.2.2
  simp only [floats, List.forall_mem_cons] at hfloats
  obtain ⟨⟨hbase, -⟩, ⟨hmaximum, -⟩, ⟨htimeout, -⟩, ⟨hlease, -⟩, -⟩ := hfloats
  rw [toDict, hbase, hmaximum, htimeout, hlease]
  rfl

end RetryPolicy

theorem normalizeScopes_accepted {scopes normalized : List Str}
    (h : normalizeScopes scopes = .ok normalized) :
    normalized.length ≤ 256 ∧ ∀ s ∈ normalized, isScope s = true := by
  unfold normalizeScopes at h
  obtain ⟨_, hcheck, h⟩ := bind_eq_ok.mp h
  cases h
  obtain ⟨hcount, hscopes⟩ := of_decide_eq_true (check_eq_ok.mp hcheck)
  refine ⟨(List.length_insertionSort _ _).trans_le hcount, fun s hs => ?_⟩
  exact List.all_eq_true.mp hscopes s ((List.mem_insertionSort _).mp hs)

section Snapshots

variable [Platform]

/-- The members of the destination that a route has of its own. -/
def RouteSpecification.ownIdentity (r : RouteSpecification) : List (Str × Json) :=
  [("kind", .str r.destinationKind), ("key", .str r.destinationKey)]

/-- The members of the destination: the metadata merged into the identity. -/
def RouteSpecification.destination (r : RouteSpecification) : List (Str × Json) :=
  dictOf (r.ownIdentity ++ r.destinationMetadata)

/-- The authority of a snapshot. -/
def RouteSpecification.authority (r : RouteSpecification) : Json :=
  .obj [
    ("mode", .str r.authorization.text),
    ("required_scopes", jsonTexts r.requiredScopes),
    ("service_policy", jsonOption .str r.servicePolicy),
    ("service_capabilities", jsonOption jsonTexts r.serviceCapabilities),
    ("maximum_snapshot_age_seconds", jsonOption .int r.maximumSnapshotAgeSeconds)]

/-- What `to_snapshot` returns. -/
def RouteSpecification.document (r : RouteSpecification) : Json :=
  .obj [
    ("snapshot_version", .int 1),
    ("event_type", .str r.eventType),
    ("route_key", .str r.routeKey),
    ("route_version", .int r.version),
    ("destination", .obj r.destination),
    ("authority", r.authority),
    ("retry", r.retryPolicy.document)]

theorem RouteSpecification.toSnapshot_eq (r : RouteSpecification) : r.toSnapshot = .ok r.document := by
  rw [RouteSpecification.toSnapshot, RetryPolicy.toDict_eq]
  rfl

/-! ## What the constructor accepts -/

/-- Metadata that was normalized. -/
structure AcceptedMetadata (metadata : List (Str × Json)) : Prop where
  normal : normalize 0 (.obj metadata) = .ok ()
  sorted : (Json.obj metadata).sorted = .obj metadata
  writable : (Json.obj metadata).writable = true
  size : (Json.obj metadata).size ≤ 16 * 1024

theorem normalizeMetadata_accepted {given metadata : List (Str × Json)}
    (h : normalizeMetadata given = .ok metadata) : AcceptedMetadata metadata := by
  unfold normalizeMetadata at h
  obtain ⟨bytes, hbytes, h⟩ := bind_eq_ok.mp h
  have hloads := loads_canonicalJsonBytes hbytes
  obtain ⟨hnormal, hwritable, hsize⟩ :=
    (exists_canonicalJsonBytes (by norm_num)).mp ⟨bytes, hbytes⟩
  have hsorted : (Json.obj given).sorted = .obj metadata := by
    rw [hloads, Json.sorted] at h
    exact congrArg Json.obj (Except.ok.inj h)
  constructor
  · rw [← hsorted]
    exact (normalize_sorted _ hnormal).1
  · rw [← hsorted, Json.sorted_sorted]
  · rw [← hsorted, Json.writable, Json.everywhere_sorted]
    exact hwritable
  · rw [← hsorted, Json.size_sorted]
    exact_mod_cast hsize

/-- The fields of a route, after `__post_init__`. -/
structure RouteArgs.Accepted (r : RouteArgs) : Prop where
  eventType : isStableKey r.eventType = true
  routeKey : isStableKey r.routeKey = true
  destinationKind : isStableKey r.destinationKind = true
  destinationKey : isStableKey r.destinationKey = true
  requiredScopes : r.requiredScopes.length ≤ 256 ∧ ∀ s ∈ r.requiredScopes, isScope s = true
  servicePolicy : ∀ policy ∈ r.servicePolicy, isStableKey policy = true
  serviceCapabilities : ∀ scopes ∈ r.serviceCapabilities,
    scopes.length ≤ 256 ∧ ∀ s ∈ scopes, isScope s = true
  destinationMetadata : AcceptedMetadata r.destinationMetadata

theorem RouteSpecification.accepted (r : RouteSpecification) : r.Accepted := by
  obtain ⟨given, hgiven⟩ := r.made
  obtain ⟨scopes, capabilities, metadata, hchecked, hmade⟩ := postInit_eq_ok hgiven
  rw [hmade]
  constructor
  · obtain ⟨_, htype, -⟩ := bind_eq_ok.mp hchecked.event
    exact check_eq_ok.mp htype
  · exact hchecked.routeKey
  · exact hchecked.destinationKind
  · exact hchecked.destinationKey
  · exact normalizeScopes_accepted hchecked.requiredScopes
  · exact hchecked.servicePolicy
  · intro kept hkept
    have hcapabilities := hchecked.serviceCapabilities
    cases hgivenCapabilities : given.serviceCapabilities with
    | none =>
        rw [hgivenCapabilities] at hcapabilities
        cases hcapabilities
        cases hkept
    | some raw =>
        rw [hgivenCapabilities] at hcapabilities
        obtain ⟨normalized, hnormalized, hsome⟩ := map_eq_ok.mp hcapabilities
        cases hsome.trans hkept
        exact normalizeScopes_accepted hnormalized
  · exact normalizeMetadata_accepted hchecked.destinationMetadata

/-! ## The limits of a snapshot -/

omit [Platform] in
/-- The bytes of an object whose keys need no escapes, from those of its values. -/
def objectSize (members : List (String × ℕ)) : ℕ :=
  1 + (members.map fun m => m.1.length + 4 + m.2).sum

/-- The bytes of a list of texts that need no escapes. -/
def textsSize (texts : List Str) : ℕ := 1 + max 1 (texts.map fun s => textSize s + 1).sum

/-- The metadata beside members of the identity. -/
def RouteSpecification.plainMetadata (r : RouteSpecification) : List (Str × Json) :=
  r.destinationMetadata.filter fun m => decide (m.1 ≠ "kind") && decide (m.1 ≠ "key")

/-- The bytes of the destination. -/
def RouteSpecification.destinationSize (r : RouteSpecification) : ℕ :=
  let metadata := Json.obj r.destinationMetadata
  objectSize [
    ("kind", (metadata.get? "kind").elim (textSize r.destinationKind) Json.size),
    ("key", (metadata.get? "key").elim (textSize r.destinationKey) Json.size)] +
    Json.sizeMembers r.plainMetadata

/-- The bytes of the authority. -/
def RouteSpecification.authoritySize (r : RouteSpecification) : ℕ :=
  objectSize [
    ("mode", textSize r.authorization.text),
    ("required_scopes", textsSize r.requiredScopes),
    ("service_policy", r.servicePolicy.elim 4 textSize),
    ("service_capabilities", r.serviceCapabilities.elim 4 textsSize),
    ("maximum_snapshot_age_seconds",
      r.maximumSnapshotAgeSeconds.elim 4 fun age => (Json.int age).size)]

omit [Platform] in
/-- The bytes of a policy. -/
def RetryPolicy.snapshotSize (p : RetryPolicy) : ℕ :=
  let floatSize (a : Number) := (Json.float (asFloat a)).size
  objectSize [
    ("name", textSize p.name),
    ("version", (Json.int p.version).size),
    ("max_attempts", (Json.int p.maxAttempts).size),
    ("maximum_elapsed_seconds", (Json.int p.maximumElapsedSeconds).size),
    ("base_delay_seconds", floatSize p.baseDelaySeconds),
    ("maximum_delay_seconds", floatSize p.maximumDelaySeconds),
    ("handler_timeout_seconds", floatSize p.handlerTimeoutSeconds),
    ("lease_duration_seconds", floatSize p.leaseDurationSeconds),
    ("jitter", textSize p.jitter)]

/-- The bytes of a snapshot. -/
def RouteSpecification.snapshotSize (r : RouteSpecification) : ℕ :=
  objectSize [
    ("snapshot_version", 1),
    ("event_type", textSize r.eventType),
    ("route_key", textSize r.routeKey),
    ("route_version", (Json.int r.version).size),
    ("destination", r.destinationSize),
    ("authority", r.authoritySize),
    ("retry", r.retryPolicy.snapshotSize)]

/-- The integers of a route. -/
def RouteSpecification.integers (r : RouteSpecification) : List ℤ :=
  r.version :: r.retryPolicy.version :: r.retryPolicy.maxAttempts ::
    r.retryPolicy.maximumElapsedSeconds :: r.maximumSnapshotAgeSeconds.toList

/-- A route whose snapshot is within the limits: every integer has a text, the metadata leaves a
level of nesting to the destination around it, no key of it is another spelling of `kind` or `key`,
and there is room for all of it. -/
structure RouteSpecification.Snapshottable (r : RouteSpecification) : Prop where
  digits : ∀ n ∈ r.integers, (Nat.toDigits 10 n.natAbs).length ≤ maxStrDigits
  nesting : (Json.obj r.destinationMetadata).height < maxDepth
  spelling : ∀ m ∈ r.destinationMetadata, ∀ k ∈ ([("kind" : Str), "key"] : List Str),
    Platform.nfc m.1 = k → m.1 = k
  size : r.snapshotSize ≤ 32 * 1024

/-! ## The bytes of a snapshot -/

omit [Platform] in
theorem sizeMembers_key {k : String} (h : (Str.ofString k).all PyChar.isVerbatim = true) (value : Json)
    (members : List (Str × Json)) :
    Json.sizeMembers ((Str.ofString k, value) :: members) =
      k.length + 4 + value.size + Json.sizeMembers members := by
  have hlength : (Str.ofString k).length = k.length := by
    simp [Str.ofString, String.length_toList]
  rw [Json.sizeMembers, utf8Size_quote (List.all_eq_true.mp h), textSize, hlength]
  omega

omit [Platform] in
theorem size_obj_cons (m : Str × Json) (members : List (Str × Json)) :
    (Json.obj (m :: members)).size = 1 + Json.sizeMembers (m :: members) := by
  obtain ⟨k, value⟩ := m
  rw [Json.size, Nat.max_eq_right]
  rw [Json.sizeMembers]
  omega

omit [Platform] in
theorem size_stableKey {s : Str} (h : isStableKey s = true) : (Json.str s).size = textSize s :=
  utf8Size_quote (isVerbatim_scope (isScope_of_stableKey h))

omit [Platform] in
theorem size_jsonTexts {texts : List Str} (h : ∀ s ∈ texts, isScope s = true) :
    (jsonTexts texts).size = textsSize texts := by
  have hitems : Json.sizeItems (texts.map .str) = (texts.map fun s => textSize s + 1).sum := by
    induction texts with
    | nil => rfl
    | cons s rest ih =>
        obtain ⟨hs, hrest⟩ := List.forall_mem_cons.mp h
        rw [List.map_cons, Json.sizeItems, ih hrest, Json.size, utf8Size_quote (isVerbatim_scope hs),
          List.map_cons, List.sum_cons]
  rw [jsonTexts, Json.size, hitems, textsSize]

/-- The destination is the identity, with the values the metadata has for it, and the rest of the
metadata. -/
theorem destination_eq (r : RouteSpecification) : r.destination =
    (Str.ofString "kind",
      ((Json.obj r.destinationMetadata).get? "kind").getD (.str r.destinationKind)) ::
    (Str.ofString "key",
      ((Json.obj r.destinationMetadata).get? "key").getD (.str r.destinationKey)) ::
    r.plainMetadata := by
  have hnodup := (members_of_normalize r.accepted.destinationMetadata.normal).1
  have hown : (r.ownIdentity.map Prod.fst).Nodup := by
    show ([("kind" : Str), "key"] : List Str).Nodup
    decide
  have hplain : (r.destinationMetadata.filter fun m => m.1 ∉ r.ownIdentity.map Prod.fst) =
      r.plainMetadata := by
    refine List.filter_congr fun m _ => ?_
    simp [RouteSpecification.ownIdentity]
  rw [RouteSpecification.destination, dictOf_append hown hnodup, hplain]
  rfl

theorem size_destination (r : RouteSpecification) : (Json.obj r.destination).size = r.destinationSize := by
  have hvalue : ∀ (x : Option Json) {s : Str}, isStableKey s = true →
      (x.getD (.str s)).size = x.elim (textSize s) Json.size := by
    intro x s hs
    cases x with
    | none => exact size_stableKey hs
    | some value => rfl
  rw [destination_eq, size_obj_cons, sizeMembers_key (by decide), sizeMembers_key (by decide),
    hvalue _ r.accepted.destinationKind, hvalue _ r.accepted.destinationKey]
  simp only [RouteSpecification.destinationSize, objectSize, List.map_cons, List.map_nil, List.sum_cons,
    List.sum_nil]
  omega

omit [Platform] in
theorem size_policy (p : RetryPolicy) : p.document.size = p.snapshotSize := by
  obtain ⟨hname, hjitter, -⟩ := p.accepted
  have hfull : (Json.str p.jitter).size = textSize p.jitter := by
    rw [hjitter]
    decide
  rw [RetryPolicy.document, size_obj_cons]
  simp (disch := decide) only [sizeMembers_key, RetryPolicy.snapshotSize, objectSize, List.map_cons,
    List.map_nil, List.sum_cons, List.sum_nil, size_stableKey hname, hfull, Json.sizeMembers_nil]

theorem size_authority (r : RouteSpecification) : r.authority.size = r.authoritySize := by
  have haccepted := r.accepted
  have hmode : (Json.str r.authorization.text).size = textSize r.authorization.text := by
    cases r.authorization <;> decide
  have hservice : (jsonOption .str r.servicePolicy).size = r.servicePolicy.elim 4 textSize := by
    cases hsome : r.servicePolicy with
    | none => rfl
    | some policy => exact size_stableKey (haccepted.servicePolicy policy hsome)
  have hcapabilities : (jsonOption jsonTexts r.serviceCapabilities).size =
      r.serviceCapabilities.elim 4 textsSize := by
    cases hsome : r.serviceCapabilities with
    | none => rfl
    | some scopes => exact size_jsonTexts (haccepted.serviceCapabilities scopes hsome).2
  have hage : (jsonOption .int r.maximumSnapshotAgeSeconds).size =
      r.maximumSnapshotAgeSeconds.elim 4 fun age => (Json.int age).size := by
    cases r.maximumSnapshotAgeSeconds <;> rfl
  rw [RouteSpecification.authority, size_obj_cons]
  simp (disch := decide) only [sizeMembers_key, RouteSpecification.authoritySize, objectSize,
    List.map_cons, List.map_nil, List.sum_cons, List.sum_nil, hmode, hservice, hcapabilities, hage,
    size_jsonTexts haccepted.requiredScopes.2, Json.sizeMembers_nil]

theorem size_document (r : RouteSpecification) : r.document.size = r.snapshotSize := by
  have hone : (Json.int 1).size = 1 := by decide
  rw [RouteSpecification.document, size_obj_cons]
  simp (disch := decide) only [sizeMembers_key, RouteSpecification.snapshotSize, objectSize,
    List.map_cons, List.map_nil, List.sum_cons, List.sum_nil, hone, size_stableKey r.accepted.eventType,
    size_stableKey r.accepted.routeKey, size_destination, size_authority, size_policy,
    Json.sizeMembers_nil]

/-! ## What a snapshot holds -/

theorem mem_destination {r : RouteSpecification} {m : Str × Json} : m ∈ r.destination ↔
    m ∈ r.destinationMetadata ∨
      (m ∈ r.ownIdentity ∧ m.1 ∉ r.destinationMetadata.map Prod.fst) := by
  have hnodup := (members_of_normalize r.accepted.destinationMetadata.normal).1
  have hown : (r.ownIdentity.map Prod.fst).Nodup := by
    show ([("kind" : Str), "key"] : List Str).Nodup
    decide
  exact mem_dictOf_append hown hnodup

omit [Platform] in
theorem encodes_stableKey {s : Str} (h : isStableKey s = true) : s.encodes = true :=
  encodes_verbatim (isVerbatim_scope (isScope_of_stableKey h))

/-- The identity of a route is two stable keys. -/
theorem forall_ownIdentity {r : RouteSpecification} {p : Str × Json → Prop}
    (h : ∀ k s : Str, k.encodes = true → isStableKey s = true → p (k, .str s)) :
    ∀ m ∈ r.ownIdentity, p m := by
  intro m hm
  simp only [RouteSpecification.ownIdentity, List.mem_cons, List.not_mem_nil, or_false] at hm
  rcases hm with rfl | rfl
  · exact h _ _ (Str.encodes_ofString _) r.accepted.destinationKind
  · exact h _ _ (Str.encodes_ofString _) r.accepted.destinationKey

theorem writable_destination (r : RouteSpecification) : (Json.obj r.destination).writable = true := by
  rw [Json.writable_obj]
  intro m hm
  rcases mem_destination.mp hm with hm | ⟨hm, -⟩
  · exact Json.writable_obj.mp r.accepted.destinationMetadata.writable m hm
  · refine forall_ownIdentity (p := fun m => m.1.encodes = true ∧ m.2.writable = true)
      (fun k s hk hs => ?_) m hm
    exact ⟨hk, (Json.writable_str s).trans (encodes_stableKey hs)⟩

omit [Platform] in
theorem writable_jsonTexts {texts : List Str} (h : ∀ s ∈ texts, isScope s = true) :
    (jsonTexts texts).writable = true := by
  rw [jsonTexts, Json.writable_arr]
  intro x hx
  obtain ⟨s, hs, rfl⟩ := List.mem_map.mp hx
  rw [Json.writable_str]
  exact encodes_verbatim (isVerbatim_scope (h s hs))

omit [Platform] in
theorem writable_policy (p : RetryPolicy) : p.document.writable = true ↔
    Json.leafWrites (.int p.version) = true ∧ Json.leafWrites (.int p.maxAttempts) = true ∧
      Json.leafWrites (.int p.maximumElapsedSeconds) = true := by
  obtain ⟨hname, hjitter, hfloats⟩ := p.accepted
  simp only [RetryPolicy.floats, List.forall_mem_cons] at hfloats
  obtain ⟨⟨-, hbase⟩, ⟨-, hmaximum⟩, ⟨-, htimeout⟩, ⟨-, hlease⟩, -⟩ := hfloats
  rw [RetryPolicy.document, Json.writable_obj]
  simp only [List.forall_mem_cons, List.not_mem_nil, false_implies, implies_true, Str.encodes_ofString,
    Json.writable_str, Json.writable_int, Json.writable_float, hbase, hmaximum, htimeout, hlease,
    encodes_stableKey hname, hjitter, true_and, and_true]

theorem writable_authority (r : RouteSpecification) : r.authority.writable = true ↔
    ∀ age ∈ r.maximumSnapshotAgeSeconds.toList, Json.leafWrites (.int age) = true := by
  have haccepted := r.accepted
  have hmode : r.authorization.text.encodes = true := by
    cases r.authorization <;> decide
  have hservice : (jsonOption .str r.servicePolicy).writable = true := by
    cases hsome : r.servicePolicy with
    | none => rfl
    | some policy =>
        exact (Json.writable_str _).trans (encodes_stableKey (haccepted.servicePolicy policy hsome))
  have hcapabilities : (jsonOption jsonTexts r.serviceCapabilities).writable = true := by
    cases hsome : r.serviceCapabilities with
    | none => rfl
    | some scopes => exact writable_jsonTexts (haccepted.serviceCapabilities scopes hsome).2
  have hage : (jsonOption .int r.maximumSnapshotAgeSeconds).writable = true ↔
      ∀ age ∈ r.maximumSnapshotAgeSeconds.toList, Json.leafWrites (.int age) = true := by
    cases r.maximumSnapshotAgeSeconds with
    | none => simp [jsonOption, show Json.null.writable = true from rfl]
    | some age => simp [jsonOption]
  rw [RouteSpecification.authority, Json.writable_obj]
  simp only [List.forall_mem_cons, List.not_mem_nil, false_implies, implies_true, Str.encodes_ofString,
    Json.writable_str, hmode, hservice, hcapabilities, hage,
    writable_jsonTexts haccepted.requiredScopes.2, true_and, and_true]

theorem writable_document (r : RouteSpecification) : r.document.writable = true ↔
    ∀ n ∈ r.integers, (Nat.toDigits 10 n.natAbs).length ≤ maxStrDigits := by
  have hone : Json.leafWrites (.int 1) = true := by decide
  have hdigits : ∀ n : ℤ, (Nat.toDigits 10 n.natAbs).length ≤ maxStrDigits ↔
      Json.leafWrites (.int n) = true := fun n => (decide_eq_true_iff).symm
  rw [RouteSpecification.document, Json.writable_obj]
  simp only [RouteSpecification.integers, List.forall_mem_cons, List.not_mem_nil, false_implies,
    implies_true, Str.encodes_ofString, Json.writable_str, Json.writable_int, hone, hdigits,
    encodes_stableKey r.accepted.eventType, encodes_stableKey r.accepted.routeKey,
    writable_destination, writable_authority, writable_policy, true_and, and_true]
  tauto

/-! ## The nesting of a snapshot -/

theorem normalize_str {depth : ℕ} {s : Str} (hdepth : depth ≤ maxDepth) (hs : s.encodes = true) :
    normalize depth (.str s) = .ok () := by
  rw [← Str.isSome_encode?] at hs
  simp only [normalize, normalize.nesting, bind_eq_ok, check_eq_ok, decide_eq_true_eq]
  exact ⟨(), hdepth, hs⟩

theorem normalize_jsonTexts {depth : ℕ} {texts : List Str} (hdepth : depth + 1 ≤ maxDepth)
    (hcount : texts.length ≤ 256) (h : ∀ s ∈ texts, isScope s = true) :
    normalize depth (jsonTexts texts) = .ok () := by
  simp only [jsonTexts, normalize, normalize.nesting, bind_eq_ok, check_eq_ok, decide_eq_true_eq,
    normalizeItems_eq_ok, List.length_map]
  refine ⟨(), by omega, (), hcount.trans (by decide), fun x hx => ?_⟩
  obtain ⟨s, hs, rfl⟩ := List.mem_map.mp hx
  exact normalize_str hdepth (encodes_verbatim (isVerbatim_scope (h s hs)))

theorem normalize_policy (p : RetryPolicy) : normalize 1 p.document = .ok () := by
  obtain ⟨hname, hjitter, hfloats⟩ := p.accepted
  simp only [RetryPolicy.floats, List.forall_mem_cons] at hfloats
  obtain ⟨⟨-, hbase⟩, ⟨-, hmaximum⟩, ⟨-, htimeout⟩, ⟨-, hlease⟩, -⟩ := hfloats
  have hfloat : ∀ {x : PyFloat}, x.isfinite = true → normalize 2 (.float x) = .ok () := by
    intro x hx
    simp only [normalize, normalize.nesting, bind_eq_ok, check_eq_ok, decide_eq_true_eq]
    exact ⟨(), by decide, hx⟩
  have hfull : normalize 2 (.str p.jitter) = .ok () := by
    rw [hjitter]
    exact normalize_str (by decide) (Str.encodes_ofString _)
  refine (normalize_obj_ascii (by simp [maxContainerItems]) ?_ ?_).mpr ⟨by decide, ?_⟩
  · show (List.map Str.ofString ["name", "version", "max_attempts", "maximum_elapsed_seconds",
      "base_delay_seconds", "maximum_delay_seconds", "handler_timeout_seconds",
      "lease_duration_seconds", "jitter"]).Nodup
    decide
  · simp only [List.forall_mem_cons, List.not_mem_nil, false_implies, implies_true, and_true]
    decide
  · simp only [List.forall_mem_cons, List.not_mem_nil, false_implies, implies_true, and_true]
    exact ⟨normalize_str (by decide) (encodes_stableKey hname), rfl, rfl, rfl, hfloat hbase,
      hfloat hmaximum, hfloat htimeout, hfloat hlease, hfull⟩

theorem normalize_authority (r : RouteSpecification) : normalize 1 r.authority = .ok () := by
  have haccepted := r.accepted
  have hmode : normalize 2 (.str r.authorization.text) = .ok () := by
    cases r.authorization <;> exact normalize_str (by decide) (by decide)
  have hservice : normalize 2 (jsonOption .str r.servicePolicy) = .ok () := by
    cases hsome : r.servicePolicy with
    | none => rfl
    | some policy =>
        exact normalize_str (by decide) (encodes_stableKey (haccepted.servicePolicy policy hsome))
  have hcapabilities : normalize 2 (jsonOption jsonTexts r.serviceCapabilities) = .ok () := by
    cases hsome : r.serviceCapabilities with
    | none => rfl
    | some scopes =>
        obtain ⟨hcount, hscopes⟩ := haccepted.serviceCapabilities scopes hsome
        exact normalize_jsonTexts (by decide) hcount hscopes
  have hage : normalize 2 (jsonOption .int r.maximumSnapshotAgeSeconds) = .ok () := by
    cases r.maximumSnapshotAgeSeconds <;> rfl
  obtain ⟨hcount, hscopes⟩ := haccepted.requiredScopes
  refine (normalize_obj_ascii (by simp [maxContainerItems]) ?_ ?_).mpr ⟨by decide, ?_⟩
  · show (List.map Str.ofString ["mode", "required_scopes", "service_policy",
      "service_capabilities", "maximum_snapshot_age_seconds"]).Nodup
    decide
  · simp only [List.forall_mem_cons, List.not_mem_nil, false_implies, implies_true, and_true]
    decide
  · simp only [List.forall_mem_cons, List.not_mem_nil, false_implies, implies_true, and_true]
    exact ⟨hmode, normalize_jsonTexts (by decide) hcount hscopes, hservice, hcapabilities, hage⟩

/-- The metadata has few members, for each takes room. -/
theorem length_destination_le (r : RouteSpecification) : r.destination.length ≤ maxContainerItems := by
  have hplain : r.plainMetadata.length ≤ r.destinationMetadata.length := List.length_filter_le _ _
  have hroom := Json.length_le_sizeMembers r.destinationMetadata
  have hsize := r.accepted.destinationMetadata.size
  rw [Json.size] at hsize
  rw [destination_eq, List.length_cons, List.length_cons, maxContainerItems]
  omega

/-- The keys of the destination differ when no key of the metadata is another spelling of a key of
the identity. -/
theorem nodup_destination_iff (r : RouteSpecification) :
    (r.destination.map fun m => Platform.nfc m.1).Nodup ↔
      ∀ m ∈ r.destinationMetadata, ∀ k ∈ ([("kind" : Str), "key"] : List Str),
        Platform.nfc m.1 = k → m.1 = k := by
  have hkind : Platform.nfc (Str.ofString "kind") = "kind" := Platform.nfc_ascii _ (by decide)
  have hkey : Platform.nfc (Str.ofString "key") = "key" := Platform.nfc_ascii _ (by decide)
  have hdiffer : (Str.ofString "kind") ≠ Str.ofString "key" := by decide
  have hnormal := r.accepted.destinationMetadata.normal
  simp only [normalize, bind_eq_ok, normalizeMembers_eq_ok] at hnormal
  obtain ⟨_, -, _, -, hnodup, -⟩ := hnormal
  have hplain : (r.plainMetadata.map fun m => Platform.nfc m.1).Nodup :=
    hnodup.sublist (List.filter_sublist.map _)
  have hmem : ∀ m, m ∈ r.plainMetadata ↔
      m ∈ r.destinationMetadata ∧ m.1 ≠ Str.ofString "kind" ∧ m.1 ≠ Str.ofString "key" := by
    intro m
    simp [RouteSpecification.plainMetadata]
  rw [destination_eq, List.map_cons, List.map_cons, hkind, hkey, List.nodup_cons, List.nodup_cons]
  simp only [List.mem_cons, List.mem_map, not_or, not_exists, not_and, hmem, List.not_mem_nil, or_false,
    forall_eq_or_imp, forall_eq]
  constructor
  · rintro ⟨⟨-, hnokind⟩, hnokey, -⟩ m hm
    constructor
    · intro hnfc
      by_contra hne
      by_cases heq : m.1 = Str.ofString "key"
      · rw [heq, hkey] at hnfc
        exact hdiffer hnfc.symm
      · exact hnokind m ⟨hm, hne, heq⟩ hnfc
    · intro hnfc
      by_contra hne
      by_cases heq : m.1 = Str.ofString "kind"
      · rw [heq, hkind] at hnfc
        exact hdiffer hnfc
      · exact hnokey m ⟨hm, heq, hne⟩ hnfc
  · intro h
    refine ⟨⟨hdiffer, ?_⟩, ?_, hplain⟩
    · rintro m ⟨hm, hne, -⟩ hnfc
      exact hne ((h m hm).1 hnfc)
    · rintro m ⟨hm, -, hne⟩ hnfc
      exact hne ((h m hm).2 hnfc)

/-- The destination takes a level of the nesting limit. -/
theorem normalize_destination_iff (r : RouteSpecification) :
    normalize 1 (.obj r.destination) = .ok () ↔
      (Json.obj r.destinationMetadata).height < maxDepth ∧
      ∀ m ∈ r.destinationMetadata, ∀ k ∈ ([("kind" : Str), "key"] : List Str),
        Platform.nfc m.1 = k → m.1 = k := by
  have hitems := (members_of_normalize r.accepted.destinationMetadata.normal).2
  have hheight := @normalizeMembers_at_iff _ r.destinationMetadata 1 1 hitems
  have hmembers : (∀ m ∈ r.destination, normalize 2 m.2 = .ok ()) ↔
      ∀ m ∈ r.destinationMetadata, normalize 2 m.2 = .ok () := by
    constructor
    · intro h m hm
      exact h m (mem_destination.mpr (.inl hm))
    · intro h m hm
      rcases mem_destination.mp hm with hm | ⟨hm, -⟩
      · exact h m hm
      · refine forall_ownIdentity (p := fun m => normalize 2 m.2 = .ok ()) (fun k s _ hs => ?_) m hm
        exact normalize_str (by decide) (encodes_stableKey hs)
  rw [← nodup_destination_iff]
  simp only [normalize, normalize.nesting, bind_eq_ok, check_eq_ok, decide_eq_true_eq,
    normalizeMembers_eq_ok, hmembers, Json.height]
  constructor
  · rintro ⟨_, hone, _, -, hnodup, -, hvalues⟩
    have hlevel := hheight.mp ⟨hone, hvalues⟩
    exact ⟨by omega, hnodup⟩
  · rintro ⟨hlevel, hnodup⟩
    obtain ⟨hone, hvalues⟩ := hheight.mpr (by omega)
    exact ⟨(), hone, (), length_destination_le r, hnodup, by simp, hvalues⟩

theorem normalize_document_iff (r : RouteSpecification) : normalize 0 r.document = .ok () ↔
    normalize 1 (.obj r.destination) = .ok () := by
  have hkey : ∀ {s : Str}, isStableKey s = true → normalize 1 (.str s) = .ok () := fun hs =>
    normalize_str (by decide) (encodes_stableKey hs)
  refine Iff.trans (normalize_obj_ascii (by simp [maxContainerItems]) ?_ ?_) ?_
  · show (List.map Str.ofString ["snapshot_version", "event_type", "route_key", "route_version",
      "destination", "authority", "retry"]).Nodup
    decide
  · simp only [List.forall_mem_cons, List.not_mem_nil, false_implies, implies_true, and_true]
    decide
  · simp only [List.forall_mem_cons, List.not_mem_nil, false_implies, implies_true, and_true,
      hkey r.accepted.eventType, hkey r.accepted.routeKey, normalize_policy, normalize_authority,
      zero_add, true_and]
    constructor
    · rintro ⟨-, -, -, hdestination⟩
      exact hdestination
    · intro hdestination
      exact ⟨by decide, rfl, rfl, hdestination⟩

/-- A route that was accepted has a snapshot exactly when the snapshot is within the limits. -/
theorem route_snapshot_succeeds (r : RouteSpecification) :
    (∃ bytes, r.snapshotBytes = .ok bytes) ↔ r.Snapshottable := by
  have hbytes : r.snapshotBytes = canonicalJsonBytes r.document (32 * 1024) := by
    rw [RouteSpecification.snapshotBytes, r.toSnapshot_eq]
    rfl
  rw [hbytes, exists_canonicalJsonBytes (by norm_num), writable_document, size_document,
    normalize_document_iff, normalize_destination_iff]
  constructor
  · rintro ⟨⟨hnesting, hspelling⟩, hdigits, hsize⟩
    exact ⟨hdigits, hnesting, hspelling, by exact_mod_cast hsize⟩
  · intro h
    exact ⟨⟨h.nesting, h.spelling⟩, h.digits, by exact_mod_cast h.size⟩

end Snapshots

/-! ## A route without a snapshot -/

section Nested

open scoped Checksum

/-- Metadata that is nested as deep as the constructor allows. -/
def nestedMetadata : List (Str × Json) := [("shape", (fun v => Json.arr [v])^[63] .null)]

/-- A policy with the defaults. -/
def defaultHandler : RetryPolicy := ⟨{ name := "default-handler" }, by decide +kernel⟩

/-- A route with such metadata. -/
def nestedRoute : RouteArgs where
  eventType := "invoice.created"
  routeKey := "invoices"
  version := 1
  destinationKind := "handler"
  destinationKey := "invoices"
  requiredScopes := []
  authorization := .revalidate
  servicePolicy := none
  serviceCapabilities := none
  maximumSnapshotAgeSeconds := none
  retryPolicy := defaultHandler
  destinationMetadata := nestedMetadata

/-- The nesting limit is reached at the destination, one level above the metadata. -/
theorem nestedRoute_refused : (RouteSpecification.make nestedRoute).isOk = true ∧
    (RouteSpecification.make nestedRoute >>= RouteSpecification.snapshotBytes) =
      .error (.configuration "Canonical JSON exceeds the nesting limit.") := by
  decide +kernel

theorem accepted_without_snapshot : ¬ ∀ r : RouteSpecification, ∃ bytes, r.snapshotBytes = .ok bytes := by
  intro h
  obtain ⟨hmade, hrefused⟩ := nestedRoute_refused
  cases hroute : RouteSpecification.make nestedRoute with
  | error e =>
      rw [hroute] at hmade
      cases hmade
  | ok r =>
      obtain ⟨bytes, hbytes⟩ := h r
      rw [hroute] at hrefused
      cases hbytes.symm.trans hrefused

end Nested

end FastapiEffects
