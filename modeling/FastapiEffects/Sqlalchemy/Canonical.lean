import FastapiEffects.Errors
import FastapiEffects.Python.RoundTrip

/-! # Canonical JSON

The bounded canonical JSON of the durable boundaries: what `_normalize` refuses,
the canonical bytes, and the strict parser.
-/

namespace FastapiEffects

open Python

/-- The parts of Python's library that the model does not spell out:
`unicodedata.normalize("NFC", ...)`, `str.lower` and `unicodedata.decimal` of text that is not
ASCII, and SHA-256. -/
class Platform where
  nfc : Str → Str
  nfc_ascii : ∀ s : Str, s.isAscii = true → nfc s = s
  lower : Str → Str
  lower_ascii : ∀ s : Str, s.isAscii = true → lower s = s.map PyChar.asciiLower
  decimal : PyChar → Option ℕ
  sha256 : Bytes → Vector UInt8 32

namespace Checksum

/-- A platform whose hash is the first 32 bytes. -/
scoped instance platform : Platform where
  nfc := id
  nfc_ascii := fun _ _ => rfl
  lower := fun s => s.map PyChar.asciiLower
  lower_ascii := fun _ _ => rfl
  decimal := fun _ => none
  sha256 := fun message => Vector.ofFn fun i => message.getD i 0

end Checksum

variable [Platform]

def defaultMaxPayloadBytes : ℤ := 256 * 1024

/-- `_PREFIX`, in ASCII. -/
def canonicalPrefix : Bytes :=
  "fastapi_effects:canonical-json:v1\n".toList.map fun c => UInt8.ofNat c.toNat

def maxDepth : ℕ := 64

def maxContainerItems : ℕ := 10000

/-- Whether two keys of a list are the same up to NFC. -/
def hasSemanticDuplicate : List Str → Bool
  | [] => false
  | k :: ks => ks.any (fun l => Platform.nfc l = Platform.nfc k) || hasSemanticDuplicate ks

mutual

/-- `_normalize`: it returns the value it is given, or raises. -/
def normalize (depth : ℕ) : Json → Except PyError Unit
  | .null | .bool _ | .int _ => nesting depth
  | .float x => do
      nesting depth
      check x.isfinite (.configuration "Canonical JSON contains a non-finite number.")
  | .str s => do
      nesting depth
      check s.encode?.isSome (.configuration "Canonical JSON contains invalid text.")
  | .obj members => do
      nesting depth
      check (members.length ≤ maxContainerItems)
        (.configuration "Canonical JSON object has too many members.")
      normalizeMembers (depth + 1) [] members
  | .arr items => do
      nesting depth
      check (items.length ≤ maxContainerItems)
        (.configuration "Canonical JSON array has too many items.")
      normalizeItems (depth + 1) items
where
  /-- The first check of every call. -/
  nesting (depth : ℕ) : Except PyError Unit :=
    check (depth ≤ maxDepth) (.configuration "Canonical JSON exceeds the nesting limit.")

/-- The members of an object after those with the keys `seen`. -/
def normalizeMembers (depth : ℕ) (seen : List Str) : List (Str × Json) → Except PyError Unit
  | [] => .ok ()
  | (key, item) :: rest => do
      check (!seen.contains (Platform.nfc key))
        (.configuration "Canonical JSON object contains duplicate semantic keys.")
      normalize depth item
      normalizeMembers depth (Platform.nfc key :: seen) rest

def normalizeItems (depth : ℕ) : List Json → Except PyError Unit
  | [] => .ok ()
  | item :: rest => do
      normalize depth item
      normalizeItems depth rest

end

/-- `canonical_json_bytes`. -/
def canonicalJsonBytes (value : Json) (maximumBytes : ℤ := defaultMaxPayloadBytes) :
    Except PyError Bytes := do
  check (1 ≤ maximumBytes) (.configuration "Canonical JSON maximum size must be positive.")
  normalize 0 value
  let encoded ← orRaise (value.dumps.bind Str.encode?)
    (.configuration "Value cannot be represented as canonical JSON.")
  check (encoded.length ≤ maximumBytes)
    (.configuration "Canonical JSON exceeds the configured byte limit.")
  return encoded

/-- `versioned_canonical_bytes`. -/
def versionedCanonicalBytes (value : Json) (maximumBytes : ℤ := defaultMaxPayloadBytes) :
    Except PyError Bytes := do
  let bodyLimit := maximumBytes - canonicalPrefix.length
  check (1 ≤ bodyLimit) (.configuration "Canonical JSON maximum size is too small.")
  return canonicalPrefix ++ (← canonicalJsonBytes value bodyLimit)

/-- The hooks of `strict_json_loads`. -/
def strictHooks : Hooks PyError where
  object pairs :=
    if hasSemanticDuplicate (pairs.map (·.1)) then
      .error (.configuration "JSON object contains duplicate semantic keys.")
    else .ok (.obj pairs)
  constant _ := .error (.configuration "JSON contains a non-finite number.")

/-- `strict_json_loads` of bytes. -/
def strictJsonLoads (raw : Bytes) (maximumBytes : ℤ := defaultMaxPayloadBytes) :
    Except PyError Json := do
  check (raw.length ≤ maximumBytes)
    (.configuration "JSON input exceeds the configured byte limit.")
  let decoded ← orRaise (Str.decode? raw) (.configuration "JSON input is malformed.")
  match Json.loadsWith strictHooks decoded with
  | .error .malformed => .error (.configuration "JSON input is malformed.")
  -- the `ValueError` of a long integer is not a `JSONDecodeError`
  | .error .value => .error .value
  | .error (.hook e) => .error e
  | .ok parsed => do
      normalize 0 parsed
      return parsed

/-! ## Reading canonical bytes back -/

theorem hasSemanticDuplicate_eq_false {keys : List Str} :
    hasSemanticDuplicate keys = false ↔ (keys.map Platform.nfc).Nodup := by
  induction keys with
  | nil => simp [hasSemanticDuplicate]
  | cons k ks ih =>
      rw [hasSemanticDuplicate, Bool.or_eq_false_iff, ih, List.map_cons, List.nodup_cons,
        List.any_eq_false]
      simp

/-- What `_normalize` wants of the members of an object. -/
theorem normalizeMembers_eq_ok {depth : ℕ} {seen : List Str} {members : List (Str × Json)} :
    normalizeMembers depth seen members = .ok () ↔
      (members.map fun m => Platform.nfc m.1).Nodup ∧
      (∀ m ∈ members, Platform.nfc m.1 ∉ seen) ∧
      ∀ m ∈ members, normalize depth m.2 = .ok () := by
  induction members generalizing seen with
  | nil => simp [normalizeMembers]
  | cons m rest ih =>
      obtain ⟨key, item⟩ := m
      simp only [normalizeMembers, bind_eq_ok, check_eq_ok, ih]
      simp only [List.contains_eq_mem, Bool.not_eq_eq_eq_not, Bool.not_true, decide_eq_false_iff_not,
        List.mem_cons, not_or, List.map_cons, List.nodup_cons, List.mem_map, forall_eq_or_imp]
      constructor
      · rintro ⟨-, hseen, _, hitem, hnodup, hrest, hitems⟩
        refine ⟨⟨?_, hnodup⟩, ⟨hseen, fun m hm => (hrest m hm).2⟩, hitem, hitems⟩
        rintro ⟨m, hm, heq⟩
        exact (hrest m hm).1 heq
      · rintro ⟨⟨hkey, hnodup⟩, ⟨hseen, hrest⟩, hitem, hitems⟩
        refine ⟨(), hseen, (), hitem, hnodup, fun m hm => ⟨fun heq => hkey ⟨m, hm, heq⟩, hrest m hm⟩,
          hitems⟩

theorem normalizeItems_eq_ok {depth : ℕ} {items : List Json} :
    normalizeItems depth items = .ok () ↔ ∀ x ∈ items, normalize depth x = .ok () := by
  induction items with
  | nil => simp [normalizeItems]
  | cons x xs ih =>
      simp only [normalizeItems, bind_eq_ok, ih, List.mem_cons, forall_eq_or_imp]
      constructor
      · rintro ⟨_, hx, hxs⟩
        exact ⟨hx, hxs⟩
      · rintro ⟨hx, hxs⟩
        exact ⟨(), hx, hxs⟩

/-- Sorting the members of an object keeps what holds of each, and their keys. -/
theorem normalize_obj_perm {depth : ℕ} {members members' : List (Str × Json)}
    (hkeys : (members'.map (·.1)).Perm (members.map (·.1)))
    (hitems : ∀ m ∈ members', normalize (depth + 1) m.2 = .ok ())
    (hkept : ∀ m ∈ members', Loads.Kept strictHooks m.2)
    (h : normalize depth (.obj members) = .ok ()) :
    normalize depth (.obj members') = .ok () ∧ Loads.Kept strictHooks (.obj members') := by
  simp only [normalize, bind_eq_ok, check_eq_ok, decide_eq_true_eq] at h
  obtain ⟨_, hnesting, -, hcount, hmembers⟩ := h
  have hnodup := (normalizeMembers_eq_ok.mp hmembers).1
  have hlength : members'.length = members.length := by simpa using hkeys.length_eq
  have hnfc : (members'.map fun m => Platform.nfc m.1).Nodup := by
    have hperm := hkeys.map Platform.nfc
    rw [List.map_map, List.map_map] at hperm
    exact hperm.nodup_iff.mpr hnodup
  constructor
  · simp only [normalize, bind_eq_ok, check_eq_ok, decide_eq_true_eq]
    refine ⟨(), hnesting, (), hlength ▸ hcount, ?_⟩
    exact normalizeMembers_eq_ok.mpr ⟨hnfc, by simp, hitems⟩
  · have hunique : hasSemanticDuplicate (members'.map (·.1)) = false := by
      rw [hasSemanticDuplicate_eq_false, List.map_map]
      exact hnfc
    refine ⟨?_, Loads.keptMembers_iff.mpr hkept⟩
    simp [strictHooks, hunique]

mutual

/-- A value that is accepted is accepted with its members sorted, and read back as it is. -/
theorem normalize_sorted : ∀ (v : Json) {depth : ℕ}, normalize depth v = .ok () →
    normalize depth v.sorted = .ok () ∧ Loads.Kept strictHooks v.sorted
  | .null, _, h => ⟨h, trivial⟩
  | .bool _, _, h => ⟨h, trivial⟩
  | .int _, _, h => ⟨h, trivial⟩
  | .float _, _, h => ⟨h, trivial⟩
  | .str _, _, h => ⟨h, trivial⟩
  | .arr items, depth, h => by
      simp only [Json.sorted, normalize, bind_eq_ok, check_eq_ok, decide_eq_true_eq,
        normalizeItems_eq_ok] at h ⊢
      obtain ⟨_, hnesting, -, hcount, hitems⟩ := h
      obtain ⟨hlength, hsorted⟩ := normalize_sortedItems items hitems
      exact ⟨⟨(), hnesting, (), hlength ▸ hcount, fun x hx => (hsorted x hx).1⟩,
        Loads.keptItems_iff.mpr fun x hx => (hsorted x hx).2⟩
  | .obj members, depth, h => by
      have hmembers := h
      simp only [normalize, bind_eq_ok, normalizeMembers_eq_ok] at hmembers
      obtain ⟨_, -, _, -, -, -, hitems⟩ := hmembers
      have hsorted := normalize_sortedMembers members hitems
      have hperm := Json.sortMembers_perm (Json.sortedMembers members)
      have hkeys := hperm.map Prod.fst
      rw [Json.keys_sortedMembers] at hkeys
      rw [Json.sorted]
      exact normalize_obj_perm hkeys (fun m hm => (hsorted m (hperm.mem_iff.mp hm)).1)
        (fun m hm => (hsorted m (hperm.mem_iff.mp hm)).2) h

theorem normalize_sortedItems : ∀ (items : List Json) {depth : ℕ},
    (∀ x ∈ items, normalize depth x = .ok ()) →
    (Json.sortedItems items).length = items.length ∧
      ∀ x ∈ Json.sortedItems items, normalize depth x = .ok () ∧ Loads.Kept strictHooks x
  | [], _, _ => ⟨rfl, by simp [Json.sortedItems]⟩
  | x :: xs, depth, h => by
      obtain ⟨hlength, hxs⟩ :=
        normalize_sortedItems xs fun y hy => h y (List.mem_cons_of_mem x hy)
      rw [Json.sortedItems]
      refine ⟨congrArg Nat.succ hlength, fun y hy => ?_⟩
      rcases List.mem_cons.mp hy with rfl | hy
      · exact normalize_sorted x (h x List.mem_cons_self)
      · exact hxs y hy

theorem normalize_sortedMembers : ∀ (members : List (Str × Json)) {depth : ℕ},
    (∀ m ∈ members, normalize depth m.2 = .ok ()) →
    ∀ m ∈ Json.sortedMembers members, normalize depth m.2 = .ok () ∧ Loads.Kept strictHooks m.2
  | [], _, _ => by simp [Json.sortedMembers]
  | (k, x) :: ms, depth, h => by
      have hms := normalize_sortedMembers ms fun m hm => h m (List.mem_cons_of_mem _ hm)
      rw [Json.sortedMembers]
      rintro m hm
      rcases List.mem_cons.mp hm with rfl | hm
      · exact normalize_sorted x (h (k, x) List.mem_cons_self)
      · exact hms m hm

end

/-- The strict parser reads canonical bytes back, with the members in key order. -/
theorem strictJsonLoads_canonicalJsonBytes {v : Json} {bytes : Bytes} {most limit : ℤ}
    (h : canonicalJsonBytes v most = .ok bytes) (hlimit : bytes.length ≤ limit) :
    strictJsonLoads bytes limit = .ok v.sorted := by
  simp only [canonicalJsonBytes, bind_eq_ok, orRaise_eq_ok] at h
  obtain ⟨_, -, _, hnormal, encoded, hencoded, -, -, heq⟩ := h
  cases heq
  obtain ⟨t, hdumps, hencode⟩ := Option.bind_eq_some_iff.mp hencoded
  obtain ⟨hsorted, hkept⟩ := normalize_sorted v hnormal
  rw [strictJsonLoads, check, if_pos (decide_eq_true hlimit), Str.decode?_of_encode? hencode]
  simp only [bind, Except.bind, orRaise, Json.loadsWith_dumps strictHooks hdumps hkept, hsorted]
  rfl

end FastapiEffects
