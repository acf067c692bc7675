import FastapiEffects.Sqlalchemy.Canonical
import FastapiEffects.Python.Sorted

/-! # The values canonical JSON is made of

`_normalize` of a Python value, and when the canonical bytes of two values are the same.
-/

namespace Python

/-! ## Equality of JSON trees -/

namespace Json

mutual

/-- Whether two trees are the same, whatever the order of the members of an object.
Leaves of different types are never the same. -/
def same : Json → Json → Prop
  | .null, .null => True
  | .bool a, .bool b => a = b
  | .int a, .int b => a = b
  | .float a, .float b => a = b
  | .str a, .str b => a = b
  | .arr a, .arr b => sameItems a b
  | .obj a, .obj b => a.length = b.length ∧ sameMembers a b
  | _, _ => False

def sameItems : List Json → List Json → Prop
  | [], [] => True
  | x :: xs, y :: ys => same x y ∧ sameItems xs ys
  | _, _ => False

/-- Whether every member of the one object is a member of the other. -/
def sameMembers : List (Str × Json) → List (Str × Json) → Prop
  | [], _ => True
  | (k, x) :: ms, ms' => (∃ y, (k, y) ∈ ms' ∧ same x y) ∧ sameMembers ms ms'

end

end Json

end Python

namespace FastapiEffects

open Python

/-! ## `_normalize` -/

/-- A key of a mapping. -/
inductive PyKey where
  | str (s : Str)
  | other

/-- A Python value, as far as `_normalize` tells values apart. A `BaseModel` is what its
`model_dump(mode="json")` returns; every `Sequence` that is no list counts as a tuple. -/
inductive PyValue where
  | none
  | bool (b : Bool)
  | int (n : ℤ)
  | float (x : PyFloat)
  | str (s : Str)
  | list (items : List PyValue)
  | tuple (items : List PyValue)
  | mapping (items : List (PyKey × PyValue))
  | model (dump : PyValue)
  | other

/-- The path of a member. -/
def memberPath (path : String) (key : Str) : String :=
  path ++ "." ++ String.ofList (key.filterMap PyChar.scalar?)

section Values

variable [Platform]

mutual

/-- `_normalize`, of values without reference cycles. -/
def PyValue.normalize (path : String) (depth : ℕ) : PyValue → Except PyError Json
  | .model dump => do
      normalize.nesting depth
      dump.normalize path depth
  | .none => do
      normalize.nesting depth
      return .null
  | .bool b => do
      normalize.nesting depth
      return .bool b
  | .int n => do
      normalize.nesting depth
      return .int n
  | .float x => do
      normalize.nesting depth
      check x.isfinite (.configuration "Canonical JSON contains a non-finite number.")
      return .float x
  | .str s => do
      normalize.nesting depth
      check s.encode?.isSome (.configuration "Canonical JSON contains invalid text.")
      return .str s
  | .mapping items => do
      normalize.nesting depth
      check (items.length ≤ maxContainerItems)
        (.configuration "Canonical JSON object has too many members.")
      return .obj (← normalizeMapping path (depth + 1) [] items)
  | .list items | .tuple items => do
      normalize.nesting depth
      check (items.length ≤ maxContainerItems)
        (.configuration "Canonical JSON array has too many items.")
      return .arr (← normalizeSequence path (depth + 1) 0 items)
  | .other => do
      normalize.nesting depth
      throw (.configuration s!"Unsupported canonical JSON value at {path}.")

/-- The members of a mapping after those with the keys `seen`. -/
def normalizeMapping (path : String) (depth : ℕ) (seen : List Str) :
    List (PyKey × PyValue) → Except PyError (List (Str × Json))
  | [] => .ok []
  | (.other, _) :: _ =>
      .error (.configuration "Canonical JSON object keys must be strings.")
  | (.str key, item) :: rest => do
      check (!seen.contains (Platform.nfc key))
        (.configuration "Canonical JSON object contains duplicate semantic keys.")
      let value ← item.normalize (memberPath path key) depth
      return (key, value) :: (← normalizeMapping path depth (Platform.nfc key :: seen) rest)

/-- The items of a sequence from `index` on. -/
def normalizeSequence (path : String) (depth : ℕ) (index : ℕ) :
    List PyValue → Except PyError (List Json)
  | [] => .ok []
  | item :: rest => do
      let value ← item.normalize s!"{path}[{index}]" depth
      return value :: (← normalizeSequence path depth (index + 1) rest)

end

/-- The normalized tree of a value. -/
def PyValue.normalized (value : PyValue) : Except PyError Json := value.normalize "$" 0

/-- `canonical_json_bytes` of any value. -/
def canonicalJsonBytesOf (value : PyValue) (maximumBytes : ℤ := defaultMaxPayloadBytes) :
    Except PyError Bytes := do
  check (1 ≤ maximumBytes) (.configuration "Canonical JSON maximum size must be positive.")
  let normalized ← value.normalized
  let encoded ← orRaise (normalized.dumps.bind Str.encode?)
    (.configuration "Value cannot be represented as canonical JSON.")
  check (encoded.length ≤ maximumBytes)
    (.configuration "Canonical JSON exceeds the configured byte limit.")
  return encoded

mutual

/-- A normalized tree passes the checks it was made with. -/
theorem normalize_normalized : ∀ (v : PyValue) {path : String} {depth : ℕ} {tree : Json},
    v.normalize path depth = .ok tree → normalize depth tree = .ok ()
  | .model dump, path, depth, tree, h => by
      simp only [PyValue.normalize, bind_eq_ok] at h
      obtain ⟨_, -, hdump⟩ := h
      exact normalize_normalized dump hdump
  | .none, _, _, _, h => by
      simp only [PyValue.normalize, bind_eq_ok] at h
      obtain ⟨_, hnesting, heq⟩ := h
      cases heq
      exact hnesting
  | .bool b, _, _, _, h => by
      simp only [PyValue.normalize, bind_eq_ok] at h
      obtain ⟨_, hnesting, heq⟩ := h
      cases heq
      exact hnesting
  | .int n, _, _, _, h => by
      simp only [PyValue.normalize, bind_eq_ok] at h
      obtain ⟨_, hnesting, heq⟩ := h
      cases heq
      exact hnesting
  | .float x, _, _, _, h => by
      simp only [PyValue.normalize, bind_eq_ok] at h
      obtain ⟨_, hnesting, _, hfinite, heq⟩ := h
      cases heq
      exact bind_eq_ok.mpr ⟨(), hnesting, hfinite⟩
  | .str s, _, _, _, h => by
      simp only [PyValue.normalize, bind_eq_ok] at h
      obtain ⟨_, hnesting, _, hencodes, heq⟩ := h
      cases heq
      exact bind_eq_ok.mpr ⟨(), hnesting, hencodes⟩
  | .mapping items, path, depth, _, h => by
      simp only [PyValue.normalize, bind_eq_ok, check_eq_ok, decide_eq_true_eq] at h
      obtain ⟨_, hnesting, -, hcount, members, hmembers, heq⟩ := h
      cases heq
      obtain ⟨hlength, hmembers⟩ := normalizeMembers_normalized items hmembers
      simp only [normalize, bind_eq_ok, check_eq_ok, decide_eq_true_eq]
      exact ⟨(), hnesting, (), hlength ▸ hcount, hmembers⟩
  | .list items, path, depth, _, h => by
      simp only [PyValue.normalize, bind_eq_ok, check_eq_ok, decide_eq_true_eq] at h
      obtain ⟨_, hnesting, -, hcount, trees, htrees, heq⟩ := h
      cases heq
      obtain ⟨hlength, htrees⟩ := normalizeItems_normalized items htrees
      simp only [normalize, bind_eq_ok, check_eq_ok, decide_eq_true_eq]
      exact ⟨(), hnesting, (), hlength ▸ hcount, htrees⟩
  | .tuple items, path, depth, _, h => by
      simp only [PyValue.normalize, bind_eq_ok, check_eq_ok, decide_eq_true_eq] at h
      obtain ⟨_, hnesting, -, hcount, trees, htrees, heq⟩ := h
      cases heq
      obtain ⟨hlength, htrees⟩ := normalizeItems_normalized items htrees
      simp only [normalize, bind_eq_ok, check_eq_ok, decide_eq_true_eq]
      exact ⟨(), hnesting, (), hlength ▸ hcount, htrees⟩
  | .other, _, _, _, h => by
      simp only [PyValue.normalize, bind_eq_ok] at h
      obtain ⟨_, -, hraised⟩ := h
      cases hraised

theorem normalizeMembers_normalized : ∀ (items : List (PyKey × PyValue)) {path : String} {depth : ℕ}
    {seen : List Str} {members : List (Str × Json)},
    normalizeMapping path depth seen items = .ok members →
      members.length = items.length ∧ normalizeMembers depth seen members = .ok ()
  | [], _, _, _, _, h => by
      cases h
      exact ⟨rfl, rfl⟩
  | (.other, _) :: _, _, _, _, _, h => by cases h
  | (.str key, item) :: rest, path, depth, seen, _, h => by
      simp only [normalizeMapping, bind_eq_ok] at h
      obtain ⟨_, hseen, value, hvalue, members, hmembers, heq⟩ := h
      cases heq
      obtain ⟨hlength, hmembers⟩ := normalizeMembers_normalized rest hmembers
      refine ⟨congrArg Nat.succ hlength, ?_⟩
      simp only [normalizeMembers, bind_eq_ok]
      exact ⟨(), hseen, (), normalize_normalized item hvalue, hmembers⟩

theorem normalizeItems_normalized : ∀ (items : List PyValue) {path : String} {depth index : ℕ}
    {trees : List Json}, normalizeSequence path depth index items = .ok trees →
      trees.length = items.length ∧ normalizeItems depth trees = .ok ()
  | [], _, _, _, _, h => by
      cases h
      exact ⟨rfl, rfl⟩
  | item :: rest, path, depth, index, _, h => by
      simp only [normalizeSequence, bind_eq_ok] at h
      obtain ⟨value, hvalue, trees, htrees, heq⟩ := h
      cases heq
      obtain ⟨hlength, htrees⟩ := normalizeItems_normalized rest htrees
      refine ⟨congrArg Nat.succ hlength, ?_⟩
      simp only [normalizeItems, bind_eq_ok]
      exact ⟨(), normalize_normalized item hvalue, htrees⟩

end

/-- The canonical bytes of a value are those of its tree. -/
theorem canonicalJsonBytesOf_eq_ok {v : PyValue} {most : ℤ} {bytes : Bytes} :
    canonicalJsonBytesOf v most = .ok bytes ↔
      ∃ tree, v.normalized = .ok tree ∧ canonicalJsonBytes tree most = .ok bytes := by
  simp only [canonicalJsonBytesOf, canonicalJsonBytes, bind_eq_ok]
  constructor
  · rintro ⟨_, hmost, tree, htree, encoded, hencoded, _, hlength, heq⟩
    exact ⟨tree, htree, (), hmost, (), normalize_normalized v htree, encoded, hencoded, (), hlength, heq⟩
  · rintro ⟨tree, htree, _, hmost, _, -, encoded, hencoded, _, hlength, heq⟩
    exact ⟨(), hmost, tree, htree, encoded, hencoded, (), hlength, heq⟩

/-! ## When two trees have the same bytes -/

theorem members_of_normalize {depth : ℕ} {members : List (Str × Json)}
    (h : normalize depth (.obj members) = .ok ()) :
    (members.map Prod.fst).Nodup ∧ ∀ m ∈ members, normalize (depth + 1) m.2 = .ok () := by
  simp only [normalize, bind_eq_ok, normalizeMembers_eq_ok] at h
  obtain ⟨_, -, _, -, hnodup, -, hitems⟩ := h
  have hmap : (members.map fun m => Platform.nfc m.1) = (members.map Prod.fst).map Platform.nfc :=
    List.map_map.symm
  rw [hmap] at hnodup
  exact ⟨hnodup.of_map, hitems⟩

theorem items_of_normalize {depth : ℕ} {items : List Json}
    (h : normalize depth (.arr items) = .ok ()) : ∀ x ∈ items, normalize (depth + 1) x = .ok () := by
  simp only [normalize, bind_eq_ok] at h
  obtain ⟨_, -, _, -, hitems⟩ := h
  exact normalizeItems_eq_ok.mp hitems

mutual

/-- Two accepted trees are the same when they have one sorted form. -/
theorem same_iff_sorted : ∀ (a b : Json) {depth depth' : ℕ}, normalize depth a = .ok () →
    normalize depth' b = .ok () → (a.same b ↔ a.sorted = b.sorted)
  | .null, b, _, _, _, _ => by cases b <;> simp [Json.same, Json.sorted]
  | .bool _, b, _, _, _, _ => by cases b <;> simp [Json.same, Json.sorted]
  | .int _, b, _, _, _, _ => by cases b <;> simp [Json.same, Json.sorted]
  | .float _, b, _, _, _, _ => by cases b <;> simp [Json.same, Json.sorted]
  | .str _, b, _, _, _, _ => by cases b <;> simp [Json.same, Json.sorted]
  | .arr xs, b, _, _, ha, hb => by
      cases b with
      | arr ys =>
          have hitems := sameItems_iff_sorted xs ys (items_of_normalize ha) (items_of_normalize hb)
          rw [Json.same, Json.sorted, Json.sorted, hitems, Json.arr.injEq]
      | _ => simp [Json.same, Json.sorted]
  | .obj ms, b, _, _, ha, hb => by
      cases b with
      | obj ns =>
          obtain ⟨hms, hms'⟩ := members_of_normalize ha
          obtain ⟨hns, hns'⟩ := members_of_normalize hb
          have hmembers := sameMembers_iff_sorted ms ns hms' hns'
          have hlength : ∀ l : List (Str × Json), (Json.sortedMembers l).length = l.length := by
            intro l
            rw [← List.length_map Prod.fst, Json.keys_sortedMembers, List.length_map]
          have hkeys : ((Json.sortedMembers ms).map Prod.fst).Nodup :=
            (Json.keys_sortedMembers ms).symm ▸ hms
          rw [Json.same, Json.sorted, Json.sorted, hmembers, Json.obj.injEq]
          constructor
          · rintro ⟨hcount, hsubset⟩
            have hsub : Json.sortedMembers ms ⊆ Json.sortedMembers ns := by
              intro m hm
              obtain ⟨x, hx, rfl⟩ := Json.mem_sortedMembers.mp hm
              exact hsubset x hx
            refine Json.sortMembers_congr hkeys ?_
            refine (hkeys.of_map.subperm hsub).perm_of_length_le ?_
            rw [hlength, hlength, hcount]
          · intro heq
            have hperm : (Json.sortedMembers ms).Perm (Json.sortedMembers ns) :=
              (Json.sortMembers_perm _).symm.trans (heq ▸ Json.sortMembers_perm _)
            refine ⟨?_, fun m hm => ?_⟩
            · rw [← hlength ms, ← hlength ns, hperm.length_eq]
            · exact hperm.subset (Json.mem_sortedMembers.mpr ⟨m, hm, rfl⟩)
      | _ => simp [Json.same, Json.sorted]

theorem sameItems_iff_sorted : ∀ (xs ys : List Json) {depth depth' : ℕ},
    (∀ x ∈ xs, normalize depth x = .ok ()) → (∀ y ∈ ys, normalize depth' y = .ok ()) →
      (Json.sameItems xs ys ↔ Json.sortedItems xs = Json.sortedItems ys)
  | [], ys, _, _, _, _ => by cases ys <;> simp [Json.sameItems, Json.sortedItems]
  | x :: xs, ys, _, _, hxs, hys => by
      cases ys with
      | nil => simp [Json.sameItems, Json.sortedItems]
      | cons y ys =>
          have hhead := same_iff_sorted x y (hxs x List.mem_cons_self) (hys y List.mem_cons_self)
          have htail := sameItems_iff_sorted xs ys (fun z hz => hxs z (List.mem_cons_of_mem x hz))
            fun z hz => hys z (List.mem_cons_of_mem y hz)
          rw [Json.sameItems, Json.sortedItems, Json.sortedItems, hhead, htail, List.cons.injEq]

theorem sameMembers_iff_sorted : ∀ (ms ns : List (Str × Json)) {depth depth' : ℕ},
    (∀ m ∈ ms, normalize depth m.2 = .ok ()) → (∀ n ∈ ns, normalize depth' n.2 = .ok ()) →
      (Json.sameMembers ms ns ↔ ∀ m ∈ ms, (m.1, m.2.sorted) ∈ Json.sortedMembers ns)
  | [], _, _, _, _, _ => by simp [Json.sameMembers]
  | (k, x) :: ms, ns, _, _, hms, hns => by
      have hrest := sameMembers_iff_sorted ms ns (fun m hm => hms m (List.mem_cons_of_mem _ hm)) hns
      have hvalue : ∀ y, (k, y) ∈ ns → (x.same y ↔ x.sorted = y.sorted) := fun y hy =>
        same_iff_sorted x y (hms (k, x) List.mem_cons_self) (hns (k, y) hy)
      rw [Json.sameMembers, hrest, List.forall_mem_cons, Json.mem_sortedMembers]
      refine and_congr_left' ?_
      constructor
      · rintro ⟨y, hy, hxy⟩
        exact ⟨(k, y), hy, congrArg (Prod.mk k) ((hvalue y hy).mp hxy).symm⟩
      · rintro ⟨⟨l, y⟩, hy, heq⟩
        obtain ⟨rfl, hsorted⟩ := Prod.mk.inj heq
        exact ⟨y, hy, (hvalue y hy).mpr hsorted.symm⟩

end

/-- What accepted canonical bytes are the bytes of. -/
theorem canonicalJsonBytes_spec {tree : Json} {most : ℤ} {bytes : Bytes}
    (h : canonicalJsonBytes tree most = .ok bytes) :
    normalize 0 tree = .ok () ∧ tree.dumps.bind Str.encode? = some bytes ∧ 1 ≤ most ∧
      bytes.length ≤ most := by
  simp only [canonicalJsonBytes, bind_eq_ok, check_eq_ok, orRaise_eq_ok, decide_eq_true_eq] at h
  obtain ⟨_, hmost, _, hnormal, encoded, hencoded, _, hlength, heq⟩ := h
  cases heq
  exact ⟨hnormal, hencoded, hmost, hlength⟩

/-- Trees have the same bytes exactly when they are the same. -/
theorem canonicalJsonBytes_inj {a b : Json} {most most' : ℤ} {bytes bytes' : Bytes}
    (ha : canonicalJsonBytes a most = .ok bytes) (hb : canonicalJsonBytes b most' = .ok bytes') :
    bytes = bytes' ↔ a.same b := by
  obtain ⟨hnormal, hbytes, -, -⟩ := canonicalJsonBytes_spec ha
  obtain ⟨hnormal', hbytes', -, -⟩ := canonicalJsonBytes_spec hb
  rw [same_iff_sorted a b hnormal hnormal']
  constructor
  · rintro rfl
    have hread := strictJsonLoads_canonicalJsonBytes ha (le_refl _)
    rw [strictJsonLoads_canonicalJsonBytes hb (le_refl _)] at hread
    exact (Except.ok.inj hread).symm
  · intro hsorted
    have hdumps : a.dumps = b.dumps := congrArg Json.text hsorted
    rw [hdumps, hbytes'] at hbytes
    exact (Option.some.inj hbytes).symm

/-- The tree that is read back is the tree that was written, and is written the same again. -/
theorem canonicalJsonBytes_reads {tree : Json} {most : ℤ} {bytes : Bytes}
    (h : canonicalJsonBytes tree most = .ok bytes) :
    strictJsonLoads bytes most = .ok tree.sorted ∧ tree.sorted.same tree ∧
      canonicalJsonBytes tree.sorted most = .ok bytes := by
  obtain ⟨hnormal, hbytes, hmost, hlength⟩ := canonicalJsonBytes_spec h
  obtain ⟨hsorted, -⟩ := normalize_sorted tree hnormal
  refine ⟨strictJsonLoads_canonicalJsonBytes h hlength, ?_, ?_⟩
  · rw [same_iff_sorted tree.sorted tree hsorted hnormal, Json.sorted_sorted]
  · have hdumps : tree.sorted.dumps = tree.dumps := congrArg Json.text (Json.sorted_sorted tree)
    simp only [canonicalJsonBytes, bind_eq_ok, check_eq_ok, orRaise_eq_ok, decide_eq_true_eq, hdumps]
    exact ⟨(), hmost, (), hsorted, bytes, hbytes, (), hlength, rfl⟩

theorem versionedCanonicalBytes_eq_ok {tree : Json} {most : ℤ} {bytes : Bytes} :
    versionedCanonicalBytes tree most = .ok bytes ↔
      ∃ body, canonicalJsonBytes tree (most - canonicalPrefix.length) = .ok body ∧
        bytes = canonicalPrefix ++ body := by
  simp only [versionedCanonicalBytes, bind_eq_ok, check_eq_ok, decide_eq_true_eq]
  constructor
  · rintro ⟨_, -, body, hbody, heq⟩
    cases heq
    exact ⟨body, hbody, rfl⟩
  · rintro ⟨body, hbody, rfl⟩
    exact ⟨(), (canonicalJsonBytes_spec hbody).2.2.1, body, hbody, rfl⟩

/-- Canonical bytes are read back as the tree they were made from, which makes them again;
and two values have the same bytes, and the same digest as far as SHA-256 tells these bytes
apart, exactly when their trees are the same. -/
theorem canonical_identity :
    (∀ (v : PyValue) (most : ℤ) (bytes : Bytes), canonicalJsonBytesOf v most = .ok bytes →
      ∃ tree parsed, v.normalized = .ok tree ∧ strictJsonLoads bytes most = .ok parsed ∧
        parsed.same tree ∧ canonicalJsonBytes parsed most = .ok bytes) ∧
    (∀ (v w : PyValue) (most most' : ℤ) (bytes bytes' : Bytes),
      canonicalJsonBytesOf v most = .ok bytes → canonicalJsonBytesOf w most' = .ok bytes' →
        ∃ tree tree', v.normalized = .ok tree ∧ w.normalized = .ok tree' ∧
          (bytes = bytes' ↔ tree.same tree')) ∧
    ∀ (tree tree' : Json) (most most' : ℤ) (bytes bytes' : Bytes),
      versionedCanonicalBytes tree most = .ok bytes →
      versionedCanonicalBytes tree' most' = .ok bytes' →
        (bytes = bytes' ↔ tree.same tree') ∧
        ((Platform.sha256 bytes = Platform.sha256 bytes' → bytes = bytes') →
          (Platform.sha256 bytes = Platform.sha256 bytes' ↔ tree.same tree')) := by
  refine ⟨?_, ?_, ?_⟩
  · intro v most bytes h
    obtain ⟨tree, htree, hbytes⟩ := canonicalJsonBytesOf_eq_ok.mp h
    obtain ⟨hread, hsame, hagain⟩ := canonicalJsonBytes_reads hbytes
    exact ⟨tree, tree.sorted, htree, hread, hsame, hagain⟩
  · intro v w most most' bytes bytes' hv hw
    obtain ⟨tree, htree, hbytes⟩ := canonicalJsonBytesOf_eq_ok.mp hv
    obtain ⟨tree', htree', hbytes'⟩ := canonicalJsonBytesOf_eq_ok.mp hw
    exact ⟨tree, tree', htree, htree', canonicalJsonBytes_inj hbytes hbytes'⟩
  · intro tree tree' most most' bytes bytes' h h'
    obtain ⟨body, hbody, rfl⟩ := versionedCanonicalBytes_eq_ok.mp h
    obtain ⟨body', hbody', rfl⟩ := versionedCanonicalBytes_eq_ok.mp h'
    have hsame : canonicalPrefix ++ body = canonicalPrefix ++ body' ↔ tree.same tree' := by
      rw [List.append_cancel_left_eq]
      exact canonicalJsonBytes_inj hbody hbody'
    refine ⟨hsame, fun hcollides => ?_⟩
    rw [← hsame]
    exact ⟨hcollides, congrArg Platform.sha256⟩

end Values

open Checksum in
/-- A tuple is written as an array, and members in the order of their keys. -/
example : canonicalJsonBytesOf (.mapping [(.str "b", .tuple [.int 1]), (.str "a", .none)]) =
    .ok ("\x7b\"a\":null,\"b\":[1]\x7d".toList.map fun c => UInt8.ofNat c.toNat) := by
  decide +kernel

end FastapiEffects
