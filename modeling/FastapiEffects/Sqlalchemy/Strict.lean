import FastapiEffects.Python.Scanned
import FastapiEffects.Sqlalchemy.Canonical

/-! # What the strict parser lets through

`strict_json_loads` checks what it parsed with `_normalize`, which looks at every string but at no
key: a key with a lone surrogate passes, and cannot be encoded afterwards. The plain `ValueError` of
`json.loads` for a long integer is not caught either.
-/

namespace FastapiEffects

open Python

/-- What `strict_json_loads` is given. -/
inductive JsonInput where
  | bytes (raw : Bytes)
  | text (s : Str)

section Strict

variable [Platform]

/-- The bytes of what is given. -/
def JsonInput.raw : JsonInput → Except PyError Bytes
  | .bytes raw => .ok raw
  | .text s => orRaise s.encode? (.configuration "JSON input is not valid UTF-8.")

/-- `strict_json_loads`. -/
def strictJsonLoadsOf (value : JsonInput) (maximumBytes : ℤ := defaultMaxPayloadBytes) :
    Except PyError Json := do
  strictJsonLoads (← value.raw) maximumBytes

/-- The text that is parsed: what is given is within the limit, and decodes to it. -/
def JsonInput.Decodes (value : JsonInput) (maximumBytes : ℤ) (text : Str) : Prop :=
  ∃ raw, value.raw = .ok raw ∧ raw.length ≤ maximumBytes ∧ Str.decode? raw = some text

/-! ## What `_normalize` raises and what it has seen -/

def IsConfiguration (e : PyError) : Prop := ∃ message, e = .configuration message

omit [Platform] in
theorem check_configuration {ok : Bool} {message : String} {e : PyError}
    (h : check ok (.configuration message) = .error e) : IsConfiguration e :=
  ⟨message, (check_eq_error.mp h).2⟩

mutual

theorem normalize_eq_error : ∀ (v : Json) {depth : ℕ} {e : PyError},
    normalize depth v = .error e → IsConfiguration e
  | .null, _, _, h => check_configuration h
  | .bool _, _, _, h => check_configuration h
  | .int _, _, _, h => check_configuration h
  | .float x, _, _, h => by
      rcases bind_eq_error.mp h with h | ⟨_, -, h⟩
      · exact check_configuration h
      · exact check_configuration h
  | .str s, _, _, h => by
      rcases bind_eq_error.mp h with h | ⟨_, -, h⟩
      · exact check_configuration h
      · exact check_configuration h
  | .obj members, _, _, h => by
      rcases bind_eq_error.mp h with h | ⟨_, -, h⟩
      · exact check_configuration h
      rcases bind_eq_error.mp h with h | ⟨_, -, h⟩
      · exact check_configuration h
      · exact normalizeMembers_eq_error members h
  | .arr items, _, _, h => by
      rcases bind_eq_error.mp h with h | ⟨_, -, h⟩
      · exact check_configuration h
      rcases bind_eq_error.mp h with h | ⟨_, -, h⟩
      · exact check_configuration h
      · exact normalizeItems_eq_error items h

theorem normalizeMembers_eq_error : ∀ (members : List (Str × Json)) {depth : ℕ} {seen : List Str}
    {e : PyError}, normalizeMembers depth seen members = .error e → IsConfiguration e
  | [], _, _, _, h => by cases h
  | (k, x) :: ms, _, _, _, h => by
      rcases bind_eq_error.mp h with h | ⟨_, -, h⟩
      · exact check_configuration h
      rcases bind_eq_error.mp h with h | ⟨_, -, h⟩
      · exact normalize_eq_error x h
      · exact normalizeMembers_eq_error ms h

theorem normalizeItems_eq_error : ∀ (items : List Json) {depth : ℕ} {e : PyError},
    normalizeItems depth items = .error e → IsConfiguration e
  | [], _, _, h => by cases h
  | x :: xs, _, _, h => by
      rcases bind_eq_error.mp h with h | ⟨_, -, h⟩
      · exact normalize_eq_error x h
      · exact normalizeItems_eq_error xs h

end

/-- A leaf that `_normalize` accepts. -/
def leafNormal : Json → Bool
  | .float x => x.isfinite
  | .str s => s.encodes
  | _ => true

mutual

theorem normalize_leaves : ∀ (v : Json) {depth : ℕ}, normalize depth v = .ok () →
    v.everywhere (fun _ => true) leafNormal = true
  | .null, _, _ => rfl
  | .bool _, _, _ => rfl
  | .int _, _, _ => rfl
  | .float x, _, h => by
      obtain ⟨_, -, h⟩ := bind_eq_ok.mp h
      exact check_eq_ok.mp h
  | .str s, _, h => by
      obtain ⟨_, -, h⟩ := bind_eq_ok.mp h
      rw [check_eq_ok, Str.isSome_encode?] at h
      exact h
  | .obj members, _, h => by
      obtain ⟨_, -, h⟩ := bind_eq_ok.mp h
      obtain ⟨_, -, h⟩ := bind_eq_ok.mp h
      exact normalizeMembers_leaves members h
  | .arr items, _, h => by
      obtain ⟨_, -, h⟩ := bind_eq_ok.mp h
      obtain ⟨_, -, h⟩ := bind_eq_ok.mp h
      exact normalizeItems_leaves items h

theorem normalizeMembers_leaves : ∀ (members : List (Str × Json)) {depth : ℕ} {seen : List Str},
    normalizeMembers depth seen members = .ok () →
      Json.everywhereMembers (fun _ => true) leafNormal members = true
  | [], _, _, _ => rfl
  | (k, x) :: ms, _, _, h => by
      obtain ⟨_, -, h⟩ := bind_eq_ok.mp h
      obtain ⟨_, hx, h⟩ := bind_eq_ok.mp h
      rw [Json.everywhereMembers, Bool.true_and, Bool.and_eq_true]
      exact ⟨normalize_leaves x hx, normalizeMembers_leaves ms h⟩

theorem normalizeItems_leaves : ∀ (items : List Json) {depth : ℕ},
    normalizeItems depth items = .ok () →
      Json.everywhereItems (fun _ => true) leafNormal items = true
  | [], _, _ => rfl
  | x :: xs, _, h => by
      obtain ⟨_, hx, h⟩ := bind_eq_ok.mp h
      rw [Json.everywhereItems, Bool.and_eq_true]
      exact ⟨normalize_leaves x hx, normalizeItems_leaves xs h⟩

end

/-! ## Which accepted values can be encoded -/

/-- A value that was parsed and accepted has canonical bytes when its keys can be encoded. -/
theorem exists_canonicalJsonBytes_iff {v : Json} (hnormal : normalize 0 v = .ok ())
    (hread : Loads.Read v) :
    (∃ limit bytes, canonicalJsonBytes v limit = .ok bytes) ↔ v.keysEncode = true := by
  have hleaves := normalize_leaves v hnormal
  have hboth : v.everywhere (fun _ => true && true) (fun x => Loads.leafRead x && leafNormal x) = true := by
    rw [Json.everywhere_and, hread, hleaves]
    rfl
  have hwrites : v.everywhere (fun _ => true) Json.leafWrites = true := by
    refine Json.everywhere_mono (fun _ => id) (fun x hx => ?_) hboth
    cases x <;> simp_all [Json.leafWrites, Loads.leafRead, leafNormal]
  have hstrings : v.everywhere (fun _ => true) Json.leafEncodes = true := by
    refine Json.everywhere_mono (fun _ => id) (fun x hx => ?_) hleaves
    cases x <;> simp_all [Json.leafEncodes, leafNormal]
  -- the text of a value has the keys and the strings of the value
  rw [← Json.everywhere_sorted] at hwrites
  obtain ⟨t, ht⟩ := Json.exists_text v.sorted hwrites
  have hencodes : t.encodes = v.keysEncode := by
    have hsplit := @Json.everywhere_and Str.encodes (fun _ => true) (fun _ => true) Json.leafEncodes v
    simp only [Bool.and_true, Bool.true_and] at hsplit
    rw [Json.encodes_text v.sorted ht, Json.everywhere_sorted, hsplit, hstrings, Bool.and_true]
    rfl
  rw [← hencodes, ← Str.isSome_encode?, Option.isSome_iff_exists]
  constructor
  · rintro ⟨limit, bytes, h⟩
    simp only [canonicalJsonBytes, bind_eq_ok, orRaise_eq_ok] at h
    obtain ⟨_, -, _, -, encoded, hencoded, -⟩ := h
    rw [Json.dumps, ht, Option.bind_some] at hencoded
    exact ⟨encoded, hencoded⟩
  · rintro ⟨encoded, hencoded⟩
    refine ⟨max 1 encoded.length, encoded, ?_⟩
    simp only [canonicalJsonBytes, bind_eq_ok, check_eq_ok, orRaise_eq_ok, decide_eq_true_eq]
    refine ⟨(), le_max_left _ _, (), hnormal, encoded, ?_, (), le_max_right _ _, rfl⟩
    rw [Json.dumps, ht, Option.bind_some, hencoded]

/-! ## The parser -/

theorem strictHooks_read : Loads.HooksRead IsConfiguration strictHooks where
  object := by
    intro pairs v h hread
    unfold strictHooks at h
    dsimp only at h
    split_ifs at h
    cases h
    exact Json.everywhereMembers_iff.mpr fun m hm => ⟨rfl, hread m hm⟩
  object_error := by
    intro pairs e h
    unfold strictHooks at h
    dsimp only at h
    split_ifs at h
    cases h
    exact ⟨_, rfl⟩
  constant := fun x v h => by cases h
  constant_error := by
    intro x e h
    cases h
    exact ⟨_, rfl⟩

omit [Platform] in
theorem JsonInput.raw_eq_error {value : JsonInput} {e : PyError} (h : value.raw = .error e) :
    IsConfiguration e := by
  cases value with
  | bytes raw => cases h
  | text s => exact ⟨_, (orRaise_eq_error.mp h).2⟩

/-- What is returned was parsed and accepted. -/
theorem strictJsonLoadsOf_eq_ok {value : JsonInput} {most : ℤ} {v : Json} :
    strictJsonLoadsOf value most = .ok v ↔ ∃ text, value.Decodes most text ∧
      Json.loadsWith strictHooks text = .ok v ∧ normalize 0 v = .ok () := by
  unfold strictJsonLoadsOf strictJsonLoads JsonInput.Decodes
  simp only [bind_eq_ok, check_eq_ok, orRaise_eq_ok, decide_eq_true_eq]
  constructor
  · rintro ⟨raw, hraw, _, hlength, text, htext, h⟩
    split at h
    · cases h
    · cases h
    · cases h
    · next parsed hloads =>
        obtain ⟨_, hnormal, heq⟩ := bind_eq_ok.mp h
        cases heq
        exact ⟨text, ⟨raw, hraw, hlength, htext⟩, hloads, hnormal⟩
  · rintro ⟨text, ⟨raw, hraw, hlength, htext⟩, hloads, hnormal⟩
    refine ⟨raw, hraw, (), hlength, text, htext, ?_⟩
    rw [hloads]
    exact bind_eq_ok.mpr ⟨(), hnormal, rfl⟩

/-- What is raised is a configuration error, or the `ValueError` of a long integer. -/
theorem strictJsonLoadsOf_eq_error {value : JsonInput} {most : ℤ} {e : PyError}
    (h : strictJsonLoadsOf value most = .error e) : IsConfiguration e ∨
      e = .value ∧ ∃ text, value.Decodes most text ∧
        Json.loadsWith strictHooks text = .error .value := by
  unfold strictJsonLoadsOf strictJsonLoads at h
  rcases bind_eq_error.mp h with hraw | ⟨raw, hraw, h⟩
  · exact .inl (JsonInput.raw_eq_error hraw)
  rcases bind_eq_error.mp h with hlength | ⟨_, hlength, h⟩
  · exact .inl (check_configuration hlength)
  rcases bind_eq_error.mp h with hdecode | ⟨text, hdecode, h⟩
  · exact .inl ⟨_, (orRaise_eq_error.mp hdecode).2⟩
  rw [check_eq_ok, decide_eq_true_eq] at hlength
  rw [orRaise_eq_ok] at hdecode
  split at h
  · cases h
    exact .inl ⟨_, rfl⟩
  · next hloads =>
      cases h
      exact .inr ⟨rfl, text, ⟨raw, hraw, hlength, hdecode⟩, hloads⟩
  · next hook hloads =>
      cases h
      exact .inl ((Loads.loadsWith_scanned strictHooks_read text).2.1 _ hloads)
  · rcases bind_eq_error.mp h with hnormal | ⟨_, -, hreturn⟩
    · exact .inl (normalize_eq_error _ hnormal)
    · cases hreturn

theorem strictJsonLoadsOf_value {value : JsonInput} {most : ℤ} {text : Str}
    (htext : value.Decodes most text) (h : Json.loadsWith strictHooks text = .error .value) :
    strictJsonLoadsOf value most = .error .value := by
  obtain ⟨raw, hraw, hlength, hdecode⟩ := htext
  unfold strictJsonLoadsOf strictJsonLoads
  rw [hraw]
  simp only [bind, Except.bind, check, orRaise, hdecode, h, hlength, decide_true, if_true]

/-- What is raised is a configuration error, and what is returned has canonical bytes. -/
structure IsClosed (value : JsonInput) (most : ℤ) : Prop where
  error : ∀ e, strictJsonLoadsOf value most = .error e → IsConfiguration e
  ok : ∀ v, strictJsonLoadsOf value most = .ok v →
    ∃ limit bytes, canonicalJsonBytes v limit = .ok bytes

/-- The strict parser is closed on the texts in which `json.loads` comes to no long integer, and no
key of what it parses has a lone surrogate (unless the value is refused for something else). A text
without 4301 digits in a row has no long integer. -/
theorem strict_json_loads_closed :
    (∀ value most, IsClosed value most ↔ ∀ text, value.Decodes most text →
      Json.loadsWith strictHooks text ≠ .error .value ∧
        ∀ v, Json.loadsWith strictHooks text = .ok v → normalize 0 v = .ok () →
          v.keysEncode = true) ∧
    ∀ text, Json.loadsWith strictHooks text = .error .value → Loads.HasLongInteger text := by
  refine ⟨fun value most => ⟨fun hclosed text htext => ⟨fun hvalue => ?_, fun v hloads hnormal => ?_⟩,
    fun h => ⟨fun e herror => ?_, fun v hok => ?_⟩⟩, fun text =>
      (Loads.loadsWith_scanned strictHooks_read text).2.2⟩
  · obtain ⟨message, heq⟩ := hclosed.error _ (strictJsonLoadsOf_value htext hvalue)
    cases heq
  · have hread := (Loads.loadsWith_scanned strictHooks_read text).1 v hloads
    rw [← exists_canonicalJsonBytes_iff hnormal hread]
    exact hclosed.ok v (strictJsonLoadsOf_eq_ok.mpr ⟨text, htext, hloads, hnormal⟩)
  · rcases strictJsonLoadsOf_eq_error herror with hconfiguration | ⟨-, text, htext, hvalue⟩
    · exact hconfiguration
    · exact absurd hvalue (h text htext).1
  · obtain ⟨text, htext, hloads, hnormal⟩ := strictJsonLoadsOf_eq_ok.mp hok
    have hread := (Loads.loadsWith_scanned strictHooks_read text).1 v hloads
    rw [exists_canonicalJsonBytes_iff hnormal hread]
    exact (h text htext).2 v hloads hnormal

end Strict

/-! ### A key with a lone surrogate

The object with the escaped key U+D800 is parsed and returned, and has no canonical bytes.
-/

open Checksum in
theorem strict_json_loads_surrogate :
    ∃ v, strictJsonLoadsOf (.text "\x7b\"\\ud800\":1\x7d") = .ok v ∧
      ∀ limit bytes, canonicalJsonBytes v limit ≠ .ok bytes := by
  have hparsed : strictJsonLoadsOf (.text "\x7b\"\\ud800\":1\x7d") =
      .ok (.obj [([.surrogate 0], .int 1)]) := by
    decide +kernel
  have hdumps : (Json.obj [([.surrogate 0], .int 1)]).dumps.bind Str.encode? = none := by
    decide +kernel
  refine ⟨_, hparsed, fun limit bytes h => ?_⟩
  simp only [canonicalJsonBytes, bind_eq_ok, orRaise_eq_ok] at h
  obtain ⟨_, -, _, -, encoded, hencoded, -⟩ := h
  rw [hdumps] at hencoded
  cases hencoded

end FastapiEffects
