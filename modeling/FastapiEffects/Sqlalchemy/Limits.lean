import FastapiEffects.Python.Measure
import FastapiEffects.Python.Members
import FastapiEffects.Sqlalchemy.Normalize

/-! # The limits of canonical JSON

A value has canonical bytes when its numbers and its text can be written, and there is room for it
in the limits of nesting and of bytes. What a value takes of these limits is counted on the value
itself, so that a value inside another one can be held against what the other leaves.
-/

namespace FastapiEffects

open Python

variable [Platform]

/-! ## Nesting and `_normalize` -/

theorem nesting_of_normalize {v : Json} {depth : ℕ} (h : normalize depth v = .ok ()) :
    depth ≤ maxDepth := by
  have hnesting : ∀ {n : ℕ}, normalize.nesting n = .ok () → n ≤ maxDepth := fun h => by
    rw [normalize.nesting, check_eq_ok, decide_eq_true_eq] at h
    exact h
  cases v with
  | null => exact hnesting h
  | bool b => exact hnesting h
  | int n => exact hnesting h
  | float x =>
      obtain ⟨_, h, -⟩ := bind_eq_ok.mp h
      exact hnesting h
  | str s =>
      obtain ⟨_, h, -⟩ := bind_eq_ok.mp h
      exact hnesting h
  | arr items =>
      obtain ⟨_, h, -⟩ := bind_eq_ok.mp h
      exact hnesting h
  | obj members =>
      obtain ⟨_, h, -⟩ := bind_eq_ok.mp h
      exact hnesting h

mutual

/-- An accepted tree is accepted at another depth when its height leaves room for it. -/
theorem normalize_at_iff : ∀ (v : Json) {depth depth' : ℕ}, normalize depth v = .ok () →
    (normalize depth' v = .ok () ↔ depth' + v.height ≤ maxDepth)
  | .null, _, _, _ => by simp [normalize, normalize.nesting, Json.height]
  | .bool _, _, _, _ => by simp [normalize, normalize.nesting, Json.height]
  | .int _, _, _, _ => by simp [normalize, normalize.nesting, Json.height]
  | .float x, _, _, h => by
      simp only [normalize, normalize.nesting, bind_eq_ok, check_eq_ok, decide_eq_true_eq] at h ⊢
      obtain ⟨_, -, hfinite⟩ := h
      simp [hfinite, Json.height]
  | .str s, _, _, h => by
      simp only [normalize, normalize.nesting, bind_eq_ok, check_eq_ok, decide_eq_true_eq] at h ⊢
      obtain ⟨_, -, hencodes⟩ := h
      simp [hencodes, Json.height]
  | .arr items, _, depth', h => by
      have hitems := items_of_normalize h
      simp only [normalize, normalize.nesting, bind_eq_ok, check_eq_ok, decide_eq_true_eq,
        normalizeItems_eq_ok] at h ⊢
      obtain ⟨_, -, _, hcount, -⟩ := h
      rw [Json.height, ← normalizeItems_at_iff items hitems]
      simp [hcount]
  | .obj members, _, depth', h => by
      have hitems := (members_of_normalize h).2
      simp only [normalize, normalize.nesting, bind_eq_ok, check_eq_ok, decide_eq_true_eq,
        normalizeMembers_eq_ok] at h ⊢
      obtain ⟨_, -, _, hcount, hnodup, hseen, -⟩ := h
      rw [Json.height, ← normalizeMembers_at_iff members hitems]
      simp [hcount, hnodup]

theorem normalizeItems_at_iff : ∀ (items : List Json) {depth depth' : ℕ},
    (∀ x ∈ items, normalize depth x = .ok ()) →
      ((depth' ≤ maxDepth ∧ ∀ x ∈ items, normalize (depth' + 1) x = .ok ()) ↔
        depth' + Json.heightItems items ≤ maxDepth)
  | [], _, _, _ => by simp [Json.heightItems]
  | x :: xs, depth, depth', h => by
      have hx := @normalize_at_iff x depth (depth' + 1) (h x List.mem_cons_self)
      have hxs := @normalizeItems_at_iff xs depth depth' fun y hy => h y (List.mem_cons_of_mem x hy)
      rw [List.forall_mem_cons, Json.heightItems, hx]
      constructor
      · rintro ⟨hdepth, hhead, htail⟩
        have := hxs.mp ⟨hdepth, htail⟩
        omega
      · intro hmax
        have htail := hxs.mpr (by omega)
        exact ⟨htail.1, by omega, htail.2⟩

theorem normalizeMembers_at_iff : ∀ (members : List (Str × Json)) {depth depth' : ℕ},
    (∀ m ∈ members, normalize depth m.2 = .ok ()) →
      ((depth' ≤ maxDepth ∧ ∀ m ∈ members, normalize (depth' + 1) m.2 = .ok ()) ↔
        depth' + Json.heightMembers members ≤ maxDepth)
  | [], _, _, _ => by simp [Json.heightMembers]
  | (k, x) :: ms, depth, depth', h => by
      have hx := @normalize_at_iff x depth (depth' + 1) (h (k, x) List.mem_cons_self)
      have hms := @normalizeMembers_at_iff ms depth depth' fun m hm =>
        h m (List.mem_cons_of_mem (k, x) hm)
      rw [List.forall_mem_cons, Json.heightMembers, hx]
      constructor
      · rintro ⟨hdepth, hhead, htail⟩
        have := hms.mp ⟨hdepth, htail⟩
        omega
      · intro hmax
        have htail := hms.mpr (by omega)
        exact ⟨htail.1, by omega, htail.2⟩

end

/-! ## What has canonical bytes -/

/-- The limits a value is held against. -/
theorem exists_canonicalJsonBytes {v : Json} {most : ℤ} (hmost : 1 ≤ most) :
    (∃ bytes, canonicalJsonBytes v most = .ok bytes) ↔
      normalize 0 v = .ok () ∧ v.writable = true ∧ v.size ≤ most := by
  simp only [canonicalJsonBytes, bind_eq_ok, check_eq_ok, orRaise_eq_ok, decide_eq_true_eq]
  rw [← Json.isSome_encode?_dumps]
  constructor
  · rintro ⟨bytes, _, -, _, hnormal, encoded, hencoded, _, hlength, -⟩
    rw [Json.length_encode?_dumps hencoded] at hlength
    exact ⟨hnormal, ⟨encoded, hencoded⟩, hlength⟩
  · rintro ⟨hnormal, ⟨encoded, hencoded⟩, hsize⟩
    rw [← Json.length_encode?_dumps hencoded] at hsize
    exact ⟨encoded, (), hmost, (), hnormal, encoded, hencoded, (), hsize, rfl⟩

/-- An object with different ASCII keys is accepted when what it holds is. -/
theorem normalize_obj_ascii {depth : ℕ} {members : List (Str × Json)}
    (hcount : members.length ≤ maxContainerItems) (hnodup : (members.map Prod.fst).Nodup)
    (hascii : ∀ m ∈ members, m.1.isAscii = true) :
    normalize depth (.obj members) = .ok () ↔
      depth ≤ maxDepth ∧ ∀ m ∈ members, normalize (depth + 1) m.2 = .ok () := by
  have hkeys : (members.map fun m => Platform.nfc m.1) = members.map Prod.fst :=
    List.map_congr_left fun m hm => Platform.nfc_ascii _ (hascii m hm)
  simp only [normalize, normalize.nesting, bind_eq_ok, check_eq_ok, decide_eq_true_eq,
    normalizeMembers_eq_ok, hkeys]
  constructor
  · rintro ⟨_, hdepth, _, -, -, -, hitems⟩
    exact ⟨hdepth, hitems⟩
  · rintro ⟨hdepth, hitems⟩
    exact ⟨(), hdepth, (), hcount, hnodup, by simp, hitems⟩

/-! ## `json.loads` of canonical bytes -/

/-- `json.loads` reads canonical bytes back as the strict parser does. -/
theorem loads_canonicalJsonBytes {v : Json} {most : ℤ} {bytes : Bytes}
    (h : canonicalJsonBytes v most = .ok bytes) :
    (Str.decode? bytes).map Json.loads = some (.ok v.sorted) := by
  obtain ⟨hnormal, hbytes, -, -⟩ := canonicalJsonBytes_spec h
  obtain ⟨t, hdumps, hencode⟩ := Option.bind_eq_some_iff.mp hbytes
  have hobjects : ∀ members, strictHooks.object members = .ok (.obj members) →
      dictHooks.object members = .ok (.obj members) := by
    intro members hmembers
    have hunique : hasSemanticDuplicate (members.map Prod.fst) = false := by
      by_contra hdup
      rw [Bool.not_eq_false] at hdup
      simp [strictHooks, hdup] at hmembers
    have hsame := dictOf_of_nodup (hasSemanticDuplicate_eq_false.mp hunique).of_map
    exact congrArg (fun ms => Except.ok (Json.obj ms)) hsame
  have hkept := Loads.Kept.mono hobjects v.sorted (normalize_sorted v hnormal).2
  rw [Str.decode?_of_encode? hencode, Option.map_some, loads_eq_loadsWith,
    Json.loadsWith_dumps dictHooks hdumps hkept]

end FastapiEffects
