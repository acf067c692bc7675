import FastapiEffects.Python.RoundTrip
import FastapiEffects.Python.Sorted

/-! # Objects merged of pairs

`dict(pairs)`, as `json.loads` builds an object of what it reads, and as a display with
`**members` in it does: a key that stands twice keeps its first place and takes its last value.
-/

namespace Python

/-! ## Setting the members of an object -/

/-- One pair of `dict(pairs)`. -/
def setMember (members : List (Str × Json)) (p : Str × Json) : List (Str × Json) :=
  if members.any fun m => m.1 = p.1 then members.map fun m => if m.1 = p.1 then p else m
  else members ++ [p]

theorem dictOf_eq_foldl (pairs : List (Str × Json)) : dictOf pairs = pairs.foldl setMember [] := rfl

theorem setMember_of_not_mem {members : List (Str × Json)} {p : Str × Json}
    (h : p.1 ∉ members.map Prod.fst) : setMember members p = members ++ [p] := by
  unfold setMember
  rw [if_neg]
  intro hany
  obtain ⟨m, hm, hkey⟩ := List.any_eq_true.mp hany
  exact h (List.mem_map.mpr ⟨m, hm, of_decide_eq_true hkey⟩)

theorem setMember_of_mem {members : List (Str × Json)} {p : Str × Json}
    (h : p.1 ∈ members.map Prod.fst) :
    setMember members p = members.map fun m => if m.1 = p.1 then p else m := by
  unfold setMember
  rw [if_pos]
  obtain ⟨m, hm, hkey⟩ := List.mem_map.mp h
  exact List.any_eq_true.mpr ⟨m, hm, decide_eq_true hkey⟩

/-- Pairs with new keys stand at the end. -/
theorem foldl_setMember_of_nodup {base pairs : List (Str × Json)}
    (h : ((base ++ pairs).map Prod.fst).Nodup) : pairs.foldl setMember base = base ++ pairs := by
  induction pairs generalizing base with
  | nil => exact (List.append_nil base).symm
  | cons p pairs ih =>
      have hsplit : base ++ p :: pairs = (base ++ [p]) ++ pairs := by simp
      have hnew : p.1 ∉ base.map Prod.fst := by
        rw [List.map_append, List.nodup_append] at h
        intro hmem
        exact h.2.2 p.1 hmem p.1 List.mem_cons_self rfl
      rw [List.foldl_cons, setMember_of_not_mem hnew, ih (hsplit ▸ h), hsplit]

theorem dictOf_of_nodup {pairs : List (Str × Json)} (h : (pairs.map Prod.fst).Nodup) :
    dictOf pairs = pairs :=
  @foldl_setMember_of_nodup [] pairs h

/-- What is in an object after a member is set was there before, or is that member. -/
theorem mem_setMember {members : List (Str × Json)} {p m : Str × Json}
    (h : m ∈ setMember members p) : m ∈ members ∨ m = p := by
  unfold setMember at h
  split_ifs at h
  · obtain ⟨n, hn, rfl⟩ := List.mem_map.mp h
    split_ifs
    · exact Or.inr rfl
    · exact Or.inl hn
  · exact (List.mem_append.mp h).imp_right List.mem_singleton.mp

theorem nodup_setMember {members : List (Str × Json)} {p : Str × Json}
    (h : (members.map Prod.fst).Nodup) : ((setMember members p).map Prod.fst).Nodup := by
  by_cases hkey : p.1 ∈ members.map Prod.fst
  · have hkeys : (members.map fun m => if m.1 = p.1 then p else m).map Prod.fst =
        members.map Prod.fst := by
      rw [List.map_map]
      refine List.map_congr_left fun m _ => ?_
      by_cases hm : m.1 = p.1 <;> simp [hm]
    rwa [setMember_of_mem hkey, hkeys]
  · rw [setMember_of_not_mem hkey, List.map_append]
    exact List.concat_eq_append ▸ h.concat hkey

theorem length_setMember_le (members : List (Str × Json)) (p : Str × Json) :
    (setMember members p).length ≤ members.length + 1 := by
  unfold setMember
  split_ifs <;> simp

/-- What `dict(pairs)` keeps: pairs, each key once. -/
theorem foldl_setMember_spec {pairs base : List (Str × Json)} (h : (base.map Prod.fst).Nodup) :
    (∀ m ∈ pairs.foldl setMember base, m ∈ base ∨ m ∈ pairs) ∧
      ((pairs.foldl setMember base).map Prod.fst).Nodup ∧
        (pairs.foldl setMember base).length ≤ base.length + pairs.length := by
  induction pairs generalizing base with
  | nil => exact ⟨fun m hm => Or.inl hm, h, Nat.le_refl _⟩
  | cons p pairs ih =>
      obtain ⟨hmem, hnodup, hlength⟩ := ih (nodup_setMember (p := p) h)
      refine ⟨fun m hm => ?_, hnodup, ?_⟩
      · rcases hmem m hm with hset | hrest
        · refine (mem_setMember hset).imp_right ?_
          rintro rfl
          exact List.mem_cons_self
        · exact Or.inr (List.mem_cons_of_mem _ hrest)
      · have := length_setMember_le base p
        simp only [List.foldl_cons, List.length_cons]
        omega

theorem mem_of_mem_dictOf {pairs : List (Str × Json)} {m : Str × Json} (h : m ∈ dictOf pairs) :
    m ∈ pairs :=
  ((@foldl_setMember_spec pairs [] List.nodup_nil).1 m h).resolve_left List.not_mem_nil

theorem nodup_dictOf (pairs : List (Str × Json)) : ((dictOf pairs).map Prod.fst).Nodup :=
  (@foldl_setMember_spec pairs [] List.nodup_nil).2.1

theorem length_dictOf_le (pairs : List (Str × Json)) : (dictOf pairs).length ≤ pairs.length := by
  have h := (@foldl_setMember_spec pairs [] List.nodup_nil).2.2
  rwa [List.length_nil, Nat.zero_add, ← dictOf_eq_foldl] at h

namespace Json

theorem get?_cons (m : Str × Json) (members : List (Str × Json)) (key : Str) :
    (obj (m :: members)).get? key = if m.1 = key then some m.2 else (obj members).get? key := by
  simp only [get?, List.find?_cons]
  split_ifs with h <;> simp [h]

theorem get?_eq_none {members : List (Str × Json)} {key : Str} :
    (obj members).get? key = none ↔ key ∉ members.map Prod.fst := by
  rw [get?, Option.map_eq_none_iff, List.find?_eq_none]
  constructor
  · intro h hmem
    obtain ⟨m, hm, hkey⟩ := List.mem_map.mp hmem
    exact h m hm (decide_eq_true hkey)
  · intro h m hm hkey
    exact h (List.mem_map.mpr ⟨m, hm, of_decide_eq_true hkey⟩)

/-- A member under its key, where no two have the same. -/
theorem get?_eq_some {members : List (Str × Json)} (h : (members.map Prod.fst).Nodup) {key : Str}
    {value : Json} : (obj members).get? key = some value ↔ (key, value) ∈ members := by
  rw [get?, Option.map_eq_some_iff]
  constructor
  · rintro ⟨⟨k, x⟩, hfind, rfl⟩
    have hkey : k = key := by simpa using List.find?_some hfind
    exact hkey ▸ List.mem_of_find?_eq_some hfind
  · intro hmem
    exact ⟨(key, value), (find?_key_eq_some h).mpr ⟨hmem, rfl⟩, rfl⟩

end Json

/-- Merging members into an object: those with a key of the object replace its value in place, the
others follow. -/
theorem foldl_setMember {base members : List (Str × Json)} (h : (members.map Prod.fst).Nodup) :
    members.foldl setMember base =
      base.map (fun m => (m.1, ((Json.obj members).get? m.1).getD m.2)) ++
        members.filter fun m => m.1 ∉ base.map Prod.fst := by
  induction members generalizing base with
  | nil =>
      simp [Json.get?]
  | cons p members ih =>
      obtain ⟨hp, hmembers⟩ := List.nodup_cons.mp h
      have hnone : (Json.obj members).get? p.1 = none := Json.get?_eq_none.mpr hp
      rw [List.foldl_cons, ih hmembers]
      by_cases hmem : p.1 ∈ base.map Prod.fst
      · -- the value of a key that is there
        have hkeys : (base.map fun m => if m.1 = p.1 then p else m).map Prod.fst =
            base.map Prod.fst := by
          rw [List.map_map]
          refine List.map_congr_left fun m _ => ?_
          rw [Function.comp_apply]
          split_ifs with hkey
          · exact hkey.symm
          · rfl
        rw [setMember_of_mem hmem, hkeys, List.filter_cons_of_neg (by simpa using hmem), List.map_map]
        refine congrArg (· ++ _) (List.map_congr_left fun m _ => ?_)
        rw [Function.comp_apply, Json.get?_cons]
        by_cases hkey : m.1 = p.1
        · rw [if_pos hkey, if_pos hkey.symm, hkey, hnone]
          rfl
        · rw [if_neg hkey, if_neg (Ne.symm hkey)]
      · -- a new key
        rw [setMember_of_not_mem hmem, List.filter_cons_of_pos (by simpa using hmem), List.map_append,
          List.map_singleton, hnone, List.append_assoc, List.singleton_append]
        refine congrArg₂ (· ++ ·) (List.map_congr_left fun m hm => ?_) (congrArg (p :: ·) ?_)
        · have hkey : p.1 ≠ m.1 := by
            rintro heq
            exact hmem (heq ▸ List.mem_map_of_mem hm)
          rw [Json.get?_cons, if_neg hkey]
        · refine List.filter_congr fun m hm => ?_
          have hkey : m.1 ≠ p.1 := by
            rintro heq
            exact hp (heq ▸ List.mem_map_of_mem hm)
          simp [hkey]

/-- `{**base, **members}`. -/
theorem dictOf_append {base members : List (Str × Json)} (hbase : (base.map Prod.fst).Nodup)
    (h : (members.map Prod.fst).Nodup) :
    dictOf (base ++ members) =
      base.map (fun m => (m.1, ((Json.obj members).get? m.1).getD m.2)) ++
        members.filter fun m => m.1 ∉ base.map Prod.fst := by
  rw [dictOf_eq_foldl, List.foldl_append, @foldl_setMember_of_nodup [] _ hbase,
    List.nil_append, foldl_setMember h]

theorem mem_dictOf_append {base members : List (Str × Json)} (hbase : (base.map Prod.fst).Nodup)
    (h : (members.map Prod.fst).Nodup) {m : Str × Json} :
    m ∈ dictOf (base ++ members) ↔ m ∈ members ∨ (m ∈ base ∧ m.1 ∉ members.map Prod.fst) := by
  rw [dictOf_append hbase h, List.mem_append, List.mem_map, List.mem_filter, decide_eq_true_eq]
  constructor
  · rintro (⟨b, hb, rfl⟩ | ⟨hm, -⟩)
    · cases hget : (Json.obj members).get? b.1 with
      | none => exact .inr ⟨hb, Json.get?_eq_none.mp hget⟩
      | some value => exact .inl ((Json.get?_eq_some h).mp hget)
    · exact .inl hm
  · rintro (hm | ⟨hm, hkey⟩)
    · by_cases hbase' : m.1 ∈ base.map Prod.fst
      · obtain ⟨b, hb, hkey⟩ := List.mem_map.mp hbase'
        refine .inl ⟨b, hb, ?_⟩
        rw [hkey, (Json.get?_eq_some h).mpr hm]
        rfl
      · exact .inr ⟨hm, hbase'⟩
    · refine .inl ⟨m, hm, ?_⟩
      rw [Json.get?_eq_none.mpr hkey]
      rfl

/-! ## Reading objects -/

/-- What `json.loads` makes of the objects and the constants it reads. -/
def dictHooks : Hooks Unit where
  object pairs := .ok (.obj (dictOf pairs))
  constant x := .ok (.float x)

theorem loads_eq_loadsWith (text : Str) : Json.loads text = Json.loadsWith dictHooks text := rfl

namespace Loads

variable {ε ε' : Type} {hooks : Hooks ε} {hooks' : Hooks ε'}

mutual

/-- What one object hook keeps, another keeps that keeps as much. -/
theorem Kept.mono (h : ∀ members, hooks.object members = .ok (.obj members) →
    hooks'.object members = .ok (.obj members)) : ∀ v : Json, Kept hooks v → Kept hooks' v
  | .null, _ | .bool _, _ | .int _, _ | .float _, _ | .str _, _ => trivial
  | .arr items, hv => KeptItems.mono h items hv
  | .obj members, hv => ⟨h members hv.1, KeptMembers.mono h members hv.2⟩

theorem KeptItems.mono (h : ∀ members, hooks.object members = .ok (.obj members) →
    hooks'.object members = .ok (.obj members)) :
    ∀ items : List Json, KeptItems hooks items → KeptItems hooks' items
  | [], _ => trivial
  | x :: xs, hv => ⟨Kept.mono h x hv.1, KeptItems.mono h xs hv.2⟩

theorem KeptMembers.mono (h : ∀ members, hooks.object members = .ok (.obj members) →
    hooks'.object members = .ok (.obj members)) :
    ∀ members : List (Str × Json), KeptMembers hooks members → KeptMembers hooks' members
  | [], _ => trivial
  | (_, x) :: ms, hv => ⟨Kept.mono h x hv.1, KeptMembers.mono h ms hv.2⟩

end

end Loads

end Python
