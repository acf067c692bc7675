import Mathlib.Data.List.Nodup
import Mathlib.Tactic.Common

/-! # Dictionaries

A Python `dict`: its items in insertion order, where a key that is set again keeps its place.
-/

namespace Python

/-- A `dict`. -/
structure Dict (κ ν : Type) where
  items : List (κ × ν)
  nodup : (items.map Prod.fst).Nodup

namespace Dict

variable {κ ν : Type} [DecidableEq κ]

/-- `{}`. -/
def empty : Dict κ ν := ⟨[], List.nodup_nil⟩

/-- The items with one key set. -/
def setItems (k : κ) (v : ν) : List (κ × ν) → List (κ × ν)
  | [] => [(k, v)]
  | (l, w) :: rest => if l = k then (k, v) :: rest else (l, w) :: setItems k v rest

/-- `d.get(k)`. -/
def get (d : Dict κ ν) (k : κ) : Option ν := (d.items.find? fun m => m.1 = k).map Prod.snd

/-- `d.values()`. -/
def values (d : Dict κ ν) : List ν := d.items.map Prod.snd

theorem mem_setItems {k : κ} {v : ν} {items : List (κ × ν)} (h : (items.map Prod.fst).Nodup)
    {m : κ × ν} : m ∈ setItems k v items ↔ m = (k, v) ∨ (m ∈ items ∧ m.1 ≠ k) := by
  induction items with
  | nil => simp [setItems]
  | cons n rest ih =>
      obtain ⟨l, w⟩ := n
      obtain ⟨hhead, hrest⟩ := List.nodup_cons.mp h
      unfold setItems
      split_ifs with hl
      · subst hl
        simp only [List.mem_cons]
        constructor
        · rintro (heq | hm)
          · exact Or.inl heq
          · refine Or.inr ⟨Or.inr hm, ?_⟩
            rintro rfl
            exact hhead (List.mem_map.mpr ⟨m, hm, rfl⟩)
        · rintro (heq | ⟨heq | hm, hne⟩)
          · exact Or.inl heq
          · exact absurd (congrArg Prod.fst heq) hne
          · exact Or.inr hm
      · simp only [List.mem_cons, ih hrest]
        constructor
        · rintro (rfl | heq | ⟨hm, hne⟩)
          · exact Or.inr ⟨Or.inl rfl, hl⟩
          · exact Or.inl heq
          · exact Or.inr ⟨Or.inr hm, hne⟩
        · rintro (heq | ⟨heq | hm, hne⟩)
          · exact Or.inr (Or.inl heq)
          · exact Or.inl heq
          · exact Or.inr (Or.inr ⟨hm, hne⟩)

theorem nodup_setItems {k : κ} {v : ν} {items : List (κ × ν)} (h : (items.map Prod.fst).Nodup) :
    ((setItems k v items).map Prod.fst).Nodup := by
  induction items with
  | nil => simp [setItems]
  | cons n rest ih =>
      obtain ⟨l, w⟩ := n
      obtain ⟨hhead, hrest⟩ := List.nodup_cons.mp h
      unfold setItems
      split_ifs with hl
      · subst hl
        exact h
      · rw [List.map_cons, List.nodup_cons]
        refine ⟨?_, ih hrest⟩
        intro hmem
        obtain ⟨m, hm, hkey⟩ := List.mem_map.mp hmem
        rcases (mem_setItems hrest).mp hm with rfl | ⟨hm, -⟩
        · exact hl hkey.symm
        · exact hhead (hkey ▸ List.mem_map_of_mem hm)

/-- `d[k] = v`. -/
def set (d : Dict κ ν) (k : κ) (v : ν) : Dict κ ν := ⟨setItems k v d.items, nodup_setItems d.nodup⟩

/-- `d.update(items)`. -/
def update (d : Dict κ ν) (items : List (κ × ν)) : Dict κ ν := items.foldl (fun d m => d.set m.1 m.2) d

theorem get_eq_some {d : Dict κ ν} {k : κ} {v : ν} : d.get k = some v ↔ (k, v) ∈ d.items := by
  unfold get
  constructor
  · intro h
    obtain ⟨⟨l, w⟩, hfind, rfl⟩ := Option.map_eq_some_iff.mp h
    have hl : l = k := by simpa using List.find?_some hfind
    rw [← hl]
    exact List.mem_of_find?_eq_some hfind
  · intro h
    cases hfind : d.items.find? fun m => m.1 = k with
    | none =>
        have hnone := List.find?_eq_none.mp hfind (k, v) h
        simp at hnone
    | some m =>
        have hkey : m.1 = k := by simpa using List.find?_some hfind
        have hm := List.mem_of_find?_eq_some hfind
        rw [List.inj_on_of_nodup_map d.nodup hm h hkey]
        rfl

theorem mem_set {d : Dict κ ν} {k : κ} {v : ν} {m : κ × ν} :
    m ∈ (d.set k v).items ↔ m = (k, v) ∨ (m ∈ d.items ∧ m.1 ≠ k) :=
  mem_setItems d.nodup

theorem get_set (d : Dict κ ν) (k l : κ) (v : ν) :
    (d.set k v).get l = if l = k then some v else d.get l := by
  refine Option.ext fun w => ?_
  rw [get_eq_some, mem_set]
  split_ifs with hl
  · subst hl
    simp [eq_comm]
  · rw [get_eq_some]
    simp [hl]

theorem mem_values {d : Dict κ ν} {v : ν} : v ∈ d.values ↔ ∃ k, d.get k = some v := by
  unfold values
  constructor
  · intro h
    obtain ⟨⟨k, w⟩, hm, rfl⟩ := List.mem_map.mp h
    exact ⟨k, get_eq_some.mpr hm⟩
  · rintro ⟨k, hk⟩
    exact List.mem_map_of_mem (get_eq_some.mp hk)

theorem get_eq_none {d : Dict κ ν} {k : κ} : d.get k = none ↔ ∀ m ∈ d.items, m.1 ≠ k := by
  simp [get]

/-- A new key stands last. -/
theorem items_set_of_get_eq_none {d : Dict κ ν} {k : κ} {v : ν} (h : d.get k = none) :
    (d.set k v).items = d.items ++ [(k, v)] := by
  have hitems : ∀ items : List (κ × ν), (∀ m ∈ items, m.1 ≠ k) →
      setItems k v items = items ++ [(k, v)] := by
    intro items
    induction items with
    | nil => exact fun _ => rfl
    | cons n rest ih =>
        intro hne
        obtain ⟨hn, hrest⟩ := List.forall_mem_cons.mp hne
        rw [setItems, if_neg hn, ih hrest, List.cons_append]
  exact hitems d.items (get_eq_none.mp h)

/-- After `update`, a key that is not among the new items is as before. -/
theorem get_update_of_ne {d : Dict κ ν} {items : List (κ × ν)} {k : κ} (h : ∀ m ∈ items, m.1 ≠ k) :
    (d.update items).get k = d.get k := by
  induction items generalizing d with
  | nil => rfl
  | cons m rest ih =>
      have hm : k ≠ m.1 := (h m List.mem_cons_self).symm
      rw [update, List.foldl_cons]
      refine (ih fun n hn => h n (List.mem_cons_of_mem m hn)).trans ?_
      rw [get_set, if_neg hm]

/-- `update` with items of different keys. -/
theorem get_update_of_mem {d : Dict κ ν} {items : List (κ × ν)} {m : κ × ν}
    (hnodup : (items.map Prod.fst).Nodup) (hm : m ∈ items) :
    (d.update items).get m.1 = some m.2 := by
  induction items generalizing d with
  | nil => cases hm
  | cons n rest ih =>
      obtain ⟨hhead, hrest⟩ := List.nodup_cons.mp hnodup
      rw [update, List.foldl_cons]
      rcases List.mem_cons.mp hm with rfl | hm
      · have hne : ∀ n ∈ rest, n.1 ≠ m.1 := by
          intro n hn heq
          exact hhead (heq ▸ List.mem_map_of_mem hn)
        refine (get_update_of_ne hne).trans ?_
        rw [get_set, if_pos rfl]
      · exact ih hrest hm

/-- A value after `update` is one of the new items, or was there before. -/
theorem mem_or_of_get_update {d : Dict κ ν} {items : List (κ × ν)} {k : κ} {v : ν}
    (h : (d.update items).get k = some v) : (k, v) ∈ items ∨ d.get k = some v := by
  induction items generalizing d with
  | nil => exact .inr h
  | cons m rest ih =>
      rw [update, List.foldl_cons] at h
      rcases ih h with hmem | hset
      · exact .inl (List.mem_cons_of_mem m hmem)
      · rw [get_set] at hset
        split_ifs at hset with hk
        · cases hset
          rw [hk]
          exact .inl List.mem_cons_self
        · exact .inr hset

/-- The keys after `update`. -/
theorem isSome_get_update {d : Dict κ ν} {items : List (κ × ν)} {k : κ} :
    ((d.update items).get k).isSome = true ↔ k ∈ items.map Prod.fst ∨ (d.get k).isSome = true := by
  induction items generalizing d with
  | nil => simp [update]
  | cons m rest ih =>
      have hstep : d.update (m :: rest) = (d.set m.1 m.2).update rest := rfl
      rw [hstep, ih, get_set, List.map_cons, List.mem_cons]
      split_ifs with hk
      · simp [hk]
      · simp [hk]

/-- Items of different keys that are new stand at the end. -/
theorem items_update_of_nodup {d : Dict κ ν} {items : List (κ × ν)}
    (h : ((d.items ++ items).map Prod.fst).Nodup) : (d.update items).items = d.items ++ items := by
  induction items generalizing d with
  | nil => exact (List.append_nil d.items).symm
  | cons m rest ih =>
      have hstep : d.update (m :: rest) = (d.set m.1 m.2).update rest := rfl
      have hsplit : d.items ++ m :: rest = (d.items ++ [m]) ++ rest := by simp
      have hnew : d.get m.1 = none := by
        rw [List.map_append, List.nodup_append] at h
        refine get_eq_none.mpr fun n hn => ?_
        exact h.2.2 n.1 (List.mem_map_of_mem hn) m.1 List.mem_cons_self
      have hset : (d.set m.1 m.2).items = d.items ++ [m] := items_set_of_get_eq_none hnew
      rw [hsplit] at h ⊢
      rw [← hset] at h ⊢
      exact ih h

/-- The value of a key, as the items of that key. -/
theorem toList_get (d : Dict κ ν) (k : κ) :
    (d.get k).toList = (d.items.filter fun m => m.1 = k).map Prod.snd := by
  have hfind : ∀ items : List (κ × ν), (items.map Prod.fst).Nodup →
      (items.find? fun m => m.1 = k).toList = items.filter fun m => m.1 = k := by
    intro items
    induction items with
    | nil => exact fun _ => rfl
    | cons m rest ih =>
        intro hnodup
        obtain ⟨hhead, hrest⟩ := List.nodup_cons.mp hnodup
        by_cases hm : m.1 = k
        · have hnone : (rest.filter fun n => n.1 = k) = [] := by
            refine List.filter_eq_nil_iff.mpr fun n hn => ?_
            rw [decide_eq_true_eq]
            rintro rfl
            exact hhead (hm ▸ List.mem_map_of_mem hn)
          rw [List.find?_cons_of_pos (by simpa using hm), List.filter_cons_of_pos (by simpa using hm),
            hnone]
          rfl
        · rw [List.find?_cons_of_neg (by simpa using hm), List.filter_cons_of_neg (by simpa using hm)]
          exact ih hrest
  rw [get, ← hfind d.items d.nodup, Option.toList_map]

end Dict

end Python
