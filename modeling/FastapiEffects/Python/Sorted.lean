import FastapiEffects.Python.Dumps

/-! # Sorted trees

The members of every object in the order of their keys, as `json.dumps` writes them with
`sort_keys=True`.
-/

namespace Python

theorem PyChar.ord_inj {c d : PyChar} (h : c.ord = d.ord) : c = d := by
  have hscalar : ∀ e : Char, e.toNat < 0xD800 ∨ 0xDFFF < e.toNat := fun e =>
    e.valid.imp id fun hvalid => hvalid.1
  cases c with
  | scalar c =>
      cases d with
      | scalar d => exact congrArg PyChar.scalar (Char.toNat_inj.mp h)
      | surrogate n =>
          have hc := hscalar c
          simp only [ord] at h
          omega
  | surrogate m =>
      cases d with
      | scalar d =>
          have hd := hscalar d
          simp only [ord] at h
          omega
      | surrogate n =>
          simp only [ord, Nat.add_left_cancel_iff] at h
          exact congrArg PyChar.surrogate (Fin.ext h)

theorem Str.le_antisymm {s t : Str} (h : s.le t = true) (h' : t.le s = true) : s = t := by
  induction s generalizing t with
  | nil =>
      cases t with
      | nil => rfl
      | cons d t => cases h'
  | cons c s ih =>
      cases t with
      | nil => cases h
      | cons d t =>
          simp only [Str.le, Bool.or_eq_true, Bool.and_eq_true, decide_eq_true_eq] at h h'
          have hord : c.ord = d.ord := by omega
          have hst : Str.le s t = true := by
            rcases h with h | ⟨-, h⟩
            · omega
            · exact h
          have hts : Str.le t s = true := by
            rcases h' with h' | ⟨-, h'⟩
            · omega
            · exact h'
          rw [PyChar.ord_inj hord, ih hst hts]

namespace Json

/-- The order of members is total and transitive. -/
theorem pairwise_sortMembers (members : List (Str × Json)) :
    (sortMembers members).Pairwise fun m n => m.1.le n.1 = true := by
  have htotal : Std.Total fun m n : Str × Json => m.1.le n.1 = true :=
    ⟨fun m n => Str.le_total m.1 n.1⟩
  have htrans : IsTrans (Str × Json) fun m n => m.1.le n.1 = true := ⟨fun _ _ _ => Str.le_trans⟩
  exact List.pairwise_insertionSort _ _

theorem sortMembers_sortMembers (members : List (Str × Json)) :
    sortMembers (sortMembers members) = sortMembers members :=
  (pairwise_sortMembers members).insertionSort_eq

/-- Members with different keys have one sorted order. -/
theorem sortMembers_congr {ms ns : List (Str × Json)} (hnodup : (ms.map Prod.fst).Nodup)
    (hperm : ms.Perm ns) : sortMembers ms = sortMembers ns := by
  have hsorted := ((sortMembers_perm ms).trans hperm).trans (sortMembers_perm ns).symm
  refine hsorted.eq_of_pairwise ?_ (pairwise_sortMembers ms) (pairwise_sortMembers ns)
  intro m n hm hn hmn hnm
  have hkey := Str.le_antisymm hmn hnm
  have hm' : m ∈ ms := (sortMembers_perm ms).mem_iff.mp hm
  have hn' : n ∈ ms := hperm.mem_iff.mpr ((sortMembers_perm ns).mem_iff.mp hn)
  exact List.inj_on_of_nodup_map hnodup hm' hn' hkey

theorem sortedMembers_sortMembers (members : List (Str × Json)) :
    sortedMembers (sortMembers members) = sortMembers (sortedMembers members) := by
  have hmap : ∀ ms : List (Str × Json), sortedMembers ms = ms.map fun m => (m.1, m.2.sorted) := by
    intro ms
    have hid := map_sortedMembers id ms
    rwa [List.map_id] at hid
  rw [hmap, hmap]
  exact List.map_insertionSort _ _ _ _ fun m _ n _ => Iff.rfl

mutual

theorem sorted_sorted : ∀ v : Json, v.sorted.sorted = v.sorted
  | .null => rfl
  | .bool _ => rfl
  | .int _ => rfl
  | .float _ => rfl
  | .str _ => rfl
  | .arr items => congrArg Json.arr (sortedItems_sortedItems items)
  | .obj members => by
      have hmembers := sortedMembers_sortedMembers members
      rw [sorted, sorted, sortedMembers_sortMembers, hmembers, sortMembers_sortMembers]

theorem sortedItems_sortedItems : ∀ items : List Json,
    sortedItems (sortedItems items) = sortedItems items
  | [] => rfl
  | x :: xs => congrArg₂ List.cons (sorted_sorted x) (sortedItems_sortedItems xs)

theorem sortedMembers_sortedMembers : ∀ members : List (Str × Json),
    sortedMembers (sortedMembers members) = sortedMembers members
  | [] => rfl
  | (k, x) :: ms =>
      congrArg₂ List.cons (congrArg (Prod.mk k) (sorted_sorted x)) (sortedMembers_sortedMembers ms)

end

end Json

end Python
