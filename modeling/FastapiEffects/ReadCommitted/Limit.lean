import Mathlib.Data.List.Sort
import Mathlib.Order.Lattice

/-! # The first rows of an order

`SELECT ... ORDER BY ... LIMIT n FOR UPDATE SKIP LOCKED`: the rows no other
transaction holds, in the order of a sort key, up to `n` of them. What a caller needs
to know of the result is `mem_limitSkipLocked`: a row is taken when it is free and fewer
than `n` free rows stand before it.
-/

namespace ReadCommitted

variable {ρ κ : Type} [LinearOrder κ]

/-- The free rows in order, up to `n`. -/
def limitSkipLocked (order : ρ → κ) (n : ℕ) (locked : ρ → Bool) (rows : List ρ) : List ρ :=
  ((rows.filter fun r => !locked r).insertionSort fun r r' => order r ≤ order r').take n

/-- In a strictly increasing list the position of a row is the number of rows before it. -/
theorem mem_take_iff_countP {order : ρ → κ} {rows : List ρ} {r : ρ} {n : ℕ}
    (hsorted : rows.Pairwise fun a b => order a < order b) (hr : r ∈ rows) :
    r ∈ rows.take n ↔ rows.countP (fun a => order a < order r) < n := by
  obtain ⟨before, after, rfl⟩ := List.append_of_mem hr
  obtain ⟨-, hafter, hbefore⟩ := List.pairwise_append.mp hsorted
  have hcount : (before ++ r :: after).countP (fun a => order a < order r) = before.length := by
    rw [List.countP_append, List.countP_cons_of_neg (by simp)]
    have hall : before.countP (fun a => order a < order r) = before.length :=
      List.countP_eq_length.mpr fun a ha => by simpa using hbefore a ha r List.mem_cons_self
    have hnone : after.countP (fun a => order a < order r) = 0 := by
      refine List.countP_eq_zero.mpr fun a ha => ?_
      simpa using (List.rel_of_pairwise_cons hafter ha).le
    omega
  rw [hcount]
  constructor
  · intro htake
    by_contra hle
    rw [List.take_append_of_le_length (by omega)] at htake
    exact lt_irrefl _ (hbefore r (List.mem_of_mem_take htake) r List.mem_cons_self)
  · intro hlt
    obtain ⟨m, rfl⟩ : ∃ m, n = before.length + (m + 1) := ⟨n - before.length - 1, by omega⟩
    rw [List.take_length_add_append, List.take_succ_cons]
    exact List.mem_append_right _ List.mem_cons_self

/-- The rows such a statement takes. -/
theorem mem_limitSkipLocked {order : ρ → κ} {n : ℕ} {locked : ρ → Bool} {rows : List ρ} {r : ρ}
    (hdistinct : rows.Pairwise fun a b => order a ≠ order b) :
    r ∈ limitSkipLocked order n locked rows ↔ r ∈ rows ∧ locked r = false ∧
      rows.countP (fun a => !locked a && order a < order r) < n := by
  obtain ⟨free, hfree⟩ : ∃ free, free = rows.filter fun a => !locked a := ⟨_, rfl⟩
  have htotal : Std.Total fun a b : ρ => order a ≤ order b := ⟨fun a b => le_total _ _⟩
  have htrans : IsTrans ρ fun a b => order a ≤ order b := ⟨fun _ _ _ => le_trans⟩
  have hperm := List.perm_insertionSort (fun a b => order a ≤ order b) free
  have hsymm : Std.Symm fun a b : ρ => order a ≠ order b := ⟨fun _ _ => Ne.symm⟩
  have hne : (free.insertionSort fun a b => order a ≤ order b).Pairwise
      fun a b => order a ≠ order b :=
    hperm.symm.pairwise (hfree ▸ hdistinct.filter _) fun h => h.symm
  have hsorted : (free.insertionSort fun a b => order a ≤ order b).Pairwise
      fun a b => order a < order b :=
    (List.pairwise_insertionSort _ _).imp₂ (fun _ _ hle hne => lt_of_le_of_ne hle hne) hne
  rw [limitSkipLocked, ← hfree]
  constructor
  · intro htake
    have hmem := List.mem_of_mem_take htake
    have hrank := (mem_take_iff_countP hsorted hmem).mp htake
    rw [hperm.countP_eq, hfree, List.countP_filter] at hrank
    rw [hperm.mem_iff, hfree, List.mem_filter] at hmem
    refine ⟨hmem.1, by simpa using hmem.2, ?_⟩
    simpa [Bool.and_comm] using hrank
  · rintro ⟨hmem, hlocked, hrank⟩
    have hmem' : r ∈ free.insertionSort fun a b => order a ≤ order b := by
      rw [hperm.mem_iff, hfree, List.mem_filter]
      exact ⟨hmem, by simp [hlocked]⟩
    refine (mem_take_iff_countP hsorted hmem').mpr ?_
    rw [hperm.countP_eq, hfree, List.countP_filter]
    simpa [Bool.and_comm] using hrank

end ReadCommitted
