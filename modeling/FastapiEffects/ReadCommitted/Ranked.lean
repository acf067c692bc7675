import Mathlib.Data.List.Sort

/-! # The first rows of every group

`row_number() OVER (PARTITION BY g ORDER BY ...) <= k` over rows that are listed in the
order of the window, and the `LIMIT n` an outer order puts on what is left. Both leave a row
out for one reason only, which `not_mem_ranked` and `not_mem_take` name.
-/

namespace ReadCommitted

variable {ρ γ : Type} [DecidableEq γ]

/-- The rows among the first `k` of their group; `earlier` has the groups of the rows before. -/
def ranked (group : ρ → γ) (k : ℕ) : List γ → List ρ → List ρ
  | _, [] => []
  | earlier, r :: rs =>
      let rest := ranked group k (group r :: earlier) rs
      if earlier.count (group r) < k then r :: rest else rest

theorem ranked_sublist (group : ρ → γ) (k : ℕ) (earlier : List γ) (rows : List ρ) :
    (ranked group k earlier rows).Sublist rows := by
  induction rows generalizing earlier with
  | nil => exact List.Sublist.refl _
  | cons r rs ih =>
      simp only [ranked]
      split_ifs
      · exact (ih _).cons_cons r
      · exact (ih _).cons r

/-- No group has more than `k` of its rows selected, those before included. -/
theorem countP_ranked_le (group : ρ → γ) (k : ℕ) (g : γ) (earlier : List γ) (rows : List ρ) :
    (ranked group k earlier rows).countP (fun r => group r = g) ≤ k - earlier.count g := by
  induction rows generalizing earlier with
  | nil => exact Nat.zero_le _
  | cons r rs ih =>
      have hrest := ih (group r :: earlier)
      simp only [ranked]
      by_cases hg : group r = g
      · rw [hg, List.count_cons_self] at hrest
        rw [hg]
        split_ifs with hlt
        · rw [List.countP_cons_of_pos (by simpa using hg)]
          omega
        · omega
      · rw [List.count_cons_of_ne hg] at hrest
        split_ifs
        · rw [List.countP_cons_of_neg (by simpa using hg)]
          exact hrest
        · exact hrest

/-- A row is left out when `k` rows of its group are listed before it. -/
theorem not_mem_ranked {group : ρ → γ} {k : ℕ} {earlier : List γ} {rows : List ρ} {r : ρ}
    (hr : r ∈ rows) (hout : r ∉ ranked group k earlier rows) :
    ∃ before after, rows = before ++ r :: after ∧
      k ≤ earlier.count (group r) + before.countP fun b => group b = group r := by
  induction rows generalizing earlier with
  | nil => cases hr
  | cons a rs ih =>
      simp only [ranked] at hout
      by_cases hfirst : a = r ∧ k ≤ earlier.count (group a)
      · -- the rank of the row itself is too high
        rcases hfirst with ⟨rfl, hle⟩
        exact ⟨[], rs, rfl, hle⟩
      · have hrest : r ∉ ranked group k (group a :: earlier) rs := by
          intro hmem
          apply hout
          split_ifs
          · exact List.mem_cons_of_mem a hmem
          · exact hmem
        have hlater : r ∈ rs := by
          rcases List.mem_cons.mp hr with rfl | hlater
          · have hlt : earlier.count (group r) < k := not_le.mp fun hle => hfirst ⟨rfl, hle⟩
            rw [if_pos hlt] at hout
            exact absurd List.mem_cons_self hout
          · exact hlater
        rcases ih hlater hrest with ⟨before, after, hsplit, hrank⟩
        refine ⟨a :: before, after, congrArg (List.cons a) hsplit, ?_⟩
        by_cases hg : group a = group r
        · rw [hg, List.count_cons_self] at hrank
          rw [List.countP_cons_of_pos (by simpa using hg)]
          omega
        · rw [List.count_cons_of_ne hg] at hrank
          rw [List.countP_cons_of_neg (by simpa using hg)]
          exact hrank

/-- In rows sorted by `le`, a row is left out when `k` rows of its group come before it. -/
theorem exists_before_of_not_mem_ranked {group : ρ → γ} {k : ℕ} {rows : List ρ} {r : ρ}
    {le : ρ → ρ → Prop} (hsorted : rows.Pairwise le) (hr : r ∈ rows)
    (hout : r ∉ ranked group k [] rows) :
    ∃ before : List ρ, (before ++ [r]).Sublist rows ∧ before.length = k ∧
      ∀ b ∈ before, group b = group r ∧ le b r := by
  rcases not_mem_ranked hr hout with ⟨front, after, rfl, hrank⟩
  rw [List.count_nil, Nat.zero_add, List.countP_eq_length_filter] at hrank
  have hsub : ((front.filter fun b => group b = group r).take k).Sublist front :=
    (List.take_sublist _ _).trans List.filter_sublist
  refine ⟨(front.filter fun b => group b = group r).take k, ?_, ?_, ?_⟩
  · exact hsub.append (List.singleton_sublist.mpr List.mem_cons_self)
  · exact List.length_take_of_le hrank
  · intro b hb
    have hfilter := List.mem_filter.mp (List.mem_of_mem_take hb)
    refine ⟨of_decide_eq_true hfilter.2, ?_⟩
    exact (List.pairwise_append.mp hsorted).2.2 b hfilter.1 r List.mem_cons_self

/-- Of sorted rows, one is left out by a limit when as many as the limit come before it. -/
theorem not_mem_take {n : ℕ} {rows : List ρ} {r : ρ} {le : ρ → ρ → Prop}
    (hsorted : rows.Pairwise le) (hr : r ∈ rows) (hout : r ∉ rows.take n) :
    (rows.take n).length = n ∧ ∀ b ∈ rows.take n, le b r := by
  rw [← List.take_append_drop n rows] at hr hsorted
  have hdrop : r ∈ rows.drop n := (List.mem_append.mp hr).resolve_left hout
  constructor
  · have hlong : 0 < (rows.drop n).length := List.length_pos_of_mem hdrop
    rw [List.length_drop] at hlong
    rw [List.length_take]
    omega
  · intro b hb
    exact (List.pairwise_append.mp hsorted).2.2 b hb r hdrop

end ReadCommitted
