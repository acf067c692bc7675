import FastapiEffects.ReadCommitted.Outcome
import FastapiEffects.ReadCommitted.Serializable
import FastapiEffects.ReadCommitted.Unique
import FastapiEffects.ReadCommitted.Written

/-! # Rows that are only added

A transaction that only inserts rows, and names them by identifiers it was handed itself,
takes nothing back and runs into no row of another one: whatever the interleaving, the rows
of a reachable world stay. `Protocol.appending` is the discipline of such transactions, and
`Ctx.Adds` what one of them has to show when it ends.
-/

namespace ReadCommitted

variable {κ ρ ι ε o α : Type}

/-! ## The discipline -/

variable [DecidableEq κ] [Schema κ ρ] {names : ρ → List ι}

/-- A transaction that has only added `rows`, under names it was handed. -/
structure Ctx.Adds (names : ρ → List ι) (c : Ctx κ ρ ι) (rows : List ρ) : Prop where
  writes : c.writes = rows.map Write.put
  distinct : rows.Pairwise fun r r' => (Schema.key r : κ) ≠ Schema.key r'
  named : ∀ r ∈ rows, ∀ i ∈ names r, i ∈ c.ids

section Appending

variable {P : Protocol κ ρ ι ε o α} {c : Ctx κ ρ ι} {db : Table κ ρ} {rows : List ρ}

/-- The rows after some insertions whose keys differ. -/
theorem mem_install_puts {t : Table κ ρ}
    (hdistinct : rows.Pairwise fun r r' => (Schema.key r : κ) ≠ Schema.key r') {r : ρ} :
    r ∈ (t.install (rows.map Write.put)).rows ↔
      r ∈ rows ∨ (r ∈ t.rows ∧ ∀ r' ∈ rows, (Schema.key r' : κ) ≠ Schema.key r) := by
  induction rows generalizing t with
  | nil => simp
  | cons r₀ rows ih =>
      obtain ⟨hhead, htail⟩ := List.pairwise_cons.mp hdistinct
      rw [List.map_cons, Table.install_put, ih htail, Table.mem_put]
      constructor
      · rintro (hmem | ⟨rfl | ⟨hold, hne⟩, hrest⟩)
        · exact Or.inl (List.mem_cons_of_mem _ hmem)
        · exact Or.inl List.mem_cons_self
        · exact Or.inr ⟨hold, List.forall_mem_cons.mpr ⟨Ne.symm hne, hrest⟩⟩
      · rintro (hmem | ⟨hold, hne⟩)
        · rcases List.mem_cons.mp hmem with rfl | hmem
          · exact Or.inr ⟨Or.inl rfl, fun r' hr' => Ne.symm (hhead r' hr')⟩
          · exact Or.inl hmem
        · obtain ⟨hfirst, hrest⟩ := List.forall_mem_cons.mp hne
          exact Or.inr ⟨Or.inr ⟨hold, Ne.symm hfirst⟩, hrest⟩

namespace Ctx.Adds

omit [DecidableEq κ] in
theorem init (seen : List ρ) : (Ctx.init seen : Ctx κ ρ ι).Adds names [] :=
  ⟨rfl, List.Pairwise.nil, by simp⟩

omit [DecidableEq κ] in
theorem mint (h : c.Adds names rows) (i : ι) : (c.mint i).Adds names rows :=
  ⟨h.writes, h.distinct, fun r hr j hj => List.mem_cons_of_mem _ (h.named r hr j hj)⟩

omit [DecidableEq κ] in
theorem see (h : c.Adds names rows) (seen : List ρ) : (c.see seen).Adds names rows :=
  ⟨h.writes, h.distinct, h.named⟩

/-- An insertion that was not refused has a new key. -/
theorem insert (h : c.Adds names rows) {r : ρ} (hr : ∀ i ∈ names r, i ∈ c.ids)
    (hnew : (c.visible db).rows.any (Session.conflict (κ := κ) r) = false) :
    (c.insert r).Adds names (rows ++ [r]) where
  writes := writes_insert h.writes
  distinct := by
    refine List.pairwise_append.mpr ⟨h.distinct, List.pairwise_singleton _ _, ?_⟩
    intro r' hr' r'' hr''
    rw [List.mem_singleton.mp hr'']
    intro hkey
    have hmem : r' ∈ (c.visible db).rows := by
      rw [Ctx.visible, h.writes]
      exact (mem_install_puts h.distinct).mpr (Or.inl hr')
    exact List.any_eq_false.mp hnew r' hmem (decide_eq_true (Or.inl hkey.symm))
  named := by
    intro r' hr'
    rcases List.mem_append.mp hr' with hold | hlast
    · exact h.named r' hold
    · rw [List.mem_singleton.mp hlast]
      exact hr

end Ctx.Adds

end Appending

end ReadCommitted
