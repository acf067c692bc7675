import FastapiEffects.ReadCommitted.Caller
import FastapiEffects.ReadCommitted.Written

/-! # Programs that return

What a program needs to return when no other transaction is in its way. `Session.Returns` is the
weakest precondition for that, with one rule for each statement; a program that writes only rows
with a property keeps it of the rows its session sees.
-/

namespace ReadCommitted

namespace Session

variable {κ ρ ι ε α β : Type} [DecidableEq κ] [Schema κ ρ] {s : Session κ ρ ι}

/-- The program returns, with a result and a session in `Q`. -/
def Returns (s : Session κ ρ ι) (p : Prog κ ρ ι ε α) (Q : α → Session κ ρ ι → Prop) : Prop :=
  ∃ a s', s.exec p = (.ok a, s') ∧ Q a s'

/-! ## Statements -/

section Statements

variable {Q : α → Session κ ρ ι → Prop} {a : α} {e : ε}

@[simp] theorem returns_ret : s.Returns (.ret a : Prog κ ρ ι ε α) Q ↔ Q a s := by
  constructor
  · rintro ⟨b, s', hexec, hQ⟩
    cases hexec
    exact hQ
  · intro hQ
    exact ⟨a, s, rfl, hQ⟩

@[simp] theorem returns_raise : ¬ s.Returns (.raise e : Prog κ ρ ι ε α) Q := by
  rintro ⟨a, s', hexec, -⟩
  cases hexec

@[simp] theorem returns_clock {k : Int → Prog κ ρ ι ε α} :
    s.Returns (.clock k) Q ↔
      Returns { s with clock := fun n => s.clock (n + 1) } (k (s.clock 0)) Q := Iff.rfl

@[simp] theorem returns_fresh {k : ι → Prog κ ρ ι ε α} :
    s.Returns (.fresh k) Q ↔
      Returns { s with supply := fun n => s.supply (n + 1) } (k (s.supply 0)) Q := Iff.rfl

@[simp] theorem returns_scan {k : List ρ → Prog κ ρ ι ε α} :
    s.Returns (.scan k) Q ↔ s.Returns (k s.visible.rows) Q := Iff.rfl

@[simp] theorem returns_read {x : κ} {k : Option ρ → Prog κ ρ ι ε α} :
    s.Returns (.read x k) Q ↔ s.Returns (k (s.visible.get x)) Q := Iff.rfl

@[simp] theorem returns_lock {x : κ} {k : Option ρ → Prog κ ρ ι ε α} :
    s.Returns (.lock x k) Q ↔ s.Returns (k (s.visible.get x)) Q := Iff.rfl

@[simp] theorem returns_tryLock {x : κ} {k : Option ρ → Prog κ ρ ι ε α} :
    s.Returns (.tryLock x k) Q ↔ s.Returns (k (s.visible.get x)) Q := Iff.rfl

@[simp] theorem returns_put {r : ρ} {p : Prog κ ρ ι ε α} :
    s.Returns (.put r p) Q ↔ (s.change (.put r)).Returns p Q := Iff.rfl

/-- An insertion that meets no conflict. -/
theorem returns_insert {r : ρ} {k : Bool → Prog κ ρ ι ε α}
    (hnew : s.visible.rows.any (conflict (κ := κ) r) = false) :
    s.Returns (.insert r k) Q ↔ (s.change (.put r)).Returns (k true) Q := by
  unfold Returns
  rw [exec, hnew]
  rfl

@[simp] theorem returns_ofExcept {x : Except ε α} :
    s.Returns (.ofExcept x : Prog κ ρ ι ε α) Q ↔ ∃ a, x = .ok a ∧ Q a s := by
  unfold Returns
  simp only [exec_ofExcept, Prod.mk.injEq]
  constructor
  · rintro ⟨a, s', ⟨hx, rfl⟩, hQ⟩
    exact ⟨a, hx, hQ⟩
  · rintro ⟨a, hx, hQ⟩
    exact ⟨a, s, ⟨hx, rfl⟩, hQ⟩

end Statements

/-! ## Composition -/

/-- Sequencing. -/
theorem returns_bind {p : Prog κ ρ ι ε α} {f : α → Prog κ ρ ι ε β} {Q : β → Session κ ρ ι → Prop} :
    s.Returns (p.bind f) Q ↔ s.Returns p fun a s' => s'.Returns (f a) Q := by
  constructor
  · rintro ⟨b, s', hexec, hQ⟩
    rcases exec_bind_eq_ok hexec with ⟨a, s₁, hp, hf⟩
    exact ⟨a, s₁, hp, b, s', hf, hQ⟩
  · rintro ⟨a, s₁, hp, b, s', hf, hQ⟩
    exact ⟨b, s', (exec_bind_ok hp f).trans hf, hQ⟩

/-- A program whose run is known. -/
theorem returns_of_exec {p : Prog κ ρ ι ε α} {a : α} {s' : Session κ ρ ι}
    {Q : α → Session κ ρ ι → Prop} (h : s.exec p = (.ok a, s')) : s.Returns p Q ↔ Q a s' := by
  constructor
  · rintro ⟨a', s'', hexec, hQ⟩
    rw [h] at hexec
    cases hexec
    exact hQ
  · intro hQ
    exact ⟨a, s', h, hQ⟩

/-- Consequence. -/
theorem Returns.mono {p : Prog κ ρ ι ε α} {Q Q' : α → Session κ ρ ι → Prop} (h : s.Returns p Q)
    (hQ : ∀ a s', Q a s' → Q' a s') : s.Returns p Q' := by
  rcases h with ⟨a, s', hexec, hpost⟩
  exact ⟨a, s', hexec, hQ a s' hpost⟩

/-- A program has one outcome. -/
theorem Returns.and {p : Prog κ ρ ι ε α} {Q Q' : α → Session κ ρ ι → Prop} (h : s.Returns p Q)
    (h' : s.Returns p Q') : s.Returns p fun a s' => Q a s' ∧ Q' a s' := by
  rcases h with ⟨a, s₁, hexec, hQ⟩
  rcases h' with ⟨a', s₁', hexec', hQ'⟩
  rw [hexec] at hexec'
  cases hexec'
  exact ⟨a, s₁, hexec, hQ, hQ'⟩

/-- A transaction of its own returns when its program does. -/
theorem returns_iff_run {p : Prog κ ρ ι ε α} :
    (s.Returns p fun _ _ => True) ↔ ∃ a s', s.run p = .ok (a, s') := by
  rw [run_eq_exec]
  unfold Returns
  rcases s.exec p with ⟨e | a, s'⟩
  · constructor
    · rintro ⟨a, s', hexec, -⟩
      cases hexec
    · rintro ⟨a, s', hrun⟩
      cases hrun
  · constructor
    · intro _
      exact ⟨a, s', rfl⟩
    · intro _
      exact ⟨a, s', rfl, trivial⟩

/-! ## What is written -/

/-- A program that writes only rows in `R` leaves the rows in `R`. -/
theorem exec_writes {R : ρ → Prop} {Q : α → Prop} {p : Prog κ ρ ι ε α} (hp : p.Writes R R Q)
    (hrows : ∀ r ∈ s.visible.rows, R r) : ∀ r ∈ (s.exec p).2.visible.rows, R r := by
  have hput : ∀ {s : Session κ ρ ι} {r : ρ}, (∀ r ∈ s.visible.rows, R r) → R r →
      ∀ r' ∈ (s.change (.put r)).visible.rows, R r' := by
    intro s r hs hr r' hr'
    rw [visible_put] at hr'
    rcases Table.mem_put.mp hr' with rfl | ⟨hold, -⟩
    · exact hr
    · exact hs r' hold
  induction p generalizing s with
  | ret a => exact hrows
  | raise e => exact hrows
  | clock k ih => exact ih _ (hp _) hrows
  | fresh k ih => exact ih _ (hp _) hrows
  | scan k ih => exact ih _ (hp _) hrows
  | read x k ih => exact ih _ (hp _) hrows
  | lock x k ih => exact ih _ (hp _) hrows
  | tryLock x k ih => exact ih _ (hp _) hrows
  | advisory x k ih => exact ih hp hrows
  | put r k ih => exact ih hp.2 (hput hrows hp.1)
  | insert r k ih =>
      unfold exec
      split_ifs
      · exact ih _ (hp.2 false) hrows
      · exact ih _ (hp.2 true) (hput hrows hp.1)
  | erase x k ih =>
      refine ih hp fun r hr => hrows r ?_
      rw [show (s.change (.erase x)).visible = s.visible.erase x by simp [visible, change]] at hr
      exact (Table.mem_erase.mp hr).1

/-- What a program that returns leaves. -/
theorem Returns.keeps {R : ρ → Prop} {P : α → Prop} {p : Prog κ ρ ι ε α}
    {Q : α → Session κ ρ ι → Prop} (h : s.Returns p Q) (hp : p.Writes R R P)
    (hrows : ∀ r ∈ s.visible.rows, R r) :
    s.Returns p fun a s' => Q a s' ∧ ∀ r ∈ s'.visible.rows, R r := by
  rcases h with ⟨a, s', hexec, hQ⟩
  have hkept := exec_writes hp hrows
  rw [hexec] at hkept
  exact ⟨a, s', hexec, hQ, hkept⟩

end Session

end ReadCommitted
