import Mathlib.Data.List.Basic

/-! # Coroutines over a state

A coroutine changes a state, and only at an await can it be made to raise from
outside. `Surroundings` says, await by await, how each one ends; a coroutine is then
a function of the state, which it leaves changed also where it raises.

`Ends` is the rule to reason with: what holds when a coroutine returns, and what
holds when it raises.
-/

namespace Coroutine

/-- How each await ends, counted from the start of everything. -/
abbrev Surroundings (β ε : Type) := ℕ → Except ε β

/-- A state, and the number of awaits that led to it. -/
structure Progress (σ : Type) where
  state : σ
  awaits : ℕ

/-- A coroutine over `σ` whose awaits give `β`; it raises an `ε` or returns an `α`. -/
def Coro (β ε σ α : Type) : Type := Surroundings β ε → Progress σ → Except ε α × Progress σ

namespace Coro

variable {β ε σ α γ : Type}

def ret (a : α) : Coro β ε σ α := fun _ s => (.ok a, s)

def raise (e : ε) : Coro β ε σ α := fun _ s => (.error e, s)

/-- Run `c`, then the coroutine its result selects. -/
def bind (c : Coro β ε σ α) (f : α → Coro β ε σ γ) : Coro β ε σ γ := fun env s =>
  match c env s with
  | (.ok a, s') => f a env s'
  | (.error e, s') => (.error e, s')

/-- Read the state. -/
def get : Coro β ε σ σ := fun _ s => (.ok s.state, s)

/-- Change the state. -/
def modify (f : σ → σ) : Coro β ε σ Unit := fun _ s => (.ok (), { s with state := f s.state })

/-- Await a call that changes the state by how it ends. -/
def awaitWith (f : Except ε β → σ → σ) : Coro β ε σ β := fun env s =>
  (env s.awaits, ⟨f (env s.awaits) s.state, s.awaits + 1⟩)

/-- Await a call that does not change the state. -/
def await : Coro β ε σ β := awaitWith fun _ s => s

/-- `try: c except BaseException: h`. -/
def tryExcept (c : Coro β ε σ α) (h : ε → Coro β ε σ α) : Coro β ε σ α := fun env s =>
  match c env s with
  | (.ok a, s') => (.ok a, s')
  | (.error e, s') => h e env s'

/-- `try: c finally: f`, of an `f` that does not raise. -/
def tryFinally (c : Coro β ε σ α) (f : σ → σ) : Coro β ε σ α := fun env s =>
  let (r, s') := c env s
  (r, { s' with state := f s'.state })

instance : Monad (Coro β ε σ) where
  pure := ret
  bind := bind

@[simp] theorem pure_eq (a : α) : (pure a : Coro β ε σ α) = ret a := rfl

@[simp] theorem bind_eq (c : Coro β ε σ α) (f : α → Coro β ε σ γ) : (c >>= f) = c.bind f := rfl

/-- From `s` the coroutine returns as `post` says, or raises as `epost` says. -/
def Ends (env : Surroundings β ε) (post : α → Progress σ → Prop) (epost : ε → Progress σ → Prop)
    (c : Coro β ε σ α) (s : Progress σ) : Prop :=
  match c env s with
  | (.ok a, s') => post a s'
  | (.error e, s') => epost e s'

variable {env : Surroundings β ε} {post post' : α → Progress σ → Prop}
  {epost epost' : ε → Progress σ → Prop} {s : Progress σ}

theorem Ends.mono (hpost : ∀ a s, post a s → post' a s) (hepost : ∀ e s, epost e s → epost' e s)
    {c : Coro β ε σ α} (h : c.Ends env post epost s) : c.Ends env post' epost' s := by
  unfold Ends at h ⊢
  split at h
  · exact hpost _ _ h
  · exact hepost _ _ h

/-- Two coroutines in sequence. -/
theorem ends_bind {post : γ → Progress σ → Prop} {c : Coro β ε σ α} {f : α → Coro β ε σ γ} :
    (c.bind f).Ends env post epost s ↔ c.Ends env (fun a s => (f a).Ends env post epost s) epost s := by
  unfold Ends bind
  rcases c env s with ⟨a | e, s'⟩ <;> rfl

@[simp] theorem ends_raise {e : ε} : (raise e).Ends env post epost s ↔ epost e s := Iff.rfl

end Coro

end Coroutine
