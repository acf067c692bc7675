import Mathlib.Data.List.Basic

/-! # Programs that ask their surroundings

A coroutine between two of its awaits only computes; at an await it hands a
question to its surroundings and goes on with whatever they answer, an exception
included. `Program` is that coroutine as a tree. Its surroundings are not
modelled: a history (`Program.Runs`) takes any answers at all, and it may stop
anywhere, as a coroutine that is cancelled does.

`Program.Asks` is the rule to reason with: what may be asked after which history.
-/

namespace Interaction

/-- A program that asks questions `q : Q`, answered by an `R q` or an exception,
raises an `ε` and returns an `α`. -/
inductive Program (Q : Type) (R : Q → Type) (ε α : Type) : Type where
  | ret (a : α)
  | raise (e : ε)
  | ask (q : Q) (k : Except ε (R q) → Program Q R ε α)

/-- A question with the answer it got. -/
structure Event (Q : Type) (R : Q → Type) (ε : Type) where
  question : Q
  answer : Except ε (R question)

namespace Program

variable {Q : Type} {R : Q → Type} {ε α β : Type}

/-- Run `p`, then the program its result selects. -/
def bind : Program Q R ε α → (α → Program Q R ε β) → Program Q R ε β
  | .ret a, f => f a
  | .raise e, _ => .raise e
  | .ask q k, f => .ask q fun x => (k x).bind f

/-- `try: p except: h`. -/
def tryCatch : Program Q R ε α → (ε → Program Q R ε α) → Program Q R ε α
  | .ret a, _ => .ret a
  | .raise e, h => h e
  | .ask q k, h => .ask q fun x => (k x).tryCatch h

/-- A computation that may raise. -/
def ofExcept : Except ε α → Program Q R ε α
  | .ok a => .ret a
  | .error e => .raise e

/-- `await q`. -/
def await (q : Q) : Program Q R ε (R q) := .ask q .ofExcept

instance : Monad (Program Q R ε) where
  pure := .ret
  bind := .bind

@[simp] theorem pure_eq (a : α) : (pure a : Program Q R ε α) = .ret a := rfl

@[simp] theorem bind_eq (p : Program Q R ε α) (f : α → Program Q R ε β) :
    (p >>= f) = p.bind f := rfl

/-! ## Histories -/

/-- What a program has asked so far, and what it was answered. -/
inductive Runs : Program Q R ε α → List (Event Q R ε) → Prop
  | stop (p : Program Q R ε α) : Runs p []
  | step {q : Q} {k : Except ε (R q) → Program Q R ε α} (x : Except ε (R q))
      {events : List (Event Q R ε)} (h : Runs (k x) events) : Runs (.ask q k) (⟨q, x⟩ :: events)

/-- The history of a program in surroundings that answer by what was asked before. -/
def play (answer : List (Event Q R ε) → (q : Q) → Except ε (R q)) :
    List (Event Q R ε) → Program Q R ε α → List (Event Q R ε)
  | _, .ret _ => []
  | _, .raise _ => []
  | h, .ask q k => ⟨q, answer h q⟩ :: play answer (h ++ [⟨q, answer h q⟩]) (k (answer h q))

theorem runs_play {answer : List (Event Q R ε) → (q : Q) → Except ε (R q)}
    {h : List (Event Q R ε)} {p : Program Q R ε α} : p.Runs (play answer h p) := by
  induction p generalizing h with
  | ret a => exact .stop _
  | raise e => exact .stop _
  | ask q k ih => exact .step _ (ih _)

/-- After the history `h`, the program asks nothing that `ok` does not allow where it
asks it, returns only as `post` says and raises only as `epost` says. -/
def Asks (ok : List (Event Q R ε) → Q → Prop) (post : List (Event Q R ε) → α → Prop)
    (epost : List (Event Q R ε) → ε → Prop) : Program Q R ε α → List (Event Q R ε) → Prop
  | .ret a, h => post h a
  | .raise e, h => epost h e
  | .ask q k, h => ok h q ∧ ∀ x, (k x).Asks ok post epost (h ++ [⟨q, x⟩])

variable {ok : List (Event Q R ε) → Q → Prop} {post post' : List (Event Q R ε) → α → Prop}
  {epost epost' : List (Event Q R ε) → ε → Prop} {h : List (Event Q R ε)}

theorem Asks.mono (hpost : ∀ h a, post h a → post' h a) (hepost : ∀ h e, epost h e → epost' h e)
    {p : Program Q R ε α} (hp : p.Asks ok post epost h) : p.Asks ok post' epost' h := by
  induction p generalizing h with
  | ret a => exact hpost h a hp
  | raise e => exact hepost h e hp
  | ask q k ih => exact ⟨hp.1, fun x => ih x (hp.2 x)⟩

/-- Two programs in sequence. -/
theorem asks_bind {post : List (Event Q R ε) → β → Prop} {p : Program Q R ε α}
    {f : α → Program Q R ε β} :
    (p.bind f).Asks ok post epost h ↔ p.Asks ok (fun h a => (f a).Asks ok post epost h) epost h := by
  induction p generalizing h with
  | ret a => rfl
  | raise e => rfl
  | ask q k ih => simp only [bind, Asks, ih]

/-- A handler goes on from the history at which the body raised. -/
theorem asks_tryCatch {p : Program Q R ε α} {f : ε → Program Q R ε α} :
    (p.tryCatch f).Asks ok post epost h ↔ p.Asks ok post (fun h e => (f e).Asks ok post epost h) h := by
  induction p generalizing h with
  | ret a => rfl
  | raise e => rfl
  | ask q k ih => simp only [tryCatch, Asks, ih]

theorem asks_ofExcept {x : Except ε α} (hok : ∀ a, x = .ok a → post h a)
    (herror : ∀ e, x = .error e → epost h e) : (ofExcept x : Program Q R ε α).Asks ok post epost h := by
  cases x with
  | ok a => exact hok a rfl
  | error e => exact herror e rfl

theorem asks_await {q : Q} {post : List (Event Q R ε) → R q → Prop} (hask : ok h q)
    (hok : ∀ a, post (h ++ [⟨q, .ok a⟩]) a) (herror : ∀ e, epost (h ++ [⟨q, .error e⟩]) e) :
    (await q : Program Q R ε (R q)).Asks ok post epost h := by
  refine ⟨hask, fun x => ?_⟩
  cases x with
  | ok a => exact hok a
  | error e => exact herror e

/-- A program asks every question where it may: the events before a question allow it. -/
theorem Asks.of_runs {p : Program Q R ε α} {events : List (Event Q R ε)} (hruns : p.Runs events)
    (hp : p.Asks ok post epost h) {before after : List (Event Q R ε)} {e : Event Q R ε}
    (hsplit : events = before ++ e :: after) : ok (h ++ before) e.question := by
  induction hruns generalizing h before with
  | stop p => exact absurd hsplit.symm (List.append_ne_nil_of_right_ne_nil _ (List.cons_ne_nil _ _))
  | @step q k x events hrest ih =>
      cases before with
      | nil =>
          cases hsplit
          rw [List.append_nil]
          exact hp.1
      | cons e' before =>
          obtain ⟨rfl, hrest'⟩ := List.cons.inj hsplit
          have hok := ih (hp.2 x) hrest'
          rwa [List.append_assoc] at hok

/-! ## Complete histories -/

/-- The history of a program that was not stopped, and what it ended in. -/
inductive Completes : Program Q R ε α → List (Event Q R ε) → Except ε α → Prop
  | ret (a : α) : Completes (.ret a) [] (.ok a)
  | raise (e : ε) : Completes (.raise e) [] (.error e)
  | step {q : Q} {k : Except ε (R q) → Program Q R ε α} (x : Except ε (R q))
      {events : List (Event Q R ε)} {outcome : Except ε α} (h : Completes (k x) events outcome) :
      Completes (.ask q k) (⟨q, x⟩ :: events) outcome

/-- What a program ends in, in surroundings that answer by what was asked before. -/
def finish (answer : List (Event Q R ε) → (q : Q) → Except ε (R q)) :
    List (Event Q R ε) → Program Q R ε α → Except ε α
  | _, .ret a => .ok a
  | _, .raise e => .error e
  | h, .ask q k => finish answer (h ++ [⟨q, answer h q⟩]) (k (answer h q))

/-- In any surroundings a program comes to an end. -/
theorem completes_play {answer : List (Event Q R ε) → (q : Q) → Except ε (R q)}
    {h : List (Event Q R ε)} {p : Program Q R ε α} :
    p.Completes (play answer h p) (finish answer h p) := by
  induction p generalizing h with
  | ret a => exact .ret a
  | raise e => exact .raise e
  | ask q k ih => exact .step _ (ih _)

/-- Two programs in sequence end as the second does, or as the first one raises. -/
theorem completes_bind {p : Program Q R ε α} {f : α → Program Q R ε β}
    {events : List (Event Q R ε)} {outcome : Except ε β} (h : (p.bind f).Completes events outcome) :
    (∃ a first rest, events = first ++ rest ∧ p.Completes first (.ok a) ∧
        (f a).Completes rest outcome) ∨
      ∃ e, p.Completes events (.error e) ∧ outcome = .error e := by
  induction p generalizing events with
  | ret a => exact .inl ⟨a, [], events, rfl, .ret a, h⟩
  | raise e =>
      cases h
      exact .inr ⟨e, .raise e, rfl⟩
  | ask q k ih =>
      cases h with
      | step x hrest =>
          rcases ih x hrest with ⟨a, first, rest, rfl, hfirst, hrest⟩ | ⟨e, herror, rfl⟩
          · exact .inl ⟨a, _ :: first, rest, rfl, .step x hfirst, hrest⟩
          · exact .inr ⟨e, .step x herror, rfl⟩

/-- A handler goes on where the body raised. -/
theorem completes_tryCatch {p : Program Q R ε α} {f : ε → Program Q R ε α}
    {events : List (Event Q R ε)} {outcome : Except ε α}
    (h : (p.tryCatch f).Completes events outcome) :
    (∃ a, p.Completes events (.ok a) ∧ outcome = .ok a) ∨
      ∃ e first rest, events = first ++ rest ∧ p.Completes first (.error e) ∧
        (f e).Completes rest outcome := by
  induction p generalizing events with
  | ret a =>
      cases h
      exact .inl ⟨a, .ret a, rfl⟩
  | raise e => exact .inr ⟨e, [], events, rfl, .raise e, h⟩
  | ask q k ih =>
      cases h with
      | step x hrest =>
          rcases ih x hrest with ⟨a, hok, rfl⟩ | ⟨e, first, rest, rfl, herror, hrest⟩
          · exact .inl ⟨a, .step x hok, rfl⟩
          · exact .inr ⟨e, _ :: first, rest, rfl, .step x herror, hrest⟩

theorem completes_ofExcept {x : Except ε α} {events : List (Event Q R ε)} {outcome : Except ε α}
    (h : (ofExcept x : Program Q R ε α).Completes events outcome) : events = [] ∧ outcome = x := by
  cases x with
  | ok a =>
      cases h
      exact ⟨rfl, rfl⟩
  | error e =>
      cases h
      exact ⟨rfl, rfl⟩

/-- An await ends in its answer. -/
theorem completes_await {q : Q} {events : List (Event Q R ε)} {outcome : Except ε (R q)}
    (h : (await q : Program Q R ε (R q)).Completes events outcome) : events = [⟨q, outcome⟩] := by
  cases h with
  | step x hrest =>
      obtain ⟨rfl, rfl⟩ := completes_ofExcept hrest
      rfl

end Program

end Interaction
