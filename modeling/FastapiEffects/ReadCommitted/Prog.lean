import FastapiEffects.ReadCommitted.Table

/-! # Transactions as programs

A transaction is the sequence of statements it sends to the database, each
followed by what the client computes from the answer. `Prog` is that sequence as
a tree: the constructors are the statements whose interleaving matters at
READ COMMITTED (`World` gives them their concurrent meaning), and a program ends
by returning a value, which commits, or by raising, which rolls back.

`Session` runs one program alone, which is how a single call behaves.
-/

namespace ReadCommitted

/-- A transaction over rows `ρ` named by keys `κ`, with fresh identifiers `ι`,
errors `ε` and result `α`. -/
inductive Prog (κ ρ ι ε α : Type) : Type where
  | ret (a : α)
  | raise (e : ε)
  /-- `clock_timestamp()`: the wall clock of the database, not of the snapshot. -/
  | clock (k : Int → Prog κ ρ ι ε α)
  /-- An identifier nobody has used before. -/
  | fresh (k : ι → Prog κ ρ ι ε α)
  /-- The rows one statement's snapshot shows, in an order the database picks. -/
  | scan (k : List ρ → Prog κ ρ ι ε α)
  /-- A plain `SELECT` of one row by its primary key. -/
  | read (x : κ) (k : Option ρ → Prog κ ρ ι ε α)
  /-- `FOR UPDATE` of one row: wait for it, then see its latest version. -/
  | lock (x : κ) (k : Option ρ → Prog κ ρ ι ε α)
  /-- `FOR UPDATE SKIP LOCKED` of one row: as `lock`, but nothing when another
  transaction holds the row. -/
  | tryLock (x : κ) (k : Option ρ → Prog κ ρ ι ε α)
  /-- `pg_advisory_xact_lock`: wait for a name that is not a row. -/
  | advisory (x : κ) (k : Prog κ ρ ι ε α)
  /-- `UPDATE` of one row. -/
  | put (r : ρ) (k : Prog κ ρ ι ε α)
  /-- `INSERT` of one row; `false` when a unique constraint refuses it. -/
  | insert (r : ρ) (k : Bool → Prog κ ρ ι ε α)
  /-- `DELETE` of one row. -/
  | erase (x : κ) (k : Prog κ ρ ι ε α)

namespace Prog

variable {κ ρ ι ε α β : Type}

/-- Run `p`, then the program its result selects. -/
def bind : Prog κ ρ ι ε α → (α → Prog κ ρ ι ε β) → Prog κ ρ ι ε β
  | .ret a, f => f a
  | .raise e, _ => .raise e
  | .clock k, f => .clock fun t => (k t).bind f
  | .fresh k, f => .fresh fun i => (k i).bind f
  | .scan k, f => .scan fun rs => (k rs).bind f
  | .read x k, f => .read x fun r => (k r).bind f
  | .lock x k, f => .lock x fun r => (k r).bind f
  | .tryLock x k, f => .tryLock x fun r => (k r).bind f
  | .advisory x k, f => .advisory x (k.bind f)
  | .put r k, f => .put r (k.bind f)
  | .insert r k, f => .insert r fun b => (k b).bind f
  | .erase x k, f => .erase x (k.bind f)

/-- `try: p except: h`. What `p` changed before it raised stays pending. -/
def tryCatch : Prog κ ρ ι ε α → (ε → Prog κ ρ ι ε α) → Prog κ ρ ι ε α
  | .ret a, _ => .ret a
  | .raise e, h => h e
  | .clock k, h => .clock fun t => (k t).tryCatch h
  | .fresh k, h => .fresh fun i => (k i).tryCatch h
  | .scan k, h => .scan fun rs => (k rs).tryCatch h
  | .read x k, h => .read x fun r => (k r).tryCatch h
  | .lock x k, h => .lock x fun r => (k r).tryCatch h
  | .tryLock x k, h => .tryLock x fun r => (k r).tryCatch h
  | .advisory x k, h => .advisory x (k.tryCatch h)
  | .put r k, h => .put r (k.tryCatch h)
  | .insert r k, h => .insert r fun b => (k b).tryCatch h
  | .erase x k, h => .erase x (k.tryCatch h)

instance : Monad (Prog κ ρ ι ε) where
  pure := .ret
  bind := .bind

/-- A computation of the client that may raise. -/
def ofExcept : Except ε α → Prog κ ρ ι ε α
  | .ok a => .ret a
  | .error e => .raise e

@[simp] theorem pure_eq (a : α) : (pure a : Prog κ ρ ι ε α) = .ret a := rfl

@[simp] theorem bind_eq (p : Prog κ ρ ι ε α) (f : α → Prog κ ρ ι ε β) : (p >>= f) = p.bind f := rfl

@[simp] theorem ofExcept_ok (a : α) : (ofExcept (.ok a) : Prog κ ρ ι ε α) = .ret a := rfl

@[simp] theorem ofExcept_error (e : ε) : (ofExcept (.error e) : Prog κ ρ ι ε α) = .raise e := rfl

end Prog

/-! ## One transaction alone -/

/-- What a transaction that runs alone meets: the committed rows, the readings
the database clock will give, the identifiers it will be handed, and the changes
it has pending. -/
structure Session (κ ρ ι : Type) [Schema κ ρ] where
  db : Table κ ρ
  clock : ℕ → Int
  supply : ℕ → ι
  pending : List (Write κ ρ)

namespace Session

variable {κ ρ ι ε α : Type} [DecidableEq κ] [Schema κ ρ]

/-- A session about to start on `db`. -/
def on (db : Table κ ρ) (clock : ℕ → Int) (supply : ℕ → ι) : Session κ ρ ι :=
  ⟨db, clock, supply, []⟩

/-- The rows the transaction sees: the committed ones under its own changes. -/
def visible (s : Session κ ρ ι) : Table κ ρ := s.db.install s.pending

/-- Add a pending change. -/
def change (s : Session κ ρ ι) (w : Write κ ρ) : Session κ ρ ι :=
  { s with pending := s.pending ++ [w] }

/-- Two rows a unique constraint keeps apart, the primary key included. -/
def conflict (r r' : ρ) : Bool :=
  (Schema.key r : κ) = Schema.key r' ∨ Schema.clash r r'

/-- Run a program without any other transaction in the way. -/
def run (s : Session κ ρ ι) : Prog κ ρ ι ε α → Except ε (α × Session κ ρ ι)
  | .ret a => .ok (a, s)
  | .raise e => .error e
  | .clock k => run { s with clock := fun n => s.clock (n + 1) } (k (s.clock 0))
  | .fresh k => run { s with supply := fun n => s.supply (n + 1) } (k (s.supply 0))
  | .scan k => run s (k s.visible.rows)
  | .read x k => run s (k (s.visible.get x))
  | .lock x k => run s (k (s.visible.get x))
  | .tryLock x k => run s (k (s.visible.get x))
  | .advisory _ k => run s k
  | .put r k => run (s.change (.put r)) k
  | .insert r k =>
      if s.visible.rows.any (conflict (κ := κ) r) then run s (k false)
      else run (s.change (.put r)) (k true)
  | .erase x k => run (s.change (.erase x)) k

end Session

end ReadCommitted
