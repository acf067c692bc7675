import FastapiEffects.ReadCommitted.Prog
import Mathlib.Logic.Function.Basic
import Mathlib.Logic.Relation

/-! # Interleaved transactions at READ COMMITTED

`Step` is one atomic action of a database with any number of transactions in
flight: a statement of one of them, a commit, an error, a crash, or the passing
of time. Writes stay pending until commit; a row lock is kept until the
transaction ends; a statement reads the committed rows at the moment it runs,
under the transaction's own changes.

A store remembers, besides the rows, the log of the transactions that ended by
returning or raising. The log and the fields `beganDb`, `beganAt`, `seen` and
`clocks` are history: no program reads them.
-/

namespace ReadCommitted

/-- A transaction that has ended: what it was, the committed rows and the time
when it began, the clock readings it took, and how it ended. -/
structure Entry (κ ρ ε o α : Type) [Schema κ ρ] where
  op : o
  beganDb : Table κ ρ
  beganAt : Int
  clocks : List Int
  result : Except ε α

/-- The committed state: the rows, the database clock and the log. -/
structure Store (κ ρ ε o α : Type) [Schema κ ρ] where
  db : Table κ ρ
  now : Int
  log : List (Entry κ ρ ε o α)

/-- What a running transaction holds: row locks, identifiers, the committed rows
of its last snapshot, its clock readings, its pending changes, and which of these
insert a row. -/
structure Ctx (κ ρ ι : Type) where
  held : List κ
  ids : List ι
  seen : List ρ
  clocks : List Int
  writes : List (Write κ ρ)
  inserted : List ρ

/-- A running transaction. -/
structure Txn (κ ρ ι ε o α : Type) [Schema κ ρ] where
  op : o
  beganDb : Table κ ρ
  beganAt : Int
  prog : Prog κ ρ ι ε α
  ctx : Ctx κ ρ ι

/-- Committed state, lock owners, holders of identifiers, and the transactions
in flight, each under its number. -/
structure World (κ ρ ι ε o α : Type) [Schema κ ρ] where
  store : Store κ ρ ε o α
  owner : κ → Option ℕ
  minted : ι → Option ℕ
  txns : List (Option (Txn κ ρ ι ε o α))

/-- The operations a system runs: the program of each, when a caller may start
it, and what a row may look like when `SKIP LOCKED` grants its lock (`True` for
PostgreSQL as it is; a run that meets a stronger guard is a restricted run). -/
structure Protocol (κ ρ ι ε o α : Type) [Schema κ ρ] where
  prog : o → Prog κ ρ ι ε α
  allowed : Store κ ρ ε o α → o → Prop
  guard : o → List ρ → κ → Option ρ → Prop

variable {κ ρ ι ε o α : Type} [DecidableEq κ] [Schema κ ρ]

namespace Ctx

/-- A transaction that has done nothing yet, begun on the committed rows `seen`. -/
def init (seen : List ρ) : Ctx κ ρ ι := ⟨[], [], seen, [], [], []⟩

/-- The rows the transaction sees over committed rows `db`. -/
def visible (c : Ctx κ ρ ι) (db : Table κ ρ) : Table κ ρ := db.install c.writes

/-- Keep the lock on `x`. -/
def hold (c : Ctx κ ρ ι) (x : κ) : Ctx κ ρ ι := { c with held := x :: c.held }

/-- Keep the lock on `x` when there is such a row. -/
def holdRow (c : Ctx κ ρ ι) (x : κ) (r : Option ρ) : Ctx κ ρ ι :=
  if r.isSome then c.hold x else c

/-- Keep an identifier. -/
def mint (c : Ctx κ ρ ι) (i : ι) : Ctx κ ρ ι := { c with ids := i :: c.ids }

/-- Remember the committed rows of a snapshot. -/
def see (c : Ctx κ ρ ι) (rows : List ρ) : Ctx κ ρ ι := { c with seen := rows }

/-- Remember a clock reading. -/
def tell (c : Ctx κ ρ ι) (t : Int) : Ctx κ ρ ι := { c with clocks := c.clocks ++ [t] }

/-- Hold the target of a change and keep the change pending. -/
def change (c : Ctx κ ρ ι) (w : Write κ ρ) : Ctx κ ρ ι :=
  { c with held := w.target :: c.held, writes := c.writes ++ [w] }

/-- Insert a row. -/
def insert (c : Ctx κ ρ ι) (r : ρ) : Ctx κ ρ ι :=
  { c.change (.put r) with inserted := r :: c.inserted }

end Ctx

namespace Store

/-- The state after a transaction ends with changes `ws`. -/
def commit (s : Store κ ρ ε o α) (e : Entry κ ρ ε o α) (ws : List (Write κ ρ)) :
    Store κ ρ ε o α :=
  { s with db := s.db.install ws, log := s.log ++ [e] }

/-- Time passes. -/
def atTime (s : Store κ ρ ε o α) (t : Int) : Store κ ρ ε o α := { s with now := t }

end Store

namespace Txn

/-- A transaction about to run its first statement. -/
def begin (op : o) (s : Store κ ρ ε o α) (p : Prog κ ρ ι ε α) : Txn κ ρ ι ε o α :=
  ⟨op, s.db, s.now, p, Ctx.init s.db.rows⟩

/-- Go on with `p` and `c`. -/
def next (x : Txn κ ρ ι ε o α) (p : Prog κ ρ ι ε α) (c : Ctx κ ρ ι) : Txn κ ρ ι ε o α :=
  { x with prog := p, ctx := c }

/-- How the log remembers the transaction. -/
def entry (x : Txn κ ρ ι ε o α) (res : Except ε α) : Entry κ ρ ε o α :=
  ⟨x.op, x.beganDb, x.beganAt, x.ctx.clocks, res⟩

end Txn

namespace World

/-- The transaction running under a number. -/
def txn (w : World κ ρ ι ε o α) (t : ℕ) : Option (Txn κ ρ ι ε o α) := w.txns[t]?.join

/-- Put a running transaction in place. -/
def set (w : World κ ρ ι ε o α) (t : ℕ) (x : Txn κ ρ ι ε o α) : World κ ρ ι ε o α :=
  { w with txns := w.txns.set t (some x) }

/-- No other transaction owns `x`. -/
def free (w : World κ ρ ι ε o α) (t : ℕ) (x : κ) : Prop :=
  w.owner x = none ∨ w.owner x = some t

/-- Give `x` to `t`. -/
def own (w : World κ ρ ι ε o α) (t : ℕ) (x : κ) : World κ ρ ι ε o α :=
  { w with owner := Function.update w.owner x (some t) }

/-- Give `x` to `t` when there is such a row. -/
def ownRow (w : World κ ρ ι ε o α) (t : ℕ) (x : κ) (r : Option ρ) : World κ ρ ι ε o α :=
  if r.isSome then w.own t x else w

/-- End transaction `t`: its locks are released. -/
def close (w : World κ ρ ι ε o α) (t : ℕ) : World κ ρ ι ε o α :=
  { w with
    owner := fun x => if w.owner x = some t then none else w.owner x
    txns := w.txns.set t none }

instance (w : World κ ρ ι ε o α) (t : ℕ) (x : κ) : Decidable (w.free t x) :=
  inferInstanceAs (Decidable (_ ∨ _))

/-- Whether another transaction has a change pending that an insertion of `r`
waits for: it stores a conflicting row, or removes the committed one. -/
def pendingConflict (w : World κ ρ ι ε o α) (t : ℕ) (r : ρ) : Bool :=
  (List.range w.txns.length).any fun u => u ≠ t &&
    match w.txn u with
    | none => false
    | some y => y.ctx.writes.any fun
        | .put r' => Session.conflict (κ := κ) r r'
        | .erase x => (w.store.db.get x).any (Session.conflict (κ := κ) r)

end World

/-- One atomic action. -/
inductive Step [DecidableEq ι] (P : Protocol κ ρ ι ε o α) :
    World κ ρ ι ε o α → World κ ρ ι ε o α → Prop where
  | tick {w} (t : Int) (ht : w.store.now ≤ t) : Step P w { w with store := w.store.atTime t }
  | start {w} (op : o) (hop : P.allowed w.store op) :
      Step P w { w with txns := w.txns ++ [some (Txn.begin op w.store (P.prog op))] }
  | clock {w t x k} (hx : w.txn t = some x) (hp : x.prog = .clock k) :
      Step P w (w.set t (x.next (k w.store.now) (x.ctx.tell w.store.now)))
  | fresh {w t x k} (i : ι) (hx : w.txn t = some x) (hp : x.prog = .fresh k)
      (hi : w.minted i = none) :
      Step P w { w.set t (x.next (k i) (x.ctx.mint i)) with
        minted := Function.update w.minted i (some t) }
  | scan {w t x k} (rows : List ρ) (hx : w.txn t = some x) (hp : x.prog = .scan k)
      (hrows : rows.Perm (x.ctx.visible w.store.db).rows) :
      Step P w (w.set t (x.next (k rows) (x.ctx.see w.store.db.rows)))
  | read {w t x y k} (hx : w.txn t = some x) (hp : x.prog = .read y k) :
      Step P w (w.set t (x.next (k ((x.ctx.visible w.store.db).get y)) x.ctx))
  | lock {w t x y k} (hx : w.txn t = some x) (hp : x.prog = .lock y k) (hfree : w.free t y) :
      Step P w ((w.ownRow t y ((x.ctx.visible w.store.db).get y)).set t
        (x.next (k ((x.ctx.visible w.store.db).get y))
          (x.ctx.holdRow y ((x.ctx.visible w.store.db).get y))))
  | grant {w t x y k} (hx : w.txn t = some x) (hp : x.prog = .tryLock y k) (hfree : w.free t y)
      (hguard : P.guard x.op x.ctx.seen y (w.store.db.get y)) :
      Step P w ((w.ownRow t y ((x.ctx.visible w.store.db).get y)).set t
        (x.next (k ((x.ctx.visible w.store.db).get y))
          (x.ctx.holdRow y ((x.ctx.visible w.store.db).get y))))
  | skip {w t x y k} (hx : w.txn t = some x) (hp : x.prog = .tryLock y k) (hfree : ¬ w.free t y) :
      Step P w (w.set t (x.next (k none) x.ctx))
  | advisory {w t x y k} (hx : w.txn t = some x) (hp : x.prog = .advisory y k)
      (hfree : w.free t y) :
      Step P w ((w.own t y).set t (x.next k (x.ctx.hold y)))
  | put {w t x r k} (hx : w.txn t = some x) (hp : x.prog = .put r k)
      (hfree : w.free t (Schema.key r)) :
      Step P w ((w.own t (Schema.key r)).set t (x.next k (x.ctx.change (.put r))))
  | insert {w t x r k} (hx : w.txn t = some x) (hp : x.prog = .insert r k)
      (hfree : w.free t (Schema.key r)) (hwait : w.pendingConflict t r = false)
      (hnew : (x.ctx.visible w.store.db).rows.any (Session.conflict (κ := κ) r) = false) :
      Step P w ((w.own t (Schema.key r)).set t (x.next (k true) (x.ctx.insert r)))
  | refuse {w t x r k} (hx : w.txn t = some x) (hp : x.prog = .insert r k)
      (hwait : w.pendingConflict t r = false)
      (hold : (x.ctx.visible w.store.db).rows.any (Session.conflict (κ := κ) r) = true) :
      Step P w (w.set t (x.next (k false) x.ctx))
  | erase {w t x y k} (hx : w.txn t = some x) (hp : x.prog = .erase y k) (hfree : w.free t y) :
      Step P w ((w.own t y).set t (x.next k (x.ctx.change (.erase y))))
  | commit {w t x a} (hx : w.txn t = some x) (hp : x.prog = .ret a) :
      Step P w { w.close t with store := w.store.commit (x.entry (.ok a)) x.ctx.writes }
  | fail {w t x e} (hx : w.txn t = some x) (hp : x.prog = .raise e) :
      Step P w { w.close t with store := w.store.commit (x.entry (.error e)) [] }
  /-- A crash, a lost connection, a cancellation: nothing stays. -/
  | abort {w t x} (hx : w.txn t = some x) : Step P w (w.close t)

/-- A database nobody is connected to. -/
structure World.Idle (w : World κ ρ ι ε o α) : Prop where
  txns : w.txns = []
  owner : ∀ x, w.owner x = none

/-- Every world some steps lead to from `w₀`. -/
def Reachable [DecidableEq ι] (P : Protocol κ ρ ι ε o α) (w₀ w : World κ ρ ι ε o α) : Prop :=
  Relation.ReflTransGen (Step P) w₀ w

end ReadCommitted
