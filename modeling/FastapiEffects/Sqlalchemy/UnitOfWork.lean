import Mathlib.Logic.Function.Basic
import FastapiEffects.Core.Principal
import FastapiEffects.Coroutine

/-! # Units of work and command contexts

`FastapiEffectsUnitOfWork` and `CommandContext`: entering, using and leaving the scope of a
transaction, with a failure at any await. Both bind the principal of the context, mark the
session they own, and open a transaction in it. The session is SQLAlchemy's: `__aexit__` of a
transaction commits when there was no exception, and else rolls back.
-/

namespace FastapiEffects

open Python Coroutine

/-! ## The state -/

abbrev SessionId := ℕ

/-- `id(scope)`. -/
abbrev ScopeId := ℕ

inductive ScopeKind where
  | unitOfWork
  /-- A command, with the tenant of its identity. -/
  | command (identityTenantId : UUID)
deriving DecidableEq

/-- What a scope is made with. -/
structure ScopeObject where
  kind : ScopeKind
  session : SessionId
  principal : Principal

/-- `CommandAcquisition`: what leaving reads of it. -/
structure CommandAcquisition where
  replayed : Bool
deriving DecidableEq

/-- The private fields of a scope. -/
structure ScopeFields where
  transaction : Bool
  principalToken : Option (Option Principal)
  active : Bool
  acquisition : Option CommandAcquisition
  completed : Bool
deriving DecidableEq

/-- Who began the transaction a session is in. -/
inductive Owner where
  | application
  | scope (id : ScopeId)
deriving DecidableEq

inductive TransactionOutcome where
  | committed
  | rolledBack
deriving DecidableEq

/-- An execution context and its sessions: the principal variable, the marker of each session,
who owns its transaction, the fields of each scope and what became of its last transaction. -/
@[ext] structure Ambient where
  principal : Option Principal
  marker : SessionId → Option ScopeId
  owner : SessionId → Option Owner
  fields : ScopeId → ScopeFields
  outcome : ScopeId → Option TransactionOutcome

/-- What an await may raise is an exception of the library or any other `ε`. -/
inductive ScopeError (ε : Type) where
  | configuration (message : String)
  | other (e : ε)

abbrev Work (ε : Type) := Coro CommandAcquisition (ScopeError ε) Ambient

def ScopeFields.fresh : ScopeFields := ⟨false, none, false, none, false⟩

/-- An execution context before anything is entered. -/
def Ambient.start (principal : Option Principal) : Ambient where
  principal := principal
  marker _ := none
  owner _ := none
  fields _ := .fresh
  outcome _ := none

namespace Ambient

def setFields (s : Ambient) (i : ScopeId) (f : ScopeFields) : Ambient :=
  { s with fields := Function.update s.fields i f }

def setMarker (s : Ambient) (session : SessionId) (i : Option ScopeId) : Ambient :=
  { s with marker := Function.update s.marker session i }

/-- `bind_principal`: the token keeps the value before. -/
def bindPrincipal (s : Ambient) (i : ScopeId) (p : Principal) : Ambient :=
  { s.setFields i { s.fields i with principalToken := some s.principal } with principal := some p }

/-- `transaction.__aenter__()`: nothing begins where it raises. -/
def beginTransaction (session : SessionId) (i : ScopeId) (began : Bool) (s : Ambient) : Ambient :=
  if began then { s with owner := Function.update s.owner session (some (.scope i)) } else s

/-- `transaction.__aexit__(...)`: the transaction of the scope is over; it was committed, or else
is rolled back. -/
def endTransaction (session : SessionId) (i : ScopeId) (commits : Bool) (s : Ambient) : Ambient :=
  if s.owner session = some (.scope i) then
    { s with
      owner := Function.update s.owner session none
      outcome := Function.update s.outcome i (some (if commits then .committed else .rolledBack)) }
  else { s with outcome := Function.update s.outcome i (some .rolledBack) }

/-- What the two `_cleanup` share: the token is used up, and the marker removed. -/
def restore (session : SessionId) (i : ScopeId) (s : Ambient) : Ambient :=
  let f := s.fields i
  let reset := { s.setFields i { f with principalToken := none } with
    principal := f.principalToken.getD s.principal }
  if s.marker session = some i then reset.setMarker session none else reset

end Ambient

/-! ## The two scopes -/

section Scopes

variable {ε : Type} (object : ScopeId → ScopeObject)

/-- `FastAPIEffectsUnitOfWork._cleanup`. -/
def unitOfWorkCleanup (i : ScopeId) (s : Ambient) : Ambient :=
  (s.setFields i { s.fields i with active := false }).restore (object i).session i

/-- `CommandContext._cleanup`. -/
def commandCleanup (i : ScopeId) (s : Ambient) : Ambient :=
  let restored := s.restore (object i).session i
  restored.setFields i { restored.fields i with acquisition := none, completed := false }

/-- `self._transaction = transaction`. -/
def setTransaction (i : ScopeId) (given : Bool) (s : Ambient) : Ambient :=
  s.setFields i { s.fields i with transaction := given }

/-- `await transaction.__aexit__(exc_type, ...)`. -/
def closeTransaction (i : ScopeId) (raised : Bool) : Work ε Unit := do
  let _ ← Coro.awaitWith fun answer => Ambient.endTransaction (object i).session i
    (¬ raised && answer.isOk)
  return ()

/-- What the two `__aenter__` share once their guards let them pass; `claim` is what the scope
does last, and `cleanup` its `_cleanup`. -/
def openScope (i : ScopeId) (cleanup : Ambient → Ambient) (claim : Work ε Unit) : Work ε Unit := do
  Coro.modify (setTransaction i true)
  Coro.tryExcept (do
      let _ ← Coro.awaitWith fun answer => Ambient.beginTransaction (object i).session i answer.isOk
      Coro.modify fun s => s.setMarker (object i).session (some i)
      Coro.modify fun s => s.bindPrincipal i (object i).principal
      -- the tenant and the subject of the session
      let _ ← Coro.await
      let _ ← Coro.await
      claim)
    fun e => do
      Coro.modify cleanup
      closeTransaction object i true
      Coro.modify (setTransaction i false)
      Coro.raise e

/-- `FastAPIEffectsUnitOfWork.__aenter__`. -/
def unitOfWorkEnter (i : ScopeId) : Work ε Unit := do
  let s ← Coro.get
  if (s.fields i).active ∨ (s.marker (object i).session).isSome then
    Coro.raise (.configuration "Nested FastAPIEffects unit of work is not allowed.")
  else if (s.owner (object i).session).isSome then
    Coro.raise (.configuration
      "FastAPIEffects requires an idle session and owns the outer transaction.")
  else
    openScope object i (unitOfWorkCleanup object i)
      (Coro.modify fun s => s.setFields i { s.fields i with active := true })

/-- `store.acquire(...)`, and `self._acquisition = ...`. -/
def commandAcquire (i : ScopeId) : Work ε Unit := do
  let acquisition ← Coro.await
  Coro.modify fun s => s.setFields i { s.fields i with acquisition := some acquisition }

/-- `CommandContext.__aenter__`. -/
def commandEnter (i : ScopeId) (identityTenantId : UUID) : Work ε Unit := do
  let s ← Coro.get
  if (s.fields i).transaction ∨ (s.marker (object i).session).isSome then
    Coro.raise (.configuration "Nested FastAPIEffects transaction ownership is not allowed.")
  else if (s.owner (object i).session).isSome then
    Coro.raise (.configuration
      "CommandContext requires an idle session and owns the outer transaction.")
  else if identityTenantId ≠ (object i).principal.tenantId then
    Coro.raise (.configuration "Command identity tenant does not match its principal.")
  else
    openScope object i (commandCleanup object i) (commandAcquire i)

/-- `FastAPIEffectsUnitOfWork.__aexit__`; `exc` is what the body raised. -/
def unitOfWorkExit (i : ScopeId) (exc : Option (ScopeError ε)) : Work ε Unit := do
  let s ← Coro.get
  if (s.fields i).transaction then
    Coro.tryFinally (closeTransaction object i exc.isSome)
      fun s => setTransaction i false (unitOfWorkCleanup object i s)
  else return ()

/-- `_require_acquisition`. -/
def requireAcquisition (i : ScopeId) : Work ε CommandAcquisition := do
  let s ← Coro.get
  match (s.fields i).transaction, (s.fields i).acquisition with
  | true, some acquisition => return acquisition
  | _, _ => Coro.raise (.configuration "CommandContext is not active.")

/-- Whether a command is left without an exception, and was neither replayed nor completed. -/
def commandMissing (i : ScopeId) (exc : Option (ScopeError ε)) : Work ε Bool :=
  if exc.isSome then return false
  else do
    let acquisition ← requireAcquisition i
    let s ← Coro.get
    return ¬ acquisition.replayed ∧ ¬ (s.fields i).completed

/-- `CommandContext.__aexit__`. -/
def commandExit (i : ScopeId) (exc : Option (ScopeError ε)) : Work ε Unit := do
  let s ← Coro.get
  if (s.fields i).transaction then do
    let missing ← commandMissing i exc
    Coro.tryFinally (closeTransaction object i (exc.isSome || missing))
      fun s => setTransaction i false (commandCleanup object i s)
    if missing then
      Coro.raise (.configuration "A new command requires complete() before successful context exit.")
    else return ()
  else return ()

/-- `CommandContext.complete`. -/
def commandComplete (i : ScopeId) : Work ε Unit := do
  let acquisition ← requireAcquisition i
  let s ← Coro.get
  if acquisition.replayed then
    Coro.raise (.configuration "A replayed command cannot be completed again.")
  else if (s.fields i).completed then
    Coro.raise (.configuration "Command completion may only occur once.")
  else do
    -- the response is captured, and `store.complete` awaited
    let _ ← Coro.await
    Coro.modify fun s => s.setFields i { s.fields i with completed := true }

/-! ## What a task does with its scopes -/

/-- A step of a task. -/
inductive Use (ε : Type) where
  | enter (i : ScopeId)
  | exit (i : ScopeId) (exc : Option (ScopeError ε))
  | complete (i : ScopeId)
  /-- Anything that sets the context variable. -/
  | bind (p : Option Principal)
  /-- Any awaited call on a session, or on none; an idle session begins a transaction by itself. -/
  | work (session : Option SessionId)
  /-- The application ends a transaction that it began. -/
  | release (session : SessionId)

/-- `async with` of a scope, its two halves. -/
def Use.run : Use ε → Work ε Unit
  | .enter i =>
      match (object i).kind with
      | .unitOfWork => unitOfWorkEnter object i
      | .command identityTenantId => commandEnter object i identityTenantId
  | .exit i exc =>
      match (object i).kind with
      | .unitOfWork => unitOfWorkExit object i exc
      | .command _ => commandExit object i exc
  | .complete i =>
      match (object i).kind with
      | .unitOfWork => return ()
      | .command _ => commandComplete i
  | .bind p => Coro.modify fun s => { s with principal := p }
  | .work session => do
      match session with
      | some x => Coro.modify fun s =>
          if (s.owner x).isSome then s
          else { s with owner := Function.update s.owner x (some .application) }
      | none => pure ()
      let _ ← Coro.await
      return ()
  | .release session => Coro.modify fun s =>
      if s.owner session = some .application then
        { s with owner := Function.update s.owner session none } else s

end Scopes

end FastapiEffects
