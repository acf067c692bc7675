import FastapiEffects.ReadCommitted.Runner
import FastapiEffects.Executors.Taskiq

/-! # The delivery runtime as a system of transactions

Every operation of the publisher, the relay and the Taskiq bridge is a transaction
on one database. A worker finalizes or hands off only what it was given: claims and
executions come out of the log of the transactions that committed.
-/

namespace FastapiEffects

open Python ReadCommitted

/-- The operations, each with its arguments. `uniform` is the random source. -/
inductive Op [Platform] where
  | publish (principal : PrincipalEnvelope) (event : Event) (routes : List RouteSpecification)
      (now : Datetime) (dedupeIdentity : Option DedupeIdentity)
  | claim (now : Datetime) (batchSize perTenant : ℤ)
  | succeed (claim : ClaimedDelivery) (now : Datetime)
  | fail (claim : ClaimedDelivery) (error : DeliveryError) (now : Datetime)
      (retryAfter : Option Timedelta) (uniform : ℚ → ℚ → PyFloat)
  | reconcileExpired (now : Datetime) (batchSize : ℤ)
  | replay (tenantId deliveryId : UUID) (actor reason : Str) (now : Datetime)
      (destinationKind : Option Str)
  | prepare (claim : ClaimedDelivery) (now : Datetime)
  | markEnqueued (envelope : HandoffEnvelope) (now : Datetime)
  | enqueueFailed (envelope : HandoffEnvelope) (now : Datetime) (uniform : ℚ → ℚ → PyFloat)
  | claimExecution (envelope : HandoffEnvelope) (now : Datetime) (executionTimeout : Timedelta)
      (uniform : ℚ → ℚ → PyFloat)
  | finalizeSuccess (executing : ExecutingHandoff) (now : Datetime)
  | finalizeFailure (executing : ExecutingHandoff) (error : DeliveryError) (now : Datetime)
      (uniform : ℚ → ℚ → PyFloat)
  | recoverExpired (now : Datetime) (enqueueTimeout : Timedelta) (batchSize : ℤ)
      (uniform : ℕ → ℚ → ℚ → PyFloat)

/-- What an operation returns. -/
inductive Outcome where
  | event (record : EventRecord)
  | claims (claims : List ClaimedDelivery)
  | done
  | state (state : DeliveryState)
  | count (n : ℕ)
  | delivery (record : DeliveryRecord)
  | envelope (envelope : HandoffEnvelope)
  | handoff (record : HandoffRecord)
  | execution (executing : Option ExecutingHandoff)
deriving DecidableEq

variable [Platform]

/-- The transactions that ended. -/
abbrev History := List (Entry Key Row PyError Op Outcome)

/-- The committed state. -/
abbrev RuntimeStore := Store Key Row PyError Op Outcome

/-- The state of the whole system. -/
abbrev RuntimeWorld := World Key Row UUID PyError Op Outcome

/-- The transaction of an operation. -/
def Op.prog : Op → Tx Outcome
  | .publish principal event routes now dedupe =>
      return .event (← FastapiEffects.publish principal event routes now dedupe)
  | .claim now batchSize perTenant =>
      return .claims (← FastapiEffects.claim now batchSize perTenant)
  | .succeed c now => do
      FastapiEffects.succeed c now
      return .done
  | .fail c error now retryAfter uniform =>
      return .state (← FastapiEffects.fail c error now retryAfter uniform)
  | .reconcileExpired now batchSize =>
      return .count (← FastapiEffects.reconcileExpired now batchSize)
  | .replay tenantId deliveryId actor reason now kind =>
      return .delivery (← FastapiEffects.replay tenantId deliveryId actor reason now kind)
  | .prepare c now => return .envelope (← FastapiEffects.prepare c now)
  | .markEnqueued envelope now => return .handoff (← FastapiEffects.markEnqueued envelope now)
  | .enqueueFailed envelope now uniform =>
      return .handoff (← FastapiEffects.enqueueFailed envelope now uniform)
  | .claimExecution envelope now timeout uniform =>
      return .execution (← FastapiEffects.claimExecution envelope now timeout uniform)
  | .finalizeSuccess executing now =>
      return .handoff (← FastapiEffects.finalizeSuccess executing now)
  | .finalizeFailure executing error now uniform =>
      return .handoff (← FastapiEffects.finalizeFailure executing error now uniform)
  | .recoverExpired now timeout batchSize uniform =>
      return .count (← FastapiEffects.recoverExpired now timeout batchSize uniform)

/-- The claims a transaction handed out. -/
def claimsOf (e : Entry Key Row PyError Op Outcome) : List ClaimedDelivery :=
  match e.result with
  | .ok (.claims cs) => cs
  | _ => []

/-- The execution a transaction admitted. -/
def executionOf (e : Entry Key Row PyError Op Outcome) : Option ExecutingHandoff :=
  match e.result with
  | .ok (.execution ex) => ex
  | _ => none

/-- Whether a claim was handed out. -/
def issued (log : History) (c : ClaimedDelivery) : Bool := log.any fun e => c ∈ claimsOf e

/-- Whether an execution was admitted. -/
def admitted (log : History) (ex : ExecutingHandoff) : Bool :=
  log.any fun e => executionOf e = some ex

/-- A worker acts only on what it was handed. -/
def Op.allowed (s : RuntimeStore) : Op → Bool
  | .succeed c _ | .fail c _ _ _ _ | .prepare c _ => issued s.log c
  | .finalizeSuccess ex _ | .finalizeFailure ex _ _ _ => admitted s.log ex
  | _ => true

/-- The runtime on PostgreSQL: a lock is granted on the latest version of a row,
whatever the snapshot showed. -/
def runtime : Protocol Key Row UUID PyError Op Outcome where
  prog := Op.prog
  allowed s op := op.allowed s
  guard _ _ _ _ := True

instance (s : RuntimeStore) (op : Op) : Decidable (runtime.allowed s op) :=
  inferInstanceAs (Decidable (op.allowed s = true))

instance (op : Op) (seen : List Row) (y : Key) (row : Option Row) :
    Decidable (runtime.guard op seen y row) := inferInstanceAs (Decidable True)

/-- The runtime before anything happened. -/
def RuntimeWorld.start (now : Datetime) : RuntimeWorld where
  store := ⟨Table.empty, now, []⟩
  owner _ := none
  minted _ := none
  txns := []

end FastapiEffects
