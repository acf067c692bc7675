import FastapiEffects.Runtime.Replays
import FastapiEffects.Webhooks.Retention

/-! # Pruning the history of webhooks

`prune_webhook_history` as a whole: a batch removes attempts, then deliveries, then
events, then secret versions, each in the order of a sort key, up to a limit, past the
rows other transactions hold. Foreign keys with `ON DELETE CASCADE` take the attempts of
a delivery and the handoffs of an attempt along; those with `ON DELETE RESTRICT`, from
deliveries to events and from replays to originals, guard only rows whose referrers the
statements themselves exclude.
-/

namespace FastapiEffects

open Python ReadCommitted

/-! ## The tables -/

def deliveriesOf (db : Db) : List DeliveryRow := db.rows.filterMap Row.delivery?

def attemptsOf (db : Db) : List AttemptRow := db.rows.filterMap Row.attempt?

def eventsOf (db : Db) : List EventRow := db.rows.filterMap Row.event?

def handoffsOf (db : Db) : List HandoffRow := db.rows.filterMap Row.handoff?

/-- `a.tenant_id = d.tenant_id AND a.delivery_id = d.delivery_id`. -/
def AttemptRecordArgs.isOf (a : AttemptRow) (d : DeliveryRow) : Bool :=
  a.tenantId = d.tenantId ∧ a.deliveryId = d.deliveryId

/-- `replay.tenant_id = d.tenant_id AND replay.replay_of = d.delivery_id`. -/
def DeliveryRow.isReplayOf (r d : DeliveryRow) : Bool :=
  r.tenantId = d.tenantId ∧ r.replayOf = some d.deliveryId

/-- `d.tenant_id = e.tenant_id AND d.event_id = e.event_id`. -/
def DeliveryRow.isOf (d : DeliveryRow) (e : EventRow) : Bool :=
  d.tenantId = e.tenantId ∧ d.eventId = e.eventId

/-! ## One statement at a time -/

/-- A terminal webhook delivery of the tenant that was last updated before the cutoff. -/
def DeliveryRow.settledBefore (d : DeliveryRow) (tenantId : UUID) (cutoff : Datetime) : Bool :=
  d.tenantId = tenantId ∧ d.destinationKind = "webhook" ∧
    (d.state = .succeeded ∨ d.state = .dead) ∧ d.updatedAt < cutoff

/-- The attempts the first statement may remove. -/
def prunableAttempts (tenantId : UUID) (cutoff : Datetime) (db : Db) : List AttemptRow :=
  (attemptsOf db).filter fun a => a.tenantId = tenantId ∧ a.finishedAt.any (· < cutoff) ∧
    (deliveriesOf db).any fun d => a.isOf d && d.settledBefore tenantId cutoff

/-- The deliveries the second statement may remove. -/
def prunableDeliveries (tenantId : UUID) (cutoff : Datetime) (db : Db) : List DeliveryRow :=
  (deliveriesOf db).filter fun d => d.settledBefore tenantId cutoff &&
    !((attemptsOf db).any (·.isOf d)) && !((deliveriesOf db).any (·.isReplayOf d))

/-- The events the third statement may remove. -/
def prunableEvents (tenantId : UUID) (cutoff : Datetime) (db : Db) : List EventRow :=
  (eventsOf db).filter fun e => decide (e.tenantId = tenantId ∧ e.createdAt < cutoff) &&
    !((deliveriesOf db).any (·.isOf e))

/-- `ORDER BY a.finished_at, a.attempt_id`. -/
def AttemptRecordArgs.age (a : AttemptRow) : ℤ ×ₗ ℕ :=
  toLex (a.finishedAt.getD 0, a.attemptId.toNat)

/-- `ORDER BY d.updated_at, d.delivery_id`. -/
def DeliveryRow.age (d : DeliveryRow) : ℤ ×ₗ ℕ := toLex (d.updatedAt, d.deliveryId.toNat)

/-- `ORDER BY e.created_at, e.event_id`. -/
def EventRecordArgs.age (e : EventRow) : ℤ ×ₗ ℕ := toLex (e.createdAt, e.eventId.toNat)

/-- Remove attempts, and the handoffs that refer to them. -/
def deleteAttempts (db : Db) (attempts : List AttemptRow) : Db :=
  let handoffs := (handoffsOf db).filter fun h =>
    attempts.any fun a => h.tenantId = a.tenantId ∧ h.attemptId = a.attemptId
  db.eraseAll (attempts.map (fun a => (Row.attempt a).key) ++
    handoffs.map fun h => (Row.handoff h).key)

/-- Remove deliveries, and the attempts and handoffs that refer to them. -/
def deleteDeliveries (db : Db) (deliveries : List DeliveryRow) : Db :=
  let handoffs := (handoffsOf db).filter fun h =>
    deliveries.any fun d => h.tenantId = d.tenantId ∧ h.deliveryId = d.deliveryId
  (deleteAttempts db ((attemptsOf db).filter fun a => deliveries.any (a.isOf ·))).eraseAll
    (deliveries.map (fun d => (Row.delivery d).key) ++ handoffs.map fun h => (Row.handoff h).key)

/-- Remove events. -/
def deleteEvents (db : Db) (events : List EventRow) : Db :=
  db.eraseAll (events.map fun e => (Row.event e).key)

/-! ## Batches -/

/-- The rows other transactions hold while each statement of a batch runs. -/
structure BatchLocks where
  attempt : AttemptRow → Bool
  delivery : DeliveryRow → Bool
  event : EventRow → Bool
  secret : SecretVersionRow → Bool

/-- Nobody else is there. -/
def BatchLocks.none : BatchLocks := ⟨fun _ => false, fun _ => false, fun _ => false, fun _ => false⟩

/-- `RetentionResult`. -/
structure RetentionResult where
  attempts : ℕ
  deliveries : ℕ
  events : ℕ
  secretVersions : ℕ
deriving DecidableEq

/-- The tables a batch works on. -/
structure HistoryStore where
  db : Db
  secrets : SecretStore

namespace HistoryStore

/-- The attempts a batch removes. -/
def agedAttempts (s : HistoryStore) (tenantId : UUID) (cutoff : Datetime) (batch : ℤ)
    (locks : BatchLocks) : List AttemptRow :=
  limitSkipLocked AttemptRecordArgs.age batch.toNat locks.attempt
    (prunableAttempts tenantId cutoff s.db)

/-- The deliveries a batch removes, `db` being the rows after the first statement. -/
def agedDeliveries (db : Db) (tenantId : UUID) (cutoff : Datetime) (batch : ℤ)
    (locks : BatchLocks) : List DeliveryRow :=
  limitSkipLocked DeliveryRow.age batch.toNat locks.delivery (prunableDeliveries tenantId cutoff db)

/-- The events a batch removes, `db` being the rows after the second statement. -/
def agedEvents (db : Db) (tenantId : UUID) (cutoff : Datetime) (batch : ℤ) (locks : BatchLocks) :
    List EventRow :=
  limitSkipLocked EventRecordArgs.age batch.toNat locks.event (prunableEvents tenantId cutoff db)

/-- `prune_webhook_history`, called under the tenant `context`. -/
def pruneHistory (s : HistoryStore) (context : Str) (tenantId : UUID) (cutoff : Datetime)
    (batch : ℤ) (locks : BatchLocks) : Except PyError (RetentionResult × HistoryStore) := do
  check (context = tenantId.str) .data
  check (1 ≤ batch ∧ batch ≤ 10000) .data
  let attempts := s.agedAttempts tenantId cutoff batch locks
  let db₁ := deleteAttempts s.db attempts
  let deliveries := agedDeliveries db₁ tenantId cutoff batch locks
  let db₂ := deleteDeliveries db₁ deliveries
  let events := agedEvents db₂ tenantId cutoff batch locks
  let db₃ := deleteEvents db₂ events
  let (secretVersions, secrets) ←
    pruneWebhookHistory context tenantId cutoff batch locks.secret s.secrets
  return (⟨attempts.length, deliveries.length, events.length, secretVersions⟩, ⟨db₃, secrets⟩)

/-- `WebhookOperations.retain` on a session that is in a transaction or not. -/
def retain (s : HistoryStore) (principal : Principal) (inTransaction : Bool) (before : Datetime)
    (batch : ℤ) (locks : BatchLocks) : Except PyError (RetentionResult × HistoryStore) := do
  requireWebhookManagement principal
  check (!inTransaction) (.configuration "Webhook retention requires an idle session.")
  check (1 ≤ batch ∧ batch ≤ 10000)
    (.configuration "Webhook retention batch size is invalid.")
  s.pruneHistory principal.tenantId.str principal.tenantId before batch locks

end HistoryStore

/-- The stores that batches for one tenant with one cutoff lead to. -/
inductive Retained (tenantId : UUID) (cutoff : Datetime) (s₀ : HistoryStore) : HistoryStore → Prop where
  | refl : Retained tenantId cutoff s₀ s₀
  | batch {s s' batch locks result} (h : Retained tenantId cutoff s₀ s)
      (hok : s.pruneHistory tenantId.str tenantId cutoff batch locks = .ok (result, s')) :
      Retained tenantId cutoff s₀ s'

/-- A call of `retain` is one batch for the tenant of its principal. -/
theorem Retained.retain {s₀ s s' : HistoryStore} {principal : Principal} {inTransaction : Bool}
    {before : Datetime} {batch : ℤ} {locks : BatchLocks} {result : RetentionResult}
    (h : Retained principal.tenantId before s₀ s)
    (hok : s.retain principal inTransaction before batch locks = .ok (result, s')) :
    Retained principal.tenantId before s₀ s' := by
  simp only [HistoryStore.retain, bind_eq_ok] at hok
  obtain ⟨-, -, -, -, -, -, hok⟩ := hok
  exact h.batch hok

/-! ## What a statement removes -/

section Tables

variable {db : Db}

theorem mem_deliveriesOf {d : DeliveryRow} : d ∈ deliveriesOf db ↔ Row.delivery d ∈ db.rows := by
  rw [deliveriesOf, List.mem_filterMap]
  constructor
  · rintro ⟨row, hrow, hd⟩
    cases row <;> cases hd
    exact hrow
  · exact fun hd => ⟨_, hd, rfl⟩

theorem mem_attemptsOf {a : AttemptRow} : a ∈ attemptsOf db ↔ Row.attempt a ∈ db.rows := by
  rw [attemptsOf, List.mem_filterMap]
  constructor
  · rintro ⟨row, hrow, ha⟩
    cases row <;> cases ha
    exact hrow
  · exact fun ha => ⟨_, ha, rfl⟩

theorem mem_eventsOf {e : EventRow} : e ∈ eventsOf db ↔ Row.event e ∈ db.rows := by
  rw [eventsOf, List.mem_filterMap]
  constructor
  · rintro ⟨row, hrow, he⟩
    cases row <;> cases he
    exact hrow
  · exact fun he => ⟨_, he, rfl⟩

theorem mem_handoffsOf {h : HandoffRow} : h ∈ handoffsOf db ↔ Row.handoff h ∈ db.rows := by
  rw [handoffsOf, List.mem_filterMap]
  constructor
  · rintro ⟨row, hrow, hh⟩
    cases row <;> cases hh
    exact hrow
  · exact fun hh => ⟨_, hh, rfl⟩

theorem mem_prunableAttempts {tenantId : UUID} {cutoff : Datetime} {a : AttemptRow} :
    a ∈ prunableAttempts tenantId cutoff db ↔ Row.attempt a ∈ db.rows ∧ a.tenantId = tenantId ∧
      (∃ f, a.finishedAt = some f ∧ f < cutoff) ∧
      ∃ d, Row.delivery d ∈ db.rows ∧ a.isOf d = true ∧ d.settledBefore tenantId cutoff = true := by
  simp only [prunableAttempts, List.mem_filter, mem_attemptsOf, decide_eq_true_eq, Option.any_eq_true,
    List.any_eq_true, mem_deliveriesOf, Bool.and_eq_true]

theorem mem_prunableDeliveries {tenantId : UUID} {cutoff : Datetime} {d : DeliveryRow} :
    d ∈ prunableDeliveries tenantId cutoff db ↔ Row.delivery d ∈ db.rows ∧
      d.settledBefore tenantId cutoff = true ∧ (∀ a, Row.attempt a ∈ db.rows → a.isOf d = false) ∧
      ∀ r, Row.delivery r ∈ db.rows → r.isReplayOf d = false := by
  simp only [prunableDeliveries, List.mem_filter, mem_deliveriesOf, Bool.and_eq_true,
    Bool.not_eq_true', List.any_eq_false, mem_attemptsOf, Bool.not_eq_true, and_assoc]

theorem mem_prunableEvents {tenantId : UUID} {cutoff : Datetime} {e : EventRow} :
    e ∈ prunableEvents tenantId cutoff db ↔ Row.event e ∈ db.rows ∧ e.tenantId = tenantId ∧
      e.createdAt < cutoff ∧ ∀ d, Row.delivery d ∈ db.rows → d.isOf e = false := by
  simp only [prunableEvents, List.mem_filter, mem_eventsOf, Bool.and_eq_true, decide_eq_true_eq,
    Bool.not_eq_true', List.any_eq_false, mem_deliveriesOf, Bool.not_eq_true, and_assoc]

/-- The free rows taken in order are rows of the list. -/
theorem mem_of_mem_limitSkipLocked {ρ κ : Type} [LinearOrder κ] {order : ρ → κ} {n : ℕ}
    {locked : ρ → Bool} {rows : List ρ} {r : ρ} (h : r ∈ limitSkipLocked order n locked rows) :
    r ∈ rows := by
  have hsorted := List.mem_of_mem_take h
  rw [(List.perm_insertionSort _ _).mem_iff] at hsorted
  exact List.mem_of_mem_filter hsorted

/-- With room and nobody in the way some row is taken. -/
theorem limitSkipLocked_ne_nil {ρ κ : Type} [LinearOrder κ] {order : ρ → κ} {n : ℕ} {rows : List ρ}
    (hn : 1 ≤ n) (h : limitSkipLocked order n (fun _ => false) rows = []) : rows = [] := by
  rw [limitSkipLocked, List.take_eq_nil_iff] at h
  rcases h with h | h
  · omega
  · have hlength := congrArg List.length h
    simpa using hlength

end Tables

/-- What the first statement of a batch does. -/
structure AttemptsPruned (tenantId : UUID) (cutoff : Datetime) (db db' : Db) : Prop where
  kept : ∀ row ∈ db'.rows, row ∈ db.rows
  removed : ∀ row ∈ db.rows, row ∉ db'.rows →
    (∃ a d, row = .attempt a ∧ Row.delivery d ∈ db.rows ∧ a.isOf d = true ∧
      d.settledBefore tenantId cutoff = true ∧ ∃ f, a.finishedAt = some f ∧ f < cutoff) ∨
    ∃ h a, row = .handoff h ∧ Row.attempt a ∈ db.rows ∧ Row.attempt a ∉ db'.rows ∧
      h.tenantId = a.tenantId ∧ h.attemptId = a.attemptId
  cascade : ∀ h a, Row.handoff h ∈ db'.rows → Row.attempt a ∈ db.rows → h.tenantId = a.tenantId →
    h.attemptId = a.attemptId → Row.attempt a ∈ db'.rows

/-- What the second statement of a batch does. -/
structure DeliveriesPruned (tenantId : UUID) (cutoff : Datetime) (db db' : Db) : Prop where
  kept : ∀ row ∈ db'.rows, row ∈ db.rows
  removed : ∀ row ∈ db.rows, row ∉ db'.rows → ∃ d, Row.delivery d ∈ db.rows ∧
    d.settledBefore tenantId cutoff = true ∧ (∀ a, Row.attempt a ∈ db.rows → a.isOf d = false) ∧
    (∀ r, Row.delivery r ∈ db.rows → r.isReplayOf d = false) ∧
    (row = .delivery d ∨
      ∃ h, row = .handoff h ∧ h.tenantId = d.tenantId ∧ h.deliveryId = d.deliveryId)
  cascade : ∀ h d, Row.handoff h ∈ db'.rows → Row.delivery d ∈ db.rows → h.tenantId = d.tenantId →
    h.deliveryId = d.deliveryId → Row.delivery d ∈ db'.rows

/-- What the third statement of a batch does. -/
structure EventsPruned (tenantId : UUID) (cutoff : Datetime) (db db' : Db) : Prop where
  kept : ∀ row ∈ db'.rows, row ∈ db.rows
  removed : ∀ row ∈ db.rows, row ∉ db'.rows → ∃ e, row = .event e ∧ e.tenantId = tenantId ∧
    e.createdAt < cutoff ∧ ∀ d, Row.delivery d ∈ db.rows → d.isOf e = false

section Statements

variable {tenantId : UUID} {cutoff : Datetime} {db : Db}

theorem attemptsPruned {attempts : List AttemptRow}
    (h : ∀ a ∈ attempts, a ∈ prunableAttempts tenantId cutoff db) :
    AttemptsPruned tenantId cutoff db (deleteAttempts db attempts) := by
  have hmem : ∀ row, row ∈ (deleteAttempts db attempts).rows ↔ row ∈ db.rows ∧
      (∀ a ∈ attempts, row.key ≠ (Row.attempt a).key) ∧
      ∀ g, Row.handoff g ∈ db.rows → (∃ a ∈ attempts, g.tenantId = a.tenantId ∧
        g.attemptId = a.attemptId) → row.key ≠ (Row.handoff g).key := by
    intro row
    simp only [deleteAttempts, Table.mem_eraseAll, List.mem_append, List.mem_map, List.mem_filter,
      mem_handoffsOf, List.any_eq_true, decide_eq_true_eq, not_or, not_exists, not_and]
    refine and_congr_right fun _ => and_congr ?_ ?_
    · exact forall₂_congr fun a _ => ne_comm
    · constructor
      · exact fun hfree g hg hof hkey => hfree g ⟨hg, hof⟩ hkey.symm
      · exact fun hfree g hg hkey => hfree g hg.1 hg.2 hkey.symm
  refine ⟨fun row hrow => ((hmem row).mp hrow).1, fun row hrow hgone => ?_, ?_⟩
  · rw [hmem row, not_and] at hgone
    have hgone := hgone hrow
    rw [not_and_or] at hgone
    rcases hgone with hgone | hgone
    · push Not at hgone
      obtain ⟨a, ha, hkey⟩ := hgone
      obtain ⟨hstored, -, hfinished, d, hd, hof, hsettled⟩ := mem_prunableAttempts.mp (h a ha)
      exact Or.inl ⟨a, d, Table.eq_of_key_eq hrow hstored hkey, hd, hof, hsettled, hfinished⟩
    · push Not at hgone
      obtain ⟨g, hg, ⟨a, ha, htenant, hattempt⟩, hkey⟩ := hgone
      have hstored := (mem_prunableAttempts.mp (h a ha)).1
      refine Or.inr ⟨g, a, Table.eq_of_key_eq hrow hg hkey, hstored, fun hkept => ?_, htenant,
        hattempt⟩
      exact ((hmem _).mp hkept).2.1 a ha rfl
  · intro g a hg ha htenant hattempt
    refine (hmem _).mpr ⟨ha, fun b hb hkey => ?_, fun g' hg' hof hkey => by cases hkey⟩
    have hstored := (mem_prunableAttempts.mp (h b hb)).1
    cases Table.eq_of_key_eq ha hstored hkey
    exact ((hmem _).mp hg).2.2 g ((hmem _).mp hg).1 ⟨a, hb, htenant, hattempt⟩ rfl

theorem deleteAttempts_nil : deleteAttempts db [] = db := by
  simp [deleteAttempts]

theorem deliveriesPruned {deliveries : List DeliveryRow}
    (h : ∀ d ∈ deliveries, d ∈ prunableDeliveries tenantId cutoff db) :
    DeliveriesPruned tenantId cutoff db (deleteDeliveries db deliveries) := by
  -- nothing is cascaded to attempts
  have hnone : (attemptsOf db).filter (fun a => deliveries.any (a.isOf ·)) = [] := by
    refine List.filter_eq_nil_iff.mpr fun a ha hany => ?_
    obtain ⟨d, hd, hof⟩ := List.any_eq_true.mp hany
    have hfree := (mem_prunableDeliveries.mp (h d hd)).2.2.1 a (mem_attemptsOf.mp ha)
    rw [hof] at hfree
    cases hfree
  have hmem : ∀ row, row ∈ (deleteDeliveries db deliveries).rows ↔ row ∈ db.rows ∧
      (∀ d ∈ deliveries, row.key ≠ (Row.delivery d).key) ∧
      ∀ g, Row.handoff g ∈ db.rows → (∃ d ∈ deliveries, g.tenantId = d.tenantId ∧
        g.deliveryId = d.deliveryId) → row.key ≠ (Row.handoff g).key := by
    intro row
    simp only [deleteDeliveries, hnone, deleteAttempts_nil, Table.mem_eraseAll, List.mem_append,
      List.mem_map, List.mem_filter, mem_handoffsOf, List.any_eq_true, decide_eq_true_eq, not_or,
      not_exists, not_and]
    refine and_congr_right fun _ => and_congr ?_ ?_
    · exact forall₂_congr fun d _ => ne_comm
    · constructor
      · exact fun hfree g hg hof hkey => hfree g ⟨hg, hof⟩ hkey.symm
      · exact fun hfree g hg hkey => hfree g hg.1 hg.2 hkey.symm
  refine ⟨fun row hrow => ((hmem row).mp hrow).1, fun row hrow hgone => ?_, ?_⟩
  · rw [hmem row, not_and] at hgone
    have hgone := hgone hrow
    rw [not_and_or] at hgone
    rcases hgone with hgone | hgone
    · push Not at hgone
      obtain ⟨d, hd, hkey⟩ := hgone
      obtain ⟨hstored, hsettled, hattempts, hreplays⟩ := mem_prunableDeliveries.mp (h d hd)
      exact ⟨d, hstored, hsettled, hattempts, hreplays,
        Or.inl (Table.eq_of_key_eq hrow hstored hkey)⟩
    · push Not at hgone
      obtain ⟨g, hg, ⟨d, hd, hof⟩, hkey⟩ := hgone
      obtain ⟨hstored, hsettled, hattempts, hreplays⟩ := mem_prunableDeliveries.mp (h d hd)
      exact ⟨d, hstored, hsettled, hattempts, hreplays,
        Or.inr ⟨g, Table.eq_of_key_eq hrow hg hkey, hof⟩⟩
  · intro g d hg hd htenant hdelivery
    refine (hmem _).mpr ⟨hd, fun b hb hkey => ?_, fun g' hg' hof hkey => by cases hkey⟩
    have hstored := (mem_prunableDeliveries.mp (h b hb)).1
    cases Table.eq_of_key_eq hd hstored hkey
    exact ((hmem _).mp hg).2.2 g ((hmem _).mp hg).1 ⟨d, hb, htenant, hdelivery⟩ rfl

theorem eventsPruned {events : List EventRow}
    (h : ∀ e ∈ events, e ∈ prunableEvents tenantId cutoff db) :
    EventsPruned tenantId cutoff db (deleteEvents db events) := by
  refine ⟨fun row hrow => (Table.mem_eraseAll.mp hrow).1, fun row hrow hgone => ?_⟩
  rw [deleteEvents, Table.mem_eraseAll, not_and, not_not] at hgone
  obtain ⟨e, he, hkey⟩ := List.mem_map.mp (hgone hrow)
  obtain ⟨hstored, htenant, hcreated, hfree⟩ := mem_prunableEvents.mp (h e he)
  exact ⟨e, (Table.eq_of_key_eq hstored hrow hkey).symm, htenant, hcreated, hfree⟩

end Statements

/-! ## References -/

/-- Every reference between stored rows resolves. -/
structure Resolves (db : Db) : Prop where
  attempts : ∀ a, Row.attempt a ∈ db.rows → ∃ d, Row.delivery d ∈ db.rows ∧ a.isOf d = true
  replays : ∀ r o, Row.delivery r ∈ db.rows → r.replayOf = some o →
    ∃ d, Row.delivery d ∈ db.rows ∧ r.isReplayOf d = true
  events : ∀ d, Row.delivery d ∈ db.rows → ∃ e, Row.event e ∈ db.rows ∧ d.isOf e = true
  handoffs : ∀ h, Row.handoff h ∈ db.rows →
    (∃ d, Row.delivery d ∈ db.rows ∧ h.tenantId = d.tenantId ∧ h.deliveryId = d.deliveryId) ∧
    ∃ a, Row.attempt a ∈ db.rows ∧ h.tenantId = a.tenantId ∧ h.attemptId = a.attemptId

section Resolves

variable {tenantId : UUID} {cutoff : Datetime} {db db' : Db}

theorem AttemptsPruned.stays (h : AttemptsPruned tenantId cutoff db db') {row : Row}
    (hrow : row ∈ db.rows) (hattempt : row.attempt? = none) (hhandoff : row.handoff? = none) :
    row ∈ db'.rows := by
  by_contra hgone
  rcases h.removed row hrow hgone with ⟨a, d, rfl, -⟩ | ⟨g, a, rfl, -⟩
  · cases hattempt
  · cases hhandoff

theorem AttemptsPruned.resolves (h : AttemptsPruned tenantId cutoff db db') (hdb : Resolves db) :
    Resolves db' := by
  constructor
  · intro a ha
    obtain ⟨d, hd, hof⟩ := hdb.attempts a (h.kept _ ha)
    exact ⟨d, h.stays hd rfl rfl, hof⟩
  · intro r o hr hreplay
    obtain ⟨d, hd, hof⟩ := hdb.replays r o (h.kept _ hr) hreplay
    exact ⟨d, h.stays hd rfl rfl, hof⟩
  · intro d hd
    obtain ⟨e, he, hof⟩ := hdb.events d (h.kept _ hd)
    exact ⟨e, h.stays he rfl rfl, hof⟩
  · intro g hg
    obtain ⟨⟨d, hd, hof⟩, a, ha, htenant, hattempt⟩ := hdb.handoffs g (h.kept _ hg)
    exact ⟨⟨d, h.stays hd rfl rfl, hof⟩, a, h.cascade g a hg ha htenant hattempt, htenant, hattempt⟩

theorem DeliveriesPruned.stays (h : DeliveriesPruned tenantId cutoff db db') {row : Row}
    (hrow : row ∈ db.rows) (hdelivery : row.delivery? = none) (hhandoff : row.handoff? = none) :
    row ∈ db'.rows := by
  by_contra hgone
  obtain ⟨d, -, -, -, -, rfl | ⟨g, rfl, -⟩⟩ := h.removed row hrow hgone
  · cases hdelivery
  · cases hhandoff

/-- A delivery with an attempt or a replay stays. -/
theorem DeliveriesPruned.keeps (h : DeliveriesPruned tenantId cutoff db db') {d : DeliveryRow}
    (hd : Row.delivery d ∈ db.rows) (hneeded : (∃ a, Row.attempt a ∈ db.rows ∧ a.isOf d = true) ∨
      ∃ r, Row.delivery r ∈ db.rows ∧ r.isReplayOf d = true) : Row.delivery d ∈ db'.rows := by
  by_contra hgone
  obtain ⟨d', -, -, hattempts, hreplays, heq | ⟨g, heq, -⟩⟩ := h.removed _ hd hgone
  · cases heq
    rcases hneeded with ⟨a, ha, hof⟩ | ⟨r, hr, hof⟩
    · rw [hattempts a ha] at hof
      cases hof
    · rw [hreplays r hr] at hof
      cases hof
  · cases heq

theorem DeliveriesPruned.resolves (h : DeliveriesPruned tenantId cutoff db db')
    (hdb : Resolves db) : Resolves db' := by
  constructor
  · intro a ha
    obtain ⟨d, hd, hof⟩ := hdb.attempts a (h.kept _ ha)
    exact ⟨d, h.keeps hd (Or.inl ⟨a, h.kept _ ha, hof⟩), hof⟩
  · intro r o hr hreplay
    obtain ⟨d, hd, hof⟩ := hdb.replays r o (h.kept _ hr) hreplay
    exact ⟨d, h.keeps hd (Or.inr ⟨r, h.kept _ hr, hof⟩), hof⟩
  · intro d hd
    obtain ⟨e, he, hof⟩ := hdb.events d (h.kept _ hd)
    exact ⟨e, h.stays he rfl rfl, hof⟩
  · intro g hg
    obtain ⟨⟨d, hd, htenant, hdelivery⟩, a, ha, hof⟩ := hdb.handoffs g (h.kept _ hg)
    exact ⟨⟨d, h.cascade g d hg hd htenant hdelivery, htenant, hdelivery⟩, a, h.stays ha rfl rfl, hof⟩

theorem EventsPruned.stays (h : EventsPruned tenantId cutoff db db') {row : Row}
    (hrow : row ∈ db.rows) (hevent : row.event? = none) : row ∈ db'.rows := by
  by_contra hgone
  obtain ⟨e, rfl, -⟩ := h.removed row hrow hgone
  cases hevent

theorem EventsPruned.resolves (h : EventsPruned tenantId cutoff db db') (hdb : Resolves db) :
    Resolves db' := by
  constructor
  · intro a ha
    obtain ⟨d, hd, hof⟩ := hdb.attempts a (h.kept _ ha)
    exact ⟨d, h.stays hd rfl, hof⟩
  · intro r o hr hreplay
    obtain ⟨d, hd, hof⟩ := hdb.replays r o (h.kept _ hr) hreplay
    exact ⟨d, h.stays hd rfl, hof⟩
  · intro d hd
    obtain ⟨e, he, hof⟩ := hdb.events d (h.kept _ hd)
    refine ⟨e, ?_, hof⟩
    by_contra hgone
    obtain ⟨e', heq, -, -, hfree⟩ := h.removed _ he hgone
    cases heq
    rw [hfree d (h.kept _ hd)] at hof
    cases hof
  · intro g hg
    obtain ⟨⟨d, hd, hof⟩, a, ha, hof'⟩ := hdb.handoffs g (h.kept _ hg)
    exact ⟨⟨d, h.stays hd rfl, hof⟩, a, h.stays ha rfl, hof'⟩

end Resolves

end FastapiEffects
