import FastapiEffects.Postgres.Lifecycle

/-! # The rows of one delivery

How the tables hold the cells of the abstract machine: the row under a key, the cell
of a delivery, and what a change of the tables does to a cell.
-/

namespace FastapiEffects

open Python ReadCommitted

/-! ## Rows by key -/

/-- The event under a key. -/
def eventAt (db : Db) (t v : UUID) : Option EventRow := (db.get (.event t v)).bind Row.event?

/-- The delivery under a key. -/
def deliveryAt (db : Db) (t d : UUID) : Option DeliveryRow :=
  (db.get (.delivery t d)).bind Row.delivery?

/-- The attempt under a key. -/
def attemptAt (db : Db) (t i : UUID) : Option AttemptRow :=
  (db.get (.attempt t i)).bind Row.attempt?

/-- The handoff under a key. -/
def handoffAt (db : Db) (t h : UUID) : Option HandoffRow :=
  (db.get (.handoff t h)).bind Row.handoff?

section RowsByKey

variable {db : Db} {t i : UUID}

theorem deliveryAt_eq_some {r : DeliveryRow} :
    deliveryAt db t i = some r ↔ db.get (.delivery t i) = some (.delivery r) := by
  constructor
  · intro h
    obtain ⟨row, hrow, hr⟩ := Option.bind_eq_some_iff.mp h
    cases row <;> simp_all [Row.delivery?]
  · intro h
    simp [deliveryAt, h, Row.delivery?]

theorem attemptAt_eq_some {a : AttemptRow} :
    attemptAt db t i = some a ↔ db.get (.attempt t i) = some (.attempt a) := by
  constructor
  · intro h
    obtain ⟨row, hrow, hr⟩ := Option.bind_eq_some_iff.mp h
    cases row <;> simp_all [Row.attempt?]
  · intro h
    simp [attemptAt, h, Row.attempt?]

theorem eventAt_eq_some {v : EventRow} :
    eventAt db t i = some v ↔ db.get (.event t i) = some (.event v) := by
  constructor
  · intro h
    obtain ⟨row, hrow, hr⟩ := Option.bind_eq_some_iff.mp h
    cases row <;> simp_all [Row.event?]
  · intro h
    simp [eventAt, h, Row.event?]

theorem handoffAt_eq_some {h : HandoffRow} :
    handoffAt db t i = some h ↔ db.get (.handoff t i) = some (.handoff h) := by
  constructor
  · intro hh
    obtain ⟨row, hrow, hr⟩ := Option.bind_eq_some_iff.mp hh
    cases row <;> simp_all [Row.handoff?]
  · intro hh
    simp [handoffAt, hh, Row.handoff?]

theorem handoffAt_congr {db' : Db} (h : db'.get (.handoff t i) = db.get (.handoff t i)) :
    handoffAt db' t i = handoffAt db t i := by
  rw [handoffAt, h, ← handoffAt]

theorem deliveryAt_key {r : DeliveryRow} (h : deliveryAt db t i = some r) :
    r.tenantId = t ∧ r.deliveryId = i := by
  have := Table.key_of_get (deliveryAt_eq_some.mp h)
  simpa [Schema.key, Row.key] using this

theorem attemptAt_key {a : AttemptRow} (h : attemptAt db t i = some a) :
    a.tenantId = t ∧ a.attemptId = i := by
  have := Table.key_of_get (attemptAt_eq_some.mp h)
  simpa [Schema.key, Row.key] using this

theorem handoffAt_key {r : HandoffRow} (h : handoffAt db t i = some r) :
    r.tenantId = t ∧ r.handoffId = i := by
  have := Table.key_of_get (handoffAt_eq_some.mp h)
  simpa [Schema.key, Row.key] using this

/-- Only a delivery is stored under the key of a delivery. -/
theorem deliveryAt_eq_none : deliveryAt db t i = none ↔ db.get (.delivery t i) = none := by
  constructor
  · intro h
    cases hget : db.get (.delivery t i) with
    | none => rfl
    | some row =>
        have hkey := Table.key_of_get hget
        cases row <;> simp [Schema.key, Row.key] at hkey
        simp [deliveryAt, hget, Row.delivery?] at h
  · intro h
    simp [deliveryAt, h]

theorem attemptAt_eq_none : attemptAt db t i = none ↔ db.get (.attempt t i) = none := by
  constructor
  · intro h
    cases hget : db.get (.attempt t i) with
    | none => rfl
    | some row =>
        have hkey := Table.key_of_get hget
        cases row <;> simp [Schema.key, Row.key] at hkey
        simp [attemptAt, hget, Row.attempt?] at h
  · intro h
    simp [attemptAt, h]

theorem handoffAt_eq_none : handoffAt db t i = none ↔ db.get (.handoff t i) = none := by
  constructor
  · intro h
    cases hget : db.get (.handoff t i) with
    | none => rfl
    | some row =>
        have hkey := Table.key_of_get hget
        cases row <;> simp [Schema.key, Row.key] at hkey
        simp [handoffAt, hget, Row.handoff?] at h
  · intro h
    simp [handoffAt, h]

end RowsByKey

/-! ## What never changes in a row -/

/-- The columns of a handoff that never change. -/
def HandoffRow.identity (h : HandoffRow) : HandoffRow :=
  { h with
    state := .prepared
    executionToken := none
    executionDeadline := none
    executionCount := 0
    enqueuedAt := none
    startedAt := none
    finishedAt := none
    updatedAt := 0
    failureCode := none
    failureSummary := none }

/-- The columns of a row that never change. -/
def Row.identity : Row → Row
  | .event r => .event r
  | .delivery r => .delivery r.identity
  | .attempt r => .attempt r.identity
  | .handoff r => .handoff r.identity

/-- Keys and unique constraints are about columns that never change. -/
theorem Row.keeps_of_identity {r₀ r : Row} (h : r.identity = r₀.identity) : Schema.Keeps r₀ r := by
  have hkey : ∀ r : Row, r.key = r.identity.key := by
    intro r
    cases r <;> rfl
  have hclash : ∀ r r' : Row, r.clash r' = r.identity.clash r' := by
    intro r r'
    cases r <;> cases r' <;> rfl
  refine ⟨?_, fun r' => ?_⟩
  · show r.key = r₀.key
    rw [hkey r, hkey r₀, h]
  · show r.clash r' = r₀.clash r'
    rw [hclash r, hclash r₀, h]

/-! ## Cells -/

/-- The delivery a row belongs to, for rows that are part of a cell. -/
def Row.cell : Row → Option (UUID × UUID)
  | .delivery r => some (r.tenantId, r.deliveryId)
  | .attempt a => some (a.tenantId, a.deliveryId)
  | _ => none

theorem Row.cell_of_identity {r₀ r : Row} (h : r.identity = r₀.identity) : r.cell = r₀.cell := by
  have hcell : ∀ r : Row, r.cell = r.identity.cell := by
    intro r
    cases r <;> rfl
  rw [hcell r, hcell r₀, h]

/-- The cell of a delivery. -/
def cellAt (db : Db) (t d : UUID) : Cell where
  delivery := deliveryAt db t d
  attempts i := (attemptAt db t i).filter fun a => a.deliveryId = d

theorem cellAt_attempts {db : Db} {t d i : UUID} {a : AttemptRow} :
    (cellAt db t d).attempts i = some a ↔ attemptAt db t i = some a ∧ a.deliveryId = d := by
  simp [cellAt, Option.filter_eq_some_iff]

/-- What a change of the tables does to the cell of a delivery. -/
def Cell.change (t d : UUID) (c : Cell) : Write Key Row → Cell
  | .put (.delivery r) =>
      if r.tenantId = t ∧ r.deliveryId = d then { c with delivery := some r } else c
  | .put (.attempt a) =>
      if a.tenantId = t then
        let mine := if a.deliveryId = d then some a else none
        { c with attempts := Function.update c.attempts a.attemptId mine }
      else c
  | .erase (.delivery t' d') => if t' = t ∧ d' = d then { c with delivery := none } else c
  | .erase (.attempt t' i) =>
      if t' = t then { c with attempts := Function.update c.attempts i none } else c
  | _ => c

theorem cellAt_apply (db : Db) (t d : UUID) (v : Write Key Row) :
    cellAt (v.apply db) t d = (cellAt db t d).change t d v := by
  cases v with
  | put r =>
      cases r with
      | delivery r =>
          by_cases hr : r.tenantId = t ∧ r.deliveryId = d
          · simp [Write.apply, Cell.change, cellAt, deliveryAt, attemptAt, Table.get_put, Schema.key,
              Row.key, hr, Row.delivery?]
          · simp [Write.apply, Cell.change, cellAt, deliveryAt, attemptAt, Table.get_put, Schema.key,
              Row.key, hr]
      | attempt a =>
          by_cases ha : a.tenantId = t
          · simp only [Write.apply, Cell.change, cellAt, deliveryAt, attemptAt, Table.get_put,
              Schema.key, Row.key, ha, if_true]
            ext i
            · simp
            · by_cases hi : i = a.attemptId
              · subst hi
                by_cases hd : a.deliveryId = d <;> simp [Row.attempt?, hd, Option.filter]
              · simp [hi, Ne.symm hi]
          · simp [Write.apply, Cell.change, cellAt, deliveryAt, attemptAt, Table.get_put, Schema.key,
              Row.key, ha]
      | event r =>
          simp [Write.apply, Cell.change, cellAt, deliveryAt, attemptAt, Table.get_put, Schema.key,
            Row.key]
      | handoff r =>
          simp [Write.apply, Cell.change, cellAt, deliveryAt, attemptAt, Table.get_put, Schema.key,
            Row.key]
  | erase x =>
      cases x with
      | delivery t' d' =>
          by_cases hr : t' = t ∧ d' = d
          · simp [Write.apply, Cell.change, cellAt, deliveryAt, attemptAt, Table.get_erase, hr]
          · have hr' : ¬ (t = t' ∧ d = d') := fun h => hr ⟨h.1.symm, h.2.symm⟩
            simp [Write.apply, Cell.change, cellAt, deliveryAt, attemptAt, Table.get_erase, hr, hr']
      | attempt t' i =>
          by_cases ha : t' = t
          · subst ha
            simp only [Write.apply, Cell.change, cellAt, deliveryAt, attemptAt, Table.get_erase,
              if_true]
            ext j
            · simp
            · by_cases hj : j = i
              · subst hj
                simp
              · simp [hj]
          · simp [Write.apply, Cell.change, cellAt, deliveryAt, attemptAt, Table.get_erase, ha,
              Ne.symm ha]
      | event t' v =>
          simp [Write.apply, Cell.change, cellAt, deliveryAt, attemptAt, Table.get_erase]
      | handoff t' h =>
          simp [Write.apply, Cell.change, cellAt, deliveryAt, attemptAt, Table.get_erase]
      | webhookRetention t' =>
          simp [Write.apply, Cell.change, cellAt, deliveryAt, attemptAt, Table.get_erase]

/-- What a transaction sees of a cell. -/
theorem cellAt_install (db : Db) (t d : UUID) (ws : List (Write Key Row)) :
    cellAt (db.install ws) t d = ws.foldl (Cell.change t d) (cellAt db t d) := by
  induction ws generalizing db with
  | nil => rfl
  | cons v ws ih =>
      show cellAt ((v.apply db).install ws) t d = _
      rw [ih, cellAt_apply]
      rfl

/-- What a transaction sees of a cell is determined by the cell and its changes. -/
theorem cellAt_install_congr {db db' : Db} {t d : UUID} (h : cellAt db t d = cellAt db' t d)
    (ws : List (Write Key Row)) :
    cellAt (db.install ws) t d = cellAt (db'.install ws) t d := by
  rw [cellAt_install, cellAt_install, h]

/-- A row that may take the place of what is stored under its key. -/
def Row.Replaces (db : Db) (r : Row) : Prop :=
  db.get r.key = none ∨ ∃ r₀, db.get r.key = some r₀ ∧ r.identity = r₀.identity

/-- Rows of other cells leave a cell alone. -/
theorem Cell.change_of_cell_ne {db : Db} {t d : UUID} {r : Row} (hr : r.cell ≠ some (t, d))
    (hreplaces : r.Replaces db) : (cellAt db t d).change t d (.put r) = cellAt db t d := by
  cases r with
  | event r => rfl
  | handoff r => rfl
  | delivery r =>
      have : ¬ (r.tenantId = t ∧ r.deliveryId = d) := by
        rintro ⟨rfl, rfl⟩
        exact hr rfl
      simp [Cell.change, this]
  | attempt a =>
      by_cases ha : a.tenantId = t
      · subst ha
        have hd : a.deliveryId ≠ d := fun h => hr (by simp [Row.cell, h])
        have hnone : (cellAt db a.tenantId d).attempts a.attemptId = none := by
          rcases hreplaces with hnone | ⟨r₀, hr₀, hid⟩
          · have hat := attemptAt_eq_none.mpr hnone
            simp [cellAt, hat]
          · have hcell := Row.cell_of_identity hid
            have hkey := Table.key_of_get hr₀
            cases r₀ <;> simp [Schema.key, Row.key] at hkey
            rename_i a₀
            have hat := attemptAt_eq_some.mpr hr₀
            have hd₀ : a₀.deliveryId ≠ d := by
              simp only [Row.cell, Option.some.injEq, Prod.mk.injEq] at hcell
              exact fun h => hd (hcell.2.trans h)
            simp [cellAt, hat, Option.filter, hd₀]
        simp only [Cell.change, if_true, hd, if_false]
        ext i
        · rfl
        · by_cases hi : i = a.attemptId
          · subst hi
            simp [hnone]
          · simp [hi]
      · simp [Cell.change, ha]

/-- Changes to other cells leave a cell alone. -/
theorem cellAt_install_of_cell_ne {db : Db} {t d : UUID} {ws : List (Write Key Row)}
    (h : ∀ v ∈ ws, ∃ r, v = .put r ∧ r.cell ≠ some (t, d) ∧ r.Replaces db) :
    cellAt (db.install ws) t d = cellAt db t d := by
  rw [cellAt_install]
  induction ws with
  | nil => rfl
  | cons v ws ih =>
      obtain ⟨r, rfl, hr, hreplaces⟩ := h v (by simp)
      rw [List.foldl_cons, Cell.change_of_cell_ne hr hreplaces]
      exact ih fun v hv => h v (by simp [hv])

/-! ## Claims and cells -/

/-- The cell of a claim's delivery. -/
def ClaimedDelivery.cell (c : ClaimedDelivery) (db : Db) : Cell :=
  cellAt db c.delivery.tenantId c.delivery.deliveryId

/-- What stays true of a claim that was handed out, of whatever became of its lease. -/
structure Handed (cell : Cell) (c : ClaimedDelivery) : Prop where
  tenant : c.attempt.tenantId = c.delivery.tenantId
  expiry : c.delivery.leaseExpiresAt.isSome
  rows : ∃ r a, cell.delivery = some r ∧ cell.attempts c.attempt.attemptId = some a ∧
    a.leaseToken = c.leaseToken ∧ a.startedAt = c.attempt.startedAt ∧
    r.createdAt = c.delivery.createdAt ∧
    (r.leaseToken = some c.leaseToken → r.leaseExpiresAt = c.delivery.leaseExpiresAt)

/-- Moves keep what is known of a claim. -/
theorem Handed.step {m : Moves} {τ : Datetime} {cell cell' : Cell} {c : ClaimedDelivery}
    (h : Handed cell c) (hstep : Cell.Step m τ cell cell') : Handed cell' c := by
  refine ⟨h.tenant, h.expiry, ?_⟩
  obtain ⟨r, a, hr, ha, htoken, hstart, hcreated, hexpiry⟩ := h.rows
  cases hstep with
  | same => exact ⟨r, a, hr, ha, htoken, hstart, hcreated, hexpiry⟩
  | create r' as hnone hc hnew => cases hr
  | expire r as hfence hstate htime =>
      cases hr
      exact ⟨_, a, rfl, ha, htoken, hstart, hcreated, hexpiry⟩
  | lease r as id token expiry hfence htime hid hfresh hnewtoken =>
      cases hr
      have hne : c.attempt.attemptId ≠ id := fun heq => by
        simp only [heq, hid] at ha
        cases ha
      refine ⟨_, a, rfl, Live.update_eq_some.mpr (Or.inr ⟨hne, ha⟩), htoken, hstart, hcreated, ?_⟩
      intro heq
      exact absurd (htoken.trans (Option.some.inj heq).symm) (hnewtoken _ a ha)
  | close r as b state outcome next code summary hb hcloses =>
      cases hr
      by_cases hi : c.attempt.attemptId = b.attemptId
      · have hab : a = b := by
          rw [hi] at ha
          exact Option.some.inj (ha.symm.trans hb)
        subst hab
        exact ⟨_, _, rfl, Live.update_eq_some.mpr (Or.inl ⟨hi, rfl⟩), htoken, hstart, hcreated,
          by simp [closedDelivery]⟩
      · exact ⟨_, a, rfl, Live.update_eq_some.mpr (Or.inr ⟨hi, ha⟩), htoken, hstart, hcreated,
          by simp [closedDelivery]⟩

end FastapiEffects
