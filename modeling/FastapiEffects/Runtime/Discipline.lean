import FastapiEffects.Runtime
import FastapiEffects.ReadCommitted.Unique
import FastapiEffects.ReadCommitted.Serial
import FastapiEffects.Executors.Lifecycle

/-! # What the runtime keeps

The discipline of the delivery runtime. Its invariant is that every delivery is in a
state its machine reaches and that the claims and executions handed out still describe
their rows. Its commits make one move of each delivery and of each handoff, and their
results report what they did.

A `Mode` restricts the runs: `fenced` ones, in which a claim locks no row that a commit
after its snapshot left leased or terminal, and ones without the relay's own `succeed`.
-/

namespace FastapiEffects

open Python ReadCommitted

variable [Platform]

/-! ## Modes -/

/-- A restriction of the runs. -/
structure Mode where
  fenced : Prop
  relay : Prop

/-- The rows a claim may be granted: those its snapshot showed, and those that the
commits since then left waiting. -/
def claimGuard : Op → List Row → Key → Option Row → Prop
  | .claim _ _ _, seen, _, row =>
      ∀ r, row = some (.delivery r) → .delivery r ∈ seen ∨ r.claimable = true
  | _, _, _, _ => True

/-- Whether an operation is a claim. -/
def Op.claims : Op → Bool
  | .claim _ _ _ => true
  | _ => false

instance (op : Op) (seen : List Row) (y : Key) (row : Option Row) :
    Decidable (claimGuard op seen y row) :=
  decidable_of_iff (op.claims = true → ∀ r ∈ row.bind Row.delivery?,
      .delivery r ∈ seen ∨ r.claimable = true) (by
    have hrow : ∀ r, row.bind Row.delivery? = some r ↔ row = some (.delivery r) := by
      intro r
      cases row with
      | none => simp
      | some row => cases row <;> simp [Row.delivery?]
    cases op <;> simp [claimGuard, Op.claims, hrow])

/-- Whether an operation is the relay's own report of a success. -/
def Op.relays : Op → Prop
  | .succeed _ _ => True
  | _ => False

/-- The runtime under a mode. -/
def Mode.protocol (m : Mode) : Protocol Key Row UUID PyError Op Outcome where
  prog := Op.prog
  allowed s op := op.allowed s = true ∧ (op.relays → m.relay)
  guard op seen x row := m.fenced → claimGuard op seen x row

/-- Every run of the runtime. -/
def Mode.free : Mode := ⟨False, True⟩

/-- The runs in which claims meet no change since their snapshot that matters. -/
def Mode.guarded : Mode := ⟨True, True⟩

/-- Such runs when every success is reported through a handoff. -/
def Mode.brokered : Mode := ⟨True, False⟩

theorem Mode.free_protocol : Mode.free.protocol = runtime := by
  simp [Mode.protocol, Mode.free, runtime]

theorem Mode.guarded_protocol : Mode.guarded.protocol = runtime.withGuard claimGuard := by
  simp [Mode.protocol, Mode.guarded, runtime, Protocol.withGuard]

instance (s : RuntimeStore) (op : Op) :
    Decidable ((runtime.withGuard claimGuard).allowed s op) :=
  inferInstanceAs (Decidable (runtime.allowed s op))

instance (op : Op) (seen : List Row) (y : Key) (row : Option Row) :
    Decidable ((runtime.withGuard claimGuard).guard op seen y row) :=
  inferInstanceAs (Decidable (claimGuard op seen y row))

/-! ## The invariant -/

/-- Where a delivery comes from: a route made its snapshot, its event is stored, and its
replay columns are well formed. -/
structure Origin (db : Db) (r : DeliveryRow) : Prop where
  route : ∃ route : RouteSpecification, route.toSnapshot = .ok r.routeSnapshot ∧
    route.snapshotBytes = .ok r.routeSnapshotBytes ∧ route.routeKey = r.routeKey ∧
    route.version = r.routeVersion ∧ route.destinationKind = r.destinationKind ∧
    route.destinationKey = r.destinationKey
  event : ∃ v record, eventAt db r.tenantId r.eventId = some v ∧ eventFromRow v = .ok record
  replay : ∀ args : DeliveryRecordArgs, args.deliveryId = r.deliveryId →
    args.replayOf = r.replayOf → args.replayActor = r.replayActor →
    args.replayReason = r.replayReason → args.replayCheck = .ok ()

/-- What holds of every committed state. -/
structure RuntimeInv (m : Mode) (s : RuntimeStore) : Prop where
  cells : ∀ t d, (cellAt s.db t d).Inv m.fenced s.now
  origin : ∀ t d r, deliveryAt s.db t d = some r → Origin s.db r
  claims : ∀ e ∈ s.log, ∀ c ∈ claimsOf e, Handed (c.cell s.db) c
  executions : ∀ e ∈ s.log, ∀ ex, executionOf e = some ex → Handed (ex.claim.cell s.db) ex.claim

/-- The lease tokens of the stored attempts and the execution tokens handed out. -/
def tokens (db : Db) (log : History) : Set UUID :=
  {k | (∃ t i a, attemptAt db t i = some a ∧ a.leaseToken = k) ∨
    ∃ e ∈ log, ∃ ex, executionOf e = some ex ∧ ex.executionToken = k}

/-! ## What a commit does -/

/-- The attempt an operation ends in success when it commits. -/
def Op.wins : Op → UUID → UUID → Prop
  | .succeed c _, t, i => c.attempt.tenantId = t ∧ c.attempt.attemptId = i
  | .finalizeSuccess ex _, t, i =>
      ex.claim.attempt.tenantId = t ∧ ex.claim.attempt.attemptId = i
  | _, _, _ => False

/-- The handoff an operation settles as succeeded when it commits. -/
def Op.settles : Op → UUID → UUID → Prop
  | .finalizeSuccess ex _, t, h => ex.record.tenantId = t ∧ ex.record.handoffId = h
  | _, _, _ => False

/-- A handoff an operation may create. -/
def Op.prepares : Op → HandoffRow → Prop
  | .prepare c _, h => h.tenantId = c.delivery.tenantId ∧ h.deliveryId = c.delivery.deliveryId ∧
      h.attemptId = c.attempt.attemptId ∧ h.routeSnapshot = c.routeSnapshot
  | _, _ => False

/-- The claim an operation of the relay reports on. -/
def Op.reportsOn : Op → Option ClaimedDelivery
  | .succeed c _ | .fail c _ _ _ _ => some c
  | _ => none

/-- The claim an operation finalizes. -/
def Op.finalizes : Op → Option ClaimedDelivery
  | .succeed c _ | .fail c _ _ _ _ => some c
  | .finalizeSuccess ex _ | .finalizeFailure ex _ _ _ => some ex.claim
  | _ => none

/-- The execution an operation finalizes. -/
def Op.completes : Op → Option ExecutingHandoff
  | .finalizeSuccess ex _ | .finalizeFailure ex _ _ _ => some ex
  | _ => none

/-- Whether a transaction committed. -/
def committed (e : Entry Key Row PyError Op Outcome) : Prop := ∃ a, e.result = .ok a

/-- The lease of a claim is the current one, and has time left when it is checked. -/
def Current (s : RuntimeStore) (e : Entry Key Row PyError Op Outcome) (c : ClaimedDelivery) :
    Prop :=
  ∃ r expiry t, (c.cell s.db).delivery = some r ∧ r.leaseToken = some c.leaseToken ∧
    r.leaseExpiresAt = some expiry ∧ e.clocks.head? = some t ∧ e.beganAt ≤ t ∧ t < expiry

/-- An attempt of a delivery is under way before and has ended after, in success when
`won`. -/
def Finalizes (db db' : Db) (t d i : UUID) (won : Prop) : Prop :=
  ∃ a a', (cellAt db t d).attempts i = some a ∧ a.outcome = .started ∧
    (cellAt db' t d).attempts i = some a' ∧ a'.outcome ≠ .started ∧
    (won → a'.outcome = .succeeded)

/-- The handoff of an execution is executed under its token before and has ended after,
in success when `won`. -/
def Completes (db db' : Db) (ex : ExecutingHandoff) (won : Prop) : Prop :=
  ∃ h h', handoffAt db ex.record.tenantId ex.record.handoffId = some h ∧ h.state = .executing ∧
    h.executionToken = some ex.executionToken ∧
    handoffAt db' ex.record.tenantId ex.record.handoffId = some h' ∧ h'.isOpen = false ∧
    (won → h'.state = .succeeded)

/-- An execution that was admitted, and its deadline. -/
structure Admits (db' : Db) (ex : ExecutingHandoff) : Prop where
  handoff : ∃ h, handoffAt db' ex.record.tenantId ex.record.handoffId = some h ∧
    h.executionToken = some ex.executionToken ∧ h.startedAt = some ex.record.updatedAt ∧
    h.executionDeadline = some ex.executionDeadline ∧
    h.tenantId = ex.claim.delivery.tenantId ∧ h.deliveryId = ex.claim.delivery.deliveryId ∧
    h.attemptId = ex.claim.attempt.attemptId ∧ h.routeSnapshot = ex.claim.routeSnapshot
  claim : Handed (ex.claim.cell db') ex.claim
  deadline : ∃ p expiry latest, snapshotPolicy ex.claim.routeSnapshot = .ok p ∧
    ex.claim.delivery.leaseExpiresAt = some expiry ∧
    attemptDeadline p ex.claim.delivery.createdAt ex.claim.attempt.startedAt expiry = .ok latest ∧
    ex.executionDeadline ≤ latest

/-- A claim that was handed out, of a new attempt. -/
structure Leases (db db' : Db) (c : ClaimedDelivery) : Prop where
  handed : Handed (c.cell db') c
  fresh : (c.cell db).attempts c.attempt.attemptId = none
  snapshot : ∃ r, (c.cell db').delivery = some r ∧ r.routeSnapshot = c.routeSnapshot

/-- What the result of a transaction says about its commit. -/
structure Reports (s : RuntimeStore) (e : Entry Key Row PyError Op Outcome) (db' : Db) : Prop where
  claims : ∀ c ∈ claimsOf e, Leases s.db db' c
  executions : ∀ ex, executionOf e = some ex → Admits db' ex ∧
    ex.executionToken ∉ tokens s.db s.log
  current : ∀ c, e.op.reportsOn = some c →
    e.result ≠ .error (.leaseLost c.delivery.deliveryId) → Current s e c
  finalized : ∀ c, e.op.finalizes = some c → committed e →
    Finalizes s.db db' c.delivery.tenantId c.delivery.deliveryId c.attempt.attemptId
      (e.op.wins c.attempt.tenantId c.attempt.attemptId)
  completed : ∀ ex, e.op.completes = some ex → committed e →
    Completes s.db db' ex (e.op.settles ex.record.tenantId ex.record.handoffId)

/-- The moves a commit may make of a delivery of tenant `t`. -/
def commitMoves (m : Mode) (s : RuntimeStore) (e : Entry Key Row PyError Op Outcome) (db' : Db)
    (t : UUID) : Moves where
  fenced := m.fenced
  wins i := e.op.wins t i
  fresh k := k ∉ tokens s.db s.log
  new r := Origin db' r

/-- The moves a commit may make of a handoff. -/
def commitHandoffMoves (e : Entry Key Row PyError Op Outcome) (t h : UUID) : HandoffMoves where
  wins := e.op.settles t h
  runs k τ d := ∃ ex, executionOf e = some ex ∧ ex.record.tenantId = t ∧
    ex.record.handoffId = h ∧ ex.executionToken = k ∧ ex.record.updatedAt = τ ∧
    ex.executionDeadline = d
  new h := e.op.prepares h

/-- What one commit does to the rows. -/
structure Commits (m : Mode) (s : RuntimeStore) (e : Entry Key Row PyError Op Outcome)
    (db' : Db) : Prop where
  failed : ∀ x, e.result = .error x → db' = s.db
  began : e.beganAt ≤ s.now
  allowed : e.op.allowed s = true
  relay : e.op.relays → m.relay
  cells : ∀ t d, ∃ τ ≤ s.now, (cellAt s.db t d).Inv m.fenced τ ∧
    Cell.Step (commitMoves m s e db' t) τ (cellAt s.db t d) (cellAt db' t d)
  handoffs : ∀ t h, ∃ τ ≤ s.now,
    HandoffStep (commitHandoffMoves e t h) τ (handoffAt s.db t h) (handoffAt db' t h)
  events : ∀ t v r, eventAt s.db t v = some r → eventAt db' t v = some r
  reports : Reports s e db'

/-! ## The discipline -/

/-- Stored deliveries stay, with their identity. -/
def DeliveriesStay (db db' : Db) : Prop :=
  ∀ t d r, deliveryAt db t d = some r →
    ∃ r', deliveryAt db' t d = some r' ∧ r'.identity = r.identity

/-- Who holds a delivery holds its attempts. -/
def cellRely : Key → Db → Db → Prop
  | .delivery t d, db, db' => cellAt db' t d = cellAt db t d
  | _, _, _ => True

theorem cellRely_refl (x : Key) (db : Db) : cellRely x db db := by
  cases x <;> simp [cellRely]

theorem cellRely_trans (x : Key) {a b c : Db} (h : cellRely x a b) (h' : cellRely x b c) :
    cellRely x a c := by
  cases x with
  | delivery t d => exact Eq.trans h' h
  | _ => trivial

theorem RuntimeInv.atTime {m : Mode} {s : RuntimeStore} {t : Datetime} (h : RuntimeInv m s)
    (ht : s.now ≤ t) : RuntimeInv m (s.atTime t) :=
  ⟨fun t d => (h.cells t d).mono ht, h.origin, h.claims, h.executions⟩

/-- The discipline of the runtime under a mode. -/
def Mode.discipline (m : Mode) : Discipline Key Row UUID PyError Op Outcome where
  toProtocol := m.protocol
  Inv := RuntimeInv m
  Trans s s' := s'.now = s.now ∧ ∃ e, s'.log = s.log ++ [e] ∧ Commits m s e s'.db
  grows := DeliveriesStay
  rely x s s' := cellRely x s.db s'.db
  ids := tokens
  inv_tick _ _ h ht := h.atTime ht
  grows_refl _ _ _ r hr := ⟨r, hr, rfl⟩
  grows_trans _ _ _ h h' t d r hr := by
    obtain ⟨r₁, hr₁, hid₁⟩ := h t d r hr
    obtain ⟨r₂, hr₂, hid₂⟩ := h' t d r₁ hr₁
    exact ⟨r₂, hr₂, hid₂.trans hid₁⟩
  rely_refl x s := cellRely_refl x s.db
  rely_trans x _ _ _ h h' := cellRely_trans x h h'
  rely_tick x s _ _ := cellRely_refl x s.db

/-! ## Commits keep the invariant -/

section Commits

variable {m : Mode} {s : RuntimeStore} {e : Entry Key Row PyError Op Outcome} {db' : Db}

theorem Origin.of_identity {r r' : DeliveryRow} (h : Origin s.db r) (hid : r'.identity = r.identity)
    (hevents : ∀ t v r, eventAt s.db t v = some r → eventAt db' t v = some r) : Origin db' r' := by
  have hcolumn : ∀ {β : Type} (f : DeliveryRow → β), (∀ r, f r = f r.identity) → f r' = f r :=
    fun f hf => by rw [hf r', hf r, hid]
  have htenant := hcolumn (·.tenantId) fun _ => rfl
  have hevent := hcolumn (·.eventId) fun _ => rfl
  have hkey := hcolumn (·.routeKey) fun _ => rfl
  have hversion := hcolumn (·.routeVersion) fun _ => rfl
  have hkind := hcolumn (·.destinationKind) fun _ => rfl
  have hdest := hcolumn (·.destinationKey) fun _ => rfl
  have hsnapshot := hcolumn (·.routeSnapshot) fun _ => rfl
  have hbytes := hcolumn (·.routeSnapshotBytes) fun _ => rfl
  have hdelivery := hcolumn (·.deliveryId) fun _ => rfl
  have hof := hcolumn (·.replayOf) fun _ => rfl
  have hactor := hcolumn (·.replayActor) fun _ => rfl
  have hreason := hcolumn (·.replayReason) fun _ => rfl
  refine ⟨?_, ?_, ?_⟩
  · obtain ⟨route, hroute⟩ := h.route
    exact ⟨route, by rw [hsnapshot, hbytes, hkey, hversion, hkind, hdest]; exact hroute⟩
  · obtain ⟨v, record, hv, hrecord⟩ := h.event
    exact ⟨v, record, by rw [htenant, hevent]; exact hevents _ _ _ hv, hrecord⟩
  · intro args h₁ h₂ h₃ h₄
    exact h.replay args (h₁.trans hdelivery) (h₂.trans hof) (h₃.trans hactor) (h₄.trans hreason)

/-- Deliveries stay. -/
theorem Commits.deliveriesStay (h : Commits m s e db') : DeliveriesStay s.db db' := by
  intro t d r hr
  obtain ⟨τ, -, -, hstep⟩ := h.cells t d
  exact hstep.delivery hr

/-- The invariant after a commit. -/
theorem Commits.inv (h : Commits m s e db') (hinv : RuntimeInv m s) :
    RuntimeInv m ⟨db', s.now, s.log ++ [e]⟩ where
  cells := by
    intro t d
    obtain ⟨τ, hτ, hcell, hstep⟩ := h.cells t d
    exact (Cell.Inv.step (m := commitMoves m s e db' t) hcell hstep).mono hτ
  origin := by
    intro t d r' hr'
    cases hr : deliveryAt s.db t d with
    | some r =>
        obtain ⟨r'', hr'', hid⟩ := h.deliveriesStay t d r hr
        rw [hr'] at hr''
        cases hr''
        exact (hinv.origin t d r hr).of_identity hid h.events
    | none =>
        -- only a creation stores a delivery where there was none
        obtain ⟨τ, -, -, hstep⟩ := h.cells t d
        generalize hc : cellAt s.db t d = c at hstep
        generalize hc' : cellAt db' t d = c' at hstep
        have hnone : c.delivery = none := hc ▸ hr
        have hsome : c'.delivery = some r' := hc' ▸ hr'
        cases hstep with
        | same => rw [hnone] at hsome; cases hsome
        | create r as has hcreated hnew => cases hsome; exact hnew
        | expire r as hfence hstate htime => cases hnone
        | lease r as id token expiry hfence htime hid hfresh htoken => cases hnone
        | close r as a state outcome next code summary ha hcloses => cases hnone
  claims := by
    intro e' he' c hc
    rcases List.mem_append.mp he' with he' | he'
    · obtain ⟨τ, -, -, hstep⟩ := h.cells c.delivery.tenantId c.delivery.deliveryId
      exact (hinv.claims e' he' c hc).step hstep
    · rw [List.mem_singleton.mp he'] at hc
      exact (h.reports.claims c hc).handed
  executions := by
    intro e' he' ex hex
    rcases List.mem_append.mp he' with he' | he'
    · obtain ⟨τ, -, -, hstep⟩ := h.cells ex.claim.delivery.tenantId ex.claim.delivery.deliveryId
      exact (hinv.executions e' he' ex hex).step hstep
    · rw [List.mem_singleton.mp he'] at hex
      exact (h.reports.executions ex hex).1.claim

end Commits

end FastapiEffects
