import FastapiEffects.Runtime.Sound

/-! # What a lease promises

The results about runs of the relay. A claim takes only what waits, as long as it meets
no change since its snapshot that matters (`claim_leases_waiting`); one transaction at a
time it always does, and then every delivery agrees with its attempts
(`serial_consistent`).
-/

namespace FastapiEffects

open Python ReadCommitted

/-! ## Exclusion -/

section Exclusion

variable [Platform]

namespace Cell

variable {m : Moves} {τ : Datetime} {c c' : Cell} {r r' : DeliveryRow}

omit [Platform]

/-- A move that gives a delivery a new token leases it, under a token that is fresh. -/
theorem Step.leases (hstep : Step m τ c c') (hr : c.delivery = some r) (hr' : c'.delivery = some r')
    {k : UUID} (hk : r'.leaseToken = some k) (hne : r.leaseToken ≠ some k) :
    (m.fenced → r.claimable = true) ∧ m.fresh k ∧ ∃ expiry, r' = leasedDelivery r k expiry τ := by
  cases hstep with
  | same =>
      rw [hr] at hr'
      cases hr'
      exact absurd hk hne
  | create r as hnone hc hnew => cases hr
  | expire r as hfence hstate htime =>
      cases hr
      cases hr'
      exact absurd hk hne
  | lease r as id token expiry hfence htime hid hfresh htoken =>
      cases hr
      cases hr'
      cases hk
      exact ⟨hfence, hfresh, expiry, rfl⟩
  | close r as a state outcome next code summary ha hcloses =>
      cases hr
      cases hr'
      cases hk

/-- Under the fence a succeeded or dead delivery stays as it is. -/
theorem Step.terminal (hstep : Step m τ c c') (hf : m.fenced) (hr : c.delivery = some r)
    (hr' : c'.delivery = some r') (hend : r.state = .succeeded ∨ r.state = .dead) : r' = r := by
  have hclaim : r.claimable = false := by
    rcases hend with h | h <;> simp [DeliveryRow.claimable, h]
  cases hstep with
  | same =>
      rw [hr] at hr'
      exact (Option.some.inj hr').symm
  | create r as hnone hc hnew => cases hr
  | expire r as hfence hstate htime =>
      cases hr
      simp [hfence hf] at hclaim
  | lease r as id token expiry hfence htime hid hfresh htoken =>
      cases hr
      simp [hfence hf] at hclaim
  | close r as a state outcome next code summary ha hcloses =>
      cases hr
      rcases hend with h | h <;> simp [hcloses.leased] at h

end Cell

section Steps

variable {m : Mode} {now : Datetime} {w w' : RuntimeWorld} {t d : UUID} {r r' : DeliveryRow}

/-- A step makes one move of each delivery, from a cell that keeps the invariant. -/
theorem Mode.step_cell (hreach : Reachable m.protocol (RuntimeWorld.start now) w)
    (hstep : Step m.protocol w w') (t d : UUID) :
    ∃ moves τ, moves.fenced = m.fenced ∧ (cellAt w.store.db t d).Inv m.fenced τ ∧
      Cell.Step moves τ (cellAt w.store.db t d) (cellAt w'.store.db t d) := by
  rcases Mode.step_cases hreach hstep with ⟨hdb, -, -⟩ | ⟨e, -, hcommits⟩
  · have hinv := (Mode.worldInv hreach).inv
    refine ⟨⟨m.fenced, fun _ => False, fun _ => False, fun _ => False⟩, w.store.now, rfl,
      RuntimeInv.cells (m := m) hinv t d, ?_⟩
    rw [hdb]
    exact .same _
  · obtain ⟨τ, -, hinv, hmove⟩ := hcommits.cells t d
    exact ⟨_, τ, rfl, hinv, hmove⟩

/-- A delivery as its machine sees it. -/
theorem Mode.live (hreach : Reachable m.protocol (RuntimeWorld.start now) w)
    (hr : deliveryAt w.store.db t d = some r) :
    Live m.fenced w.store.now r (cellAt w.store.db t d).attempts := by
  have hcell := RuntimeInv.cells (m := m) (Mode.worldInv hreach).inv t d
  rwa [Cell.Inv, show (cellAt w.store.db t d).delivery = some r from hr] at hcell

end Steps

/-- A claim takes only what waits: in every run in which the rows a claim locks are
those its snapshot showed, or were left waiting by the commits since, a delivery gets a
new token only while it is pending or waits for a retry, with no token to overwrite, and
one that succeeded or is dead never changes again. What a claim finds at its commit is
what it locked: a row stays as it is while a transaction holds it. -/
theorem claim_leases_waiting {now : Datetime} {w w' : RuntimeWorld}
    (hreach : Reachable (runtime.withGuard claimGuard) (RuntimeWorld.start now) w)
    (hstep : Step (runtime.withGuard claimGuard) w w') {t d : UUID} {r r' : DeliveryRow}
    (hr : deliveryAt w.store.db t d = some r) (hr' : deliveryAt w'.store.db t d = some r') :
    (∀ k, r'.leaseToken = some k → r.leaseToken ≠ some k →
      (r.state = .pending ∨ r.state = .retryWait) ∧ r.leaseToken = none) ∧
    (r.state = .succeeded ∨ r.state = .dead → r' = r) ∧
    (∀ i x x', w.txn i = some x → w'.txn i = some x' → .delivery t d ∈ x.ctx.held → r' = r) := by
  rw [← Mode.guarded_protocol] at hreach hstep
  obtain ⟨moves, τ, hfenced, hinv, hmove⟩ := Mode.step_cell hreach hstep t d
  have hf : moves.fenced := hfenced ▸ trivial
  refine ⟨fun k hk hne => ?_, fun hend => hmove.terminal hf hr hr' hend, ?_⟩
  · have hclaim := (hmove.leases hr hr' hk hne).1 hf
    have hstate : r.state = .pending ∨ r.state = .retryWait := by
      simpa [DeliveryRow.claimable] using hclaim
    have hnone := (Mode.live hreach hr).leased.not.mp (by rcases hstate with h | h <;> simp [h])
    exact ⟨hstate, by simpa using hnone⟩
  · intro i x x' hx hx' hheld
    have hsame := WorldInv.get_of_held (D := Mode.guarded.discipline) (Mode.worldInv hreach) hstep
      hx hx' hheld
    rw [deliveryAt_eq_some] at hr hr'
    rw [hsame, hr] at hr'
    cases hr'
    rfl

end Exclusion

/-! A small history: one event with one delivery, published at time 0. -/

namespace Scenario

scoped instance platform : Platform :=
  { Checksum.platform with sha256 := fun _ => Vector.replicate 32 0 }

def policy : RetryPolicy :=
  ⟨{ name := "p"
     maximumElapsedSeconds := 1000
     baseDelaySeconds := .int 1
     maximumDelaySeconds := .int 2
     handlerTimeoutSeconds := .int 3
     leaseDurationSeconds := .int 4 }, by decide +kernel⟩

def routeArgs : RouteArgs where
  eventType := "e"
  routeKey := "r"
  version := 1
  destinationKind := "handler"
  destinationKey := "r"
  requiredScopes := []
  authorization := .revalidate
  servicePolicy := none
  serviceCapabilities := none
  maximumSnapshotAgeSeconds := none
  retryPolicy := policy
  destinationMetadata := []

def route : RouteSpecification := ⟨routeArgs, routeArgs, by rfl⟩

def principal : PrincipalEnvelope := ⟨1, "s", [], none, none, 0, none, none, none⟩

def event : Event := ⟨{ type := "e", version := 1, data := .obj [], occurredAt := 0 }, by decide +kernel⟩

/-- Delivery 101 of event 100 is stored. -/
def published : List (Act UUID Op) :=
  [.start (.publish principal event [route] 0 none), .mint 0 100, .step 0, .mint 0 101, .step 0,
    .step 0]

/-- Transaction 1 has leased it under token 200, and has only to commit. -/
def leasing : List (Act UUID Op) :=
  published ++ [.tick 10, .start (.claim 0 5 5), .step 1, .step 1, .step 1, .step 1, .mint 1 200,
    .mint 1 201, .step 1, .step 1, .step 1]

/-- Two claims take their snapshots; the first one leases the delivery and commits, and
the second one, which waited for nothing, leases it again and has only to commit. -/
def racing : List (Act UUID Op) :=
  published ++ [.tick 10, .start (.claim 0 5 5), .start (.claim 0 5 5), .step 2, .step 2, .step 1,
    .step 1, .step 1, .step 1, .mint 1 200, .mint 1 201, .step 1, .step 1, .step 1, .step 1,
    .step 2, .step 2, .mint 2 300, .mint 2 301, .step 2, .step 2, .step 2]

end Scenario

open Scenario in
/-- A claim of the published delivery. -/
theorem claim_leases_waiting_leasing : ∃ (w w' : RuntimeWorld) (r r' : DeliveryRow),
    deliveryAt w.store.db 1 101 = some r ∧ deliveryAt w'.store.db 1 101 = some r' ∧
      r'.leaseToken = some 200 ∧ (r.state = .pending ∨ r.state = .retryWait) ∧
      r.leaseToken = none := by
  have hrun : ((RuntimeWorld.start 0).run (runtime.withGuard claimGuard) leasing).any (fun w =>
      (w.act (runtime.withGuard claimGuard) (.step 1)).any fun w' =>
        (deliveryAt w.store.db 1 101).any fun r => (deliveryAt w'.store.db 1 101).any fun r' =>
          r'.leaseToken = some 200 ∧ r.leaseToken ≠ some 200) = true := by
    decide +kernel
  simp only [Option.any_eq_true, decide_eq_true_eq] at hrun
  obtain ⟨w, hw, w', hw', r, hr, r', hr', htoken, hne⟩ := hrun
  obtain ⟨hlease, -, -⟩ := claim_leases_waiting (World.run_reachable hw) (World.step_of_act hw')
    hr hr'
  exact ⟨w, w', r, r', hr, hr', htoken, hlease 200 htoken hne⟩

open Scenario in
/-- PostgreSQL grants the lock on a row that was leased after the snapshot: the second
claim overwrites a token whose lease has not expired. -/
theorem claim_overwrites_active_lease : ∃ (w w' : RuntimeWorld) (r r' : DeliveryRow) (x : Datetime),
    Reachable runtime (RuntimeWorld.start 0) w ∧ Step runtime w w' ∧
      deliveryAt w.store.db 1 101 = some r ∧ deliveryAt w'.store.db 1 101 = some r' ∧
      r.state = .leased ∧ r.leaseToken = some 200 ∧ r.leaseExpiresAt = some x ∧
      w'.store.now < x ∧ r'.state = .leased ∧ r'.leaseToken = some 300 := by
  have hrun : ((RuntimeWorld.start 0).run runtime racing).any (fun w =>
      (w.act runtime (.step 2)).any fun w' =>
        (deliveryAt w.store.db 1 101).any fun r => (deliveryAt w'.store.db 1 101).any fun r' =>
          r.leaseExpiresAt.any fun x => r.state = .leased ∧ r.leaseToken = some 200 ∧
            w'.store.now < x ∧ r'.state = .leased ∧ r'.leaseToken = some 300) = true := by
    decide +kernel
  simp only [Option.any_eq_true, decide_eq_true_eq] at hrun
  obtain ⟨w, hw, w', hw', r, hr, r', hr', x, hx, hstate, htoken, hlive, hstate', htoken'⟩ := hrun
  exact ⟨w, w', r, r', x, World.run_reachable hw, World.step_of_act hw', hr, hr', hstate, htoken, hx,
    hlive, hstate', htoken'⟩

/-! ## Consistency -/

section Consistency

variable [Platform]

/-- A delivery that agrees with its attempts, by identifier. -/
structure DeliveryRow.Consistent (r : DeliveryRow) (as : UUID → Option AttemptRow) : Prop where
  token : r.leaseToken.isSome ↔ r.state = .leased
  expiry : r.leaseExpiresAt.isSome ↔ r.state = .leased
  numbered : ∀ i a, as i = some a → 1 ≤ a.attemptNumber ∧ a.attemptNumber ≤ r.attemptsStarted
  complete : ∀ n, 1 ≤ n → n ≤ r.attemptsStarted → ∃! i, ∃ a, as i = some a ∧ a.attemptNumber = n
  current : r.state = .leased → ∃! i, ∃ a, as i = some a ∧ a.outcome = .started
  owner : ∀ i a, as i = some a → a.outcome = .started →
    r.state = .leased ∧ r.leaseToken = some a.leaseToken
  budget : ∃ p, snapshotPolicy r.routeSnapshot = .ok p ∧ r.attemptsStarted ≤ p.maxAttempts
  succeeded : r.state = .succeeded ↔
    ∃ i a, as i = some a ∧ a.attemptNumber = r.attemptsStarted ∧ a.outcome = .succeeded
  updated : r.createdAt ≤ r.updatedAt
  finished : ∀ i a f, as i = some a → a.finishedAt = some f → a.startedAt ≤ f

omit [Platform] in
/-- Under the fence a delivery agrees with its attempts. -/
theorem Live.consistent {fenced : Prop} {t : Datetime} {r : DeliveryRow}
    {as : UUID → Option AttemptRow} (h : Live fenced t r as) (hf : fenced)
    (hpolicy : ∃ p, snapshotPolicy r.routeSnapshot = .ok p) : r.Consistent as where
  token := h.leased.symm
  expiry := by rw [← h.paired, h.leased]
  numbered := h.numbered
  complete := by
    intro n h1 hn
    obtain ⟨i, a, ha, hnum⟩ := h.complete n h1 hn
    refine ⟨i, ⟨a, ha, hnum⟩, ?_⟩
    rintro j ⟨b, hb, hnum'⟩
    exact h.distinct j i b a hb ha (hnum'.trans hnum.symm)
  current := by
    intro hleased
    obtain ⟨k, hk⟩ := Option.isSome_iff_exists.mp (h.leased.mp hleased)
    obtain ⟨i, a, ha, htoken, hstarted, -⟩ := h.current k hk
    refine ⟨i, ⟨a, ha, hstarted⟩, ?_⟩
    rintro j ⟨b, hb, hstarted'⟩
    -- every attempt under way carries the token of the row
    have hown := h.owner hf j b hb hstarted'
    rw [hk, ← htoken] at hown
    exact h.tokens j i b a hb ha (Option.some.inj hown).symm
  owner := by
    intro i a ha hstarted
    have hown := h.owner hf i a ha hstarted
    exact ⟨h.leased.mpr (by simp [hown]), hown⟩
  budget := by
    obtain ⟨p, hp⟩ := hpolicy
    exact ⟨p, hp, (h.budget hf p hp).1⟩
  succeeded := by
    constructor
    · intro hs
      obtain ⟨i, a, ha, hsucc, hnum⟩ := h.succeeded hf hs
      exact ⟨i, a, ha, hnum, hsucc⟩
    · rintro ⟨i, a, ha, -, hsucc⟩
      exact (h.success hf i a ha hsucc).1
  updated := h.created
  finished := fun i a f ha hfin => (h.finished i a ha).2 f hfin

/-- A stored delivery has the policy of its route. -/
theorem Origin.policy {db : Db} {r : DeliveryRow} (h : Origin db r) :
    ∃ p, snapshotPolicy r.routeSnapshot = .ok p := by
  obtain ⟨route, hsnapshot, -⟩ := h.route
  obtain ⟨_, _, _, _, -, -, _, hpolicy⟩ := snapshotPolicy_toSnapshot hsnapshot
  exact ⟨_, hpolicy⟩

/-- A current snapshot never meets a change. -/
theorem claimGuard_current (op : Op) (db : Db) (y : Key) : claimGuard op db.rows y (db.get y) := by
  cases op with
  | claim now batchSize perTenant => exact fun r hr => Or.inl (Table.mem_of_get hr)
  | _ => trivial

/-- A finished attempt stays as it is. -/
theorem Mode.step_finished {m : Mode} {now : Datetime} {w w' : RuntimeWorld}
    (hreach : Reachable m.protocol (RuntimeWorld.start now) w) (hstep : Step m.protocol w w')
    {t i : UUID} {a : AttemptRow} (ha : attemptAt w.store.db t i = some a)
    (hfinished : a.outcome ≠ .started) : attemptAt w'.store.db t i = some a := by
  obtain ⟨moves, τ, -, -, hmove⟩ := Mode.step_cell hreach hstep t a.deliveryId
  obtain ⟨a', ha', -, hsame⟩ := hmove.attempt (cellAt_attempts.mpr ⟨ha, rfl⟩)
  rw [hsame hfinished] at ha'
  exact (cellAt_attempts.mp ha').1

/-- In a run of whole transactions, one after another, every delivery agrees with its
attempts, and no step changes a delivery that succeeded or is dead, nor an attempt that
ended. -/
theorem serial_consistent {now : Datetime} {w : RuntimeWorld}
    (hreach : SerialReachable runtime (RuntimeWorld.start now) w) :
    (∀ t d r, deliveryAt w.store.db t d = some r →
      r.Consistent (cellAt w.store.db t d).attempts) ∧
    ∀ w', SerialStep runtime w w' →
      (∀ t d r, deliveryAt w.store.db t d = some r → r.state = .succeeded ∨ r.state = .dead →
        deliveryAt w'.store.db t d = some r) ∧
      ∀ t i a, attemptAt w.store.db t i = some a → a.outcome ≠ .started →
        attemptAt w'.store.db t i = some a := by
  obtain ⟨hguarded, hcurrent⟩ :=
    hreach.withGuard claimGuard_current (RuntimeWorld.start_idle now)
  refine ⟨fun t d r hr => ?_, fun w' hstep => ?_⟩
  · rw [← Mode.guarded_protocol] at hguarded
    exact (Mode.live hguarded hr).consistent trivial
      (RuntimeInv.origin (m := Mode.guarded) (Mode.worldInv hguarded).inv t d r hr).policy
  · have hstep' := hstep.withGuard claimGuard_current hcurrent
    rw [← Mode.guarded_protocol] at hguarded hstep'
    refine ⟨fun t d r hr hend => ?_, fun t i a ha hfinished =>
      Mode.step_finished hguarded hstep' ha hfinished⟩
    obtain ⟨moves, τ, hfenced, -, hmove⟩ := Mode.step_cell hguarded hstep' t d
    obtain ⟨r', hr', -⟩ := hmove.delivery (r := r) hr
    rw [← hmove.terminal (hfenced ▸ trivial) hr hr' hend]
    exact hr'

end Consistency

open Scenario in
/-- The published delivery, leased by the first claim. -/
theorem serial_consistent_leased : ∃ (w : RuntimeWorld) (r : DeliveryRow),
    deliveryAt w.store.db 1 101 = some r ∧ r.state = .leased ∧
      r.Consistent (cellAt w.store.db 1 101).attempts := by
  have hrun : ((RuntimeWorld.start 0).runSerial runtime (leasing ++ [.step 1])).any (fun w =>
      (deliveryAt w.store.db 1 101).any fun r => r.state = .leased) = true := by
    decide +kernel
  simp only [Option.any_eq_true, decide_eq_true_eq] at hrun
  obtain ⟨w, hw, r, hr, hleased⟩ := hrun
  exact ⟨w, r, hr, hleased, (serial_consistent (World.runSerial_reachable hw)).1 1 101 r hr⟩

end FastapiEffects
