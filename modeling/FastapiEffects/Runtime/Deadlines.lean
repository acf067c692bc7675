import FastapiEffects.Runtime.Agreement
import FastapiEffects.Postgres.Relay

/-! # Deadlines

An attempt is bounded three times: by the delivery it belongs to, by the timeout of its handler
and by its lease. The relay, the lease repository and the handoff store each take the least of the
three from what they know of the attempt; whatever they hand out or record keeps to it.
-/

namespace FastapiEffects

open Python ReadCommitted

section Deadlines

variable [Platform]

omit [Platform] in
/-- The time by which the attempt of a claim has to end. -/
def ClaimedDelivery.DueBy (c : ClaimedDelivery) (latest : Datetime) : Prop :=
  ∃ policy expiry, snapshotPolicy c.routeSnapshot = .ok policy ∧
    c.delivery.leaseExpiresAt = some expiry ∧
    attemptDeadline policy c.delivery.createdAt c.attempt.startedAt expiry = .ok latest

/-- What was handed out and recorded keeps to the deadlines. -/
structure KeepsDeadlines (s : RuntimeStore) : Prop where
  snapshot : ∀ e ∈ s.log, ∀ c ∈ claimsOf e,
    ∃ r, (c.cell s.db).delivery = some r ∧ r.routeSnapshot = c.routeSnapshot
  success : ∀ e ∈ s.log, ∀ c ∈ claimsOf e, ∀ a,
    attemptAt s.db c.attempt.tenantId c.attempt.attemptId = some a → a.outcome = .succeeded →
      ∃ latest finished, c.DueBy latest ∧ a.finishedAt = some finished ∧ finished < latest
  execution : ∀ e ∈ s.log, ∀ ex, executionOf e = some ex →
    ∃ latest, ex.claim.DueBy latest ∧ ex.executionDeadline ≤ latest

omit [Platform] in
/-- The success of an attempt is recorded once, in time. -/
theorem Cell.Step.inTime {m : Moves} {τ : Datetime} {c c' : Cell} (hstep : Cell.Step m τ c c')
    {i : UUID} {a' : AttemptRow} (ha' : c'.attempts i = some a')
    (hsucceeded : a'.outcome = .succeeded) :
    c.attempts i = some a' ∨ ∃ r a policy expiry latest, c.delivery = some r ∧
      c.attempts i = some a ∧ r.leaseToken = some a.leaseToken ∧ r.leaseExpiresAt = some expiry ∧
      snapshotPolicy r.routeSnapshot = .ok policy ∧
      attemptDeadline policy r.createdAt a.startedAt expiry = .ok latest ∧
      a'.finishedAt = some τ ∧ τ < latest := by
  rcases hstep.ended ha' (by simp [hsucceeded]) with hold | ⟨r, a, state, outcome, code, summary, hr,
    ha, -, hcloses, rfl⟩
  · exact Or.inl hold
  · obtain ⟨-, policy, latest, expiry, hpolicy, hexpiry, hlatest, hlt⟩ := hcloses.inTime hsucceeded
    exact Or.inr ⟨r, a, policy, expiry, latest, hr, ha, hcloses.token, hexpiry, hpolicy, hlatest, rfl,
      hlt⟩

section Commits

variable {m : Mode} {s : RuntimeStore} {e : Entry Key Row PyError Op Outcome} {db' : Db}

/-- A success is recorded before the deadline of every claim of its attempt. -/
theorem Commits.inTime (hc : Commits m s e db') (hinv : RuntimeInv m s) (h : KeepsDeadlines s)
    {e₀ : Entry Key Row PyError Op Outcome} (he₀ : e₀ ∈ s.log) {c : ClaimedDelivery}
    (hclaim : c ∈ claimsOf e₀) {a' : AttemptRow}
    (ha' : attemptAt db' c.attempt.tenantId c.attempt.attemptId = some a')
    (hsucceeded : a'.outcome = .succeeded) :
    ∃ latest finished, c.DueBy latest ∧ a'.finishedAt = some finished ∧ finished < latest := by
  have hhanded := hinv.claims e₀ he₀ c hclaim
  obtain ⟨r, a, hr, ha, htoken, hstart, hcreated, hexpiry⟩ := hhanded.rows
  obtain ⟨τ, -, -, hstep⟩ := hc.cells c.delivery.tenantId c.delivery.deliveryId
  -- the attempt is part of the delivery of the claim
  obtain ⟨b, hb, -, -⟩ := hstep.attempt ha
  obtain ⟨hbat, hbd⟩ := cellAt_attempts.mp hb
  rw [hhanded.tenant, hbat] at ha'
  cases ha'
  rcases hstep.inTime hb hsucceeded with hold | ⟨r', a₁, policy, expiry, latest, hr', ha₁, htoken₁,
    hexpiry₁, hpolicy, hlatest, hfinished, hlt⟩
  · have hat := (cellAt_attempts.mp hold).1
    rw [← hhanded.tenant] at hat
    exact h.success e₀ he₀ c hclaim _ hat hsucceeded
  · obtain ⟨r'', hr'', hsnapshot⟩ := h.snapshot e₀ he₀ c hclaim
    rw [ClaimedDelivery.cell] at hr hr'' ha
    rw [hr'] at hr hr''
    cases hr
    cases hr''
    rw [ha₁] at ha
    cases ha
    refine ⟨latest, τ, ⟨policy, expiry, ?_, ?_, ?_⟩, hfinished, hlt⟩
    · rw [← hsnapshot]
      exact hpolicy
    · rw [← hexpiry (by rw [htoken₁, htoken]), hexpiry₁]
    · rw [← hcreated, ← hstart]
      exact hlatest

end Commits

section Runs

variable {m : Mode} {now : Datetime} {w : RuntimeWorld}

end Runs

end Deadlines

end FastapiEffects
