import FastapiEffects.Postgres.Leasing

/-! # The life of one delivery

The abstract machine the lease repository implements. Its state is one delivery with
its attempts (`Cell`); it moves when the delivery is created, when it expires
unclaimed, when it is leased, and when a lease ends. `Moves` says which of these a
transaction may make. Every move keeps `Cell.Inv`.
-/

namespace FastapiEffects

open Python ReadCommitted

/-- A delivery and its attempts, by identifier. -/
@[ext] structure Cell where
  delivery : Option DeliveryRow
  attempts : UUID → Option AttemptRow

/-- A delivery that ends its lease, or any other change but a new lease. -/
def closedDelivery (r : DeliveryRow) (state : DeliveryState) (next τ : Datetime) : DeliveryRow :=
  { r with
    state := state
    nextAttemptAt := next
    leaseToken := none
    leaseExpiresAt := none
    updatedAt := τ }

/-- An attempt that ends. -/
def finishedAttempt (a : AttemptRow) (outcome : AttemptOutcome) (τ : Datetime)
    (code summary : Option Str) : AttemptRow :=
  { a with
    outcome := outcome
    finishedAt := some τ
    failureCode := code
    failureSummary := summary }

/-- The columns of a delivery that never change. -/
def DeliveryRow.identity (r : DeliveryRow) : DeliveryRow :=
  { r with
    state := .pending
    attemptsStarted := 0
    nextAttemptAt := 0
    leaseToken := none
    leaseExpiresAt := none
    updatedAt := 0 }

/-- The columns of an attempt that never change. -/
def AttemptRecordArgs.identity (a : AttemptRow) : AttemptRow :=
  { a with
    outcome := .started
    finishedAt := none
    failureCode := none
    failureSummary := none }

@[simp] theorem identity_expiredDelivery (r : DeliveryRow) (τ : Datetime) :
    (expiredDelivery r τ).identity = r.identity := rfl

@[simp] theorem identity_leasedDelivery (r : DeliveryRow) (token : UUID) (expiry τ : Datetime) :
    (leasedDelivery r token expiry τ).identity = r.identity := rfl

@[simp] theorem identity_closedDelivery (r : DeliveryRow) (state : DeliveryState)
    (next τ : Datetime) : (closedDelivery r state next τ).identity = r.identity := rfl

@[simp] theorem identity_finishedAttempt (a : AttemptRow) (outcome : AttemptOutcome)
    (τ : Datetime) (code summary : Option Str) :
    (finishedAttempt a outcome τ code summary).identity = a.identity := rfl

/-- What a transaction may do to a delivery: whether it leases only what waits, which
attempts it may end in success, which tokens it made, and which deliveries it may
create. -/
structure Moves where
  fenced : Prop
  wins : UUID → Prop
  fresh : UUID → Prop
  new : DeliveryRow → Prop

/-- How the lease of `r` under attempt `a` may end at time `τ`. -/
structure Closes (wins : UUID → Prop) (τ : Datetime) (r : DeliveryRow) (a : AttemptRow)
    (state : DeliveryState) (outcome : AttemptOutcome) : Prop where
  leased : r.state = .leased
  token : r.leaseToken = some a.leaseToken
  started : a.outcome = .started
  ended : state = .succeeded ∨ state = .retryWait ∨ state = .dead
  finished : outcome ≠ .started
  success : state = .succeeded ↔ outcome = .succeeded
  retry : state = .retryWait → ∀ p, snapshotPolicy r.routeSnapshot = .ok p →
    r.attemptsStarted < p.maxAttempts
  inTime : outcome = .succeeded → wins a.attemptId ∧ ∃ p d e, snapshotPolicy r.routeSnapshot = .ok p ∧
    r.leaseExpiresAt = some e ∧ attemptDeadline p r.createdAt a.startedAt e = .ok d ∧ τ < d

/-- A delivery as it is created. -/
structure Created (r : DeliveryRow) : Prop where
  pending : r.state = .pending
  attempts : r.attemptsStarted = 0
  next : r.nextAttemptAt = r.createdAt
  updated : r.updatedAt = r.createdAt
  token : r.leaseToken = none
  expiry : r.leaseExpiresAt = none

/-- One move of a delivery at time `τ`. -/
inductive Cell.Step (m : Moves) (τ : Datetime) : Cell → Cell → Prop where
  | same (c : Cell) : Step m τ c c
  | create (r : DeliveryRow) (as : UUID → Option AttemptRow) (hnone : ∀ i, as i = none)
      (hr : Created r) (hnew : m.new r) : Step m τ ⟨none, as⟩ ⟨some r, as⟩
  | expire (r : DeliveryRow) (as : UUID → Option AttemptRow) (hfence : m.fenced → r.claimable)
      (hstate : r.state ≠ .leased) (htime : r.createdAt ≤ τ) :
      Step m τ ⟨some r, as⟩ ⟨some (expiredDelivery r τ), as⟩
  | lease (r : DeliveryRow) (as : UUID → Option AttemptRow) (id token : UUID) (expiry : Datetime)
      (hfence : m.fenced → r.claimable) (htime : r.createdAt ≤ τ) (hid : as id = none)
      (hfresh : m.fresh token) (htoken : ∀ i a, as i = some a → a.leaseToken ≠ token) :
      Step m τ ⟨some r, as⟩ ⟨some (leasedDelivery r token expiry τ),
        Function.update as id (some (startedAttempt r id token τ))⟩
  | close (r : DeliveryRow) (as : UUID → Option AttemptRow) (a : AttemptRow)
      (state : DeliveryState) (outcome : AttemptOutcome) (next : Datetime)
      (code summary : Option Str) (ha : as a.attemptId = some a)
      (hcloses : Closes m.wins τ r a state outcome) :
      Step m τ ⟨some r, as⟩ ⟨some (closedDelivery r state next τ),
        Function.update as a.attemptId (some (finishedAttempt a outcome τ code summary))⟩

/-- What holds of a stored delivery and its attempts at time `t`. The last four facts
need the fence. -/
structure Live (fenced : Prop) (t : Datetime) (r : DeliveryRow) (as : UUID → Option AttemptRow) :
    Prop where
  ident : ∀ i a, as i = some a → a.attemptId = i
  distinct : ∀ i j a b, as i = some a → as j = some b → a.attemptNumber = b.attemptNumber → i = j
  tokens : ∀ i j a b, as i = some a → as j = some b → a.leaseToken = b.leaseToken → i = j
  started : ∀ i a, as i = some a → a.startedAt ≤ t
  finished : ∀ i a, as i = some a → (a.outcome = .started ↔ a.finishedAt = none) ∧
    ∀ f, a.finishedAt = some f → a.startedAt ≤ f
  numbered : ∀ i a, as i = some a → 1 ≤ a.attemptNumber ∧ a.attemptNumber ≤ r.attemptsStarted
  complete : ∀ n, 1 ≤ n → n ≤ r.attemptsStarted → ∃ i a, as i = some a ∧ a.attemptNumber = n
  count : 0 ≤ r.attemptsStarted
  leased : r.state = .leased ↔ r.leaseToken.isSome
  paired : r.leaseToken.isSome = r.leaseExpiresAt.isSome
  current : ∀ k, r.leaseToken = some k → ∃ i a, as i = some a ∧ a.leaseToken = k ∧
    a.outcome = .started ∧ a.attemptNumber = r.attemptsStarted
  waiting : r.state = .pending → r.attemptsStarted = 0 ∧ r.nextAttemptAt = r.createdAt
  created : r.createdAt ≤ r.updatedAt
  updated : r.state ≠ .pending → r.updatedAt ≤ t
  owner : fenced → ∀ i a, as i = some a → a.outcome = .started → r.leaseToken = some a.leaseToken
  budget : fenced → ∀ p, snapshotPolicy r.routeSnapshot = .ok p →
    r.attemptsStarted ≤ p.maxAttempts ∧ (r.claimable = true → r.attemptsStarted < p.maxAttempts)
  success : fenced → ∀ i a, as i = some a → a.outcome = .succeeded →
    r.state = .succeeded ∧ a.attemptNumber = r.attemptsStarted
  succeeded : fenced → r.state = .succeeded →
    ∃ i a, as i = some a ∧ a.outcome = .succeeded ∧ a.attemptNumber = r.attemptsStarted

/-- What holds of a cell at time `t`. -/
def Cell.Inv (fenced : Prop) (t : Datetime) (c : Cell) : Prop :=
  match c.delivery with
  | none => ∀ i, c.attempts i = none
  | some r => Live fenced t r c.attempts

namespace Live

variable {fenced : Prop} {wins : UUID → Prop} {τ t : Datetime} {r : DeliveryRow}
  {as : UUID → Option AttemptRow}

/-- Time passes. -/
theorem mono (h : Live fenced τ r as) (ht : τ ≤ t) : Live fenced t r as :=
  { h with
    started := fun i a ha => (h.started i a ha).trans ht
    updated := fun hs => (h.updated hs).trans ht }

/-- A new delivery. -/
theorem of_created (hr : Created r) (hnone : ∀ i, as i = none) : Live fenced t r as where
  ident := by simp [hnone]
  distinct := by simp [hnone]
  tokens := by simp [hnone]
  started := by simp [hnone]
  finished := by simp [hnone]
  numbered := by simp [hnone]
  complete := by
    intro n h1 hn
    rw [hr.attempts] at hn
    omega
  count := hr.attempts.ge
  leased := by simp [hr.pending, hr.token]
  paired := by simp [hr.token, hr.expiry]
  current := by simp [hr.token]
  waiting := fun _ => ⟨hr.attempts, hr.next⟩
  created := hr.updated.ge
  updated := fun h => absurd hr.pending h
  owner := by simp [hnone]
  budget := fun _ p _ => by
    have := p.maxAttempts_pos
    rw [hr.attempts]
    omega
  success := by simp [hnone]
  succeeded := by simp [hr.pending]

/-- A delivery whose deadline passed before it was leased. -/
theorem expire (h : Live fenced τ r as) (hfence : fenced → r.claimable)
    (hstate : r.state ≠ .leased) (htime : r.createdAt ≤ τ) :
    Live fenced τ (expiredDelivery r τ) as where
  ident := h.ident
  distinct := h.distinct
  tokens := h.tokens
  started := h.started
  finished := h.finished
  numbered := h.numbered
  complete := h.complete
  count := h.count
  leased := by
    have hnone := h.leased.not.mp hstate
    simpa [expiredDelivery] using hnone
  paired := h.paired
  current := h.current
  waiting := by simp [expiredDelivery]
  created := htime
  updated := fun _ => le_refl τ
  owner := h.owner
  budget := fun hf p hp => ⟨(h.budget hf p hp).1, by simp [expiredDelivery, DeliveryRow.claimable]⟩
  success := by
    intro hf i a ha hs
    have hstate := (h.success hf i a ha hs).1
    have hclaim := hfence hf
    simp [DeliveryRow.claimable, hstate] at hclaim
  succeeded := by simp [expiredDelivery]

/-- What a new attempt sees of the attempts before it. -/
theorem update_eq_some {as : UUID → Option AttemptRow} {id i : UUID} {a b : AttemptRow} :
    Function.update as id (some b) i = some a ↔ (i = id ∧ b = a) ∨ (i ≠ id ∧ as i = some a) := by
  by_cases hi : i = id
  · subst hi
    simp
  · simp [hi]

/-- A delivery under a new lease. -/
theorem lease (h : Live fenced τ r as) {id token : UUID} {expiry : Datetime}
    (hfence : fenced → r.claimable) (htime : r.createdAt ≤ τ) (hid : as id = none)
    (htoken : ∀ i a, as i = some a → a.leaseToken ≠ token) :
    Live fenced τ (leasedDelivery r token expiry τ)
      (Function.update as id (some (startedAttempt r id token τ))) where
  ident := by
    intro i a ha
    rcases update_eq_some.mp ha with ⟨rfl, rfl⟩ | ⟨-, ha⟩
    · rfl
    · exact h.ident i a ha
  distinct := by
    intro i j a b ha hb hab
    rcases update_eq_some.mp ha with ⟨rfl, rfl⟩ | ⟨-, hold⟩ <;>
      rcases update_eq_some.mp hb with ⟨rfl, rfl⟩ | ⟨-, hold'⟩
    · rfl
    · have := (h.numbered j b hold').2
      simp only [startedAttempt] at hab
      omega
    · have := (h.numbered i a hold).2
      simp only [startedAttempt] at hab
      omega
    · exact h.distinct i j a b hold hold' hab
  tokens := by
    intro i j a b ha hb hab
    rcases update_eq_some.mp ha with ⟨rfl, rfl⟩ | ⟨-, hold⟩ <;>
      rcases update_eq_some.mp hb with ⟨rfl, rfl⟩ | ⟨-, hold'⟩
    · rfl
    · exact absurd hab.symm (htoken j b hold')
    · exact absurd hab (htoken i a hold)
    · exact h.tokens i j a b hold hold' hab
  started := by
    intro i a ha
    rcases update_eq_some.mp ha with ⟨rfl, rfl⟩ | ⟨-, ha⟩
    · exact le_refl τ
    · exact h.started i a ha
  finished := by
    intro i a ha
    rcases update_eq_some.mp ha with ⟨rfl, rfl⟩ | ⟨-, ha⟩
    · simp [startedAttempt]
    · exact h.finished i a ha
  numbered := by
    intro i a ha
    rcases update_eq_some.mp ha with ⟨rfl, rfl⟩ | ⟨-, ha⟩
    · have := h.count
      simp only [startedAttempt, leasedDelivery]
      omega
    · have := h.numbered i a ha
      simp only [leasedDelivery]
      omega
  complete := by
    intro n h1 hn
    by_cases hlast : n = r.attemptsStarted + 1
    · exact ⟨id, _, update_eq_some.mpr (Or.inl ⟨rfl, rfl⟩), hlast.symm⟩
    · simp only [leasedDelivery] at hn
      obtain ⟨i, a, ha, hnum⟩ := h.complete n h1 (by omega)
      have hne : i ≠ id := fun heq => by simp [heq, hid] at ha
      exact ⟨i, a, update_eq_some.mpr (Or.inr ⟨hne, ha⟩), hnum⟩
  count := by
    have := h.count
    simp only [leasedDelivery]
    omega
  leased := by simp [leasedDelivery]
  paired := by simp [leasedDelivery]
  current := by
    intro k hk
    simp only [leasedDelivery, Option.some.injEq] at hk
    exact ⟨id, _, update_eq_some.mpr (Or.inl ⟨rfl, rfl⟩), hk, rfl, rfl⟩
  waiting := by simp [leasedDelivery]
  created := htime
  updated := fun _ => le_refl τ
  owner := by
    intro hf i a ha hs
    rcases update_eq_some.mp ha with ⟨rfl, rfl⟩ | ⟨-, ha⟩
    · rfl
    · -- a waiting delivery has no attempt under way
      have hsome := h.owner hf i a ha hs
      have hleased : r.state = .leased := h.leased.mpr (by simp [hsome])
      have hclaim := hfence hf
      simp [DeliveryRow.claimable, hleased] at hclaim
  budget := by
    intro hf p hp
    have := (h.budget hf p hp).2 (hfence hf)
    simp only [leasedDelivery, DeliveryRow.claimable]
    exact ⟨by omega, by simp⟩
  success := by
    intro hf i a ha hs
    rcases update_eq_some.mp ha with ⟨rfl, rfl⟩ | ⟨-, ha⟩
    · simp [startedAttempt] at hs
    · have hstate := (h.success hf i a ha hs).1
      have hclaim := hfence hf
      simp [DeliveryRow.claimable, hstate] at hclaim
  succeeded := by simp [leasedDelivery]

/-- The attempt under way is the last one. -/
theorem last (h : Live fenced t r as) {i : UUID} {a : AttemptRow} (ha : as i = some a)
    (htoken : r.leaseToken = some a.leaseToken) : a.attemptNumber = r.attemptsStarted := by
  obtain ⟨j, b, hb, hbtoken, -, hnum⟩ := h.current a.leaseToken htoken
  have hij := h.tokens j i b a hb ha hbtoken
  subst hij
  rw [hb] at ha
  cases ha
  exact hnum

/-- A delivery whose lease ended. -/
theorem close (h : Live fenced τ r as) {a : AttemptRow} {state : DeliveryState}
    {outcome : AttemptOutcome} {next : Datetime} {code summary : Option Str}
    (ha : as a.attemptId = some a) (hc : Closes wins τ r a state outcome) :
    Live fenced τ (closedDelivery r state next τ)
      (Function.update as a.attemptId (some (finishedAttempt a outcome τ code summary))) where
  ident := by
    intro i b hb
    rcases update_eq_some.mp hb with ⟨rfl, rfl⟩ | ⟨-, hb⟩
    · rfl
    · exact h.ident i b hb
  distinct := by
    intro i j b b' hb hb' hbb
    rcases update_eq_some.mp hb with ⟨rfl, rfl⟩ | ⟨-, hb⟩ <;>
      rcases update_eq_some.mp hb' with ⟨rfl, rfl⟩ | ⟨-, hb'⟩
    · rfl
    · exact h.distinct _ _ a b' ha hb' hbb
    · exact h.distinct _ _ b a hb ha hbb
    · exact h.distinct i j b b' hb hb' hbb
  tokens := by
    intro i j b b' hb hb' hbb
    rcases update_eq_some.mp hb with ⟨rfl, rfl⟩ | ⟨-, hb⟩ <;>
      rcases update_eq_some.mp hb' with ⟨rfl, rfl⟩ | ⟨-, hb'⟩
    · rfl
    · exact h.tokens _ _ a b' ha hb' hbb
    · exact h.tokens _ _ b a hb ha hbb
    · exact h.tokens i j b b' hb hb' hbb
  started := by
    intro i b hb
    rcases update_eq_some.mp hb with ⟨rfl, rfl⟩ | ⟨-, hb⟩
    · exact h.started _ a ha
    · exact h.started i b hb
  finished := by
    intro i b hb
    rcases update_eq_some.mp hb with ⟨rfl, rfl⟩ | ⟨-, hb⟩
    · have hle := h.started _ a ha
      simpa [finishedAttempt, hc.finished] using hle
    · exact h.finished i b hb
  numbered := by
    intro i b hb
    rcases update_eq_some.mp hb with ⟨rfl, rfl⟩ | ⟨-, hb⟩
    · exact h.numbered _ a ha
    · exact h.numbered i b hb
  complete := by
    intro n h1 hn
    obtain ⟨i, b, hb, hnum⟩ := h.complete n h1 hn
    by_cases hi : i = a.attemptId
    · subst hi
      rw [ha] at hb
      cases hb
      exact ⟨_, _, update_eq_some.mpr (Or.inl ⟨rfl, rfl⟩), hnum⟩
    · exact ⟨i, b, update_eq_some.mpr (Or.inr ⟨hi, hb⟩), hnum⟩
  count := h.count
  leased := by
    rcases hc.ended with rfl | rfl | rfl <;> simp [closedDelivery]
  paired := by simp [closedDelivery]
  current := by simp [closedDelivery]
  waiting := by
    rcases hc.ended with rfl | rfl | rfl <;> simp [closedDelivery]
  created := by
    have hne : r.state ≠ .pending := by simp [hc.leased]
    exact h.created.trans (h.updated hne)
  updated := fun _ => le_refl τ
  owner := by
    intro hf i b hb hs
    rcases update_eq_some.mp hb with ⟨rfl, rfl⟩ | ⟨hi, hb⟩
    · exact absurd hs hc.finished
    · -- another attempt under way would carry the token of this one
      have htoken := h.owner hf i b hb hs
      rw [hc.token, Option.some.injEq] at htoken
      exact absurd (h.tokens _ _ b a hb ha htoken.symm) hi
  budget := by
    intro hf p hp
    refine ⟨(h.budget hf p hp).1, fun hclaim => ?_⟩
    rcases hc.ended with rfl | rfl | rfl
    · simp [closedDelivery, DeliveryRow.claimable] at hclaim
    · exact hc.retry rfl p hp
    · simp [closedDelivery, DeliveryRow.claimable] at hclaim
  success := by
    intro hf i b hb hs
    have hlast := h.last ha hc.token
    rcases update_eq_some.mp hb with ⟨rfl, rfl⟩ | ⟨-, hb⟩
    · exact ⟨hc.success.mpr hs, hlast⟩
    · have hstate := (h.success hf i b hb hs).1
      rw [hc.leased] at hstate
      cases hstate
  succeeded := by
    intro hf hs
    have hlast := h.last ha hc.token
    exact ⟨_, _, update_eq_some.mpr (Or.inl ⟨rfl, rfl⟩), hc.success.mp hs, hlast⟩

end Live

namespace Cell

variable {fenced : Prop} {m m' : Moves} {τ t : Datetime} {c c' : Cell}

theorem Inv.mono (h : c.Inv fenced τ) (ht : τ ≤ t) : c.Inv fenced t := by
  unfold Cell.Inv at h ⊢
  split
  · rename_i hnone
    rwa [hnone] at h
  · rename_i r hr
    rw [hr] at h
    exact Live.mono h ht

/-- Every move keeps the invariant. -/
theorem Inv.step (h : c.Inv m.fenced τ) (hstep : Step m τ c c') : c'.Inv m.fenced τ := by
  cases hstep with
  | same => exact h
  | create r as hnone hr hnew => exact Live.of_created hr hnone
  | expire r as hfence hstate htime => exact Live.expire h hfence hstate htime
  | lease r as id token expiry hfence htime hid hfresh htoken =>
      exact Live.lease h hfence htime hid htoken
  | close r as a state outcome next code summary ha hcloses => exact Live.close h ha hcloses

/-- A move a more capable transaction may make as well. -/
theorem Step.mono (hstep : Step m τ c c') (hfenced : m'.fenced → m.fenced)
    (hwins : ∀ i, m.wins i → m'.wins i) (hfresh : ∀ i, m.fresh i → m'.fresh i)
    (hnew : ∀ r, m.new r → m'.new r) : Step m' τ c c' := by
  cases hstep with
  | same => exact .same c
  | create r as hnone hr h => exact .create r as hnone hr (hnew r h)
  | expire r as hfence hstate htime =>
      exact .expire r as (fun hf => hfence (hfenced hf)) hstate htime
  | lease r as id token expiry hfence htime hid hf htoken =>
      exact .lease r as id token expiry (fun h => hfence (hfenced h)) htime hid (hfresh token hf)
        htoken
  | close r as a state outcome next code summary ha hcloses =>
      exact .close r as a state outcome next code summary ha
        { hcloses with inTime := fun h => (hcloses.inTime h).imp_left (hwins _) }

/-- A stored delivery stays, with its identity. -/
theorem Step.delivery (hstep : Step m τ c c') {r : DeliveryRow} (hr : c.delivery = some r) :
    ∃ r', c'.delivery = some r' ∧ r'.identity = r.identity := by
  cases hstep with
  | same => exact ⟨r, hr, rfl⟩
  | create r' as hnone hc hnew => cases hr
  | expire r as hfence hstate htime => cases hr; exact ⟨_, rfl, rfl⟩
  | lease r as id token expiry hfence htime hid hfresh htoken => cases hr; exact ⟨_, rfl, rfl⟩
  | close r as a state outcome next code summary ha hcloses => cases hr; exact ⟨_, rfl, rfl⟩

/-- A stored attempt stays, with its identity; a finished one stays as it is. -/
theorem Step.attempt (hstep : Step m τ c c') {i : UUID} {a : AttemptRow}
    (ha : c.attempts i = some a) : ∃ a', c'.attempts i = some a' ∧ a'.identity = a.identity ∧
      (a.outcome ≠ .started → a' = a) := by
  cases hstep with
  | same => exact ⟨a, ha, rfl, fun _ => rfl⟩
  | create r as hnone hc hnew => exact ⟨a, ha, rfl, fun _ => rfl⟩
  | expire r as hfence hstate htime => exact ⟨a, ha, rfl, fun _ => rfl⟩
  | lease r as id token expiry hfence htime hid hfresh htoken =>
      have hne : i ≠ id := fun heq => by simp [heq, hid] at ha
      exact ⟨a, Live.update_eq_some.mpr (Or.inr ⟨hne, ha⟩), rfl, fun _ => rfl⟩
  | close r as b state outcome next code summary hb hcloses =>
      by_cases hi : i = b.attemptId
      · subst hi
        have hab : a = b := Option.some.inj (ha.symm.trans hb)
        subst hab
        exact ⟨_, Live.update_eq_some.mpr (Or.inl ⟨rfl, rfl⟩), rfl,
          fun h => absurd hcloses.started h⟩
      · exact ⟨a, Live.update_eq_some.mpr (Or.inr ⟨hi, ha⟩), rfl, fun _ => rfl⟩

/-- An attempt was stored before, or its lease token is new. -/
theorem Step.attempt_origin (hstep : Step m τ c c') {i : UUID} {a' : AttemptRow}
    (ha' : c'.attempts i = some a') :
    (∃ a, c.attempts i = some a ∧ a'.identity = a.identity) ∨ m.fresh a'.leaseToken := by
  cases hstep with
  | same => exact Or.inl ⟨a', ha', rfl⟩
  | create r as hnone hc hnew => exact Or.inl ⟨a', ha', rfl⟩
  | expire r as hfence hstate htime => exact Or.inl ⟨a', ha', rfl⟩
  | lease r as id token expiry hfence htime hid hfresh htoken =>
      rcases Live.update_eq_some.mp ha' with ⟨-, rfl⟩ | ⟨-, hold⟩
      · exact Or.inr hfresh
      · exact Or.inl ⟨a', hold, rfl⟩
  | close r as b state outcome next code summary hb hcloses =>
      rcases Live.update_eq_some.mp ha' with ⟨rfl, rfl⟩ | ⟨-, hold⟩
      · exact Or.inl ⟨b, hb, rfl⟩
      · exact Or.inl ⟨a', hold, rfl⟩

end Cell

end FastapiEffects
