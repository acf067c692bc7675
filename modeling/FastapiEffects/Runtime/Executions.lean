import FastapiEffects.Runtime.Leases

/-! # Executions of a handoff

A broker may deliver the message of a handoff any number of times, late and out of order. The
executions it leads to come one after another: each one begins when the deadline of those before it
has passed (`ExclusiveExecutions`), and a handoff that has ended is not executed again.
-/

namespace FastapiEffects

open Python ReadCommitted

section Executions

variable [Platform]

/-- Two executions of one handoff. -/
def ExecutingHandoff.SameHandoff (ex ex' : ExecutingHandoff) : Prop :=
  ex.record.tenantId = ex'.record.tenantId ∧ ex.record.handoffId = ex'.record.handoffId

/-- The handoff is under execution, under the token of `ex`. -/
structure HandoffRow.Runs (h : HandoffRow) (ex : ExecutingHandoff) : Prop where
  state : h.state = .executing
  token : h.executionToken = some ex.executionToken
  started : h.startedAt = some ex.record.updatedAt
  deadline : h.executionDeadline = some ex.executionDeadline

/-- The handoff is under another execution, which began after the deadline of `ex`. -/
structure HandoffRow.Outlived (h : HandoffRow) (ex : ExecutingHandoff) : Prop where
  state : h.state = .executing
  token : h.executionToken ≠ some ex.executionToken
  started : ∃ τ, h.startedAt = some τ ∧ ex.executionDeadline ≤ τ

/-- What became of an execution of a handoff. -/
def HandoffRow.Fate (h : HandoffRow) (ex : ExecutingHandoff) : Prop :=
  h.isOpen = false ∨ h.Runs ex ∨ h.Outlived ex

/-- The executions the history hands out. The windows of those of one handoff do not overlap; one
of them at most ends its handoff, and none is handed out after that; and an execution ends its
handoff only if no other was handed out since. -/
structure ExclusiveExecutions (log : History) : Prop where
  window : ∀ e ∈ log, ∀ ex, executionOf e = some ex → ex.record.updatedAt < ex.executionDeadline
  apart : log.Pairwise fun e e' => ∀ ex ex', executionOf e = some ex → executionOf e' = some ex' →
    ex.SameHandoff ex' → ex.executionDeadline ≤ ex'.record.updatedAt
  once : log.Pairwise fun e e' => ∀ ex ex', e.op.completes = some ex → committed e →
    (e'.op.completes = some ex' ∧ committed e') ∨ executionOf e' = some ex' → ¬ ex.SameHandoff ex'
  last : log.Pairwise fun e e' => ∀ ex ex', executionOf e = some ex →
    e'.op.completes = some ex' → committed e' → ex.SameHandoff ex' →
      ex.executionToken = ex'.executionToken ∨ ex.executionDeadline ≤ ex'.record.updatedAt

/-- What the committed state knows of the executions that were handed out. -/
structure Executed (s : RuntimeStore) : Prop extends ExclusiveExecutions s.log where
  sane : ∀ t i h, handoffAt s.db t i = some h → h.Sane
  fate : ∀ e ∈ s.log, ∀ ex, executionOf e = some ex →
    ∃ h, handoffAt s.db ex.record.tenantId ex.record.handoffId = some h ∧ h.Fate ex
  source : ∀ t i h k, handoffAt s.db t i = some h → h.executionToken = some k →
    ∃ e ∈ s.log, ∃ ex, executionOf e = some ex ∧ ex.executionToken = k
  ended : ∀ e ∈ s.log, ∀ ex, e.op.completes = some ex → committed e →
    ∃ h, handoffAt s.db ex.record.tenantId ex.record.handoffId = some h ∧ h.isOpen = false

section Moves

omit [Platform]

variable {m : HandoffMoves} {τ : Datetime} {h h' : HandoffRow} {ex : ExecutingHandoff}

/-- A handoff that is admitted for execution again has outlived the executions before. -/
theorem HandoffRow.Fate.before (hfate : h.Fate ex) (hadmits : h.admits τ = true) (hsane : h.Sane) :
    ex.executionDeadline ≤ τ := by
  rcases hfate with hclosed | hlive | houtlived
  · simp [HandoffRow.isOpen_of_admits hadmits] at hclosed
  · -- the execution under way has run out
    simpa [HandoffRow.admits, hlive.state, hlive.deadline] using hadmits
  · obtain ⟨k, s, d, -, hs, hd, hlt⟩ := hsane.executing houtlived.state
    obtain ⟨σ, hσ, hle⟩ := houtlived.started
    rw [hs] at hσ
    cases hσ
    have hout : d ≤ τ := by simpa [HandoffRow.admits, houtlived.state, hd] using hadmits
    exact hle.trans (hlt.le.trans hout)

/-- A move makes an execution a new one that has outlived it, or lets it be, or ends the handoff. -/
theorem HandoffStep.fate (hstep : HandoffStep m τ (some h) (some h')) (hsane : h.Sane)
    (hfate : h.Fate ex)
    (hfresh : ∀ k s d, m.runs k s d → k ≠ ex.executionToken) : h'.Fate ex := by
  cases hstep with
  | same => exact hfate
  | acknowledge h state hstate =>
      rcases hfate with hclosed | hruns | houtlived
      · left
        rcases hstate with ⟨hprepared, -⟩ | ⟨-, rfl⟩
        · simp [HandoffRow.isOpen, hprepared] at hclosed
        · exact hclosed
      · right; left
        rcases hstate with ⟨hprepared, -⟩ | ⟨-, rfl⟩
        · rw [hruns.state] at hprepared
          cases hprepared
        · exact ⟨hruns.state, hruns.token, hruns.started, hruns.deadline⟩
      · right; right
        rcases hstate with ⟨hprepared, -⟩ | ⟨-, rfl⟩
        · rw [houtlived.state] at hprepared
          cases hprepared
        · exact ⟨houtlived.state, houtlived.token, houtlived.started⟩
  | execute h token deadline hadmits htime hruns =>
      right; right
      exact ⟨rfl, fun heq => hfresh _ _ _ hruns (Option.some.inj heq), τ, rfl,
        hfate.before hadmits hsane⟩
  | settle h state code summary hopen hend hwins =>
      left
      rcases hend with rfl | rfl | rfl <;> rfl

/-- A handoff whose token is a new one was admitted for execution. -/
theorem HandoffStep.executes {o : Option HandoffRow} (hstep : HandoffStep m τ o (some h'))
    {k : UUID} (hk : h'.executionToken = some k)
    (hne : ∀ h, o = some h → h.executionToken ≠ some k) :
    ∃ h d, o = some h ∧ h.admits τ = true ∧ τ < d ∧ m.runs k τ d ∧
      h' = executingHandoff h k τ d := by
  cases hstep with
  | same => exact absurd hk (hne h' rfl)
  | prepare h hstate hstarted htoken hdeadline hnew =>
      rw [htoken] at hk
      cases hk
  | acknowledge h state hstate => exact absurd hk (hne h rfl)
  | execute h token deadline hadmits htime hruns =>
      cases hk
      exact ⟨h, deadline, rfl, hadmits, htime, hruns, rfl⟩
  | settle h state code summary hopen hend hwins => cases hk

end Moves

section Commits

variable {m : Mode} {s : RuntimeStore} {e : Entry Key Row PyError Op Outcome} {db' : Db}

theorem Commits.handoff (hc : Commits m s e db') {t i : UUID} {h : HandoffRow}
    (hh : handoffAt s.db t i = some h) : ∃ h', handoffAt db' t i = some h' ∧
      h'.identity = h.identity := by
  obtain ⟨τ, -, hstep⟩ := hc.handoffs t i
  rw [hh] at hstep
  exact hstep.stays

/-- An execution that was handed out keeps its fate through a commit. -/
theorem Commits.fate (hc : Commits m s e db') (hexecuted : Executed s)
    {e₀ : Entry Key Row PyError Op Outcome} (he₀ : e₀ ∈ s.log) {ex : ExecutingHandoff}
    (hex : executionOf e₀ = some ex) :
    ∃ h, handoffAt db' ex.record.tenantId ex.record.handoffId = some h ∧ h.Fate ex := by
  obtain ⟨h, hh, hfate⟩ := hexecuted.fate e₀ he₀ ex hex
  obtain ⟨h', hh', -⟩ := hc.handoff hh
  obtain ⟨τ, -, hstep⟩ := hc.handoffs ex.record.tenantId ex.record.handoffId
  rw [hh, hh'] at hstep
  refine ⟨h', hh', hstep.fate (hexecuted.sane _ _ h hh) hfate ?_⟩
  rintro k started d ⟨ex', hex', -, -, rfl, -⟩ heq
  -- the token of a new execution is not one of the log
  refine (hc.reports.executions ex' hex').2 (Or.inr ⟨e₀, he₀, ex, hex, heq.symm⟩)

/-- A commit that hands out an execution. -/
theorem Commits.executes (hc : Commits m s e db') (hexecuted : Executed s) {ex : ExecutingHandoff}
    (hex : executionOf e = some ex) :
    ∃ h, handoffAt s.db ex.record.tenantId ex.record.handoffId = some h ∧
      h.admits ex.record.updatedAt = true ∧ ex.record.updatedAt < ex.executionDeadline ∧
      ∃ h', handoffAt db' ex.record.tenantId ex.record.handoffId = some h' ∧ h'.Runs ex := by
  obtain ⟨hadmits, hfresh⟩ := hc.reports.executions ex hex
  obtain ⟨h', hh', htoken, hstarted, hdeadline, -⟩ := hadmits.handoff
  obtain ⟨τ, -, hstep⟩ := hc.handoffs ex.record.tenantId ex.record.handoffId
  rw [hh'] at hstep
  have hnew : ∀ h, handoffAt s.db ex.record.tenantId ex.record.handoffId = some h →
      h.executionToken ≠ some ex.executionToken := by
    intro h hh heq
    obtain ⟨e₀, he₀, ex₀, hex₀, htoken₀⟩ := hexecuted.source _ _ h _ hh heq
    exact hfresh (Or.inr ⟨e₀, he₀, ex₀, hex₀, htoken₀⟩)
  obtain ⟨h, d, hh, hadmitted, hlt, -, rfl⟩ := hstep.executes htoken hnew
  have hτ : τ = ex.record.updatedAt := Option.some.inj hstarted
  have hd : d = ex.executionDeadline := Option.some.inj hdeadline
  subst hτ hd
  exact ⟨h, hh, hadmitted, hlt, _, hh', rfl, htoken, hstarted, hdeadline⟩

/-- An execution that is ended was handed out. -/
theorem Commits.admitted (hc : Commits m s e db') {ex : ExecutingHandoff}
    (hex : e.op.completes = some ex) : admitted s.log ex = true := by
  have hallowed := hc.allowed
  cases hop : e.op with
  | finalizeSuccess ex' now | finalizeFailure ex' error now uniform =>
      rw [hop] at hallowed hex
      cases hex
      exact hallowed
  | _ =>
      rw [hop] at hex
      cases hex

/-- A commit that ends an execution finds its handoff under execution, since the execution
began. -/
theorem Commits.completes (hc : Commits m s e db') (hexecuted : Executed s) {ex : ExecutingHandoff}
    (hex : e.op.completes = some ex) (hcommitted : committed e) :
    ∃ h, handoffAt s.db ex.record.tenantId ex.record.handoffId = some h ∧ h.Runs ex ∧
      ∃ h', handoffAt db' ex.record.tenantId ex.record.handoffId = some h' ∧ h'.isOpen = false := by
  obtain ⟨h, h', hh, hstate, htoken, hh', hclosed, -⟩ := hc.reports.completed ex hex hcommitted
  obtain ⟨e₀, he₀, hex₀⟩ := admitted_iff.mp (hc.admitted hex)
  obtain ⟨h₀, hh₀, hfate⟩ := hexecuted.fate e₀ he₀ ex hex₀
  rw [hh] at hh₀
  cases hh₀
  refine ⟨h, hh, ?_, h', hh', hclosed⟩
  rcases hfate with hclosed' | hruns | houtlived
  · simp [HandoffRow.isOpen, hstate] at hclosed'
  · exact hruns
  · exact absurd htoken houtlived.token

/-- A handoff that ended stays as it ended. -/
theorem Commits.closed (hc : Commits m s e db') {t i : UUID} {h : HandoffRow}
    (hh : handoffAt s.db t i = some h) (hclosed : h.isOpen = false) :
    ∃ h', handoffAt db' t i = some h' ∧ h'.isOpen = false ∧ h'.state = h.state ∧
      h'.identity = h.identity := by
  obtain ⟨h', hh', hid⟩ := hc.handoff hh
  obtain ⟨τ, -, hstep⟩ := hc.handoffs t i
  rw [hh, hh'] at hstep
  have hstate := hstep.terminal hclosed
  refine ⟨h', hh', ?_, hstate, hid⟩
  unfold HandoffRow.isOpen at hclosed ⊢
  rw [hstate]
  exact hclosed

theorem Executed.atTime {t : Datetime} (h : Executed s) : Executed (s.atTime t) :=
  ⟨h.toExclusiveExecutions, h.sane, h.fate, h.source, h.ended⟩

/-- The executions and the handoffs stay in step through a commit. -/
theorem Commits.executed (hc : Commits m s e db') (h : Executed s) :
    Executed ⟨db', s.now, s.log ++ [e]⟩ where
  sane := by
    intro t i row' hrow'
    obtain ⟨τ, -, hstep⟩ := hc.handoffs t i
    rw [show handoffAt db' t i = some row' from hrow'] at hstep
    exact .step (fun row hrow => h.sane t i row hrow) hstep
  fate := by
    intro e₀ he₀ ex hex
    rcases List.mem_append.mp he₀ with he₀ | he₀
    · exact hc.fate h he₀ hex
    · rw [List.mem_singleton.mp he₀] at hex
      obtain ⟨-, -, -, -, h', hh', hruns⟩ := hc.executes h hex
      exact ⟨h', hh', Or.inr (Or.inl hruns)⟩
  source := by
    intro t i row' k hrow' hk
    by_cases hold : ∃ row, handoffAt s.db t i = some row ∧ row.executionToken = some k
    · obtain ⟨row, hrow, htoken⟩ := hold
      obtain ⟨e₀, he₀, ex, hex, hsame⟩ := h.source t i row k hrow htoken
      exact ⟨e₀, List.mem_append_left _ he₀, ex, hex, hsame⟩
    · -- the token is that of the execution this commit hands out
      obtain ⟨τ, -, hstep⟩ := hc.handoffs t i
      rw [show handoffAt db' t i = some row' from hrow'] at hstep
      obtain ⟨-, d, -, -, -, ⟨ex, hex, -, -, htoken, -⟩, -⟩ :=
        hstep.executes hk fun row hrow htoken => hold ⟨row, hrow, htoken⟩
      exact ⟨e, by simp, ex, hex, htoken⟩
  window := by
    intro e₀ he₀ ex hex
    rcases List.mem_append.mp he₀ with he₀ | he₀
    · exact h.window e₀ he₀ ex hex
    · rw [List.mem_singleton.mp he₀] at hex
      obtain ⟨-, -, -, hlt, -⟩ := hc.executes h hex
      exact hlt
  apart := by
    refine List.pairwise_append.mpr ⟨h.apart, List.pairwise_singleton _ _, ?_⟩
    intro e₀ he₀ e' he' ex ex' hex hex' hsame
    rw [List.mem_singleton.mp he'] at hex'
    obtain ⟨row, hrow, hadmits, -, -⟩ := hc.executes h hex'
    obtain ⟨row₀, hrow₀, hfate⟩ := h.fate e₀ he₀ ex hex
    rw [hsame.1, hsame.2, hrow] at hrow₀
    cases hrow₀
    exact hfate.before hadmits (h.sane _ _ _ hrow)
  ended := by
    intro e₀ he₀ ex hex hcommitted
    rcases List.mem_append.mp he₀ with he₀ | he₀
    · obtain ⟨row, hrow, hclosed⟩ := h.ended e₀ he₀ ex hex hcommitted
      obtain ⟨h', hh', hclosed', -⟩ := hc.closed hrow hclosed
      exact ⟨h', hh', hclosed'⟩
    · rw [List.mem_singleton.mp he₀] at hex hcommitted
      obtain ⟨-, -, -, h', hh', hclosed⟩ := hc.completes h hex hcommitted
      exact ⟨h', hh', hclosed⟩
  once := by
    refine List.pairwise_append.mpr ⟨h.once, List.pairwise_singleton _ _, ?_⟩
    intro e₀ he₀ e' he' ex ex' hex hcommitted hnext hsame
    rw [List.mem_singleton.mp he'] at hnext
    obtain ⟨row, hrow, hclosed⟩ := h.ended e₀ he₀ ex hex hcommitted
    rw [hsame.1, hsame.2] at hrow
    rcases hnext with ⟨hex', hcommitted'⟩ | hex'
    · obtain ⟨row', hrow', hruns, -⟩ := hc.completes h hex' hcommitted'
      rw [hrow] at hrow'
      cases hrow'
      simp [HandoffRow.isOpen, hruns.state] at hclosed
    · obtain ⟨row', hrow', hadmits, -⟩ := hc.executes h hex'
      rw [hrow] at hrow'
      cases hrow'
      simp [HandoffRow.isOpen_of_admits hadmits] at hclosed
  last := by
    refine List.pairwise_append.mpr ⟨h.last, List.pairwise_singleton _ _, ?_⟩
    intro e₀ he₀ e' he' ex ex' hex hex' hcommitted hsame
    rw [List.mem_singleton.mp he'] at hex' hcommitted
    obtain ⟨row, hrow, hruns, -⟩ := hc.completes h hex' hcommitted
    obtain ⟨row₀, hrow₀, hfate⟩ := h.fate e₀ he₀ ex hex
    rw [hsame.1, hsame.2, hrow] at hrow₀
    cases hrow₀
    rcases hfate with hclosed | hruns₀ | ⟨-, -, τ, hτ, hle⟩
    · simp [HandoffRow.isOpen, hruns.state] at hclosed
    · left
      exact Option.some.inj (hruns₀.token.symm.trans hruns.token)
    · right
      rw [hruns.started] at hτ
      cases hτ
      exact hle

end Commits

section Runs

variable {m : Mode} {now : Datetime} {w w' : RuntimeWorld}

theorem executed_start (now : Datetime) : Executed (RuntimeWorld.start now).store := by
  constructor
  · constructor <;> simp [RuntimeWorld.start]
  all_goals simp [RuntimeWorld.start, handoffAt]

theorem executed_reachable (hreach : Reachable m.protocol (RuntimeWorld.start now) w) :
    Executed w.store :=
  Mode.reachable_induction (executed_start now) (fun _ _ _ h => h.atTime)
    (fun _ _ _ _ _ hc h => hc.executed h) hreach

/-- An entry that executes the handoff `i` of tenant `t`, or ends it. -/
def Touches (e : Entry Key Row PyError Op Outcome) (t i : UUID) : Prop :=
  ∃ ex, (executionOf e = some ex ∨ (e.op.completes = some ex ∧ committed e)) ∧
    ex.record.tenantId = t ∧ ex.record.handoffId = i

/-- A commit touches only a handoff that is open. -/
theorem Commits.open_of_touches {s : RuntimeStore} {e : Entry Key Row PyError Op Outcome} {db' : Db}
    (hc : Commits m s e db') (hexecuted : Executed s) {t i : UUID} (htouches : Touches e t i) :
    ∃ h, handoffAt s.db t i = some h ∧ h.isOpen = true := by
  rcases htouches with ⟨ex, hex | ⟨hex, hcommitted⟩, rfl, rfl⟩
  · obtain ⟨h, hh, hadmits, -⟩ := hc.executes hexecuted hex
    exact ⟨h, hh, HandoffRow.isOpen_of_admits hadmits⟩
  · obtain ⟨h, hh, hruns, -⟩ := hc.completes hexecuted hex hcommitted
    exact ⟨h, hh, by simp [HandoffRow.isOpen, hruns.state]⟩

/-- A handoff that has ended is left alone by all that follows. -/
theorem ended_untouched (hreach : Reachable m.protocol (RuntimeWorld.start now) w)
    (hrun : Reachable m.protocol w w') {t i : UUID} {h : HandoffRow}
    (hh : handoffAt w.store.db t i = some h) (hclosed : h.isOpen = false) :
    (∃ h', handoffAt w'.store.db t i = some h' ∧ h'.isOpen = false ∧ h'.state = h.state ∧
        h'.identity = h.identity) ∧
      ∃ later, w'.store.log = w.store.log ++ later ∧ ∀ e ∈ later, ¬ Touches e t i := by
  induction hrun with
  | refl => exact ⟨⟨h, hh, hclosed, rfl, rfl⟩, [], by simp, by simp⟩
  | tail hprefix hstep ih =>
      obtain ⟨⟨h₁, hh₁, hclosed₁, hstate₁, hid₁⟩, later, hlog, hlater⟩ := ih
      have hreach₁ := hreach.trans hprefix
      rcases Mode.step_cases hreach₁ hstep with ⟨hdb, hsame, -⟩ | ⟨e, hstore, hc⟩
      · rw [hdb, hsame]
        exact ⟨⟨h₁, hh₁, hclosed₁, hstate₁, hid₁⟩, later, hlog, hlater⟩
      · obtain ⟨h₂, hh₂, hclosed₂, hstate₂, hid₂⟩ := hc.closed hh₁ hclosed₁
        refine ⟨⟨h₂, hh₂, hclosed₂, hstate₂.trans hstate₁, hid₂.trans hid₁⟩, later ++ [e], ?_, ?_⟩
        · rw [hstore, hlog, List.append_assoc]
        · intro e' he' htouches
          rcases List.mem_append.mp he' with he' | he'
          · exact hlater e' he' htouches
          · rw [List.mem_singleton.mp he'] at htouches
            obtain ⟨h₃, hh₃, hopen⟩ := hc.open_of_touches (executed_reachable hreach₁) htouches
            rw [hh₁] at hh₃
            cases hh₃
            simp [hclosed₁] at hopen

/-- However often the broker delivers a message, and in whatever order the transactions of the
workers, of the relay and of the recovery run: the executions of a handoff have windows that do
not overlap, none but the last of them ends it, and a handoff that has ended is not executed,
nor ended, again. -/
theorem executions_exclusive (hreach : Reachable runtime (RuntimeWorld.start now) w) :
    ExclusiveExecutions w.store.log ∧
    ∀ w', Reachable runtime w w' → ∀ t i h, handoffAt w.store.db t i = some h →
      h.isOpen = false →
        (∃ h', handoffAt w'.store.db t i = some h' ∧ h'.isOpen = false ∧ h'.state = h.state ∧
          h'.identity = h.identity) ∧
        ∃ later, w'.store.log = w.store.log ++ later ∧ ∀ e ∈ later, ¬ Touches e t i := by
  rw [← Mode.free_protocol] at hreach ⊢
  constructor
  · exact (executed_reachable hreach).toExclusiveExecutions
  · intro w' hrun t i h hh hclosed
    exact ended_untouched hreach hrun hh hclosed

end Runs

end Executions

/-! A message that is delivered twice: the first execution runs out, and reports after the second
one has begun. -/

namespace Scenario

def uniform : ℚ → ℚ → PyFloat := fun _ _ => .nan

/-- Transaction 2 hands the claim over. -/
def handing (c : ClaimedDelivery) : List (Act UUID Op) :=
  [.start (.prepare c 0), .mint 2 400, .mint 2 401] ++ List.replicate 6 (.step 2)

/-- Transaction `t` executes the message for a second, under the token `k`. -/
def executing (envelope : HandoffEnvelope) (t : ℕ) (k : UUID) : List (Act UUID Op) :=
  [.start (.claimExecution envelope 0 1000000 uniform)] ++ List.replicate 6 (.step t) ++
    [.mint t k, .step t, .step t]

/-- Transaction 5 reports the success of the first execution, and transaction 6 that of the
second. -/
def reporting (ex ex' : ExecutingHandoff) : List (Act UUID Op) :=
  [.start (.finalizeSuccess ex 0), .step 5, .step 5, .start (.finalizeSuccess ex' 0)] ++
    List.replicate 8 (.step 6)

/-- The message of a history. -/
def envelopeOf (log : History) : Option HandoffEnvelope :=
  log.findSome? fun e => match e.result with
    | .ok (.envelope envelope) => some envelope
    | _ => none

/-- The first claim of a history. -/
def claimOf (log : History) : Option ClaimedDelivery :=
  (log.flatMap claimsOf).head?

end Scenario

open Scenario in
/-- The second execution ends the handoff, and the first one does not. -/
theorem executions_exclusive_redelivered : ∃ (w : RuntimeWorld) (ex ex' : ExecutingHandoff)
    (h : HandoffRow), w.store.log.filterMap executionOf = [ex, ex'] ∧ ex.SameHandoff ex' ∧
      ExclusiveExecutions w.store.log ∧
      handoffAt w.store.db ex.record.tenantId ex.record.handoffId = some h ∧ h.state = .succeeded ∧
      ∀ w', Reachable runtime w w' → ∃ later, w'.store.log = w.store.log ++ later ∧
        ∀ e ∈ later, ¬ Touches e ex.record.tenantId ex.record.handoffId := by
  have hrun : ((RuntimeWorld.start 0).run runtime (leasing ++ [.step 1])).any (fun w =>
      (claimOf w.store.log).any fun c => (w.run runtime (handing c)).any fun w =>
        (envelopeOf w.store.log).any fun envelope =>
          (w.run runtime (executing envelope 3 500 ++ [.tick 1000010] ++
            executing envelope 4 600)).any fun w =>
              (w.store.log.filterMap executionOf)[0]?.any fun ex =>
                (w.store.log.filterMap executionOf)[1]?.any fun ex' =>
                  (w.run runtime (reporting ex ex')).any fun w =>
                    (handoffAt w.store.db ex.record.tenantId ex.record.handoffId).any fun h =>
                      w.store.log.filterMap executionOf = [ex, ex'] ∧
                      (ex.record.tenantId = ex'.record.tenantId ∧
                        ex.record.handoffId = ex'.record.handoffId) ∧
                      h.state = .succeeded) = true := by
    decide +kernel
  simp only [Option.any_eq_true, decide_eq_true_eq] at hrun
  obtain ⟨w₁, hw₁, c, -, w₂, hw₂, envelope, -, w₃, hw₃, ex, -, ex', -, w, hw, h, hh, hlog, hsame,
    hstate⟩ := hrun
  have hreach : Reachable runtime (RuntimeWorld.start 0) w :=
    (((World.run_reachable hw₁).trans (World.run_reachable hw₂)).trans
      (World.run_reachable hw₃)).trans (World.run_reachable hw)
  obtain ⟨hexclusive, hended⟩ := executions_exclusive hreach
  refine ⟨w, ex, ex', h, hlog, hsame, hexclusive, hh, hstate, fun w' hrun => ?_⟩
  exact (hended w' hrun _ _ h hh (by simp [HandoffRow.isOpen, hstate])).2

end FastapiEffects
