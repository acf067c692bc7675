import FastapiEffects.Executors.Taskiq
import FastapiEffects.Postgres.Cells

/-! # The life of one handoff

The abstract machine the handoff store implements. A handoff is prepared, its
enqueueing is acknowledged, perhaps late, it is executed any number of times, one
execution after another, and it is settled once.
-/

namespace FastapiEffects

open Python ReadCommitted

/-- Whether a handoff can still be executed. -/
def HandoffRow.isOpen (h : HandoffRow) : Bool :=
  h.state = .prepared ∨ h.state = .enqueued ∨ h.state = .executing

/-- A handoff whose enqueueing was acknowledged. -/
def acknowledgedHandoff (h : HandoffRow) (state : HandoffState) (τ : Datetime) : HandoffRow :=
  { h with state := state, enqueuedAt := some τ, updatedAt := τ }

/-- A handoff that ended. -/
def settledHandoff (h : HandoffRow) (state : HandoffState) (τ : Datetime)
    (code summary : Option Str) : HandoffRow :=
  clearExecution { h with
    state := state
    finishedAt := some τ
    updatedAt := τ
    failureCode := code
    failureSummary := summary }

/-- What a transaction may do to a handoff: whether it may settle it as succeeded,
which executions it hands out, and which handoffs it may create. -/
structure HandoffMoves where
  wins : Prop
  runs : UUID → Datetime → Datetime → Prop
  new : HandoffRow → Prop

/-- One move of a handoff at time `τ`. -/
inductive HandoffStep (m : HandoffMoves) (τ : Datetime) :
    Option HandoffRow → Option HandoffRow → Prop where
  | same (h : Option HandoffRow) : HandoffStep m τ h h
  | prepare (h : HandoffRow) (hstate : h.state = .prepared) (hstarted : h.startedAt = none)
      (htoken : h.executionToken = none) (hdeadline : h.executionDeadline = none) (hnew : m.new h) :
      HandoffStep m τ none (some h)
  | acknowledge (h : HandoffRow) (state : HandoffState)
      (hstate : (h.state = .prepared ∧ state = .enqueued) ∨
        (h.state ≠ .prepared ∧ state = h.state)) :
      HandoffStep m τ (some h) (some (acknowledgedHandoff h state τ))
  | execute (h : HandoffRow) (token : UUID) (deadline : Datetime) (hadmits : h.admits τ)
      (htime : τ < deadline) (hruns : m.runs token τ deadline) :
      HandoffStep m τ (some h) (some (executingHandoff h token τ deadline))
  | settle (h : HandoffRow) (state : HandoffState) (code summary : Option Str)
      (hopen : h.isOpen) (hend : state = .succeeded ∨ state = .retryWait ∨ state = .dead)
      (hwins : state = .succeeded → m.wins) :
      HandoffStep m τ (some h) (some (settledHandoff h state τ code summary))

@[simp] theorem identity_acknowledgedHandoff (h : HandoffRow) (state : HandoffState)
    (τ : Datetime) : (acknowledgedHandoff h state τ).identity = h.identity := rfl

@[simp] theorem identity_executingHandoff (h : HandoffRow) (token : UUID) (τ deadline : Datetime) :
    (executingHandoff h token τ deadline).identity = h.identity := rfl

@[simp] theorem identity_settledHandoff (h : HandoffRow) (state : HandoffState) (τ : Datetime)
    (code summary : Option Str) : (settledHandoff h state τ code summary).identity = h.identity :=
  rfl

namespace HandoffStep

variable {m m' : HandoffMoves} {τ : Datetime} {h h' : HandoffRow} {o o' : Option HandoffRow}

/-- A move a more capable transaction may make as well. -/
theorem mono (hstep : HandoffStep m τ o o') (hwins : m.wins → m'.wins)
    (hruns : ∀ k s d, m.runs k s d → m'.runs k s d) (hnew : ∀ h, m.new h → m'.new h) :
    HandoffStep m' τ o o' := by
  cases hstep with
  | same => exact .same o
  | prepare h hstate hstarted htoken hdeadline hn =>
      exact .prepare h hstate hstarted htoken hdeadline (hnew h hn)
  | acknowledge h state hstate => exact .acknowledge h state hstate
  | execute h token deadline hadmits htime hr =>
      exact .execute h token deadline hadmits htime (hruns _ _ _ hr)
  | settle h state code summary hopen hend hw =>
      exact .settle h state code summary hopen hend fun hs => hwins (hw hs)

/-- A stored handoff stays, with its identity. -/
theorem stays (hstep : HandoffStep m τ (some h) o') :
    ∃ h', o' = some h' ∧ h'.identity = h.identity := by
  cases hstep with
  | same => exact ⟨h, rfl, rfl⟩
  | acknowledge h state hstate => exact ⟨_, rfl, rfl⟩
  | execute h token deadline hadmits htime hruns => exact ⟨_, rfl, rfl⟩
  | settle h state code summary hopen hend hwins => exact ⟨_, rfl, rfl⟩

/-- A settled handoff stays settled, in the same state. -/
theorem terminal (hstep : HandoffStep m τ (some h) (some h')) (hclosed : h.isOpen = false) :
    h'.state = h.state := by
  cases hstep with
  | same => rfl
  | acknowledge h state hstate =>
      rcases hstate with ⟨hp, -⟩ | ⟨-, rfl⟩
      · simp [HandoffRow.isOpen, hp] at hclosed
      · rfl
  | execute h token deadline hadmits htime hruns =>
      cases hs : h.state <;> simp [HandoffRow.isOpen, HandoffRow.admits, hs] at hclosed hadmits
  | settle h state code summary hopen hend hwins => simp [hopen] at hclosed

end HandoffStep

/-- What holds of every stored handoff. -/
structure HandoffRow.Sane (h : HandoffRow) : Prop where
  waiting : h.state = .prepared ∨ h.state = .enqueued → h.startedAt = none
  executing : h.state = .executing → ∃ k s d, h.executionToken = some k ∧ h.startedAt = some s ∧
    h.executionDeadline = some d ∧ s < d
  idle : h.state ≠ .executing → h.executionToken = none

/-- Every move keeps a handoff sane. -/
theorem HandoffRow.Sane.step {m : HandoffMoves} {τ : Datetime} {o : Option HandoffRow}
    {h' : HandoffRow} (hold : ∀ h, o = some h → h.Sane) (hstep : HandoffStep m τ o (some h')) :
    h'.Sane := by
  cases hstep with
  | same => exact hold h' rfl
  | prepare h hstate hstarted htoken hdeadline hnew =>
      exact ⟨fun _ => hstarted, fun hs => (by simp [hstate] at hs), fun _ => htoken⟩
  | acknowledge h state hstate =>
      obtain ⟨hwaiting, hexec, hidle⟩ := hold h rfl
      rcases hstate with ⟨hp, rfl⟩ | ⟨hp, rfl⟩
      · exact ⟨fun _ => hwaiting (Or.inl hp), fun hs => (by simp [acknowledgedHandoff] at hs),
          fun _ => hidle (by simp [hp])⟩
      · exact ⟨hwaiting, hexec, hidle⟩
  | execute h token deadline hadmits htime hruns =>
      exact ⟨fun hs => (by simp [executingHandoff] at hs),
        fun _ => ⟨token, τ, deadline, rfl, rfl, rfl, htime⟩,
        fun hs => absurd rfl hs⟩
  | settle h state code summary hopen hend hwins =>
      refine ⟨fun hs => ?_, fun hs => ?_, fun _ => rfl⟩
      · rcases hend with rfl | rfl | rfl <;> simp [settledHandoff, clearExecution] at hs
      · rcases hend with rfl | rfl | rfl <;> simp [settledHandoff, clearExecution] at hs

end FastapiEffects
