import FastapiEffects.Postgres.Isolation
import FastapiEffects.Executors.Bridge

/-! # What the bridge keeps to

Whatever the broker, the store, the clock and the handler do. The sink hands its own claim over
once, and leaves the outcome of the delivery open (`sink_hands_over`); a worker runs the handler
of an execution it was admitted to, once and within its deadline, and then asks once for the
finalization the end of the handler calls for (`worker_finalizes_own`).
-/

namespace FastapiEffects

open Python Interaction

/-! ## The sink -/

section Sink

/-- An event of the sink. -/
abbrev HandingEvent := Interaction.Event HandingQuestion HandingQuestion.Answer RelayError

def HandingQuestion.isPrepare : HandingQuestion → Bool
  | .prepare _ _ => true
  | _ => false

def HandingQuestion.isKiq : HandingQuestion → Bool
  | .kiq _ => true
  | _ => false

/-- A report of what the broker did. -/
def HandingQuestion.isReport : HandingQuestion → Bool
  | .enqueueFailed _ _ | .markEnqueued _ _ => true
  | _ => false

/-- The handoff of the claim was prepared as `envelope`. -/
def PreparedIn (claim : ClaimedDelivery) (h : List HandingEvent)
    (envelope : HandoffEnvelope) : Prop :=
  ∃ now, ⟨.prepare claim now, .ok envelope⟩ ∈ h

/-- What the sink may ask after the history `h`. It prepares its own claim, once, sends the
message of the envelope it got, once, and reports what the broker made of it: that it was taken
if the broker answered with the task's own name, and that it was not taken if the broker raised
or answered with another name. After a cancellation nothing is reported. -/
def SinkKeeps (claim : ClaimedDelivery) (h : List HandingEvent) : HandingQuestion → Prop
  | .prepare c _ => c = claim ∧ ∀ e ∈ h, e.question.isPrepare = false
  | .kicker labels taskId => labels = bridgeLabels ∧
      ∃ envelope, PreparedIn claim h envelope ∧ taskId = envelope.taskId
  | .kiq message => (∃ envelope, PreparedIn claim h envelope ∧ message = envelope.toDict) ∧
      ∀ e ∈ h, e.question.isKiq = false
  | .markEnqueued envelope _ => PreparedIn claim h envelope ∧
      (∃ id, ⟨.kiq envelope.toDict, .ok id⟩ ∈ h ∧ id.isFor envelope = true) ∧
      ∀ e ∈ h, e.question.isReport = false
  | .enqueueFailed envelope _ => PreparedIn claim h envelope ∧
      (∃ x, ⟨.kiq envelope.toDict, x⟩ ∈ h ∧ x ≠ .error .cancelled ∧
        ∀ id, x = .ok id → id.isFor envelope = false) ∧
      ∀ e ∈ h, e.question.isReport = false
  | _ => True

/-- A part of the sink that keeps to this, and leaves the outcome open. -/
abbrev Deferring (claim : ClaimedDelivery) (p : Handing SinkDisposition) (h : List HandingEvent) :
    Prop :=
  p.Asks (SinkKeeps claim) (fun _ d => d = .deferred) (fun _ _ => True) h

variable {claim : ClaimedDelivery} {h : List HandingEvent}

/-- An event is recorded, and what follows goes on from there. -/
theorem deferring_record {event : HandoffEvent} {k : Unit → Handing SinkDisposition}
    (hk : ∀ x, Deferring claim (k ()) (h ++ [⟨.record event, x⟩])) :
    Deferring claim ((recordHandoff event).bind k) h := by
  unfold recordHandoff
  refine Program.asks_bind.mpr (Program.asks_tryCatch.mpr (Program.asks_await trivial ?_ ?_))
  · intro a
    exact hk _
  · intro e
    split_ifs
    · trivial
    · exact hk _

theorem deferring_now {k : Datetime → Handing SinkDisposition}
    (hk : ∀ now x, Deferring claim (k now) (h ++ [⟨.now, x⟩])) :
    Deferring claim (HandingQuestion.now.await.bind k) h := by
  refine Program.asks_bind.mpr (Program.asks_await trivial ?_ ?_)
  · intro now
    exact hk now _
  · intro e
    trivial

theorem deferring_enqueueFailed {envelope : HandoffEnvelope}
    (hprepared : PreparedIn claim h envelope)
    (hrefused : ∃ x, ⟨.kiq envelope.toDict, x⟩ ∈ h ∧ x ≠ .error .cancelled ∧
      ∀ id, x = .ok id → id.isFor envelope = false)
    (hnone : ∀ e ∈ h, e.question.isReport = false) :
    Deferring claim (reportEnqueueFailed envelope) h := by
  obtain ⟨now, hnow⟩ := hprepared
  obtain ⟨x, hx, hnot, hid⟩ := hrefused
  refine deferring_now fun τ y => ?_
  refine Program.asks_bind.mpr (Program.asks_await ⟨?_, ?_, ?_⟩ (fun _ => rfl) fun _ => trivial)
  · exact ⟨now, List.mem_append_left _ hnow⟩
  · exact ⟨x, List.mem_append_left _ hx, hnot, hid⟩
  · intro e he
    rcases List.mem_append.mp he with he | he
    · exact hnone e he
    · rw [List.mem_singleton.mp he]
      rfl

theorem deferring_enqueued {envelope : HandoffEnvelope} (hprepared : PreparedIn claim h envelope)
    (htaken : ∃ id, ⟨.kiq envelope.toDict, .ok id⟩ ∈ h ∧ id.isFor envelope = true)
    (hnone : ∀ e ∈ h, e.question.isReport = false) :
    Deferring claim (reportEnqueued envelope) h := by
  obtain ⟨now, hnow⟩ := hprepared
  obtain ⟨id, hid, hfor⟩ := htaken
  refine deferring_now fun τ y => ?_
  refine Program.asks_bind.mpr (Program.asks_await ⟨?_, ?_, ?_⟩ (fun _ => ?_) fun _ => trivial)
  · exact ⟨now, List.mem_append_left _ hnow⟩
  · exact ⟨id, List.mem_append_left _ hid, hfor⟩
  · intro e he
    rcases List.mem_append.mp he with he | he
    · exact hnone e he
    · rw [List.mem_singleton.mp he]
      rfl
  · exact deferring_now fun _ _ => deferring_record fun _ => rfl

/-- The attempt, from a history without any of its questions. -/
theorem deferring_handOver (hfresh : ∀ e ∈ h, e.question.isPrepare = false ∧
    e.question.isKiq = false ∧ e.question.isReport = false) :
    Deferring claim (handOver claim) h := by
  refine deferring_now fun now y => ?_
  refine Program.asks_bind.mpr (Program.asks_await ⟨rfl, ?_⟩ (fun envelope => ?_) fun _ => trivial)
  · intro e he
    rcases List.mem_append.mp he with he | he
    · exact (hfresh e he).1
    · rw [List.mem_singleton.mp he]
      rfl
  refine deferring_record fun z => ?_
  -- what is known before the message is sent
  obtain ⟨h', hh'⟩ : ∃ h', h' = h ++ [⟨.now, y⟩] ++ [⟨.prepare claim now, .ok envelope⟩] ++
      [⟨.record (handoffEvent .taskiqPrepared envelope now "prepared" none), z⟩] := ⟨_, rfl⟩
  have hprepared : PreparedIn claim h' envelope := ⟨now, by simp [hh']⟩
  have hquiet : ∀ e ∈ h', e.question.isKiq = false ∧ e.question.isReport = false := by
    intro e he
    simp only [hh', List.mem_append, List.mem_singleton] at he
    rcases he with ((he | rfl) | rfl) | rfl
    · exact (hfresh e he).2
    all_goals exact ⟨rfl, rfl⟩
  rw [← hh']
  refine Program.asks_bind.mpr (Program.asks_await ⟨rfl, envelope, hprepared, rfl⟩ (fun _ => ?_)
    fun _ => trivial)
  obtain ⟨h'', hh''⟩ : ∃ h'', h'' = h' ++ [⟨.kicker bridgeLabels envelope.taskId, .ok ()⟩] :=
    ⟨_, rfl⟩
  rw [← hh'']
  have hprepared' : PreparedIn claim h'' envelope := by
    obtain ⟨τ, hτ⟩ := hprepared
    exact ⟨τ, by simp [hh'', hτ]⟩
  have hquiet' : ∀ e ∈ h'', e.question.isKiq = false ∧ e.question.isReport = false := by
    intro e he
    simp only [hh'', List.mem_append, List.mem_singleton] at he
    rcases he with he | rfl
    · exact hquiet e he
    · exact ⟨rfl, rfl⟩
  have hsent : ∀ x, PreparedIn claim (h'' ++ [⟨.kiq envelope.toDict, x⟩]) envelope ∧
      ∀ e ∈ h'' ++ [⟨.kiq envelope.toDict, x⟩], e.question.isReport = false := by
    intro x
    obtain ⟨τ, hτ⟩ := hprepared'
    refine ⟨⟨τ, List.mem_append_left _ hτ⟩, ?_⟩
    intro e he
    rcases List.mem_append.mp he with he | he
    · exact (hquiet' e he).2
    · rw [List.mem_singleton.mp he]
      rfl
  refine Program.asks_bind.mpr (Program.asks_tryCatch.mpr (Program.asks_bind.mpr
    (Program.asks_await ⟨⟨envelope, hprepared', rfl⟩, fun e he => (hquiet' e he).1⟩
      (fun id => ?_) fun e => ?_)))
  · -- the broker has taken it under some name
    show Deferring claim (if id.isFor envelope then reportEnqueued envelope
      else reportEnqueueFailed envelope) _
    split_ifs with hfor
    · exact deferring_enqueued (hsent _).1 ⟨id, by simp, hfor⟩ (hsent _).2
    · refine deferring_enqueueFailed (hsent _).1 ⟨.ok id, by simp, by simp, ?_⟩ (hsent _).2
      intro id' hid
      cases hid
      simpa using hfor
  · split_ifs with hcancelled
    · trivial
    · refine deferring_enqueueFailed (hsent _).1 ⟨.error e, by simp, ?_, ?_⟩ (hsent _).2
      · intro heq
        cases heq
        exact hcancelled rfl
      · intro id hid
        cases hid

/-- The attempt under its deadline. -/
theorem deferring_underTimeout (hfresh : ∀ e ∈ h, e.question.isPrepare = false ∧
    e.question.isKiq = false ∧ e.question.isReport = false) :
    Deferring claim (underTimeout (handOver claim)) h := by
  refine Program.asks_tryCatch.mpr (Program.Asks.mono (fun _ _ h => h) ?_
    (deferring_handOver hfresh))
  intro h e _
  cases e with
  | timeout => rfl
  | cancelled =>
      refine Program.asks_bind.mpr (Program.asks_await trivial ?_ fun _ => trivial)
      intro expired
      cases expired with
      | true => rfl
      | false => trivial
  | _ => trivial

theorem deferring_executeHandoff : Deferring claim (executeHandoff claim) [] := by
  unfold executeHandoff
  rcases enqueueTerms claim with e | ⟨policy, leaseExpiresAt⟩
  · trivial
  · refine deferring_now fun now y => ?_
    rcases remainingAttemptSeconds policy claim.delivery.createdAt claim.attempt.startedAt
      leaseExpiresAt now none with e | seconds
    · trivial
    · dsimp only
      split_ifs with hle
      · rfl
      · apply deferring_underTimeout
        intro e he
        rw [List.mem_singleton.mp he]
        exact ⟨rfl, rfl, rfl⟩

end Sink

/-! ## The relay and the sink -/

section Relay

/-- A report of success. -/
def RelayQuestion.isSuccess : RelayQuestion → Bool
  | .succeed _ => true
  | _ => false

/-- Whatever a sink returned in the history of a task of the relay, the Taskiq sink returned for
the claim. -/
def AnsweredByTaskiq (h : List RelayEvent) : Prop :=
  ∀ c s d, ⟨.execute c s, .ok d⟩ ∈ h → ∃ h' d', (executeHandoff c).Leads h' (.ret d') ∧ d = some d'

/-- A part of the relay that reports no success. -/
abbrev Unsuccessful {α : Type} (p : Relaying α)
    (h : List RelayEvent) : Prop :=
  p.Asks (fun h q => AnsweredByTaskiq h → q.isSuccess = false) (fun _ _ => True) (fun _ _ => True) h

variable {claim : ClaimedDelivery}
  {h : List RelayEvent}

/-- An await of another kind. -/
theorem unsuccessful_await {q : RelayQuestion}
    {post : List RelayEvent → q.Answer → Prop}
    {epost : List RelayEvent → RelayError → Prop}
    (hq : q.isSuccess = false) (hok : ∀ a, post (h ++ [⟨q, .ok a⟩]) a)
    (herror : ∀ e, epost (h ++ [⟨q, .error e⟩]) e) :
    q.await.Asks (fun h q => AnsweredByTaskiq h → q.isSuccess = false) post epost h := by
  refine ⟨fun _ => hq, fun x => ?_⟩
  cases x with
  | ok a => exact hok a
  | error e => exact herror e

theorem unsuccessful_recordEvent (event : RuntimeEvent) : Unsuccessful (recordEvent event) h := by
  unfold recordEvent recordSafely
  split
  · refine Program.asks_tryCatch.mpr (unsuccessful_await rfl (fun _ => trivial) ?_)
    intro e
    split_ifs <;> trivial
  · trivial

theorem unsuccessful_record {event : Datetime → RuntimeEvent} :
    Unsuccessful (RelayQuestion.now.await.bind fun now => recordEvent (event now)) h :=
  Program.asks_bind.mpr (unsuccessful_await rfl
    (fun _ => unsuccessful_recordEvent _) fun _ => trivial)

theorem unsuccessful_settle (e : RelayError) : Unsuccessful (settle claim e) h := by
  have hother : Unsuccessful (if isTransientDatabaseConnectionError e then
      recordControlFailure "database.transient" claim else .raise e) h := by
    split_ifs
    · exact unsuccessful_record
    · trivial
  cases e with
  | leaseLost id => exact unsuccessful_record
  | timeout => exact unsuccessful_record
  | _ => exact hother

theorem unsuccessful_failSafely (error : DeliveryError) : Unsuccessful (failSafely claim error) h :=
  Program.asks_tryCatch.mpr (unsuccessful_await rfl (fun _ => trivial)
    fun e => unsuccessful_settle e)

theorem unsuccessful_handleFailure (e : RelayError) : Unsuccessful (handleFailure claim e) h := by
  cases e with
  | cancelled => trivial
  | configuration message => trivial
  | database d =>
      show Unsuccessful (if isTransientDatabaseError (.database d) then
        recordControlFailure "database.transient" claim else .raise (.database d)) h
      split_ifs
      · exact unsuccessful_record
      · trivial
  | _ => exact unsuccessful_failSafely _

/-- A task whose sink is the Taskiq sink reports no success. -/
theorem unsuccessful_executeClaim : Unsuccessful (executeClaim claim) [] := by
  refine Program.asks_bind.mpr (Program.asks_tryCatch.mpr (Program.asks_bind.mpr ?_))
  refine Program.asks_bind.mpr (unsuccessful_await rfl (fun now => ?_) fun e => ?_)
  · rcases remainingClaimSeconds claim now with e | seconds
    · exact unsuccessful_handleFailure _
    · dsimp only
      split_ifs with hle
      · exact unsuccessful_handleFailure _
      · refine unsuccessful_await rfl (fun disposition => ?_) fun e => ?_
        · show Unsuccessful (if disposition = some .deferred then .ret ()
              else succeedSafely claim) _
          split_ifs with hdeferred
          · trivial
          · -- the sink has only deferred
            refine Program.asks_tryCatch.mpr ⟨fun hanswers => ?_, fun x => ?_⟩
            · obtain ⟨h', d, hleads, hd⟩ := hanswers claim seconds disposition (by simp)
              have hsink : Deferring claim (executeHandoff claim) [] := deferring_executeHandoff
              have hdeferring := Program.Asks.of_leads hsink hleads
              rw [hd, show d = .deferred from hdeferring] at hdeferred
              exact absurd rfl hdeferred
            · cases x with
              | ok a => trivial
              | error e => exact unsuccessful_settle e
        · exact unsuccessful_handleFailure _
  · exact unsuccessful_handleFailure _

end Relay

/-- The sink of Taskiq leaves the outcome of a delivery open, whatever the broker accepts: it
prepares its own claim once, sends one message, reports what the broker made of it at most once,
and ends, unless it raises, by deferring. So a task of the relay that executes this sink never
reports that the delivery succeeded. -/
theorem sink_hands_over (claim : ClaimedDelivery) :
    (∀ h p, (executeHandoff claim).Leads h p →
      (∀ before e after, h = before ++ e :: after → SinkKeeps claim before e.question) ∧
      ∀ d, p = .ret d → d = .deferred) ∧
    ∀ h p, (executeClaim claim).Leads h p → AnsweredByTaskiq h →
      ∀ e ∈ h, e.question.isSuccess = false := by
  constructor
  · intro h p hleads
    constructor
    · intro before e after hsplit
      have hruns : (executeHandoff claim).Runs h := by
        have hstop := hleads.runs (.stop p)
        rwa [List.append_nil] at hstop
      exact Program.Asks.of_runs hruns deferring_executeHandoff hsplit
    · rintro d rfl
      have hsink : Deferring claim (executeHandoff claim) [] := deferring_executeHandoff
      exact Program.Asks.of_leads hsink hleads
  · intro h p hleads hanswers e he
    obtain ⟨before, after, hsplit⟩ := List.append_of_mem he
    have hruns : (executeClaim claim).Runs h := by
      have hstop := hleads.runs (.stop p)
      rwa [List.append_nil] at hstop
    refine Program.Asks.of_runs hruns unsuccessful_executeClaim hsplit ?_
    intro c s d hmem
    rw [List.nil_append] at hmem
    refine hanswers c s d ?_
    rw [hsplit]
    exact List.mem_append_left _ hmem

/-! ## The worker -/

section Worker

/-- An event of a worker. -/
abbrev WorkerEvent := Interaction.Event WorkerQuestion WorkerQuestion.Answer RelayError

def WorkerQuestion.isFinalization : WorkerQuestion → Bool
  | .finalizeSuccess _ | .finalizeFailure _ _ => true
  | _ => false

/-- The first thing the worker did was to be admitted to an execution, or not to be. -/
def ClaimedIn (timeout : Timedelta) (envelope : HandoffEnvelope) (h : List WorkerEvent)
    (admitted : Option ExecutingHandoff) : Prop :=
  h.head? = some ⟨.claimExecution envelope timeout, .ok admitted⟩

/-- How the handler of an execution ended, or what raised before it was started. -/
def handlerOutcome (executing : ExecutingHandoff) :
    List WorkerEvent → Option (Except RelayError Unit)
  | _ :: ⟨.now, .error e⟩ :: _ => some (.error e)
  | _ :: ⟨.now, .ok now⟩ :: h =>
      if Timedelta.totalSeconds (executing.executionDeadline - now) ≤ 0 then some (.error .timeout)
      else
        match h with
        | ⟨.execute _ _, x⟩ :: _ => some x
        | _ => none
  | _ => none

/-- The finalization with a failure, or with none. -/
def finalizationWith (executing : ExecutingHandoff) : Option DeliveryError → WorkerQuestion
  | none => .finalizeSuccess executing
  | some error => .finalizeFailure executing error

/-- The finalization that the end of its handler calls for. -/
def workerFinalization (executing : ExecutingHandoff) : Except RelayError Unit →
    Option WorkerQuestion
  | .ok () => some (finalizationWith executing none)
  | .error e =>
      match workerFailure e with
      | .ok error => some (finalizationWith executing (some error))
      | .error _ => none

/-- What a worker may ask after the history `h`. It claims the execution of its own message,
first; it runs the handler of the execution it was admitted to, for the time that is left before
the deadline; and it asks once for the finalization that the end of the handler calls for. -/
def WorkerKeeps (timeout : Timedelta) (envelope : HandoffEnvelope) (h : List WorkerEvent) :
    WorkerQuestion → Prop
  | .claimExecution v t => v = envelope ∧ t = timeout ∧ h = []
  | .execute claim seconds => ∃ executing now,
      h = [⟨.claimExecution envelope timeout, .ok (some executing)⟩, ⟨.now, .ok now⟩] ∧
      claim = executing.claim ∧ 0 < seconds ∧
      seconds = Timedelta.totalSeconds (executing.executionDeadline - now)
  | .finalizeSuccess executing => (∀ e ∈ h, e.question.isFinalization = false) ∧
      ClaimedIn timeout envelope h (some executing) ∧ ∃ outcome,
        handlerOutcome executing h = some outcome ∧
        workerFinalization executing outcome = some (.finalizeSuccess executing)
  | .finalizeFailure executing error => (∀ e ∈ h, e.question.isFinalization = false) ∧
      ClaimedIn timeout envelope h (some executing) ∧ ∃ outcome,
        handlerOutcome executing h = some outcome ∧
        workerFinalization executing outcome = some (.finalizeFailure executing error)
  | _ => True

/-- A worker that returns says whether it was admitted, and has asked for a finalization if so. -/
def WorkerReturns (timeout : Timedelta) (envelope : HandoffEnvelope) (h : List WorkerEvent)
    (result : WorkerResult) : Prop :=
  ∃ admitted, ClaimedIn timeout envelope h admitted ∧ result.executed = admitted.isSome ∧
    (admitted.isSome = true → ∃ e ∈ h, e.question.isFinalization = true)

/-- A worker that was admitted and raises without a finalization, passes on what its handler
raised: a cancellation, or a database error after which nobody knows what was committed. -/
def WorkerRaises (timeout : Timedelta) (envelope : HandoffEnvelope) (h : List WorkerEvent)
    (e : RelayError) : Prop :=
  ∀ executing, ClaimedIn timeout envelope h (some executing) →
    (∃ e' ∈ h, e'.question.isFinalization = true) ∨
      handlerOutcome executing h = some (.error e) ∧
        (e = .cancelled ∨ isTransientDatabaseError e = true)

/-- A part of a worker that keeps to this. -/
abbrev Careful {α : Type} (timeout : Timedelta) (envelope : HandoffEnvelope) (p : Working α)
    (post : List WorkerEvent → α → Prop) (h : List WorkerEvent) : Prop :=
  p.Asks (WorkerKeeps timeout envelope) post (WorkerRaises timeout envelope) h

variable {timeout : Timedelta} {envelope : HandoffEnvelope} {h : List WorkerEvent}
  {admitted : Option ExecutingHandoff}

theorem ClaimedIn.snoc (hclaimed : ClaimedIn timeout envelope h admitted) (h' : List WorkerEvent) :
    ClaimedIn timeout envelope (h ++ h') admitted := by
  cases h with
  | nil => cases hclaimed
  | cons e h => exact hclaimed

theorem ClaimedIn.unique {admitted' : Option ExecutingHandoff}
    (hclaimed : ClaimedIn timeout envelope h admitted)
    (hclaimed' : ClaimedIn timeout envelope h admitted') : admitted = admitted' := by
  have heq := hclaimed.symm.trans hclaimed'
  cases heq
  rfl

/-- What has been settled: nobody was admitted, or a finalization was asked for. -/
def FinalizedIn (h : List WorkerEvent) (admitted : Option ExecutingHandoff) : Prop :=
  admitted.isSome = true → ∃ e ∈ h, e.question.isFinalization = true

theorem FinalizedIn.snoc (hsettled : FinalizedIn h admitted) (h' : List WorkerEvent) :
    FinalizedIn (h ++ h') admitted := by
  intro hsome
  obtain ⟨e, he, hfinal⟩ := hsettled hsome
  exact ⟨e, List.mem_append_left _ he, hfinal⟩

theorem FinalizedIn.raises (hsettled : FinalizedIn h admitted)
    (hclaimed : ClaimedIn timeout envelope h admitted) (e : RelayError) :
    WorkerRaises timeout envelope h e := by
  intro executing hexecuting
  have hsame := hclaimed.unique hexecuting
  exact Or.inl (hsettled (by rw [hsame]; rfl))

/-- The end of a worker. -/
theorem careful_conclude (record : HandoffRecord) (hclaimed : ClaimedIn timeout envelope h admitted)
    (hsettled : FinalizedIn h admitted) :
    Careful timeout envelope (concludeWorker envelope record admitted.isSome)
      (WorkerReturns timeout envelope) h := by
  refine Program.asks_bind.mpr (Program.asks_await trivial (fun now => ?_) fun e => ?_)
  · refine Program.asks_bind.mpr (Program.asks_tryCatch.mpr (Program.asks_await trivial ?_ ?_))
    · intro a
      exact ⟨admitted, (hclaimed.snoc _).snoc _, rfl, (hsettled.snoc _).snoc _⟩
    · intro e
      split_ifs
      · exact ((hsettled.snoc _).snoc _).raises ((hclaimed.snoc _).snoc _) _
      · exact ⟨admitted, (hclaimed.snoc _).snoc _, rfl, (hsettled.snoc _).snoc _⟩
  · exact (hsettled.snoc _).raises (hclaimed.snoc _) e

/-- The stored handoff is looked up. -/
theorem careful_current {missing : String} {post : List WorkerEvent → HandoffRecord → Prop}
    (hclaimed : ClaimedIn timeout envelope h admitted) (hsettled : FinalizedIn h admitted)
    (hpost : ∀ record h', ClaimedIn timeout envelope h' admitted → FinalizedIn h' admitted →
      post h' record) : Careful timeout envelope (currentHandoff envelope missing) post h := by
  refine Program.asks_bind.mpr (Program.asks_await trivial (fun record => ?_) fun e => ?_)
  · cases record with
    | none => exact (hsettled.snoc _).raises (hclaimed.snoc _) _
    | some record => exact hpost record _ (hclaimed.snoc _) (hsettled.snoc _)
  · exact (hsettled.snoc _).raises (hclaimed.snoc _) e

/-- What is raised again by the `except` clauses. -/
theorem workerFailure_eq_error {e e' : RelayError} (he : workerFailure e = .error e') :
    e' = e ∧ (e = .cancelled ∨ isTransientDatabaseError e = true) := by
  cases e with
  | cancelled =>
      cases he
      exact ⟨rfl, Or.inl rfl⟩
  | database d =>
      simp only [workerFailure] at he
      split_ifs at he with htransient
      cases he
      exact ⟨rfl, Or.inr htransient⟩
  | _ => cases he

section Admitted

variable {executing : ExecutingHandoff} {outcome : Except RelayError Unit}

/-- The finalization that is called for, and the end of the worker. -/
theorem careful_finalize {failure : Option DeliveryError}
    (hclaimed : ClaimedIn timeout envelope h (some executing))
    (hnone : ∀ e ∈ h, e.question.isFinalization = false)
    (houtcome : handlerOutcome executing h = some outcome)
    (hcalled : workerFinalization executing outcome = some (finalizationWith executing failure)) :
    Careful timeout envelope ((finalizeExecution envelope executing failure).bind fun record =>
      concludeWorker envelope record true) (WorkerReturns timeout envelope) h := by
  have hconclude : ∀ record h', ClaimedIn timeout envelope h' (some executing) →
      FinalizedIn h' (some executing) →
        Careful timeout envelope (concludeWorker envelope record true)
        (WorkerReturns timeout envelope) h' :=
    fun record h' hclaimed' hsettled' => careful_conclude record hclaimed' hsettled'
  -- once the finalization has been asked for
  have herror : ∀ e h', ClaimedIn timeout envelope h' (some executing) →
      FinalizedIn h' (some executing) → Careful timeout envelope (afterFinalization envelope e)
        (fun h' record => Careful timeout envelope (concludeWorker envelope record true)
          (WorkerReturns timeout envelope) h') h' := by
    intro e h' hclaimed' hsettled'
    cases e with
    | leaseLost id => exact careful_current hclaimed' hsettled' hconclude
    | _ => exact hsettled'.raises hclaimed' _
  apply Program.asks_bind.mpr
  cases failure with
  | none =>
      have hsettled : ∀ x, FinalizedIn (h ++ [⟨.finalizeSuccess executing, x⟩]) (some executing) :=
        fun x _ => ⟨_, List.mem_append_right _ (List.mem_singleton.mpr rfl), rfl⟩
      refine Program.asks_tryCatch.mpr
        (Program.asks_await ⟨hnone, hclaimed, outcome, houtcome, hcalled⟩ ?_ ?_)
      · intro record
        exact hconclude record _ (hclaimed.snoc _) (hsettled _)
      · intro e
        exact herror e _ (hclaimed.snoc _) (hsettled _)
  | some error =>
      have hsettled : ∀ x,
          FinalizedIn (h ++ [⟨.finalizeFailure executing error, x⟩]) (some executing) :=
        fun x _ => ⟨_, List.mem_append_right _ (List.mem_singleton.mpr rfl), rfl⟩
      refine Program.asks_tryCatch.mpr
        (Program.asks_await ⟨hnone, hclaimed, outcome, houtcome, hcalled⟩ ?_ ?_)
      · intro record
        exact hconclude record _ (hclaimed.snoc _) (hsettled _)
      · intro e
        exact herror e _ (hclaimed.snoc _) (hsettled _)

/-- What follows a handler that raised. -/
theorem careful_failed {e : RelayError} (hclaimed : ClaimedIn timeout envelope h (some executing))
    (hnone : ∀ e ∈ h, e.question.isFinalization = false)
    (houtcome : handlerOutcome executing h = some (.error e)) :
    Careful timeout envelope (afterHandler e) (fun h failure => Careful timeout envelope
        ((finalizeExecution envelope executing failure).bind fun record =>
          concludeWorker envelope record true) (WorkerReturns timeout envelope) h) h := by
  unfold afterHandler
  cases hfailure : workerFailure e with
  | ok error =>
      refine careful_finalize hclaimed hnone houtcome ?_
      rw [workerFinalization, hfailure]
  | error e' =>
      obtain ⟨rfl, hraised⟩ := workerFailure_eq_error hfailure
      intro executing' hclaimed'
      cases hclaimed.unique hclaimed'
      exact Or.inr ⟨houtcome, hraised⟩

end Admitted

theorem careful_executeEnvelope : Careful timeout envelope (executeEnvelope timeout envelope)
    (WorkerReturns timeout envelope) [] := by
  refine Program.asks_bind.mpr (Program.asks_await ⟨rfl, rfl, rfl⟩ (fun admitted => ?_) fun e => ?_)
  · cases admitted with
    | none =>
        have hsettled : FinalizedIn [⟨.claimExecution envelope timeout, .ok none⟩] none := by
          intro hsome
          cases hsome
        have hclaimed : ClaimedIn timeout envelope
            [⟨.claimExecution envelope timeout, .ok none⟩] none := rfl
        refine Program.asks_bind.mpr (careful_current hclaimed hsettled ?_)
        intro record h' hclaimed' hsettled'
        exact careful_conclude record hclaimed' hsettled'
    | some executing =>
        have hfailed : ∀ e : RelayError, ∀ h', ClaimedIn timeout envelope h' (some executing) →
            (∀ e ∈ h', e.question.isFinalization = false) →
            handlerOutcome executing h' = some (.error e) → _ :=
          fun e h' hclaimed' hnone' houtcome' => careful_failed hclaimed' hnone' houtcome'
        refine Program.asks_bind.mpr (Program.asks_tryCatch.mpr (Program.asks_bind.mpr ?_))
        refine Program.asks_bind.mpr (Program.asks_await trivial (fun now => ?_) fun e => ?_)
        · dsimp only
          split_ifs with hlate
          · refine hfailed .timeout _ rfl ?_ ?_
            · simp [WorkerQuestion.isFinalization]
            · simp [handlerOutcome, hlate]
          · have houtcome : ∀ x, handlerOutcome executing
                ([] ++ [⟨.claimExecution envelope timeout, .ok (some executing)⟩] ++
                  [⟨.now, .ok now⟩] ++ [⟨.execute executing.claim
                    (Timedelta.totalSeconds (executing.executionDeadline - now)), x⟩]) =
                      some x := by
              intro x
              simp [handlerOutcome, hlate]
            refine Program.asks_await ⟨executing, now, rfl, rfl, not_le.mp hlate, rfl⟩ ?_ ?_
            · intro a
              show Careful timeout envelope ((finalizeExecution envelope executing none).bind fun
                record => concludeWorker envelope record true) (WorkerReturns timeout envelope) _
              refine careful_finalize rfl ?_ (houtcome _) rfl
              simp [WorkerQuestion.isFinalization]
            · intro e
              refine hfailed e _ rfl ?_ (houtcome _)
              simp [WorkerQuestion.isFinalization]
        · refine hfailed e _ rfl ?_ rfl
          simp [WorkerQuestion.isFinalization]
  · intro executing hclaimed
    cases hclaimed

/-- A worker that executes a message is careful with it, whatever the store, the clock and the
handler do, and wherever it is stopped. It claims the execution of the handoff in the message and
no other; it starts the handler of the execution it was admitted to at most once, with what is
left of its deadline as the timeout; it asks for at most one finalization, of that execution, and
for the one that the end of the handler calls for. Once it has ended it has asked for it, unless
the handler was cancelled or left the outcome of its transaction unknown. -/
theorem worker_finalizes_own (timeout : Timedelta) (envelope : HandoffEnvelope)
    {h : List WorkerEvent} {p : Working WorkerResult}
    (hleads : (executeEnvelope timeout envelope).Leads h p) :
    (∀ before e after, h = before ++ e :: after → WorkerKeeps timeout envelope before e.question) ∧
    (∀ result, p = .ret result → WorkerReturns timeout envelope h result) ∧
    ∀ e, p = .raise e → WorkerRaises timeout envelope h e := by
  refine ⟨?_, ?_, ?_⟩
  · intro before e after hsplit
    have hruns : (executeEnvelope timeout envelope).Runs h := by
      have hstop := hleads.runs (.stop p)
      rwa [List.append_nil] at hstop
    exact Program.Asks.of_runs hruns careful_executeEnvelope hsplit
  · rintro result rfl
    exact Program.Asks.of_leads careful_executeEnvelope hleads
  · rintro e rfl
    exact Program.Asks.of_leads careful_executeEnvelope hleads

end Worker

namespace LeasedPair

/-- The handoff of the claim, while a worker executes it. -/
def handoff : HandoffRecord :=
  ⟨1, 6, 2, 5, stableTaskId 5, .executing, 1, 0, 0⟩

def envelope : HandoffEnvelope := ⟨1, 6, 2, 5, stableTaskId 5, 7⟩

def executing : ExecutingHandoff := ⟨handoff, claim, 8, 10000000⟩

/-- A worker that is admitted, runs the handler in time and reports its success. -/
theorem worker_finalizes_own_success : ∃ (h : List WorkerEvent) (result : WorkerResult),
    (∃ e ∈ h, e.question.isFinalization = true) ∧ WorkerReturns 60000000 envelope h result := by
  have hclaimed := Program.Leads.answer (q := WorkerQuestion.claimExecution envelope 60000000)
    (Program.Leads.start (p := executeEnvelope 60000000 envelope)) (.ok (some executing))
  have hnow := Program.Leads.answer (q := WorkerQuestion.now) hclaimed (.ok 0)
  have hremaining : ¬ Timedelta.totalSeconds (executing.executionDeadline - 0) ≤ 0 := by
    decide +kernel
  change Program.Leads _ _ ((((if Timedelta.totalSeconds (executing.executionDeadline - 0) ≤ 0 then
    (.raise .timeout : Working Unit) else (WorkerQuestion.execute claim
      (Timedelta.totalSeconds (executing.executionDeadline - 0))).await).bind fun _ =>
        .ret none).tryCatch afterHandler).bind fun failure =>
          (finalizeExecution envelope executing failure).bind fun record =>
            concludeWorker envelope record true) at hnow
  rw [if_neg hremaining] at hnow
  have hran := Program.Leads.answer (q := WorkerQuestion.execute claim
    (Timedelta.totalSeconds (executing.executionDeadline - 0))) hnow (.ok ())
  have hfinalized := Program.Leads.answer (q := WorkerQuestion.finalizeSuccess executing) hran
    (.ok handoff)
  have htold := Program.Leads.answer (q := WorkerQuestion.now) hfinalized (.ok 0)
  have hended := Program.Leads.answer (q := WorkerQuestion.record
    (handoffEvent .taskiqExecuted envelope 0 handoff.state.value (some true))) htold (.ok ())
  obtain ⟨-, hreturns, -⟩ := worker_finalizes_own 60000000 envelope hended
  exact ⟨_, workerResult handoff true,
    ⟨⟨.finalizeSuccess executing, .ok handoff⟩, by simp, rfl⟩, hreturns _ rfl⟩

end LeasedPair

end FastapiEffects
