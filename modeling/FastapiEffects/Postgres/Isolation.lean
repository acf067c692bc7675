import FastapiEffects.Postgres.Relay

/-! # Sibling isolation

A task of the relay raises only where its surroundings do what the relay does not guard against,
so no task of a cycle cancels another. What one task does follows from the end of its own sink.
-/

namespace FastapiEffects

open Python Interaction

/-! ## The events of a claim -/

/-- A tracing header has no control character in it. -/
theorem not_control_of_validTraceparent {s : Str} (h : validTraceparent s = true) :
    s.length ≤ 256 ∧ s.all (fun c => ¬ (c.ord < 32 ∨ c.ord = 127)) = true := by
  obtain ⟨hlength, hdashes, hversion, htrace, hparent, hflags, -⟩ := of_decide_eq_true h
  have hhex : ∀ {t : Str}, isLowerHex t = true → ∀ c ∈ t, ¬ (c.ord < 32 ∨ c.ord = 127) := by
    intro t ht c hc
    have hin := List.all_eq_true.mp ht c hc
    simp [PyChar.isIn, PyChar.between] at hin
    omega
  refine ⟨by omega, List.all_eq_true.mpr fun c hc => decide_eq_true ?_⟩
  obtain ⟨i, hi, rfl⟩ := List.getElem_of_mem hc
  -- the character is one of a field, or one of the dashes between two fields
  have hdash : ∀ j ∈ [2, 35, 52], s[j]? = some (.scalar '-') := fun j hj =>
    of_decide_eq_true (List.all_eq_true.mp hdashes j hj)
  have hplain : s[i]? = some (.scalar '-') → ¬ (s[i].ord < 32 ∨ s[i].ord = 127) := by
    intro hsome
    rw [List.getElem?_eq_getElem hi] at hsome
    rw [Option.some.inj hsome]
    decide
  have hfield : ∀ {t : Str} {j : ℕ}, isLowerHex t = true → t[j]? = some s[i] →
      ¬ (s[i].ord < 32 ∨ s[i].ord = 127) :=
    fun ht hj => hhex ht _ (List.mem_of_getElem? hj)
  rcases (by omega : i < 2 ∨ i = 2 ∨ (3 ≤ i ∧ i < 35) ∨ i = 35 ∨ (36 ≤ i ∧ i < 52) ∨ i = 52 ∨
    53 ≤ i) with hlt | rfl | ⟨hge, hlt⟩ | rfl | ⟨hge, hlt⟩ | rfl | hge
  · exact hfield (j := i) hversion (by simp [hlt, hi])
  · exact hplain (hdash 2 (by simp))
  · refine hfield (j := i - 3) htrace ?_
    rw [List.getElem?_take, if_pos (by omega), List.getElem?_drop, Nat.add_sub_cancel' hge]
    exact List.getElem?_eq_getElem hi
  · exact hplain (hdash 35 (by simp))
  · refine hfield (j := i - 36) hparent ?_
    rw [List.getElem?_take, if_pos (by omega), List.getElem?_drop, Nat.add_sub_cancel' hge]
    exact List.getElem?_eq_getElem hi
  · exact hplain (hdash 52 (by simp))
  · refine hfield (j := i - 53) hflags ?_
    rw [List.getElem?_drop, Nat.add_sub_cancel' hge]
    exact List.getElem?_eq_getElem hi

/-- The tracing header of a stored event is one its events accept. -/
theorem claim_traceparent (claim : ClaimedDelivery) : claim.event.traceparent.all (fun s =>
    s.length ≤ 256 ∧ s.all fun c => ¬ (c.ord < 32 ∨ c.ord = 127)) = true := by
  have hvalid := claim.event.valid
  unfold EventRecordArgs.postInit at hvalid
  obtain ⟨⟨⟩, hevent, -⟩ := bind_eq_ok.mp hvalid
  simp only [EventArgs.postInit, bind_eq_ok, check_eq_ok] at hevent
  obtain ⟨-, -, -, -, -, htrace, -⟩ := hevent
  rcases htraceparent : claim.event.traceparent with _ | s
  · rfl
  · rw [htraceparent] at htrace
    obtain ⟨hlength, hall⟩ := not_control_of_validTraceparent htrace
    simp only [Option.all_some]
    exact decide_eq_true ⟨hlength, hall⟩

/-- The destination kind of a detached delivery is short. -/
theorem claim_destinationKind (claim : ClaimedDelivery) :
    claim.delivery.destinationKind.length ≤ 256 := by
  have hvalid := claim.delivery.valid
  simp only [DeliveryRecordArgs.postInit, bind_eq_ok, check_eq_ok] at hvalid
  obtain ⟨-, -, -, hkind, -⟩ := hvalid
  exact (Str.forall_of_fullmatch (p := fun _ => True) (fun _ _ => trivial) (fun _ _ => trivial)
    hkind).1.trans (by decide)

/-- An event about a claim with allowed attributes is one `RuntimeEvent` accepts. -/
theorem postInit_claimEvent (kind : RuntimeEventKind) (now : Datetime) (claim : ClaimedDelivery)
    {attributes : List (Str × Str)} (hcount : attributes.length ≤ 32)
    (hallowed : ∀ a ∈ attributes, a.1 ∈ allowedAttributes)
    (hsize : ∀ a ∈ attributes, a.2.length ≤ 256) :
    (claimEvent kind now claim attributes).postInit = .ok () := by
  refine bind_eq_ok.mpr ⟨(), check_eq_ok.mpr (claim_traceparent claim), bind_eq_ok.mpr ⟨(),
    check_eq_ok.mpr (decide_eq_true hcount), bind_eq_ok.mpr ⟨(), check_eq_ok.mpr ?_,
      check_eq_ok.mpr ?_⟩⟩⟩
  · exact List.all_eq_true.mpr fun a ha => decide_eq_true (hallowed a ha)
  · exact List.all_eq_true.mpr fun a ha => decide_eq_true (hsize a ha)

/-! ## What a task asks -/

/-- An event of a task. -/
abbrev RelayEvent := Interaction.Event RelayQuestion RelayQuestion.Answer RelayError

def RelayQuestion.isExecution : RelayQuestion → Bool
  | .execute _ _ => true
  | _ => false

def RelayQuestion.isFinalization : RelayQuestion → Bool
  | .succeed _ | .fail _ _ => true
  | _ => false

/-- The exceptions of a finalization that leave the attempt to a later reconciliation. -/
def LeftToReconcile (e : RelayError) : Prop :=
  (∃ id, e = .leaseLost id) ∨ e = .timeout ∨ isTransientDatabaseConnectionError e = true

/-- The ends of awaits a cycle is guarded against: a clock that tells the time; a sink without a
configuration error, without a database error that is not transient and without a cancellation of
its own; a finalization that ends, loses its lease, times out or finds no database. -/
def Foreseen : (q : RelayQuestion) → Except RelayError q.Answer → Prop
  | .now, x => ∃ now, x = .ok now
  | .execute _ _, x => ∀ e, x = .error e → e ≠ .cancelled ∧ (∀ m, e ≠ .configuration m) ∧
      ∀ d, e = .database d → isTransientDatabaseError e = true
  | .succeed _, x | .fail _ _, x => ∀ e, x = .error e → LeftToReconcile e
  | .record _, x => x ≠ .error .cancelled

/-- The error a failed execution is finalized with. -/
def classified : RelayError → DeliveryError
  | .delivery error => error
  | .authorizationDenied | .authorizationExpired => authorizationDeniedError
  | .timeout => executionTimeout
  | _ => executionFailed

/-- The finalization that the end of its sink calls for. -/
def finalization (claim : ClaimedDelivery) :
    Except RelayError (Option SinkDisposition) → Option RelayQuestion
  | .ok disposition => if disposition = some .deferred then none else some (.succeed claim)
  | .error e => if isTransientDatabaseError e then none else some (.fail claim (classified e))

/-- How the sink of a claim ended, or what raised before it was started. -/
def sinkOutcome (claim : ClaimedDelivery) :
    List RelayEvent → Option (Except RelayError (Option SinkDisposition))
  | ⟨.now, .ok now⟩ :: h =>
      match remainingClaimSeconds claim now with
      | .error e => some (.error (.ofPy e))
      | .ok timeoutSeconds =>
          if timeoutSeconds ≤ 0 then some (.error .timeout)
          else
            match h with
            | ⟨.execute _ _, x⟩ :: _ => some x
            | _ => none
  | ⟨.now, .error e⟩ :: _ => some (.error e)
  | _ => none

/-- More events do not change how the sink ended. -/
theorem sinkOutcome_append {claim : ClaimedDelivery} {h h' : List RelayEvent}
    {o : Except RelayError (Option SinkDisposition)} (ho : sinkOutcome claim h = some o) :
    sinkOutcome claim (h ++ h') = some o := by
  unfold sinkOutcome at ho
  split at ho
  · rename_i now h
    simp only [List.cons_append, sinkOutcome]
    rcases hseconds : remainingClaimSeconds claim now with e | seconds
    · simpa only [hseconds] using ho
    · simp only [hseconds] at ho ⊢
      by_cases hle : seconds ≤ 0
      · rw [if_pos hle] at ho ⊢
        exact ho
      · rw [if_neg hle] at ho ⊢
        rcases h with _ | ⟨⟨q, x⟩, h⟩
        · cases ho
        · rcases q with _ | _ | _ | _ | _ <;> exact ho
  · exact ho
  · cases ho

/-- A task starts its own sink, once, and asks once for the finalization its end calls for. -/
def AsksOwn (claim : ClaimedDelivery) (h : List RelayEvent) (q : RelayQuestion) : Prop :=
  h.length < 5 ∧
    (q.isExecution = true → (∃ s, q = .execute claim s) ∧
      ∀ e ∈ h, e.question.isExecution = false) ∧
    (q.isFinalization = true → (∀ e ∈ h, e.question.isFinalization = false) ∧
      ∃ o, sinkOutcome claim h = some o ∧ finalization claim o = some q)

/-- A task that returns has asked for a finalization exactly if one is called for. -/
def EndsOwn (claim : ClaimedDelivery) (h : List RelayEvent) : Prop :=
  ∃ o, sinkOutcome claim h = some o ∧
    ((∃ e ∈ h, e.question.isFinalization = true) ↔ ∃ q, finalization claim o = some q)

/-- A task after the history `h`: it raises only where an answer was not one it is guarded
against. -/
abbrev Proper (claim : ClaimedDelivery) (p : Relaying Unit) (h : List RelayEvent) : Prop :=
  p.Asks (AsksOwn claim) (fun h _ => EndsOwn claim h)
    (fun h _ => ¬ Program.Allowed Foreseen h) h

section Proper

variable {claim : ClaimedDelivery} {h : List RelayEvent}

theorem not_allowed_snoc {q : RelayQuestion} {x : Except RelayError q.Answer}
    (hx : ¬ Foreseen q x) : ¬ Program.Allowed Foreseen (h ++ [⟨q, x⟩]) := by
  intro hallowed
  exact hx (hallowed ⟨q, x⟩ (List.mem_append_right _ (List.mem_singleton.mpr rfl)))

theorem EndsOwn.snoc (hends : EndsOwn claim h) {q : RelayQuestion} (hq : q.isFinalization = false)
    (x : Except RelayError q.Answer) : EndsOwn claim (h ++ [⟨q, x⟩]) := by
  obtain ⟨o, ho, hiff⟩ := hends
  refine ⟨o, sinkOutcome_append ho, ?_⟩
  rw [← hiff]
  constructor
  · rintro ⟨e, he, hfinal⟩
    rcases List.mem_append.mp he with he | he
    · exact ⟨e, he, hfinal⟩
    · rw [List.mem_singleton.mp he, hq] at hfinal
      cases hfinal
  · rintro ⟨e, he, hfinal⟩
    exact ⟨e, List.mem_append_left _ he, hfinal⟩

theorem proper_recordEvent {event : RuntimeEvent} (hevent : event.postInit = .ok ())
    (hlength : h.length < 5) (hends : EndsOwn claim h) : Proper claim (recordEvent event) h := by
  unfold recordEvent recordSafely
  rw [hevent]
  refine Program.asks_tryCatch.mpr (Program.asks_await ?_ (fun a => ?_) fun e => ?_)
  · refine ⟨hlength, fun hq => ?_, fun hq => ?_⟩
    · cases hq
    · cases hq
  · exact hends.snoc rfl _
  · split_ifs with he
    · refine not_allowed_snoc fun hx => hx ?_
      rw [he]
    · exact hends.snoc rfl _

/-- An event is recorded at the time of the clock. -/
theorem proper_record {event : Datetime → RuntimeEvent}
    (hevent : ∀ now, (event now).postInit = .ok ()) (hlength : h.length < 4)
    (hends : EndsOwn claim h) :
    Proper claim (RelayQuestion.now.await.bind fun now => recordEvent (event now)) h := by
  refine Program.asks_bind.mpr (Program.asks_await ?_ (fun now => ?_) fun e => ?_)
  · refine ⟨by omega, fun hq => ?_, fun hq => ?_⟩
    · cases hq
    · cases hq
  · refine proper_recordEvent (hevent now) ?_ (hends.snoc rfl _)
    rw [List.length_append, List.length_singleton]
    omega
  · refine not_allowed_snoc fun hx => ?_
    obtain ⟨now, hnow⟩ := hx
    cases hnow

theorem proper_recordControlFailure {code : Str} (hcode : code.length ≤ 256)
    (hlength : h.length < 4) (hends : EndsOwn claim h) :
    Proper claim (recordControlFailure code claim) h := by
  refine proper_record (fun now => postInit_claimEvent _ _ _ (by simp) ?_ ?_) hlength hends
  · intro a ha
    rcases List.mem_pair.mp ha with rfl | rfl
    · exact (by decide : ("failure.code" : Str) ∈ allowedAttributes)
    · exact (by decide : ("destination.kind" : Str) ∈ allowedAttributes)
  · intro a ha
    rcases List.mem_pair.mp ha with rfl | rfl
    · exact hcode
    · exact claim_destinationKind claim

theorem proper_recordLeaseLost (hlength : h.length < 4) (hends : EndsOwn claim h) :
    Proper claim (recordLeaseLost claim) h := by
  refine proper_record (fun now => postInit_claimEvent _ _ _ (by simp) ?_ ?_) hlength hends
  · intro a ha
    rw [List.mem_singleton.mp ha]
    exact (by decide : ("destination.kind" : Str) ∈ allowedAttributes)
  · intro a ha
    rw [List.mem_singleton.mp ha]
    exact claim_destinationKind claim

/-- The clauses after a finalization that failed. -/
theorem proper_settle {e : RelayError} (hlength : h.length < 4) (hends : EndsOwn claim h)
    (he : LeftToReconcile e ∨ ¬ Program.Allowed Foreseen h) :
    Proper claim (settle claim e) h := by
  have hother : (∀ id, e ≠ .leaseLost id) → e ≠ .timeout →
      Proper claim (if isTransientDatabaseConnectionError e then
        recordControlFailure "database.transient" claim else .raise e) h := by
    intro hnotLost hnotTimeout
    split_ifs with htransient
    · exact proper_recordControlFailure (by decide +kernel) hlength hends
    · rcases he with (⟨id, hlost⟩ | htimeout | hyes) | hnot
      · exact absurd hlost (hnotLost id)
      · exact absurd htimeout hnotTimeout
      · exact absurd hyes htransient
      · exact hnot
  cases e with
  | leaseLost id => exact proper_recordLeaseLost hlength hends
  | timeout => exact proper_recordControlFailure (by decide +kernel) hlength hends
  | _ => exact hother (by simp) (by simp)

/-- A finalization that is called for, and the clauses after it. -/
theorem proper_finalize {q : RelayQuestion} {o : Except RelayError (Option SinkDisposition)}
    {k : Except RelayError q.Answer → Relaying Unit} (hok : ∀ a, k (.ok a) = .ret ())
    (herror : ∀ e, k (.error e) = settle claim e) (hq : q.isFinalization = true)
    (hlength : h.length < 3) (hnone : ∀ e ∈ h, e.question.isFinalization = false)
    (ho : sinkOutcome claim h = some o) (hcalled : finalization claim o = some q) :
    Proper claim (.ask q k) h := by
  have hends : ∀ x, EndsOwn claim (h ++ [⟨q, x⟩]) := fun x =>
    ⟨o, sinkOutcome_append ho, fun _ => ⟨q, hcalled⟩, fun _ =>
      ⟨⟨q, x⟩, List.mem_append_right _ (List.mem_singleton.mpr rfl), hq⟩⟩
  refine ⟨⟨by omega, fun hexecution => ?_, fun _ => ⟨hnone, o, ho, hcalled⟩⟩, fun x => ?_⟩
  · rcases q with _ | _ | _ | _ | _
    · cases hexecution
    · cases hq
    · cases hexecution
    · cases hexecution
    · cases hexecution
  · rcases x with e | a
    · rw [herror]
      refine proper_settle ?_ (hends _) ?_
      · rw [List.length_append, List.length_singleton]
        omega
      by_cases hx : Foreseen q (.error e)
      · left
        rcases q with _ | _ | _ | _ | _
        · cases hq
        · cases hq
        · exact hx e rfl
        · exact hx e rfl
        · cases hq
      · exact Or.inr (not_allowed_snoc hx)
    · rw [hok]
      exact hends _

theorem proper_failSafely {o : Except RelayError (Option SinkDisposition)} {error : DeliveryError}
    (hlength : h.length < 3) (hnone : ∀ e ∈ h, e.question.isFinalization = false)
    (ho : sinkOutcome claim h = some o)
    (hcalled : finalization claim o = some (.fail claim error)) :
    Proper claim (failSafely claim error) h :=
  proper_finalize (fun _ => rfl) (fun _ => rfl) rfl hlength hnone ho hcalled

theorem proper_succeedSafely {o : Except RelayError (Option SinkDisposition)}
    (hlength : h.length < 3) (hnone : ∀ e ∈ h, e.question.isFinalization = false)
    (ho : sinkOutcome claim h = some o) (hcalled : finalization claim o = some (.succeed claim)) :
    Proper claim (succeedSafely claim) h :=
  proper_finalize (fun _ => rfl) (fun _ => rfl) rfl hlength hnone ho hcalled

/-- The `except` clauses of `execute_claim`. -/
theorem proper_handleFailure {e : RelayError} (hlength : h.length < 3)
    (hnone : ∀ e ∈ h, e.question.isFinalization = false)
    (ho : sinkOutcome claim h = some (.error e))
    (he : (e ≠ .cancelled ∧ (∀ m, e ≠ .configuration m) ∧
      ∀ d, e = .database d → isTransientDatabaseError e = true) ∨
        ¬ Program.Allowed Foreseen h) : Proper claim (handleFailure claim e) h := by
  cases e with
  | cancelled =>
      rcases he with ⟨hne, -⟩ | hnot
      · exact absurd rfl hne
      · exact hnot
  | delivery error => exact proper_failSafely hlength hnone ho rfl
  | authorizationDenied => exact proper_failSafely hlength hnone ho rfl
  | authorizationExpired => exact proper_failSafely hlength hnone ho rfl
  | timeout => exact proper_failSafely hlength hnone ho rfl
  | configuration m =>
      rcases he with ⟨-, hne, -⟩ | hnot
      · exact absurd rfl (hne m)
      · exact hnot
  | leaseLost id => exact proper_failSafely hlength hnone ho rfl
  | os error => exact proper_failSafely hlength hnone ho rfl
  | other => exact proper_failSafely hlength hnone ho rfl
  | database d =>
      show Proper claim (if isTransientDatabaseError (.database d) then
        recordControlFailure "database.transient" claim else .raise (.database d)) h
      split_ifs with htransient
      · -- the attempt is left to a reconciliation
        refine proper_recordControlFailure (by decide +kernel) (by omega) ⟨_, ho, ?_⟩
        have hcalled : finalization claim (.error (.database d)) = none := if_pos htransient
        rw [hcalled]
        constructor
        · rintro ⟨e, hmem, hfinal⟩
          rw [hnone e hmem] at hfinal
          cases hfinal
        · rintro ⟨q, hq⟩
          cases hq
      · rcases he with ⟨-, -, hdatabase⟩ | hnot
        · exact absurd (hdatabase d rfl) htransient
        · exact hnot

/-- A task of the relay whose claim has a valid deadline. -/
theorem proper_executeClaim
    (hclaim : ∀ now m, remainingClaimSeconds claim now ≠ .error (.configuration m)) :
    Proper claim (executeClaim claim) [] := by
  -- what follows the `try`, from the history at its end
  have hfailed : ∀ {h e}, h.length < 3 → (∀ e ∈ h, e.question.isFinalization = false) →
      sinkOutcome claim h = some (.error e) →
      ((e ≠ .cancelled ∧ (∀ m, e ≠ .configuration m) ∧
        ∀ d, e = .database d → isTransientDatabaseError e = true) ∨
          ¬ Program.Allowed Foreseen h) → Proper claim (handleFailure claim e) h :=
    fun hlength hnone ho he => proper_handleFailure hlength hnone ho he
  have hpy : ∀ {e : PyError}, (∀ m, e ≠ .configuration m) → RelayError.ofPy e = .other := by
    intro e he
    cases e with
    | configuration m => exact absurd rfl (he m)
    | _ => rfl
  refine Program.asks_bind.mpr (Program.asks_tryCatch.mpr (Program.asks_bind.mpr ?_))
  refine Program.asks_bind.mpr (Program.asks_await ?_ (fun now => ?_) fun e => ?_)
  · refine ⟨by decide, fun hq => ?_, fun hq => ?_⟩
    · cases hq
    · cases hq
  · -- the clock has told the time
    rcases hseconds : remainingClaimSeconds claim now with e | seconds
    · have hother : RelayError.ofPy e = .other := hpy fun m hm => hclaim now m (by rw [hseconds, hm])
      refine hfailed (by simp) (by simp [RelayQuestion.isFinalization]) ?_
        (Or.inl (by simp [hother]))
      simp [sinkOutcome, hseconds]
    · dsimp only
      split_ifs with hle
      · refine hfailed (by simp) (by simp [RelayQuestion.isFinalization]) ?_ (Or.inl (by simp))
        simp [sinkOutcome, hseconds, hle]
      · have hends : ∀ x, sinkOutcome claim ([] ++ [⟨.now, .ok now⟩] ++
            [⟨.execute claim seconds, x⟩]) = some x := by
          intro x
          simp [sinkOutcome, hseconds, hle]
        have hnone : ∀ x, ∀ e ∈ ([] ++ [⟨.now, .ok now⟩] ++
            [⟨.execute claim seconds, x⟩] : List RelayEvent), e.question.isFinalization = false := by
          intro x e he
          simp only [List.nil_append, List.cons_append, List.mem_cons, List.not_mem_nil,
            or_false] at he
          rcases he with rfl | rfl <;> rfl
        refine Program.asks_await ?_ (fun disposition => ?_) fun e => ?_
        · refine ⟨by simp, fun _ => ⟨⟨seconds, rfl⟩, ?_⟩, fun hq => ?_⟩
          · simp [RelayQuestion.isExecution]
          · cases hq
        · -- the sink has completed or deferred
          show Proper claim (if disposition = some .deferred then .ret () else succeedSafely claim) _
          split_ifs with hdeferred
          · refine ⟨_, hends _, ?_⟩
            simp [finalization, hdeferred, RelayQuestion.isFinalization]
          · exact proper_succeedSafely (by simp) (hnone _) (hends _) (by simp [finalization, hdeferred])
        · -- it has raised
          refine hfailed (by simp) (hnone _) (hends _) ?_
          by_cases hx : Foreseen (.execute claim seconds) (.error e)
          · exact Or.inl (hx e rfl)
          · exact Or.inr (not_allowed_snoc hx)
  · -- no time is told
    have hnot : ¬ Foreseen .now (.error e) := by
      rintro ⟨now, hnow⟩
      cases hnow
    exact hfailed (by simp) (by simp [RelayQuestion.isFinalization]) rfl (Or.inr (not_allowed_snoc hnot))

end Proper

/-! ## Cycles -/

/-- What a task of a cycle does by itself: its sink is started at most once, its attempt is
finalized at most once, as the end of its sink calls for, and a task that ends has left its
attempt alone exactly if the sink deferred it or met a transient database error. -/
structure Relayed (claim : ClaimedDelivery) (t : Task RelayQuestion RelayQuestion.Answer RelayError) :
    Prop where
  executed : t.history.countP (·.question.isExecution) ≤ 1
  own : ∀ e ∈ t.history, e.question.isExecution = true → ∃ s, e.question = .execute claim s
  finalized : t.history.countP (·.question.isFinalization) ≤ 1
  called : ∀ e ∈ t.history, e.question.isFinalization = true →
    ∃ o, sinkOutcome claim t.history = some o ∧ finalization claim o = some e.question
  ended : t.Ended → t.rest = .ret () ∧ ∃ o, sinkOutcome claim t.history = some o ∧
    (t.history.countP (·.question.isFinalization) = 0 ↔
      o = .ok (some .deferred) ∨ ∃ e, o = .error e ∧ isTransientDatabaseError e = true)
  short : t.history.length ≤ 5

/-- The attempt is left alone for these ends of the sink. -/
theorem finalization_eq_none {claim : ClaimedDelivery}
    {o : Except RelayError (Option SinkDisposition)} : finalization claim o = none ↔
      o = .ok (some .deferred) ∨ ∃ e, o = .error e ∧ isTransientDatabaseError e = true := by
  rcases o with e | disposition
  · simp [finalization]
  · simp [finalization]

/-- Events that come after none of their kind are at most one. -/
theorem countP_le_one {α : Type} {p : α → Bool} {l : List α}
    (h : ∀ before e after, l = before ++ e :: after → p e = true → ∀ e' ∈ before, p e' = false) :
    l.countP p ≤ 1 := by
  induction l using List.reverseRecOn with
  | nil => simp
  | append_singleton l e ih =>
      have hl : l.countP p ≤ 1 := ih fun before e' after hsplit =>
        h before e' (after ++ [e]) (by rw [hsplit]; simp)
      rw [List.countP_append]
      rcases hp : p e with _ | _
      · simpa [hp] using hl
      · have hzero : l.countP p = 0 := List.countP_eq_zero.mpr fun e' he' => by
          simp [h l e [] rfl hp e' he']
        simp [hzero, hp]

section Cycle

variable {claim : ClaimedDelivery}

theorem safe_executeClaim
    (hclaim : ∀ now m, remainingClaimSeconds claim now ≠ .error (.configuration m)) :
    Group.Safe Foreseen (executeClaim claim) :=
  Program.Asks.mono (fun _ _ _ => trivial) (fun _ _ h => h)
    (Program.Asks.mono_ask (fun _ _ _ => trivial) (proper_executeClaim hclaim))

/-- A task that is alone does what the end of its sink calls for. -/
theorem relayed_of_alone {t : Task RelayQuestion RelayQuestion.Answer RelayError}
    (hclaim : ∀ now m, remainingClaimSeconds claim now ≠ .error (.configuration m))
    (halone : t.Alone Foreseen (executeClaim claim)) : Relayed claim t := by
  have hproper := proper_executeClaim hclaim
  have hruns : (executeClaim claim).Runs t.history := by
    have := halone.leads.runs (.stop t.rest)
    rwa [List.append_nil] at this
  have hasks : ∀ {before e after}, t.history = before ++ e :: after →
      AsksOwn claim before e.question := by
    intro before e after hsplit
    exact Program.Asks.of_runs hruns hproper hsplit
  refine ⟨countP_le_one fun before e after hsplit hp => ((hasks hsplit).2.1 hp).2, ?_,
    countP_le_one fun before e after hsplit hp => ((hasks hsplit).2.2 hp).1, ?_, ?_, ?_⟩
  · intro e he hexecution
    obtain ⟨before, after, hsplit⟩ := List.append_of_mem he
    exact ((hasks hsplit).2.1 hexecution).1
  · intro e he hfinal
    obtain ⟨before, after, hsplit⟩ := List.append_of_mem he
    obtain ⟨o, ho, hcalled⟩ := ((hasks hsplit).2.2 hfinal).2
    exact ⟨o, by rw [hsplit]; exact sinkOutcome_append ho, hcalled⟩
  · intro hended
    have hret : t.rest = .ret () := by
      rcases hended with hret | ⟨e, hraise⟩
      · exact hret
      · exact absurd hraise ((safe_executeClaim hclaim).rest_ne_raise halone e)
    have hends := Program.Asks.of_leads hproper halone.leads
    rw [hret] at hends
    obtain ⟨o, ho, hiff⟩ := hends
    refine ⟨hret, o, ho, ?_⟩
    have hnever : finalization claim o = none ↔ _ := finalization_eq_none
    rw [← hnever, List.countP_eq_zero, Option.eq_none_iff_forall_ne_some]
    constructor
    · intro hnone q hq
      obtain ⟨e, he, hfinal⟩ := hiff.mpr ⟨q, hq⟩
      exact hnone e he hfinal
    · intro hnone e he hfinal
      obtain ⟨q, hq⟩ := hiff.mp ⟨e, he, hfinal⟩
      exact hnone q hq
  · rcases List.eq_nil_or_concat t.history with hnil | ⟨before, e, hconcat⟩
    · rw [hnil]
      decide
    · have hlength := (hasks (hconcat.trans (List.concat_eq_append ..))).1
      rw [hconcat, List.length_concat]
      omega

/-- A deadline can only overflow. -/
theorem attemptDeadline_eq_error {policy : RetryPolicy} {created started expiry : Datetime}
    {e : PyError} (h : attemptDeadline policy created started expiry = .error e) : e = .overflow := by
  have hraise : ∀ {α : Type} {o : Option α}, orRaise o PyError.overflow = .error e →
      e = .overflow := by
    intro α o ho
    cases o with
    | none => exact (Except.error.inj ho).symm
    | some a => cases ho
  unfold attemptDeadline deliveryDeadline at h
  rcases bind_eq_error.mp h with hdeadline | ⟨_, -, h⟩
  · rcases bind_eq_error.mp hdeadline with helapsed | ⟨_, -, hadd⟩
    · exact hraise helapsed
    · exact hraise hadd
  rcases bind_eq_error.mp h with htimeout | ⟨_, -, h⟩
  · exact hraise htimeout
  rcases bind_eq_error.mp h with hadd | ⟨_, -, h⟩
  · exact hraise hadd
  · cases h

/-- A claim with the policy and the lease that the lease repository gives it has a deadline. -/
theorem remainingClaimSeconds_ne_configuration {policy : RetryPolicy} {expiry : Datetime}
    (hpolicy : snapshotPolicy claim.routeSnapshot = .ok policy)
    (hexpiry : claim.delivery.leaseExpiresAt = some expiry) (now : Datetime) (m : String) :
    remainingClaimSeconds claim now ≠ .error (.configuration m) := by
  intro herror
  have hremaining : remainingClaimSeconds claim now = remainingAttemptSeconds policy
      claim.delivery.createdAt claim.attempt.startedAt expiry now none := by
    unfold snapshotPolicy at hpolicy
    split at hpolicy
    · rename_i members hretry
      simp only [remainingClaimSeconds, hretry, hexpiry, orRaise, bind, Except.bind, hpolicy]
    · cases hpolicy
  rw [hremaining, remainingAttemptSeconds] at herror
  rcases bind_eq_error.mp herror with hdeadline | ⟨_, -, hreturn⟩
  · cases attemptDeadline_eq_error hdeadline
  · cases hreturn

theorem relayed_of_forall₂ {claims : List ClaimedDelivery} {g : RelayGroup}
    (hclaims : ∀ claim ∈ claims, ∀ now m,
      remainingClaimSeconds claim now ≠ .error (.configuration m))
    (h : List.Forall₂ (fun claim t => t.Alone Foreseen (executeClaim claim)) claims g) :
    List.Forall₂ Relayed claims g := by
  induction h with
  | nil => exact .nil
  | @cons claim t claims g halone _ ih =>
      exact .cons (relayed_of_alone (hclaims claim List.mem_cons_self) halone)
        (ih fun c hc => hclaims c (List.mem_cons_of_mem _ hc))

/-- The claims of a cycle are executed and finalized each as if it were alone: the group comes
to all combinations of what its tasks come to alone and to no others, each of them does what the
end of its own sink calls for and goes on until it has ended, and once all have, the cycle
returns. -/
theorem relay_sibling_isolation (claims : List ClaimedDelivery)
    (hclaims : ∀ claim ∈ claims, ∀ now m,
      remainingClaimSeconds claim now ≠ .error (.configuration m)) (g : RelayGroup) :
    (Group.Reaches .cancelled Foreseen (claims.map executeClaim) g ↔
      List.Forall₂ (fun claim t => t.Alone Foreseen (executeClaim claim)) claims g) ∧
    (Group.Reaches .cancelled Foreseen (claims.map executeClaim) g →
      List.Forall₂ Relayed claims g ∧
      (∀ t ∈ g, ¬ t.Ended → ∃ q, ∀ x, Foreseen q x → ∃ before after t', g = before ++ t :: after ∧
        t'.history = t.history ++ [⟨q, x⟩] ∧
        Group.Step .cancelled Foreseen g (before ++ t' :: after)) ∧
      ((∀ t ∈ g, t.Ended) → g.Ends (.ok ())) ∧
      ∀ x, g.Ends x → runOnce.Leads [⟨.stopped, .ok false⟩, ⟨.reconcile, .ok ()⟩,
        ⟨.stopped, .ok false⟩, ⟨.claim, .ok claims⟩, ⟨.group claims, x⟩] (.ret claims.length)) := by
  have hsafe : ∀ p ∈ claims.map executeClaim, Group.Safe Foreseen p := by
    intro p hp
    obtain ⟨claim, hclaim, rfl⟩ := List.mem_map.mp hp
    exact safe_executeClaim (hclaims claim hclaim)
  have halone : Group.Reaches .cancelled Foreseen (claims.map executeClaim) g ↔
      List.Forall₂ (fun claim t => t.Alone Foreseen (executeClaim claim)) claims g := by
    rw [Group.isolated hsafe, List.forall₂_map_left_iff]
  refine ⟨halone, fun hreach => ⟨?_, ?_, ?_, fun x hx => ?_⟩⟩
  · exact relayed_of_forall₂ hclaims (halone.mp hreach)
  · exact fun t ht hended => Group.exists_step hsafe hreach ht hended
  · exact fun hended => .returns (Group.returns_of_ended hsafe hreach hended)
  · have hquiet : ¬ Group.Aborting .cancelled g :=
      Group.not_aborting hsafe ((Group.isolated hsafe).mp hreach)
    cases hx with
    | raises errors hended habort => exact absurd habort hquiet
    | returns hreturns =>
        have hstart := Program.Leads.answer (q := CycleQuestion.stopped)
          (Program.Leads.start (p := runOnce)) (.ok false)
        have hreconciled := Program.Leads.answer (q := CycleQuestion.reconcile) hstart (.ok ())
        have hgoing := Program.Leads.answer (q := CycleQuestion.stopped) hreconciled (.ok false)
        have hclaimed := Program.Leads.answer (q := CycleQuestion.claim) hgoing (.ok claims)
        exact Program.Leads.answer (q := CycleQuestion.group claims) hclaimed (.ok ())

end Cycle

namespace LeasedPair

def event : EventRecord :=
  ⟨{ eventId := 1, tenantId := 1, eventType := "order", eventVersion := 1, canonicalVersion := 1,
     payloadCanonical := canonicalPrefix ++ [123, 125]
     payloadSha256 := List.replicate 32 0
     principal := ⟨1, "s", [], none, none, 0, none, none, none⟩
     occurredAt := 0, createdAt := 0, correlationId := none, causationId := none
     traceparent := none, tracestate := none, dedupeNamespace := none, dedupeKey := none },
    by decide +kernel⟩

def delivery : DeliveryRecord :=
  ⟨{ deliveryId := 2, tenantId := 1, eventId := 1, routeKey := "r", routeVersion := 1
     destinationKind := "handler", destinationKey := "k", routeSnapshot := [123, 125]
     state := .leased, attemptsStarted := 1, createdAt := 0, updatedAt := 0, nextAttemptAt := 0
     leaseToken := some 3, leaseExpiresAt := some 60000000, replayOf := none, replayActor := none
     replayReason := none }, by decide +kernel⟩

def attempt : AttemptRecord :=
  ⟨{ attemptId := 5, tenantId := 1, deliveryId := 2, attemptNumber := 1, leaseToken := 3
     outcome := .started, startedAt := 0, finishedAt := none, failureCode := none
     failureSummary := none }, by decide +kernel⟩

def claim : ClaimedDelivery where
  event := event
  delivery := delivery
  attempt := attempt
  routeSnapshot := .obj [("retry", .obj [
    ("name", .str "p"), ("version", .int 1), ("max_attempts", .int 3),
    ("maximum_elapsed_seconds", .int 60), ("base_delay_seconds", .int 1),
    ("maximum_delay_seconds", .int 10), ("handler_timeout_seconds", .int 2),
    ("lease_duration_seconds", .int 30), ("jitter", .str "full")])]

theorem snapshotPolicy_claim : ∃ policy, snapshotPolicy claim.routeSnapshot = .ok policy := by
  have hok : (snapshotPolicy claim.routeSnapshot).isOk = true := by decide +kernel
  rcases hpolicy : snapshotPolicy claim.routeSnapshot with e | policy
  · rw [hpolicy] at hok
    cases hok
  · exact ⟨policy, rfl⟩

/-- Two tasks that have just been created. -/
theorem relay_sibling_isolation_created : List.Forall₂ Relayed [claim, claim]
    (([claim, claim].map executeClaim).map Task.create) := by
  obtain ⟨policy, hpolicy⟩ := snapshotPolicy_claim
  refine ((relay_sibling_isolation [claim, claim] (fun c hc now m => ?_) _).2 .refl).1
  have hclaim : c = claim := by simpa using hc
  rw [hclaim]
  exact remainingClaimSeconds_ne_configuration hpolicy rfl now m

end LeasedPair

end FastapiEffects
