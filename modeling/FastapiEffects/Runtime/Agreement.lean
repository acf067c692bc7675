import FastapiEffects.Runtime.Fencing
import FastapiEffects.Runtime.Executions

/-! # Agreement of handoffs and attempts

A handoff and the attempt behind it are two records of one outcome. As long as the relay reports
on no claim that it handed to the broker (`SeparatePaths`), a handoff has succeeded if and only if
its attempt has, whatever the broker does with the message in between.
-/

namespace FastapiEffects

open Python ReadCommitted

section Agreement

variable [Platform]

/-- The relay reports the success of no claim that it hands over. -/
def SeparatePaths (log : History) : Prop :=
  ∀ e ∈ log, ∀ e' ∈ log, committed e → committed e' →
    ∀ c now c' now', e.op = .succeed c now → e'.op = .prepare c' now' →
      ¬ (c.attempt.tenantId = c'.attempt.tenantId ∧ c.attempt.attemptId = c'.attempt.attemptId)

/-- What the committed state knows of handoffs and of the attempts behind them. -/
structure Agreed (s : RuntimeStore) : Prop where
  prepared : ∀ t i h, handoffAt s.db t i = some h → ∃ e ∈ s.log, committed e ∧ ∃ c now,
    e.op = .prepare c now ∧ c.attempt.tenantId = t ∧ c.attempt.attemptId = h.attemptId
  parent : ∀ t i h, handoffAt s.db t i = some h →
    ∃ a, attemptAt s.db t h.attemptId = some a ∧ a.deliveryId = h.deliveryId
  runs : ∀ e ∈ s.log, ∀ ex, executionOf e = some ex →
    ∃ h, handoffAt s.db ex.record.tenantId ex.record.handoffId = some h ∧
      ex.claim.attempt.tenantId = ex.record.tenantId ∧ h.attemptId = ex.claim.attempt.attemptId
  completes : ∀ e ∈ s.log, ∀ ex, e.op.completes = some ex → admitted s.log ex = true
  wins : ∀ t i a, attemptAt s.db t i = some a → a.outcome = .succeeded →
    ∃ e ∈ s.log, committed e ∧ e.op.wins t i
  settles : ∀ t i h, handoffAt s.db t i = some h → h.state = .succeeded →
    ∃ e ∈ s.log, committed e ∧ e.op.settles t i
  settled : ∀ e ∈ s.log, committed e → ∀ ex now, e.op = .finalizeSuccess ex now →
    (∃ h, handoffAt s.db ex.record.tenantId ex.record.handoffId = some h ∧ h.state = .succeeded) ∧
      ∃ a, attemptAt s.db ex.claim.attempt.tenantId ex.claim.attempt.attemptId = some a ∧
        a.outcome = .succeeded

omit [Platform] in
/-- The attempt of a handoff is part of its identity. -/
theorem HandoffRow.parent_of_identity {h h' : HandoffRow} (hid : h'.identity = h.identity) :
    h'.attemptId = h.attemptId ∧ h'.deliveryId = h.deliveryId := by
  have hattempt : h'.identity.attemptId = h.identity.attemptId := by rw [hid]
  have hdelivery : h'.identity.deliveryId = h.identity.deliveryId := by rw [hid]
  exact ⟨hattempt, hdelivery⟩

omit [Platform] in
/-- An attempt has one handoff at most. -/
theorem handoff_unique {db : Db} (hunique : db.Unclashed) {t i i' : UUID} {h h' : HandoffRow}
    (hh : handoffAt db t i = some h) (hh' : handoffAt db t i' = some h')
    (hattempt : h.attemptId = h'.attemptId) (hdelivery : h.deliveryId = h'.deliveryId) :
    i = i' ∧ h = h' := by
  have hget := handoffAt_eq_some.mp hh
  have hget' := handoffAt_eq_some.mp hh'
  obtain ⟨ht, hi⟩ := handoffAt_key hh
  obtain ⟨ht', hi'⟩ := handoffAt_key hh'
  have hclash : Schema.clash (Row.handoff h) (Row.handoff h') = true := by
    simp [Schema.clash, Row.clash, ht, ht', hattempt, hdelivery]
  have hkey := hunique _ (Table.mem_of_get hget) _ (Table.mem_of_get hget') hclash
  simp only [Schema.key, Row.key, Key.handoff.injEq] at hkey
  have hsame : i = i' := hi.symm.trans (hkey.2.trans hi')
  subst hsame
  rw [hh] at hh'
  exact ⟨rfl, Option.some.inj hh'⟩

section Moves

omit [Platform]

variable {m : Moves} {hm : HandoffMoves} {τ : Datetime}

/-- An attempt that has ended did so before, or the move ends its lease. -/
theorem Cell.Step.ended {c c' : Cell} (hstep : Cell.Step m τ c c') {i : UUID} {a' : AttemptRow}
    (ha' : c'.attempts i = some a') (hended : a'.outcome ≠ .started) :
    c.attempts i = some a' ∨ ∃ r a state outcome code summary, c.delivery = some r ∧
      c.attempts i = some a ∧ a.attemptId = i ∧ Closes m.wins τ r a state outcome ∧
      a' = finishedAttempt a outcome τ code summary := by
  cases hstep with
  | same => exact Or.inl ha'
  | create r as hnone hr hnew => exact Or.inl ha'
  | expire r as hfence hstate htime => exact Or.inl ha'
  | lease r as id token expiry hfence htime hid hfresh htoken =>
      rcases Live.update_eq_some.mp ha' with ⟨-, rfl⟩ | ⟨-, hold⟩
      · simp [startedAttempt] at hended
      · exact Or.inl hold
  | close r as a state outcome next code summary ha hcloses =>
      rcases Live.update_eq_some.mp ha' with ⟨rfl, rfl⟩ | ⟨-, hold⟩
      · exact Or.inr ⟨r, a, state, outcome, code, summary, rfl, ha, rfl, hcloses, rfl⟩
      · exact Or.inl hold

/-- An attempt that has succeeded did so before, or is won by the move. -/
theorem Cell.Step.succeeded {c c' : Cell} (hstep : Cell.Step m τ c c') {i : UUID} {a : AttemptRow}
    (ha : c'.attempts i = some a) (hsucceeded : a.outcome = .succeeded) :
    c.attempts i = some a ∨ m.wins i := by
  rcases hstep.ended ha (by simp [hsucceeded]) with hold | ⟨r, b, state, outcome, code, summary, -,
    -, hid, hcloses, rfl⟩
  · exact Or.inl hold
  · exact Or.inr (hid ▸ (hcloses.inTime hsucceeded).1)

/-- A handoff that has succeeded did so before, or is won by the move. -/
theorem HandoffStep.succeeded {o : Option HandoffRow} {h' : HandoffRow}
    (hstep : HandoffStep hm τ o (some h')) (hsucceeded : h'.state = .succeeded) :
    (∃ h, o = some h ∧ h.state = .succeeded) ∨ hm.wins := by
  cases hstep with
  | same => exact Or.inl ⟨h', rfl, hsucceeded⟩
  | prepare h hstate hstarted htoken hdeadline hnew =>
      rw [hstate] at hsucceeded
      cases hsucceeded
  | acknowledge h state hstate =>
      rcases hstate with ⟨-, rfl⟩ | ⟨-, rfl⟩
      · cases hsucceeded
      · exact Or.inl ⟨h, rfl, hsucceeded⟩
  | execute h token deadline hadmits htime hruns => cases hsucceeded
  | settle h state code summary hopen hend hwins => exact Or.inr (hwins hsucceeded)

/-- A handoff that was not there is one the move may create. -/
theorem HandoffStep.creates {h' : HandoffRow} (hstep : HandoffStep hm τ none (some h')) :
    hm.new h' ∧ h'.state = .prepared := by
  cases hstep with
  | prepare h hstate hstarted htoken hdeadline hnew => exact ⟨hnew, hstate⟩

end Moves

section Commits

variable {m : Mode} {s : RuntimeStore} {e : Entry Key Row PyError Op Outcome} {db' : Db}

/-- A stored attempt stays, as part of its delivery. -/
theorem Commits.attempt (hc : Commits m s e db') {t i : UUID} {a : AttemptRow}
    (ha : attemptAt s.db t i = some a) :
    ∃ a', attemptAt db' t i = some a' ∧ a'.deliveryId = a.deliveryId := by
  obtain ⟨τ, -, -, hstep⟩ := hc.cells t a.deliveryId
  obtain ⟨a', ha', -, -⟩ := hstep.attempt (cellAt_attempts.mpr ⟨ha, rfl⟩)
  exact ⟨a', cellAt_attempts.mp ha'⟩

/-- What changes the tables was committed. -/
theorem Commits.committed_of_ne (hc : Commits m s e db') (hne : db' ≠ s.db) : committed e := by
  cases hresult : e.result with
  | ok a => exact ⟨a, hresult⟩
  | error x => exact absurd (hc.failed x hresult) hne

/-- An attempt that has succeeded did so before, or is won by the commit. -/
theorem Commits.attempt_succeeded (hc : Commits m s e db') {t i : UUID} {a : AttemptRow}
    (ha : attemptAt db' t i = some a) (hsucceeded : a.outcome = .succeeded) :
    attemptAt s.db t i = some a ∨ (committed e ∧ e.op.wins t i) := by
  by_cases hdb : db' = s.db
  · rw [hdb] at ha
    exact Or.inl ha
  · obtain ⟨τ, -, -, hstep⟩ := hc.cells t a.deliveryId
    have hcell := cellAt_attempts.mpr ⟨ha, rfl⟩
    rcases hstep.succeeded hcell hsucceeded with hold | hwins
    · exact Or.inl (cellAt_attempts.mp hold).1
    · exact Or.inr ⟨hc.committed_of_ne hdb, hwins⟩

/-- A handoff that has succeeded did so before, or is settled by the commit. -/
theorem Commits.handoff_succeeded (hc : Commits m s e db') {t i : UUID} {h' : HandoffRow}
    (hh' : handoffAt db' t i = some h') (hsucceeded : h'.state = .succeeded) :
    (∃ h, handoffAt s.db t i = some h ∧ h.state = .succeeded) ∨
      (committed e ∧ e.op.settles t i) := by
  by_cases hdb : db' = s.db
  · rw [hdb] at hh'
    exact Or.inl ⟨h', hh', hsucceeded⟩
  · obtain ⟨τ, -, hstep⟩ := hc.handoffs t i
    rw [hh'] at hstep
    rcases hstep.succeeded hsucceeded with hold | hwins
    · exact Or.inl hold
    · exact Or.inr ⟨hc.committed_of_ne hdb, hwins⟩

/-- A handoff that was not there was prepared by the commit, for the attempt of its claim. -/
theorem Commits.handoff_prepared (hc : Commits m s e db') (hinv : RuntimeInv m s) {t i : UUID}
    {h' : HandoffRow} (hnone : handoffAt s.db t i = none) (hh' : handoffAt db' t i = some h') :
    committed e ∧ h'.state = .prepared ∧ ∃ c now, e.op = .prepare c now ∧
      c.attempt.tenantId = t ∧ c.attempt.attemptId = h'.attemptId ∧
      ∃ a, attemptAt s.db t h'.attemptId = some a ∧ a.deliveryId = h'.deliveryId := by
  have hne : db' ≠ s.db := by
    intro hdb
    rw [hdb, hnone] at hh'
    cases hh'
  obtain ⟨τ, -, hstep⟩ := hc.handoffs t i
  rw [hnone, hh'] at hstep
  obtain ⟨hnew, hstate⟩ := hstep.creates
  have hallowed := hc.allowed
  change e.op.prepares h' at hnew
  cases hop : e.op with
  | prepare c now =>
      rw [hop] at hnew hallowed
      obtain ⟨htenant, hdelivery, hattempt, -⟩ := hnew
      have hhanded : Handed (c.cell s.db) c := hinv.handed hallowed
      obtain ⟨r, a, -, ha, -⟩ := hhanded.rows
      obtain ⟨hat, hd⟩ := cellAt_attempts.mp ha
      have ht : h'.tenantId = t := (handoffAt_key hh').1
      refine ⟨hc.committed_of_ne hne, hstate, c, now, rfl, ?_, hattempt.symm, a, ?_, ?_⟩
      · rw [hhanded.tenant, ← htenant, ht]
      · rw [hattempt, ← ht, htenant]
        exact hat
      · rw [hd, hdelivery]
  | _ =>
      rw [hop] at hnew
      exact hnew.elim

/-- The records of one outcome stay in step through a commit. -/
theorem Commits.agreed (hc : Commits m s e db') (hinv : RuntimeInv m s) (h : Agreed s) :
    Agreed ⟨db', s.now, s.log ++ [e]⟩ where
  prepared := by
    intro t i row' hrow'
    cases hrow : handoffAt s.db t i with
    | none =>
        obtain ⟨hcommitted, -, c, now, hop, ht, hattempt, -⟩ := hc.handoff_prepared hinv hrow hrow'
        exact ⟨e, by simp, hcommitted, c, now, hop, ht, hattempt⟩
    | some row =>
        obtain ⟨e₀, he₀, hcommitted, c, now, hop, ht, hattempt⟩ := h.prepared t i row hrow
        obtain ⟨row'', hrow'', hid⟩ := hc.handoff hrow
        rw [show handoffAt db' t i = some row' from hrow'] at hrow''
        cases hrow''
        refine ⟨e₀, List.mem_append_left _ he₀, hcommitted, c, now, hop, ht, ?_⟩
        rw [hattempt, (HandoffRow.parent_of_identity hid).1]
  parent := by
    intro t i row' hrow'
    have hparent : ∃ a, attemptAt s.db t row'.attemptId = some a ∧
        a.deliveryId = row'.deliveryId := by
      cases hrow : handoffAt s.db t i with
      | none =>
          obtain ⟨-, -, c, now, -, -, -, hat⟩ := hc.handoff_prepared hinv hrow hrow'
          exact hat
      | some row =>
          obtain ⟨row'', hrow'', hid⟩ := hc.handoff hrow
          rw [show handoffAt db' t i = some row' from hrow'] at hrow''
          cases hrow''
          obtain ⟨hattempt, hdelivery⟩ := HandoffRow.parent_of_identity hid
          rw [hattempt, hdelivery]
          exact h.parent t i row hrow
    obtain ⟨a, ha, hd⟩ := hparent
    obtain ⟨a', ha', hd'⟩ := hc.attempt ha
    exact ⟨a', ha', hd'.trans hd⟩
  runs := by
    intro e₀ he₀ ex hex
    rcases List.mem_append.mp he₀ with he₀ | he₀
    · obtain ⟨row, hrow, htenant, hattempt⟩ := h.runs e₀ he₀ ex hex
      obtain ⟨row', hrow', hid⟩ := hc.handoff hrow
      exact ⟨row', hrow', htenant, (HandoffRow.parent_of_identity hid).1.trans hattempt⟩
    · rw [List.mem_singleton.mp he₀] at hex
      obtain ⟨hadmits, -⟩ := hc.reports.executions ex hex
      obtain ⟨row', hrow', -, -, -, htenant, -, hattempt, -⟩ := hadmits.handoff
      refine ⟨row', hrow', ?_, hattempt⟩
      rw [hadmits.claim.tenant, ← htenant, (handoffAt_key hrow').1]
  completes := by
    intro e₀ he₀ ex hex
    rcases List.mem_append.mp he₀ with he₀ | he₀
    · obtain ⟨e', he', hex'⟩ := admitted_iff.mp (h.completes e₀ he₀ ex hex)
      exact admitted_iff.mpr ⟨e', List.mem_append_left _ he', hex'⟩
    · rw [List.mem_singleton.mp he₀] at hex
      obtain ⟨e', he', hex'⟩ := admitted_iff.mp (hc.admitted hex)
      exact admitted_iff.mpr ⟨e', List.mem_append_left _ he', hex'⟩
  wins := by
    intro t i a ha hsucceeded
    rcases hc.attempt_succeeded ha hsucceeded with hold | ⟨hcommitted, hwins⟩
    · obtain ⟨e₀, he₀, hcommitted, hwins⟩ := h.wins t i a hold hsucceeded
      exact ⟨e₀, List.mem_append_left _ he₀, hcommitted, hwins⟩
    · exact ⟨e, by simp, hcommitted, hwins⟩
  settles := by
    intro t i row' hrow' hsucceeded
    rcases hc.handoff_succeeded hrow' hsucceeded with ⟨row, hrow, hold⟩ | ⟨hcommitted, hsettles⟩
    · obtain ⟨e₀, he₀, hcommitted, hsettles⟩ := h.settles t i row hrow hold
      exact ⟨e₀, List.mem_append_left _ he₀, hcommitted, hsettles⟩
    · exact ⟨e, by simp, hcommitted, hsettles⟩
  settled := by
    intro e₀ he₀ hcommitted ex now hop
    rcases List.mem_append.mp he₀ with he₀ | he₀
    · obtain ⟨⟨row, hrow, hstate⟩, a, ha, houtcome⟩ := h.settled e₀ he₀ hcommitted ex now hop
      have hclosed : row.isOpen = false := by simp [HandoffRow.isOpen, hstate]
      obtain ⟨row', hrow', -, hsame, -⟩ := hc.closed hrow hclosed
      refine ⟨⟨row', hrow', hsame.trans hstate⟩, a, ?_, houtcome⟩
      exact hc.ended_stays ha (by simp [houtcome])
    · rw [List.mem_singleton.mp he₀] at hcommitted hop
      have hcompletes : e.op.completes = some ex := by rw [hop]; rfl
      have hfinalizes : e.op.finalizes = some ex.claim := by rw [hop]; rfl
      obtain ⟨-, row', -, -, -, hrow', -, hwon⟩ := hc.reports.completed ex hcompletes hcommitted
      obtain ⟨-, a', -, -, ha', -, hwon'⟩ := hc.reports.finalized ex.claim hfinalizes hcommitted
      have hsettles : e.op.settles ex.record.tenantId ex.record.handoffId := by
        rw [hop]
        exact ⟨rfl, rfl⟩
      have hwins : e.op.wins ex.claim.attempt.tenantId ex.claim.attempt.attemptId := by
        rw [hop]
        exact ⟨rfl, rfl⟩
      refine ⟨⟨row', hrow', hwon hsettles⟩, a', ?_, hwon' hwins⟩
      rw [(hinv.handed_finalized hc.allowed hfinalizes).tenant]
      exact (cellAt_attempts.mp ha').1

end Commits

section Runs

variable {m : Mode} {now : Datetime} {w w' : RuntimeWorld}

theorem agreed_start (now : Datetime) : Agreed (RuntimeWorld.start now).store := by
  constructor <;> simp [RuntimeWorld.start, handoffAt, attemptAt]

theorem agreed_reachable (hreach : Reachable m.protocol (RuntimeWorld.start now) w) :
    Agreed w.store :=
  Mode.reachable_induction (agreed_start now)
    (fun _ _ _ h => ⟨h.prepared, h.parent, h.runs, h.completes, h.wins, h.settles, h.settled⟩)
    (fun _ _ _ hinv _ hc h => hc.agreed hinv h) hreach

/-- An attempt is won by the relay or by a worker. -/
theorem Op.wins_cases {op : Op} {t i : UUID} (h : op.wins t i) :
    (∃ c now, op = .succeed c now ∧ c.attempt.tenantId = t ∧ c.attempt.attemptId = i) ∨
      ∃ ex now, op = .finalizeSuccess ex now ∧ ex.claim.attempt.tenantId = t ∧
        ex.claim.attempt.attemptId = i := by
  cases op with
  | succeed c now => exact Or.inl ⟨c, now, rfl, h⟩
  | finalizeSuccess ex now => exact Or.inr ⟨ex, now, rfl, h⟩
  | _ => exact h.elim

theorem Op.settles_eq {op : Op} {t i : UUID} (h : op.settles t i) :
    ∃ ex now, op = .finalizeSuccess ex now ∧ ex.record.tenantId = t ∧ ex.record.handoffId = i := by
  cases op with
  | finalizeSuccess ex now => exact ⟨ex, now, rfl, h⟩
  | _ => exact h.elim

namespace Agreed

variable {s : RuntimeStore} {t i : UUID} {h : HandoffRow} {a : AttemptRow}

/-- The attempt of a handoff that has succeeded, has succeeded. -/
theorem attempt_succeeded (hagreed : Agreed s) (hh : handoffAt s.db t i = some h)
    (hstate : h.state = .succeeded) (ha : attemptAt s.db t h.attemptId = some a) :
    a.outcome = .succeeded := by
  obtain ⟨e, he, hcommitted, hsettles⟩ := hagreed.settles t i h hh hstate
  obtain ⟨ex, now, hop, rfl, rfl⟩ := Op.settles_eq hsettles
  obtain ⟨-, a', ha', houtcome⟩ := hagreed.settled e he hcommitted ex now hop
  obtain ⟨e', he', hex⟩ := admitted_iff.mp (hagreed.completes e he ex (by rw [hop]; rfl))
  obtain ⟨h', hh', htenant, hattempt⟩ := hagreed.runs e' he' ex hex
  rw [hh] at hh'
  cases hh'
  rw [htenant, ← hattempt, ha] at ha'
  cases ha'
  exact houtcome

/-- The success of an attempt that was handed over is that of a worker. -/
theorem won_by_execution (hagreed : Agreed s) (hunique : s.db.Unclashed)
    (hseparate : SeparatePaths s.log) (hh : handoffAt s.db t i = some h)
    (ha : attemptAt s.db t h.attemptId = some a) (houtcome : a.outcome = .succeeded) :
    ∃ e ∈ s.log, committed e ∧ ∃ ex now, e.op = .finalizeSuccess ex now ∧
      ex.record.tenantId = t ∧ ex.record.handoffId = i := by
  obtain ⟨e, he, hcommitted, hwins⟩ := hagreed.wins t _ a ha houtcome
  rcases Op.wins_cases hwins with ⟨c, now, hop, ht, hattempt⟩ | ⟨ex, now, hop, ht, hattempt⟩
  · -- the relay does not report on what it handed over
    obtain ⟨e', he', hcommitted', c', now', hop', ht', hattempt'⟩ := hagreed.prepared t i h hh
    exact absurd ⟨ht.trans ht'.symm, hattempt.trans hattempt'.symm⟩
      (hseparate e he e' he' hcommitted hcommitted' c now c' now' hop hop')
  · refine ⟨e, he, hcommitted, ex, now, hop, ?_⟩
    obtain ⟨e', he', hex⟩ := admitted_iff.mp (hagreed.completes e he ex (by rw [hop]; rfl))
    obtain ⟨h', hh', htenant, hattempt''⟩ := hagreed.runs e' he' ex hex
    rw [← htenant, ht] at hh'
    have hsame : h'.attemptId = h.attemptId := hattempt''.trans hattempt
    -- both belong to the delivery of the attempt
    obtain ⟨b, hb, hd⟩ := hagreed.parent t i h hh
    obtain ⟨b', hb', hd'⟩ := hagreed.parent t _ h' hh'
    rw [hsame, hb] at hb'
    cases hb'
    obtain ⟨hi, -⟩ := handoff_unique hunique hh' hh hsame (hd'.symm.trans hd)
    exact ⟨htenant.symm.trans ht, hi⟩

end Agreed

/-- As long as the relay reports on no claim it handed over, a handoff and the attempt behind it
record one outcome: the one has succeeded if and only if the other has, and only the committed
report of a worker makes them succeed, whatever the broker accepts, repeats, delays or loses. A
handoff that ended otherwise never has an attempt that succeeds. Where claims meet no change
since their snapshot, the delivery has succeeded as well. -/
theorem handoffs_agree (hreach : Reachable m.protocol (RuntimeWorld.start now) w)
    (hseparate : SeparatePaths w.store.log) {t i : UUID} {h : HandoffRow}
    (hh : handoffAt w.store.db t i = some h) :
    ∃ a r, attemptAt w.store.db t h.attemptId = some a ∧
      deliveryAt w.store.db t h.deliveryId = some r ∧ a.deliveryId = h.deliveryId ∧
      (h.state = .succeeded ↔ a.outcome = .succeeded) ∧
      (a.outcome = .succeeded → ∃ e ∈ w.store.log, committed e ∧ ∃ ex now,
        e.op = .finalizeSuccess ex now ∧ ex.record.tenantId = t ∧ ex.record.handoffId = i) ∧
      (m.fenced → h.state = .succeeded → r.state = .succeeded) ∧
      (h.isOpen = false → h.state ≠ .succeeded → ∀ w', Reachable m.protocol w w' →
        SeparatePaths w'.store.log → ∀ a', attemptAt w'.store.db t h.attemptId = some a' →
          a'.outcome ≠ .succeeded) := by
  have hagreed := agreed_reachable hreach
  obtain ⟨a, ha, hd⟩ := hagreed.parent t i h hh
  have hlive := RuntimeInv.cells (m := m) (Mode.worldInv hreach).inv t h.deliveryId
  have hcell : (cellAt w.store.db t h.deliveryId).attempts h.attemptId = some a :=
    cellAt_attempts.mpr ⟨ha, hd⟩
  have hwon := hagreed.won_by_execution (Mode.unclashed hreach) hseparate hh ha
  cases hr : deliveryAt w.store.db t h.deliveryId with
  | none =>
      -- an attempt belongs to a stored delivery
      rw [Cell.Inv, show (cellAt w.store.db t h.deliveryId).delivery = none from hr] at hlive
      rw [hlive] at hcell
      cases hcell
  | some r =>
      have hagree : h.state = .succeeded ↔ a.outcome = .succeeded := by
        constructor
        · intro hstate
          exact hagreed.attempt_succeeded hh hstate ha
        · intro houtcome
          obtain ⟨e, he, hcommitted, ex, now, hop, rfl, rfl⟩ := hwon houtcome
          obtain ⟨⟨h', hh', hstate⟩, -⟩ := hagreed.settled e he hcommitted ex now hop
          rw [hh] at hh'
          cases hh'
          exact hstate
      refine ⟨a, r, ha, rfl, hd, hagree, hwon, ?_, ?_⟩
      · intro hfenced hstate
        exact ((Mode.live hreach hr).success hfenced _ a hcell (hagree.mp hstate)).1
      · intro hclosed hne w' hrun hseparate' a' ha' houtcome
        have hreach' := hreach.trans hrun
        have hagreed' := agreed_reachable hreach'
        obtain ⟨⟨h', hh', -, hsame, hid⟩, -⟩ := ended_untouched hreach hrun hh hclosed
        have hattempt := (HandoffRow.parent_of_identity hid).1
        rw [← hattempt] at ha'
        obtain ⟨e, he, hcommitted, ex, now, hop, rfl, rfl⟩ :=
          hagreed'.won_by_execution (Mode.unclashed hreach') hseparate' hh' ha' houtcome
        obtain ⟨⟨h'', hh'', hstate⟩, -⟩ := hagreed'.settled e he hcommitted ex now hop
        rw [hh'] at hh''
        cases hh''
        exact hne (hsame.symm.trans hstate)

end Runs

/-- A history without a report of the relay. -/
theorem separatePaths_of_silent {log : History} (h : ∀ e ∈ log, e.op.reportsOn = none) :
    SeparatePaths log := by
  intro e he e' _ _ _ c now c' now' hop _
  have hnone := h e he
  simp [hop, Op.reportsOn] at hnone

end Agreement

open Scenario in
/-- The delivery whose message was delivered twice. -/
theorem handoffs_agree_redelivered : ∃ (w : RuntimeWorld) (h : HandoffRow) (a : AttemptRow)
    (r : DeliveryRow), handoffAt w.store.db 1 400 = some h ∧ h.state = .succeeded ∧
      attemptAt w.store.db 1 h.attemptId = some a ∧ a.outcome = .succeeded ∧
      deliveryAt w.store.db 1 h.deliveryId = some r ∧ r.state = .succeeded := by
  have hrun : ((RuntimeWorld.start 0).run (runtime.withGuard claimGuard) (leasing ++ [.step 1])).any
      (fun w => (claimOf w.store.log).any fun c =>
        (w.run (runtime.withGuard claimGuard) (handing c)).any fun w =>
          (envelopeOf w.store.log).any fun envelope =>
            (w.run (runtime.withGuard claimGuard) (executing envelope 3 500)).any fun w =>
              (w.store.log.filterMap executionOf)[0]?.any fun ex =>
                (w.run (runtime.withGuard claimGuard)
                  ([.start (.finalizeSuccess ex 0)] ++ List.replicate 8 (.step 4))).any fun w =>
                    (handoffAt w.store.db 1 400).any fun h => h.state = .succeeded ∧
                      (w.store.log.all fun e => e.op.reportsOn.isNone) = true) = true := by
    decide +kernel
  simp only [Option.any_eq_true, decide_eq_true_eq, List.all_eq_true, Option.isNone_iff_eq_none]
    at hrun
  obtain ⟨w₁, hw₁, c, -, w₂, hw₂, envelope, -, w₃, hw₃, ex, -, w, hw, h, hh,
    hstate, hsilent⟩ := hrun
  have hreach : Reachable Mode.guarded.protocol (RuntimeWorld.start 0) w := by
    rw [Mode.guarded_protocol]
    exact (((World.run_reachable hw₁).trans (World.run_reachable hw₂)).trans
      (World.run_reachable hw₃)).trans (World.run_reachable hw)
  obtain ⟨a, r, ha, hr, -, hagree, -, hdelivery, -⟩ :=
    handoffs_agree hreach (separatePaths_of_silent hsilent) hh
  exact ⟨w, h, a, r, hh, hstate, ha, hagree.mp hstate, hr, hdelivery trivial hstate⟩

end FastapiEffects
