import FastapiEffects.Webhooks.Prune

/-! # What retention keeps and removes

Every batch removes only what is terminal, old and no longer referred to, so references
keep resolving (`BatchSafe`). Repeated until one removes nothing, the batches remove every
attempt of a terminal delivery, and every such delivery without a replay, exactly when no
such delivery has an attempt that never ended (`webhook_retention`).
-/

namespace FastapiEffects

open Python ReadCommitted

/-! ## One batch -/

/-- What a batch removes, statement by statement. -/
structure BatchSafe (tenantId : UUID) (cutoff : Datetime) (s s' : HistoryStore) : Prop where
  history : ∃ db₁ db₂, AttemptsPruned tenantId cutoff s.db db₁ ∧
    DeliveriesPruned tenantId cutoff db₁ db₂ ∧ EventsPruned tenantId cutoff db₂ s'.db
  secrets : ∀ row ∈ s.secrets.rows, row ∉ s'.secrets.rows →
    ∃ r, row = .version r ∧ r.prunable tenantId cutoff = true

section Batch

variable {s s' : HistoryStore} {context : Str} {tenantId : UUID} {cutoff : Datetime} {batch : ℤ}
  {locks : BatchLocks} {result : RetentionResult}

/-- What a batch that returns has done. -/
theorem pruneHistory_eq_ok
    (h : s.pruneHistory context tenantId cutoff batch locks = .ok (result, s')) :
    1 ≤ batch ∧ ∃ attempts deliveries events,
      attempts = s.agedAttempts tenantId cutoff batch locks ∧
      deliveries = HistoryStore.agedDeliveries (deleteAttempts s.db attempts) tenantId cutoff batch
        locks ∧
      events = HistoryStore.agedEvents (deleteDeliveries (deleteAttempts s.db attempts) deliveries)
        tenantId cutoff batch locks ∧
      s'.db = deleteEvents (deleteDeliveries (deleteAttempts s.db attempts) deliveries) events ∧
      result.attempts = attempts.length ∧ result.deliveries = deliveries.length ∧
      result.events = events.length ∧
      pruneWebhookHistory context tenantId cutoff batch locks.secret s.secrets =
        .ok (result.secretVersions, s'.secrets) := by
  simp only [HistoryStore.pruneHistory, bind_eq_ok, check_eq_ok, decide_eq_true_eq] at h
  obtain ⟨-, -, -, hbatch, ⟨secretVersions, secrets⟩, hsecrets, hresult⟩ := h
  cases hresult
  exact ⟨hbatch.1, _, _, _, rfl, rfl, rfl, rfl, rfl, rfl, rfl, hsecrets⟩

/-- The secret versions a batch removes. -/
theorem pruneWebhookHistory_eq_ok {locked : SecretVersionRow → Bool} {db db' : SecretStore} {n : ℕ}
    (h : pruneWebhookHistory context tenantId cutoff batch locked db = .ok (n, db')) :
    ∃ removed : List SecretVersionRow, n = removed.length ∧
      (∀ r ∈ removed, r ∈ prunableVersions tenantId cutoff db) ∧
      db' = db.eraseAll (removed.map fun r => (SecretRow.version r).key) := by
  simp only [pruneWebhookHistory, bind_eq_ok] at h
  obtain ⟨-, -, -, -, hresult⟩ := h
  cases hresult
  refine ⟨_, rfl, fun r hr => mem_of_mem_limitSkipLocked hr, ?_⟩
  rw [Table.eraseAll, List.foldl_map]

theorem batchSafe (h : s.pruneHistory context tenantId cutoff batch locks = .ok (result, s')) :
    BatchSafe tenantId cutoff s s' := by
  obtain ⟨-, attempts, deliveries, events, hattempts, hdeliveries, hevents, hdb, -, -, -, hsecrets⟩ :=
    pruneHistory_eq_ok h
  constructor
  · refine ⟨_, _, attemptsPruned fun a ha => ?_, deliveriesPruned fun d hd => ?_,
      hdb ▸ eventsPruned fun e he => ?_⟩
    · rw [hattempts] at ha
      exact mem_of_mem_limitSkipLocked ha
    · rw [hdeliveries] at hd
      exact mem_of_mem_limitSkipLocked hd
    · rw [hevents] at he
      exact mem_of_mem_limitSkipLocked he
  · intro row hrow hgone
    obtain ⟨removed, -, hprunable, hs'⟩ := pruneWebhookHistory_eq_ok hsecrets
    rw [hs', Table.mem_eraseAll, not_and, not_not] at hgone
    obtain ⟨r, hr, hkey⟩ := List.mem_map.mp (hgone hrow)
    have hmem := mem_prunableVersions.mp (hprunable r hr)
    exact ⟨r, (Table.eq_of_key_eq hmem.1 hrow hkey).symm, hmem.2⟩

theorem BatchSafe.kept (h : BatchSafe tenantId cutoff s s') :
    ∀ row ∈ s'.db.rows, row ∈ s.db.rows := by
  obtain ⟨db₁, db₂, h₁, h₂, h₃⟩ := h.history
  exact fun row hrow => h₁.kept _ (h₂.kept _ (h₃.kept _ hrow))

theorem BatchSafe.resolves (h : BatchSafe tenantId cutoff s s') (hs : Resolves s.db) :
    Resolves s'.db := by
  obtain ⟨db₁, db₂, h₁, h₂, h₃⟩ := h.history
  exact h₃.resolves (h₂.resolves (h₁.resolves hs))

/-- An attempt that never ended stays. -/
theorem BatchSafe.unfinished (h : BatchSafe tenantId cutoff s s') {a : AttemptRow}
    (ha : Row.attempt a ∈ s.db.rows) (hnone : a.finishedAt = none) :
    Row.attempt a ∈ s'.db.rows := by
  obtain ⟨db₁, db₂, h₁, h₂, h₃⟩ := h.history
  refine h₃.stays (h₂.stays ?_ rfl rfl) rfl
  by_contra hgone
  rcases h₁.removed _ ha hgone with ⟨b, d, heq, -, -, -, f, hf, -⟩ | ⟨g, b, heq, -⟩
  · cases heq
    rw [hnone] at hf
    cases hf
  · cases heq

end Batch

section Run

variable {tenantId : UUID} {cutoff : Datetime} {s₀ s : HistoryStore}

theorem Retained.kept (h : Retained tenantId cutoff s₀ s) : ∀ row ∈ s.db.rows, row ∈ s₀.db.rows := by
  induction h with
  | refl => exact fun row hrow => hrow
  | batch h hok ih => exact fun row hrow => ih row ((batchSafe hok).kept row hrow)

theorem Retained.resolves (h : Retained tenantId cutoff s₀ s) (hs : Resolves s₀.db) :
    Resolves s.db := by
  induction h with
  | refl => exact hs
  | batch h hok ih => exact (batchSafe hok).resolves ih

theorem Retained.unfinished (h : Retained tenantId cutoff s₀ s) {a : AttemptRow}
    (ha : Row.attempt a ∈ s₀.db.rows) (hnone : a.finishedAt = none) : Row.attempt a ∈ s.db.rows := by
  induction h with
  | refl => exact ha
  | batch h hok ih => exact (batchSafe hok).unfinished ih hnone

end Run

/-! ## Batches come to an end -/

section Ends

variable {tenantId : UUID} {cutoff : Datetime}

/-- How many rows a batch could remove at most. -/
def HistoryStore.size (s : HistoryStore) : ℕ := s.db.rows.length + s.secrets.rows.length

theorem length_deleteAttempts (db : Db) (attempts : List AttemptRow)
    (h : ∀ a ∈ attempts, Row.attempt a ∈ db.rows) :
    (deleteAttempts db attempts).rows.length ≤ db.rows.length ∧
      (attempts ≠ [] → (deleteAttempts db attempts).rows.length < db.rows.length) := by
  refine ⟨Table.length_eraseAll_le _ _, fun hne => ?_⟩
  obtain ⟨a, ha⟩ := List.exists_mem_of_ne_nil _ hne
  exact Table.length_eraseAll_lt (h a ha) (List.mem_append_left _ (List.mem_map_of_mem ha))

theorem length_deleteDeliveries (db : Db) (deliveries : List DeliveryRow)
    (h : ∀ d ∈ deliveries, d ∈ prunableDeliveries tenantId cutoff db) :
    (deleteDeliveries db deliveries).rows.length ≤ db.rows.length ∧
      (deliveries ≠ [] → (deleteDeliveries db deliveries).rows.length < db.rows.length) := by
  have hcascade := Table.length_eraseAll_le db
  refine ⟨(Table.length_eraseAll_le _ _).trans (hcascade _), fun hne => ?_⟩
  obtain ⟨d, hd⟩ := List.exists_mem_of_ne_nil _ hne
  have hstored := (mem_prunableDeliveries.mp (h d hd)).1
  have hstays : Row.delivery d ∈ (deleteAttempts db
      ((attemptsOf db).filter fun a => deliveries.any (a.isOf ·))).rows := by
    refine Table.mem_eraseAll.mpr ⟨hstored, fun hkey => ?_⟩
    rcases List.mem_append.mp hkey with hkey | hkey
    · obtain ⟨a, -, heq⟩ := List.mem_map.mp hkey
      cases heq
    · obtain ⟨g, -, heq⟩ := List.mem_map.mp hkey
      cases heq
  have hkey : (Row.delivery d).key ∈ deliveries.map fun d => (Row.delivery d).key :=
    List.mem_map_of_mem hd
  exact (Table.length_eraseAll_lt hstays (List.mem_append_left _ hkey)).trans_le (hcascade _)

theorem length_deleteEvents (db : Db) (events : List EventRow)
    (h : ∀ e ∈ events, Row.event e ∈ db.rows) :
    (deleteEvents db events).rows.length ≤ db.rows.length ∧
      (events ≠ [] → (deleteEvents db events).rows.length < db.rows.length) := by
  refine ⟨Table.length_eraseAll_le _ _, fun hne => ?_⟩
  obtain ⟨e, he⟩ := List.exists_mem_of_ne_nil _ hne
  exact Table.length_eraseAll_lt (h e he) (List.mem_map_of_mem he)

/-- A batch that removes something leaves fewer rows. -/
theorem pruneHistory_size {s s' : HistoryStore} {context : Str} {batch : ℤ} {locks : BatchLocks}
    {result : RetentionResult}
    (h : s.pruneHistory context tenantId cutoff batch locks = .ok (result, s'))
    (hsome : result ≠ ⟨0, 0, 0, 0⟩) : s'.size < s.size := by
  obtain ⟨-, attempts, deliveries, events, hattempts, hdeliveries, hevents, hdb, hcount₁, hcount₂,
    hcount₃, hsecrets⟩ := pruneHistory_eq_ok h
  obtain ⟨removed, hcount₄, hprunable, hs'⟩ := pruneWebhookHistory_eq_ok hsecrets
  have h₁ := length_deleteAttempts s.db attempts fun a ha => by
    rw [hattempts] at ha
    exact (mem_prunableAttempts.mp (mem_of_mem_limitSkipLocked ha)).1
  have hprunable₂ : ∀ d ∈ deliveries,
      d ∈ prunableDeliveries tenantId cutoff (deleteAttempts s.db attempts) := by
    intro d hd
    rw [hdeliveries] at hd
    exact mem_of_mem_limitSkipLocked hd
  have h₂ := length_deleteDeliveries (deleteAttempts s.db attempts) deliveries hprunable₂
  have h₃ := length_deleteEvents (deleteDeliveries (deleteAttempts s.db attempts) deliveries) events
    fun e he => by
      rw [hevents] at he
      exact (mem_prunableEvents.mp (mem_of_mem_limitSkipLocked he)).1
  have h₄ : s'.secrets.rows.length ≤ s.secrets.rows.length ∧
      (removed ≠ [] → s'.secrets.rows.length < s.secrets.rows.length) := by
    rw [hs']
    refine ⟨Table.length_eraseAll_le _ _, fun hne => ?_⟩
    obtain ⟨r, hr⟩ := List.exists_mem_of_ne_nil _ hne
    exact Table.length_eraseAll_lt (mem_prunableVersions.mp (hprunable r hr)).1
      (List.mem_map_of_mem hr)
  rw [← hdb] at h₃
  unfold HistoryStore.size
  by_contra hle
  refine hsome ?_
  have hnil : attempts = [] ∧ deliveries = [] ∧ events = [] ∧ removed = [] := by
    refine ⟨?_, ?_, ?_, ?_⟩
    · by_contra hne
      have := h₁.2 hne
      omega
    · by_contra hne
      have := h₂.2 hne
      omega
    · by_contra hne
      have := h₃.2 hne
      omega
    · by_contra hne
      have := h₄.2 hne
      omega
  obtain ⟨rfl, rfl, rfl, rfl⟩ := hnil
  cases result
  simp_all

/-- A batch of one row, alone, for a tenant in its own context. -/
theorem pruneHistory_returns (s : HistoryStore) (tenantId : UUID) (cutoff : Datetime) :
    ∃ result s', s.pruneHistory tenantId.str tenantId cutoff 1 .none = .ok (result, s') := by
  cases h : s.pruneHistory tenantId.str tenantId cutoff 1 .none with
  | ok r => exact ⟨r.1, r.2, rfl⟩
  | error e => simp [HistoryStore.pruneHistory, pruneWebhookHistory, check, bind, Except.bind, pure,
      Except.pure] at h

/-- Repeated batches come to one that removes nothing. -/
theorem exists_last_batch (tenantId : UUID) (cutoff : Datetime) (s : HistoryStore) : ∃ s₁ s₂, Retained tenantId cutoff s s₁ ∧
    s₁.pruneHistory tenantId.str tenantId cutoff 1 .none = .ok (⟨0, 0, 0, 0⟩, s₂) := by
  induction hn : s.size using Nat.strong_induction_on generalizing s with
  | _ n ih =>
      obtain ⟨result, s', hok⟩ := pruneHistory_returns s tenantId cutoff
      by_cases hlast : result = ⟨0, 0, 0, 0⟩
      · exact ⟨s, s', .refl, hlast ▸ hok⟩
      · obtain ⟨s₁, s₂, hrun, hend⟩ := ih _ (hn ▸ pruneHistory_size hok hlast) s' rfl
        refine ⟨s₁, s₂, ?_, hend⟩
        have hfirst : Retained tenantId cutoff s s' := .batch .refl hok
        clear hend
        induction hrun with
        | refl => exact hfirst
        | batch _ hok' ih' => exact .batch ih' hok'

end Ends

/-! ## What the runtime leaves -/

section Runtime

variable [Platform] {m : Mode} {now : Datetime} {w : RuntimeWorld}

/-- A handoff refers to a stored delivery and a stored attempt. -/
def HandoffHome (db : Db) (h : HandoffRow) : Prop :=
  deliveryAt db h.tenantId h.deliveryId ≠ none ∧ attemptAt db h.tenantId h.attemptId ≠ none

theorem Commits.attemptsStay {s : RuntimeStore} {e : Entry Key Row PyError Op Outcome} {db' : Db}
    (h : Commits m s e db') {t i : UUID} (ha : attemptAt s.db t i ≠ none) :
    attemptAt db' t i ≠ none := by
  obtain ⟨a, ha⟩ := Option.ne_none_iff_exists'.mp ha
  obtain ⟨τ, -, -, hmove⟩ := h.cells t a.deliveryId
  obtain ⟨a', ha', -⟩ := hmove.attempt (cellAt_attempts.mpr ⟨ha, rfl⟩)
  rw [(cellAt_attempts.mp ha').1]
  exact Option.some_ne_none a'

/-- Every stored handoff has its delivery and its attempt. -/
theorem handoffHome (hreach : Reachable m.protocol (RuntimeWorld.start now) w) :
    ∀ t i h, handoffAt w.store.db t i = some h → HandoffHome w.store.db h := by
  refine Mode.reachable_induction (P := fun s => ∀ t i h, handoffAt s.db t i = some h →
    HandoffHome s.db h) ?_ (fun s t _ hs => hs) ?_ hreach
  · intro t i h hh
    simp [RuntimeWorld.start, handoffAt] at hh
  · intro s e db' hinv _ hcommits ih t i h' hh'
    have hstays : ∀ h, HandoffHome s.db h → HandoffHome db' h := by
      intro h hhome
      refine ⟨?_, hcommits.attemptsStay hhome.2⟩
      obtain ⟨d, hd⟩ := Option.ne_none_iff_exists'.mp hhome.1
      obtain ⟨d', hd', -⟩ := hcommits.deliveriesStay _ _ d hd
      rw [hd']
      exact Option.some_ne_none d'
    obtain ⟨τ, -, hmove⟩ := hcommits.handoffs t i
    cases hold : handoffAt s.db t i with
    | some h =>
        rw [hold] at hmove
        obtain ⟨h'', heq, hid⟩ := hmove.stays
        rw [hh'] at heq
        cases heq
        have hhome := hstays h (ih t i h hold)
        simp only [HandoffRow.identity, HandoffRow.mk.injEq] at hid
        obtain ⟨htenant, -, hdelivery, hattempt, -⟩ := hid
        rw [HandoffHome, htenant, hdelivery, hattempt]
        exact hhome
    | none =>
        -- only a preparation stores a handoff where there was none
        rw [hold, hh'] at hmove
        cases hmove with
        | prepare _ hstate hstarted htoken hdeadline hnew =>
            refine hstays h' ?_
            cases hop : e.op with
            | prepare c τ' =>
                change e.op.prepares h' at hnew
                rw [hop] at hnew
                obtain ⟨htenant, hdelivery, hattempt, -⟩ := hnew
                have hallowed := hcommits.allowed
                rw [hop] at hallowed
                obtain ⟨e', he', hc⟩ := issued_iff.mp hallowed
                obtain ⟨r, a, hr, ha, -⟩ := (hinv.claims e' he' c hc).rows
                have hattempt' := (cellAt_attempts.mp ha).1
                rw [HandoffHome, htenant, hdelivery, hattempt]
                exact ⟨Option.ne_none_iff_exists'.mpr ⟨r, hr⟩,
                  Option.ne_none_iff_exists'.mpr ⟨a, hattempt'⟩⟩
            | _ =>
                change e.op.prepares h' at hnew
                rw [hop] at hnew
                exact hnew.elim

/-- The references of every reachable database resolve. -/
theorem resolves_of_reachable (hreach : Reachable runtime (RuntimeWorld.start now) w) :
    Resolves w.store.db := by
  have hfree := hreach
  rw [← Mode.free_protocol] at hfree
  have hinv : RuntimeInv Mode.free w.store := (Mode.worldInv hfree).inv
  have hdelivery : ∀ {t d : UUID} {r : DeliveryRow}, deliveryAt w.store.db t d = some r →
      Row.delivery r ∈ w.store.db.rows ∧ r.tenantId = t ∧ r.deliveryId = d :=
    fun hr => ⟨Table.mem_of_get (deliveryAt_eq_some.mp hr), deliveryAt_key hr⟩
  have hstored : ∀ {r : DeliveryRow}, Row.delivery r ∈ w.store.db.rows →
      deliveryAt w.store.db r.tenantId r.deliveryId = some r :=
    fun hr => deliveryAt_eq_some.mpr (Table.mem_iff_get.mp hr)
  constructor
  · intro a ha
    have hat : attemptAt w.store.db a.tenantId a.attemptId = some a :=
      attemptAt_eq_some.mpr (Table.mem_iff_get.mp ha)
    have hcell := hinv.cells a.tenantId a.deliveryId
    cases hr : deliveryAt w.store.db a.tenantId a.deliveryId with
    | none =>
        rw [Cell.Inv, show (cellAt w.store.db a.tenantId a.deliveryId).delivery = none from hr]
          at hcell
        have hmine := cellAt_attempts.mpr ⟨hat, rfl⟩
        rw [hcell a.attemptId] at hmine
        cases hmine
    | some r =>
        obtain ⟨hmem, htenant, hid⟩ := hdelivery hr
        exact ⟨r, hmem, decide_eq_true ⟨htenant.symm, hid.symm⟩⟩
  · intro r o hr hof
    have hrooted := rooted_of_reachable hreach _ _ r (hstored hr)
    cases hrooted with
    | published e he hpublished =>
        obtain ⟨-, outcome, -, hnone, -⟩ := hpublished
        rw [hof] at hnone
        cases hnone
    | replayed hof' horiginal hwork _ =>
        rw [hof] at hof'
        cases hof'
        obtain ⟨hmem, htenant, hid⟩ := hdelivery horiginal
        exact ⟨_, hmem, decide_eq_true ⟨htenant.symm, hid ▸ hof⟩⟩
  · intro d hd
    obtain ⟨e, -, he, -⟩ := (hinv.origin _ _ d (hstored hd)).event
    have hkey := Table.key_of_get (eventAt_eq_some.mp he)
    simp only [Schema.key, Row.key, Key.event.injEq] at hkey
    exact ⟨e, Table.mem_of_get (eventAt_eq_some.mp he),
      decide_eq_true ⟨hkey.1.symm, hkey.2.symm⟩⟩
  · intro h hh
    have hat : handoffAt w.store.db h.tenantId h.handoffId = some h :=
      handoffAt_eq_some.mpr (Table.mem_iff_get.mp hh)
    obtain ⟨hhome, hattempt⟩ := handoffHome hfree _ _ h hat
    obtain ⟨d, hd⟩ := Option.ne_none_iff_exists'.mp hhome
    obtain ⟨a, ha⟩ := Option.ne_none_iff_exists'.mp hattempt
    obtain ⟨hmem, htenant, hid⟩ := hdelivery hd
    obtain ⟨htenant', hid'⟩ := attemptAt_key ha
    exact ⟨⟨d, hmem, htenant.symm, hid.symm⟩, a, Table.mem_of_get (attemptAt_eq_some.mp ha),
      htenant'.symm, hid'.symm⟩

/-- No attempt of a cell ended after the last change of its delivery. -/
def Cell.Settled (c : Cell) : Prop :=
  ∀ r i a f, c.delivery = some r → c.attempts i = some a → a.finishedAt = some f → f ≤ r.updatedAt

omit [Platform] in
theorem Cell.Settled.step {moves : Moves} {τ : Datetime} {c c' : Cell} (h : c.Settled)
    (hinv : c.Inv moves.fenced τ) (hstep : Cell.Step moves τ c c') : c'.Settled := by
  -- what ended before the move ended by its time
  have hbefore : ∀ r as i a f, c = ⟨some r, as⟩ → as i = some a → a.finishedAt = some f → f ≤ τ := by
    rintro r as i a f rfl ha hf
    have hlive : Live moves.fenced τ r as := hinv
    have hle := h r i a f rfl ha hf
    by_cases hpending : r.state = .pending
    · have hnumber := hlive.numbered i a ha
      have hzero := (hlive.waiting hpending).1
      omega
    · exact hle.trans (hlive.updated hpending)
  cases hstep with
  | same => exact h
  | create r as hnone hcreated hnew =>
      intro r' i a f hr ha hf
      cases (hnone i).symm.trans ha
  | expire r as hfence hstate htime =>
      intro r' i a f hr ha hf
      cases hr
      exact hbefore r as i a f rfl ha hf
  | lease r as id token expiry hfence htime hid hfresh htoken =>
      intro r' i a f hr ha hf
      cases hr
      rcases Live.update_eq_some.mp ha with ⟨-, rfl⟩ | ⟨-, hold⟩
      · cases hf
      · exact hbefore r as i a f rfl hold hf
  | close r as b state outcome next code summary hb hcloses =>
      intro r' i a f hr ha hf
      cases hr
      rcases Live.update_eq_some.mp ha with ⟨-, rfl⟩ | ⟨-, hold⟩
      · cases hf
        exact le_refl τ
      · exact hbefore r as i a f rfl hold hf

theorem settled_of_reachable (hreach : Reachable m.protocol (RuntimeWorld.start now) w) :
    ∀ t d, (cellAt w.store.db t d).Settled := by
  refine Mode.reachable_induction (P := fun s => ∀ t d, (cellAt s.db t d).Settled) ?_
    (fun s t _ hs => hs) ?_ hreach
  · intro t d r i a f hr
    simp [RuntimeWorld.start, cellAt_empty] at hr
  · intro s e db' _ _ hcommits ih t d
    obtain ⟨τ, -, hinv, hmove⟩ := hcommits.cells t d
    refine (ih t d).step ?_ hmove
    exact hinv

/-! ## Completeness -/

/-- No attempt of a terminal webhook delivery from before the cutoff is left, and no such
delivery but those that still have a replay. -/
def Exhausted (tenantId : UUID) (cutoff : Datetime) (db : Db) : Prop :=
  ∀ d, Row.delivery d ∈ db.rows → d.settledBefore tenantId cutoff = true →
    (∀ a, Row.attempt a ∈ db.rows → a.isOf d = false) ∧
      ∃ r, Row.delivery r ∈ db.rows ∧ r.isReplayOf d = true

section Exhausted

omit [Platform]

variable {tenantId : UUID} {cutoff : Datetime} {s s' : HistoryStore} {batch : ℤ}

/-- A batch that removes nothing, with nobody in the way, had nothing to remove. -/
theorem last_batch
    (h : s.pruneHistory tenantId.str tenantId cutoff batch .none = .ok (⟨0, 0, 0, 0⟩, s')) :
    s'.db = s.db ∧ prunableAttempts tenantId cutoff s.db = [] ∧
      prunableDeliveries tenantId cutoff s.db = [] := by
  obtain ⟨hbatch, attempts, deliveries, events, hattempts, hdeliveries, hevents, hdb, hcount₁,
    hcount₂, hcount₃, -⟩ := pruneHistory_eq_ok h
  have hroom : 1 ≤ batch.toNat := by omega
  have hnil₁ : attempts = [] := List.length_eq_zero_iff.mp hcount₁.symm
  have hnil₂ : deliveries = [] := List.length_eq_zero_iff.mp hcount₂.symm
  have hnil₃ : events = [] := List.length_eq_zero_iff.mp hcount₃.symm
  subst hnil₁ hnil₂ hnil₃
  rw [deleteAttempts_nil] at hdeliveries hdb
  have hsame : deleteDeliveries s.db [] = s.db := by
    simp [deleteDeliveries, deleteAttempts_nil]
  rw [hsame] at hdb
  exact ⟨hdb, limitSkipLocked_ne_nil hroom hattempts.symm,
    limitSkipLocked_ne_nil hroom hdeliveries.symm⟩

end Exhausted

/-- Every batch is safe: it removes no pending, leased or waiting delivery and no attempt of
one, no delivery that still has attempts or a replay, no event that still has a delivery,
and no row of another tenant, and all references keep resolving. Batches repeated until one
removes nothing leave no attempt of a terminal delivery from before the cutoff, and no such
delivery without a replay, exactly when none of these deliveries had an attempt that is
still `started`. -/
theorem webhook_retention (hreach : Reachable runtime (RuntimeWorld.start now) w)
    (secrets : SecretStore) (tenantId : UUID) (cutoff : Datetime) :
    (∀ s, Retained tenantId cutoff ⟨w.store.db, secrets⟩ s → Resolves s.db ∧
      ∀ batch locks result s', s.pruneHistory tenantId.str tenantId cutoff batch locks =
        .ok (result, s') → BatchSafe tenantId cutoff s s') ∧
    ((∀ s batch s', Retained tenantId cutoff ⟨w.store.db, secrets⟩ s →
        s.pruneHistory tenantId.str tenantId cutoff batch .none = .ok (⟨0, 0, 0, 0⟩, s') →
        Exhausted tenantId cutoff s'.db) ↔
      ∀ d a, Row.delivery d ∈ w.store.db.rows → d.settledBefore tenantId cutoff = true →
        Row.attempt a ∈ w.store.db.rows → a.isOf d = true → a.outcome ≠ .started) := by
  have hresolves := resolves_of_reachable hreach
  have hfree := hreach
  rw [← Mode.free_protocol] at hfree
  -- an attempt of a stored delivery as its machine sees it
  have hcell : ∀ d a, Row.delivery d ∈ w.store.db.rows → Row.attempt a ∈ w.store.db.rows →
      a.isOf d = true → deliveryAt w.store.db d.tenantId d.deliveryId = some d ∧
        (cellAt w.store.db d.tenantId d.deliveryId).attempts a.attemptId = some a := by
    intro d a hd ha hof
    obtain ⟨htenant, hid⟩ := of_decide_eq_true hof
    have hat : attemptAt w.store.db a.tenantId a.attemptId = some a :=
      attemptAt_eq_some.mpr (Table.mem_iff_get.mp ha)
    rw [htenant] at hat
    exact ⟨deliveryAt_eq_some.mpr (Table.mem_iff_get.mp hd), cellAt_attempts.mpr ⟨hat, hid⟩⟩
  refine ⟨fun s hs => ⟨hs.resolves hresolves, fun batch locks result s' hok => batchSafe hok⟩,
    fun hcomplete d a hd hsettled ha hof hstarted => ?_, fun hended s batch s' hs hok => ?_⟩
  · -- an attempt that never ended keeps its delivery
    obtain ⟨s₁, s₂, hrun, hlast⟩ := exists_last_batch tenantId cutoff ⟨w.store.db, secrets⟩
    obtain ⟨hstored, hmine⟩ := hcell d a hd ha hof
    have hnone := ((Mode.live hfree hstored).finished _ a hmine).1.mp hstarted
    have hleft := hrun.unfinished ha hnone
    obtain ⟨d', hd', hof'⟩ := (hrun.resolves hresolves).attempts a hleft
    have hsame : d' = d := by
      obtain ⟨htenant, hid⟩ := of_decide_eq_true hof
      obtain ⟨htenant', hid'⟩ := of_decide_eq_true hof'
      have hkey : (Row.delivery d').key = (Row.delivery d).key := by
        rw [Row.key, Row.key, ← htenant, ← htenant', ← hid, ← hid']
      exact Row.delivery.inj (Table.eq_of_key_eq (hrun.kept _ hd') hd hkey)
    subst hsame
    have hdb := (last_batch hlast).1
    have hempty := (hcomplete s₁ 1 s₂ hrun hlast d' (hdb ▸ hd') hsettled).1 a (hdb ▸ hleft)
    rw [hof] at hempty
    cases hempty
  · obtain ⟨hdb, hattempts, hdeliveries⟩ := last_batch hok
    intro d hd hsettled
    rw [hdb] at hd ⊢
    have hfree' : ∀ a, Row.attempt a ∈ s.db.rows → a.isOf d = false := by
      intro a ha
      by_contra hof
      rw [Bool.not_eq_false] at hof
      have hd₀ := hs.kept _ hd
      have ha₀ := hs.kept _ ha
      obtain ⟨hstored, hmine⟩ := hcell d a hd₀ ha₀ hof
      have hfinished := ((Mode.live hfree hstored).finished _ a hmine).1.not.mp
        (hended d a hd₀ hsettled ha₀ hof)
      obtain ⟨f, hf⟩ := Option.ne_none_iff_exists'.mp hfinished
      have hle := settled_of_reachable hfree d.tenantId d.deliveryId d _ a f hstored hmine hf
      obtain ⟨htenant, -, -, hold⟩ := of_decide_eq_true hsettled
      have hprunable := mem_prunableAttempts.mpr ⟨ha, (of_decide_eq_true hof).1.trans htenant,
        ⟨f, hf, hle.trans_lt hold⟩, d, hd, hof, hsettled⟩
      rw [hattempts] at hprunable
      cases hprunable
    refine ⟨hfree', ?_⟩
    by_contra hreplay
    push Not at hreplay
    have hprunable := mem_prunableDeliveries.mpr ⟨hd, hsettled, hfree', fun r hr => by
      simpa using hreplay r hr⟩
    rw [hdeliveries] at hprunable
    cases hprunable

end Runtime

/-- In a run whose claims meet no change since their snapshot that matters, an attempt of
a terminal delivery has ended. -/
theorem ended_of_guarded [Platform] {now : Datetime} {w : RuntimeWorld}
    (hreach : Reachable (runtime.withGuard claimGuard) (RuntimeWorld.start now) w)
    {d : DeliveryRow} {a : AttemptRow} (hd : Row.delivery d ∈ w.store.db.rows)
    (hend : d.state = .succeeded ∨ d.state = .dead) (ha : Row.attempt a ∈ w.store.db.rows)
    (hof : a.isOf d = true) : a.outcome ≠ .started := by
  rw [← Mode.guarded_protocol] at hreach
  obtain ⟨htenant, hid⟩ := of_decide_eq_true hof
  have hat : attemptAt w.store.db a.tenantId a.attemptId = some a :=
    attemptAt_eq_some.mpr (Table.mem_iff_get.mp ha)
  rw [htenant] at hat
  have hlive := Mode.live hreach (deliveryAt_eq_some.mpr (Table.mem_iff_get.mp hd))
  intro hstarted
  have howner := hlive.owner trivial _ a (cellAt_attempts.mpr ⟨hat, hid⟩) hstarted
  have hleased := hlive.leased.mpr (by simp [howner])
  rcases hend with hend | hend
  · rw [hend] at hleased
    cases hleased
  · rw [hend] at hleased
    cases hleased

/-! ## Overlapping claims -/

namespace Scenario

/-- The route of a webhook. -/
def webhookRoute : RouteSpecification :=
  ⟨{ routeArgs with destinationKind := "webhook" }, { routeArgs with destinationKind := "webhook" },
    by rfl⟩

/-- Delivery 101 of event 100 goes to a webhook. -/
def notified : List (Act UUID Op) :=
  [.start (.publish principal event [webhookRoute] 0 none), .mint 0 100, .step 0, .mint 0 101,
    .step 0, .step 0]

/-- The lease a reconciliation takes back after the deadline of the delivery. -/
def reconciled (t : ℕ) : List (Act UUID Op) :=
  [.tick 2000000000, .start (.reconcileExpired 0 5)] ++ List.replicate 9 (.step t)

/-- One claim, whose lease runs out. -/
def abandoned : List (Act UUID Op) :=
  notified ++ [.tick 10, .start (.claim 0 5 5), .step 1, .step 1, .step 1, .step 1, .mint 1 200,
    .mint 1 201, .step 1, .step 1, .step 1, .step 1] ++ reconciled 2

/-- Two claims whose snapshots overlap lease the delivery one after the other; the second
lease runs out, and the attempt of the first stays `started`. -/
def overlapped : List (Act UUID Op) :=
  notified ++ [.tick 10, .start (.claim 0 5 5), .start (.claim 0 5 5), .step 2, .step 2, .step 1,
    .step 1, .step 1, .step 1, .mint 1 200, .mint 1 201, .step 1, .step 1, .step 1, .step 1, .step 2,
    .step 2, .mint 2 300, .mint 2 301, .step 2, .step 2, .step 2, .step 2] ++ reconciled 3

end Scenario

open Scenario in
/-- After one claim whose lease ran out, every run of batches to its end is complete. -/
theorem webhook_retention_abandoned : ∃ (w : RuntimeWorld) (d : DeliveryRow),
    Row.delivery d ∈ w.store.db.rows ∧ d.settledBefore 1 3000000000 = true ∧
      ∀ s batch s', Retained 1 3000000000 ⟨w.store.db, Table.empty⟩ s →
        s.pruneHistory (UUID.str 1) 1 3000000000 batch .none = .ok (⟨0, 0, 0, 0⟩, s') →
        Exhausted 1 3000000000 s'.db := by
  have hrun : ((RuntimeWorld.start 0).run runtime abandoned).any (fun w =>
      (deliveriesOf w.store.db).any (fun d => d.settledBefore 1 3000000000) &&
        (attemptsOf w.store.db).all fun a => a.outcome ≠ .started) = true := by
    decide +kernel
  simp only [Option.any_eq_true, Bool.and_eq_true, List.any_eq_true, List.all_eq_true] at hrun
  obtain ⟨w, hw, ⟨d, hd, hsettled⟩, hended⟩ := hrun
  refine ⟨w, d, mem_deliveriesOf.mp hd, hsettled,
    (webhook_retention (World.run_reachable hw) Table.empty 1 3000000000).2.mpr ?_⟩
  intro d' a _ _ ha _
  exact of_decide_eq_true (hended a (mem_attemptsOf.mpr ha))

open Scenario in
/-- After two overlapping claims a batch removes nothing although an attempt of a dead
delivery from before the cutoff is left. -/
theorem retention_leaves_overlapped : ∃ (w : RuntimeWorld) (s s' : HistoryStore),
    Reachable runtime (RuntimeWorld.start 0) w ∧
      Retained 1 3000000000 ⟨w.store.db, Table.empty⟩ s ∧
      s.pruneHistory (UUID.str 1) 1 3000000000 500 .none = .ok (⟨0, 0, 0, 0⟩, s') ∧
      ¬ Exhausted 1 3000000000 s'.db := by
  have hrun : ((RuntimeWorld.start 0).run runtime overlapped).any (fun w =>
      match HistoryStore.pruneHistory ⟨w.store.db, Table.empty⟩ (UUID.str 1) 1 3000000000 500 .none
        with
      | .error _ => false
      | .ok (_, s) =>
          match s.pruneHistory (UUID.str 1) 1 3000000000 500 .none with
          | .error _ => false
          | .ok (result, s') => decide (result = ⟨0, 0, 0, 0⟩) &&
              (deliveriesOf s'.db).any fun d => d.settledBefore 1 3000000000 &&
                (attemptsOf s'.db).any (·.isOf d)) = true := by
    decide +kernel
  obtain ⟨w, hw, hbatches⟩ := (Option.any_eq_true _ _).mp hrun
  split at hbatches
  · cases hbatches
  · rename_i result s hfirst
    split at hbatches
    · cases hbatches
    · rename_i result' s' hsecond
      simp only [Bool.and_eq_true, decide_eq_true_eq, List.any_eq_true] at hbatches
      obtain ⟨rfl, d, hd, hsettled, a, ha, hof⟩ := hbatches
      refine ⟨w, s, s', World.run_reachable hw, .batch .refl hfirst, hsecond, fun hexhausted => ?_⟩
      have hempty := (hexhausted d (mem_deliveriesOf.mp hd) hsettled).1 a (mem_attemptsOf.mp ha)
      rw [hof] at hempty
      cases hempty

end FastapiEffects
