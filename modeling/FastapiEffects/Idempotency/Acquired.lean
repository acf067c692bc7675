import FastapiEffects.Idempotency.Locked

/-! # Walking through a command

What `acquire`, `complete_claimed` and `prune` know at each statement, whatever the others commit in
between: one weakest precondition for each part of a transaction, and from these one for the whole.
-/

namespace FastapiEffects

open Python ReadCommitted

variable [Platform]

section Walking

variable {timely : Bool} {J : LedgerDb → Prop} {op : LedgerOp} {request : AcquireArgs}
  {found : Option LedgerRow} {lockedAt : Datetime} {c c' : LedgerCtx} {s s' : LedgerStore}
  {d : Claim} {row : LedgerRow}

omit [Platform] in
theorem LedgerRow.mem_iff_get {db : LedgerDb} {r : LedgerRow} :
    r ∈ db.rows ↔ db.get r.key = some r := Table.mem_iff_get

omit [Platform] in
/-- The rows after one more change. -/
theorem mem_install_put {row r : LedgerRow} (db : LedgerDb) :
    r ∈ (db.install (c.change (.put row)).writes).rows ↔
      r = row ∨ r ∈ (db.install c.writes).rows ∧ r.key ≠ row.key := by
  have hchange := TxnUnique.visible_change c db (.put row)
  unfold Ctx.visible at hchange
  rw [hchange]
  exact Table.mem_put

/-- The select of the current row, under the lock. -/
theorem wp_selectCurrent {Q : Option LedgerRow → LedgerCtx → LedgerStore → Prop}
    {E : PyError → LedgerCtx → LedgerStore → Prop}
    (hlock : lockOf request.identity.toCommandIdentityArgs ∈ c.held) (hwrites : c.writes = [])
    (hQ : ∀ found c' s', Located request found c' s' → c'.writes = [] → c'.clocks = c.clocks →
      Q found c' s') :
    (ledgerIn timely J).wp op Q E (LedgerTx.selectCurrent request.identity) c s := by
  simp only [LedgerTx.selectCurrent, Discipline.wp]
  intro s₁ rows henv₁ hperm
  have hvisible : ∀ db : LedgerDb, c.visible db = db := fun db => by rw [Ctx.visible, hwrites]; rfl
  rw [hvisible] at hperm
  cases hfind : rows.find? (LedgerRow.isCurrentOf request.identity) with
  | none =>
      refine hQ none _ s₁ ⟨hlock, fun _ r hr => ?_, fun _ hrow => (by cases hrow)⟩ hwrites rfl
      simpa using List.find?_eq_none.mp hfind r (hperm.mem_iff.mpr hr)
  | some row =>
      have hmatch : row.isCurrentOf request.identity = true := List.find?_some hfind
      have hstored := hperm.mem_iff.mp (List.mem_of_find?_eq_some hfind)
      simp only [Discipline.wp]
      intro s₂ henv₂
      rw [show (c.see s₁.db.rows).visible s₂.db = s₂.db from hvisible s₂.db]
      have honly : ∀ r ∈ s₂.db.rows, r.isCurrentOf request.identity = true → r = row := by
        intro r hr hcurrent
        have hbefore := (henv₂.rely _ hlock).1 r hr (by rw [(of_decide_eq_true hcurrent).1])
        refine henv₁.inv.1.current row hstored r hbefore (of_decide_eq_true hmatch).2
          (of_decide_eq_true hcurrent).2 ?_
        rw [(of_decide_eq_true hcurrent).1, (of_decide_eq_true hmatch).1]
      cases hget : s₂.db.get row.key with
      | none =>
          refine hQ none _ s₂ ⟨hlock, fun _ r hr => ?_, fun _ hrow => (by cases hrow)⟩ hwrites rfl
          by_contra hcurrent
          rw [honly r hr (Bool.of_not_eq_false hcurrent)] at hr
          rw [LedgerRow.mem_iff_get.mp hr] at hget
          cases hget
      | some row₂ =>
          have hrow₂ : row₂ ∈ s₂.db.rows := Table.mem_of_get hget
          have hkey : row₂.key = row.key := Table.key_of_get hget
          have hlock' : lockOf request.identity.toCommandIdentityArgs ∈
              ((c.see s₁.db.rows).hold row.key).held := List.mem_cons_of_mem _ hlock
          refine hQ _ _ s₂ ⟨hlock', fun hnone r hr => ?_, fun row' hrow' => ?_⟩ hwrites rfl
          · by_contra hcurrent
            have hcurrent := Bool.of_not_eq_false hcurrent
            have hsame := honly r hr hcurrent
            rw [hsame] at hr hcurrent
            rw [LedgerRow.mem_iff_get.mp hr] at hget
            rw [← Option.some.inj hget, Option.filter_some, if_pos hcurrent] at hnone
            cases hnone
          · obtain ⟨heq, hcurrent⟩ := Option.filter_eq_some_iff.mp hrow'
            cases heq
            rw [hkey]
            exact ⟨List.mem_cons_self, hget, hcurrent⟩

omit [Platform] in
theorem CommandIdentity.length_keyDigest (i : CommandIdentity) : i.keyDigest.length = 32 := by
  have hvalid := i.valid
  simp only [CommandIdentityArgs.postInit, bind_eq_ok, check_eq_ok, decide_eq_true_eq] at hvalid
  obtain ⟨-, -, -, -, hlength⟩ := hvalid
  exact hlength

omit [Platform] in
/-- The row of a claim passes the checks of the table. -/
theorem AcquireArgs.claim_checks {request : AcquireArgs} (hvalid : request.validate = .ok ())
    (commandId : UUID) {generation : ℤ} (hgeneration : 0 < generation) (lockedAt : Datetime) :
    (request.claim commandId generation lockedAt (lockedAt + request.ttl)).checks = true := by
  simp only [AcquireArgs.validate, bind_eq_ok, check_eq_ok, decide_eq_true_eq] at hvalid
  obtain ⟨-, -, httl, -⟩ := hvalid
  have hversion := request.version
  rw [fingerprintVersion] at hversion
  refine decide_eq_true ⟨?_, request.identity.length_keyDigest, hgeneration, ?_, ?_⟩
  · simp [CommandRow.coherent, AcquireArgs.claim]
  · show 0 < request.fingerprint.version
    omega
  · show lockedAt < lockedAt + request.ttl
    exact lt_add_of_pos_right _ (lt_of_lt_of_le (by decide) httl)

omit [Platform] in
/-- A row is superseded after its window. -/
theorem LedgerRow.supersede_checks {p : LedgerRow} {lockedAt : Datetime} (h : p.checks = true)
    (hexpired : p.expiresAt ≤ lockedAt) : (p.supersede lockedAt).checks = true := by
  obtain ⟨hcoherent, hkey, hgeneration, hversion, hwindow⟩ := of_decide_eq_true h
  refine decide_eq_true ⟨?_, hkey, hgeneration, hversion, hwindow⟩
  obtain ⟨-, hstatus, hcompleted, -, hbody, hmedia, -, -⟩ := of_decide_eq_true hcoherent
  have hcreated : p.createdAt ≤ lockedAt := hwindow.le.trans hexpired
  refine decide_eq_true ⟨hcreated, hstatus, hcompleted, ?_, hbody, hmedia, ?_, ?_⟩
  · exact decide_eq_true hcreated
  · simp [LedgerRow.supersede]
  · simp [LedgerRow.supersede]

/-- A row that does not fit or breaks a constraint is not stored; the others are accepted. -/
theorem wp_accept {r : LedgerRow} {Q : Unit → LedgerCtx → LedgerStore → Prop}
    {E : PyError → LedgerCtx → LedgerStore → Prop} (hchecks : r.checks = true) (hdata : E .data c s)
    (hQ : r.fits = true → Q () c s) :
    (ledgerIn timely J).wp op Q E (LedgerTx.lift (LedgerTx.accept r)) c s := by
  refine Discipline.wp_ofExcept (fun _ haccept => hQ ?_) fun e he => ?_
  · simp only [LedgerTx.accept, bind_eq_ok, check_eq_ok] at haccept
    obtain ⟨-, hfits, -⟩ := haccept
    exact hfits
  · simp only [LedgerTx.accept, bind_eq_error, check_eq_error, check_eq_ok, hchecks] at he
    rcases he with ⟨-, rfl⟩ | ⟨-, -, hfalse, -⟩
    · exact hdata
    · cases hfalse

/-- Only a row above the current one of its identity refuses a claim whose identifier is new. -/
theorem Ready.not_topped {i : UUID} {generation : ℤ} {expiresAt : Datetime}
    (hready : Ready timely request found lockedAt c s) (hinv : LedgerInv timely s)
    (hgeneration : generation = (found.map fun p => p.generation + 1).getD 1)
    (hfresh : ∀ r ∈ s.db.rows, r.commandId ≠ i)
    (hrefused : (s.db.install c.writes).rows.any
      (Session.conflict (κ := LedgerKey) (request.claim i generation lockedAt expiresAt)) = true) :
    ¬ Topped s.db := by
  intro htopped
  obtain ⟨r, hr, hconflict⟩ := List.any_eq_true.mp hrefused
  -- the row is the superseded one, or a stored one
  rcases (hready.effect s.db r).mp hr with ⟨p, hp, rfl⟩ | ⟨hr, -⟩
  · rcases of_decide_eq_true hconflict with hkey | hclash
    · exact hfresh p (Table.mem_of_get (hready.some p hp).2.1) (LedgerKey.command.inj hkey).2.symm
    · have hsame : generation = p.generation := (of_decide_eq_true hclash).2
      rw [hgeneration, hp] at hsame
      exact absurd hsame (by simp)
  · rcases of_decide_eq_true hconflict with hkey | hclash
    · exact hfresh r hr (LedgerKey.command.inj hkey).2.symm
    · obtain ⟨hid, hsame⟩ := of_decide_eq_true hclash
      obtain ⟨r', hr', hcurrent, hid', hle⟩ := htopped r hr
      rw [hready.eq_of_current hinv hr' hcurrent (hid'.trans hid.symm)] at hgeneration
      have hsame : generation = r.generation := hsame
      rw [← hsame, hgeneration] at hle
      exact absurd hle (by simp)

/-- What a transaction knows that has inserted the row of a claim. -/
theorem Ready.started {i : UUID} {generation : ℤ}
    (hready : Ready timely request found lockedAt c s) (response : Option CapturedResponse)
    (hgeneration : generation = (found.map fun p => p.generation + 1).getD 1)
    (hchecks : (request.claim i generation lockedAt (lockedAt + request.ttl)).checks = true)
    (hfresh : ∀ r ∈ s.db.rows, r.commandId ≠ i) (hid : i ∈ c.ids) :
    Started timely request found ⟨request, response, ⟨i, generation, false, none, rfl⟩, lockedAt⟩
      (request.claim i generation lockedAt (lockedAt + request.ttl))
      (c.insert (request.claim i generation lockedAt (lockedAt + request.ttl))) s := by
  have hapart : ∀ p, found = some p → p.key ≠ .command request.identity.tenantId i := by
    intro p hp hkey
    exact hfresh p (Table.mem_of_get (hready.some p hp).2.1) (LedgerKey.command.inj hkey).2
  exact
    { toTimed := hready.toTimed.mono (List.subset_cons_self _ _) (List.prefix_refl _)
      expired := hready.expired
      request := rfl
      new := rfl
      claim := ⟨rfl, rfl, rfl, rfl, rfl, rfl, rfl⟩
      current := rfl
      checks := hchecks
      generation := hgeneration
      id := hid
      apart := hapart
      effect := by
        intro db r
        refine (mem_install_put db).trans (or_congr_right ?_)
        rw [hready.effect]
        constructor
        · rintro ⟨hsuperseded | hold, hkey⟩
          · exact Or.inl hsuperseded
          · exact Or.inr ⟨hold.1, hkey, hold.2⟩
        · rintro (⟨p, hp, rfl⟩ | ⟨hold, hkey, hother⟩)
          · exact ⟨Or.inl ⟨p, hp, rfl⟩, hapart p hp⟩
          · exact ⟨Or.inr ⟨hold, hother⟩, hkey⟩ }

/-- `INSERT` of the row of a claim, whose identifier is new. -/
theorem wp_start {generation : ℤ} {response : Option CapturedResponse}
    {Q : Acquisition → LedgerCtx → LedgerStore → Prop}
    (hready : Ready timely request found lockedAt c s) (hvalid : request.validate = .ok ())
    (hgeneration : generation = (found.map fun p => p.generation + 1).getD 1)
    (hQ : ∀ d row c' s', Started timely request found d row c' s' → d.response = response →
      row.state = .inProgress → Q d.acquisition c' s') :
    (ledgerIn timely J).wp op Q (RunRaises timely J request response)
      (CommandStore.start request generation lockedAt) c s := by
  simp only [CommandStore.start, LedgerTx.insertRow, Prog.bind_eq, Discipline.wp_bind]
  intro s₁ i henv₁ hi hnew
  have hready₁ : Ready timely request found lockedAt (c.mint i) s₁ :=
    (hready.env henv₁).mono (List.Subset.refl _) (List.prefix_refl _) rfl
  refine Discipline.wp_ofExcept (fun expiresAt hexpires => ?_) fun e he => ?_
  · obtain rfl := Datetime.add?_eq_some (orRaise_eq_ok.mp hexpires)
    have hpositive : 0 < generation := by
      cases hfound : found with
      | none => simp [hgeneration, hfound]
      | some p =>
          have hchecks := henv₁.inv.1.checked p (Table.mem_of_get (hready₁.some p hfound).2.1)
          simp only [LedgerRow.checks, decide_eq_true_eq] at hchecks
          rw [hgeneration, hfound]
          exact Int.add_pos_of_pos_of_nonneg hchecks.2.2.1 (by decide)
    have hchecks := AcquireArgs.claim_checks hvalid i hpositive lockedAt
    refine wp_accept hchecks (hready₁.raises hready₁.expired response (by simp) (by simp) (by simp))
      fun _ => ?_
    intro s₂ henv₂
    have hready₂ := hready₁.env henv₂
    -- no stored row has the new identifier
    have hfresh : ∀ r ∈ s₂.db.rows, r.commandId ≠ i := by
      intro r hr heq
      exact henv₂.ids i List.mem_cons_self ⟨r, hr, heq⟩
    constructor
    · intro hrefused
      refine ⟨fun _ => hready₂.lock, fun htimely _ hentry => hready₂.answeredAfter htimely
        hready₂.expired hentry response _, fun heq => (by cases heq), fun heq => (by simp at heq),
        fun _ => ⟨s₂.db, henv₂.inv.2, ?_⟩⟩
      exact hready₂.not_topped henv₂.inv.1 hgeneration hfresh hrefused
    · intro _
      exact hQ ⟨request, response, ⟨i, generation, false, none, rfl⟩, lockedAt⟩ _ _ s₂
        (hready₂.started response hgeneration hchecks hfresh List.mem_cons_self) rfl rfl
  · obtain ⟨-, rfl⟩ := orRaise_eq_error.mp he
    exact hready₁.raises hready₁.expired response (by simp) (by simp) (by simp)

/-- A response is read back of the row that holds it. -/
theorem LedgerRow.Holds.responseFromRow {response : CapturedResponse} (h : row.Holds response) :
    ∃ c', response.Same c' ∧ responseFromRow row.toCommandRow = .ok c' := by
  have hperm : (jsonbDict response.headers).items.Perm response.headers.items := jsonbItems_perm _
  have hnormal : { response.toCapturedArgs with headers := jsonbDict response.headers }.Normal :=
    response.normal.of_perm hperm
  have hpost : { response.toCapturedArgs with headers := jsonbDict response.headers }.postInit =
      .ok { response.toCapturedArgs with headers := jsonbDict response.headers } :=
    CapturedArgs.postInit_eq_ok.mpr ⟨hnormal.toSafe, hnormal.normalized_eq.symm⟩
  refine ⟨⟨_, _, hpost⟩, ⟨rfl, hperm, rfl, rfl⟩, ?_⟩
  unfold FastapiEffects.responseFromRow
  rw [h.status, h.headers, h.body, h.mediaType]
  exact CapturedResponse.make_eq_ok.mpr hpost

/-- Answering from a row that has not expired. -/
theorem wp_answer {response : Option CapturedResponse}
    {Q : Acquisition → LedgerCtx → LedgerStore → Prop}
    (htimed : Timed timely request (some row) lockedAt c s) (hinv : LedgerInv timely s)
    (hunexpired : lockedAt < row.expiresAt) (hwrites : c.writes = [])
    (hQ : ∀ a, a.replayed = true → ReplaysLogged request a s.log → (timely = true → ∀ e ∈ s.log,
      AnsweredAfter e (.run request response) c.clocks (.ok (.acquired a))) → Q a c s) :
    (ledgerIn timely J).wp op Q (RunRaises timely J request response)
      (CommandStore.answer request row) c s := by
  -- what an earlier command says of the row
  have hafter : ∀ result, (∀ (d : Claim) (held : CapturedResponse), d.Row row → row.Holds held →
      d.Answers held request result) → timely = true → ∀ e ∈ s.log,
        AnsweredAfter e (.run request response) c.clocks result := by
    intro result hanswers htimely e he d held hd hheld request' response' lockedAt' hop hid hclock
    cases hop
    rw [htimed.clock] at hclock
    cases hclock
    refine (htimed.past htimely e he d held hd hheld hid).imp_right ?_
    rintro ⟨row', hrow', hclaim, hholds⟩
    cases hrow'
    exact hanswers d held hclaim hholds
  obtain ⟨hheld, hstored, hcurrent⟩ := htimed.some row rfl
  have hraises : ∀ {e : PyError}, e ≠ .integrity → (∀ (d : Claim) (held : CapturedResponse),
      d.Row row → row.Holds held → d.Answers held request (.error e)) →
        RunRaises timely J request response e c s :=
    fun hne hanswers => ⟨fun _ => htimed.lock, hafter _ hanswers, fun _ => hwrites,
      fun _ => ⟨row, hheld, hstored, hcurrent, lockedAt, htimed.clock, hunexpired⟩,
      fun heq => absurd heq hne⟩
  unfold CommandStore.answer
  split_ifs with hdiffers hcompleted
  · refine hraises (by simp) fun d held hclaim _ => ?_
    rw [Claim.Answers, if_neg]
    rintro ⟨hsubject, hfingerprint⟩
    rw [hclaim.subjectId, hclaim.fingerprint] at hdiffers
    exact hdiffers.elim (fun hne => hne hsubject.symm) fun hne => hne hfingerprint.symm
  · simp only [Prog.bind_eq, Discipline.wp_bind]
    have hsame := not_or.mp hdiffers
    simp only [ne_eq, not_not] at hsame
    obtain ⟨e, he, d, hd, hclaim, hheld⟩ :=
      hinv.claimed row (Table.mem_of_get (htimed.some row rfl).2.1)
    obtain ⟨held, hresponse, hholds⟩ := hheld hcompleted
    obtain ⟨c', hread', hread⟩ := hholds.responseFromRow
    rw [hread]
    have hlogged : ReplaysLogged request ⟨row.commandId, row.generation, true, some c', rfl⟩
        s.log := by
      refine ⟨e, he, d, held, c', hd, hresponse, ?_, ?_, ?_, hread', rfl⟩
      · rw [← hclaim.identity]
        exact (of_decide_eq_true hcurrent).1
      · rw [← hclaim.subjectId]
        exact hsame.1
      · rw [← hclaim.fingerprint]
        exact hsame.2
    refine hQ _ rfl hlogged (hafter _ fun d' held' hclaim' hholds' => ?_)
    rw [Claim.Answers, if_pos ⟨by rw [← hsame.1, hclaim'.subjectId],
        by rw [← hsame.2, hclaim'.fingerprint]⟩]
    obtain ⟨c'', hsame'', hread''⟩ := hholds'.responseFromRow
    rw [hread] at hread''
    cases hread''
    refine ⟨c', hsame'', ?_⟩
    simp only [hclaim'.commandId, hclaim'.generation]
  · refine hraises (by simp) fun d held _ hholds => ?_
    exact absurd hholds.state hcompleted

/-- `acquire`, when its request is valid: either it answers from a row, or it has claimed the
command. -/
theorem wp_acquire {response : Option CapturedResponse}
    {Q : Acquisition → LedgerCtx → LedgerStore → Prop} (hclocks : c.clocks = [])
    (hwrites : c.writes = [])
    (hreplayed : ∀ a c' s', a.replayed = true → ReplaysLogged request a s'.log → c'.writes = [] →
      lockOf request.identity.toCommandIdentityArgs ∈ c'.held →
      (timely = true → ∀ e ∈ s'.log,
        AnsweredAfter e (.run request response) c'.clocks (.ok (.acquired a))) → Q a c' s')
    (hstarted : request.validate = .ok () → ∀ found d row c' s',
      Started timely request found d row c' s' → d.response = response → row.state = .inProgress →
        Q d.acquisition c' s') :
    (ledgerIn timely J).wp op Q (RunRaises timely J request response)
      (CommandStore.acquire request) c s := by
  simp only [CommandStore.acquire, LedgerTx.advisoryLock, LedgerTx.now, Prog.bind_eq,
    Discipline.wp_bind]
  refine Discipline.wp_ofExcept (fun _ hvalid => ?_) fun e he => ?_
  · intro s₁ henv₁
    refine wp_selectCurrent List.mem_cons_self hwrites
      fun found c₂ s₂ hlocated hwrites₂ hclocks₂ => ?_
    intro s₃ henv₃
    have htimed := (hlocated.env henv₃).timed henv₃.inv.1 (hclocks₂.trans hclocks)
    cases found with
    | none =>
        refine wp_start ⟨htimed, fun p hp => (by cases hp), fun db r => ?_⟩ hvalid rfl
          (hstarted hvalid none)
        rw [show (c₂.tell s₃.now).writes = [] from hwrites₂]
        simp [Table.install]
    | some row =>
        obtain ⟨hheld, hget, -⟩ := htimed.some row rfl
        simp only [Discipline.wp]
        split_ifs with hexpired
        · have hgone : ∀ p, some row = some p → p.expiresAt ≤ s₃.now := by
            intro p hp
            cases hp
            exact hexpired
          have hchecks := LedgerRow.supersede_checks
            (henv₃.inv.1.checked row (Table.mem_of_get hget)) hexpired
          simp only [LedgerTx.updateRow, Prog.bind_eq, Discipline.wp_bind]
          refine wp_accept hchecks (htimed.raises hgone response (by simp) (by simp) (by simp))
            fun _ => ?_
          intro s₄ henv₄
          have htimed₄ := htimed.env henv₄
          refine ⟨⟨row, ?_, rfl, fun _ => rfl⟩, ?_⟩
          · rw [Ctx.visible, show (c₂.tell s₃.now).writes = [] from hwrites₂]
            exact (htimed₄.some row rfl).2.1
          · refine wp_start ⟨htimed₄.mono (List.subset_cons_self _ _) (List.prefix_refl _), hgone,
              fun db r => ?_⟩ hvalid rfl (hstarted hvalid (some row))
            refine (mem_install_put db).trans ?_
            rw [show (c₂.tell s₃.now).writes = [] from hwrites₂]
            simp [Table.install, LedgerRow.supersede, LedgerRow.key]
        · refine wp_answer htimed henv₃.inv.1 (not_le.mp hexpired) hwrites₂
            fun a ha hlogged hanswered => ?_
          exact hreplayed a _ s₃ ha hlogged hwrites₂ htimed.lock hanswered
  · have hinvalid : ∃ message, e = .configuration message := by
      simp only [AcquireArgs.validate, bind_eq_error, check_eq_error] at he
      rcases he with ⟨-, rfl⟩ | ⟨-, -, -, rfl⟩
      · exact ⟨_, rfl⟩
      · exact ⟨_, rfl⟩
    obtain ⟨message, rfl⟩ := hinvalid
    exact
      { lock := fun hne => absurd hclocks hne
        answered := by
          intro _ entry _ d held _ _ request' response' lockedAt' _ _ hclock
          rw [hclocks] at hclock
          cases hclock
        conflict := fun _ => hwrites
        refused := fun heq => by simp at heq
        integrity := fun heq => by simp at heq }

omit [Platform] in
/-- The order of its headers is all the table changes of a row. -/
theorem CommandRow.coherent_stored (row : CommandRow) : row.stored.coherent = row.coherent := by
  have hsome : row.stored.responseHeaders.isSome = row.responseHeaders.isSome := by
    simp [CommandRow.stored]
  unfold CommandRow.coherent
  rw [hsome]
  rfl

/-- The row that is completed passes the checks, and differs from the one before in its response. -/
theorem CommandStore.complete_row {before completed : CommandRow} {response : CapturedResponse}
    {completedAt : Datetime}
    (h : CommandStore.complete false (some before) response completedAt = .ok completed) :
    completed.coherent = true ∧ completed.state = .completed ∧
      completed.isCurrent = before.isCurrent ∧
      completed.createdAt = before.createdAt := by
  simp only [CommandStore.complete, bind_eq_ok, check_eq_ok, orRaise_eq_ok] at h
  obtain ⟨_, -, row, hrow, _, -, _, hcoherent, heq⟩ := h
  cases heq
  cases hrow
  exact ⟨hcoherent, rfl, rfl, rfl⟩

/-- What a transaction knows that has completed the command it claimed. -/
theorem Started.complete {completed : CommandRow}
    (hstarted : Started timely request found d row c s)
    (hchecks : LedgerRow.checks { row with toCommandRow := completed.stored } = true)
    (hcurrent : completed.isCurrent = row.isCurrent) (hcreated : completed.createdAt = row.createdAt) :
    Started timely request found d { row with toCommandRow := completed.stored }
      (c.change (.put { row with toCommandRow := completed.stored })) s where
  toTimed := hstarted.toTimed.mono (List.subset_cons_self _ _) (List.prefix_refl _)
  expired := hstarted.expired
  request := hstarted.request
  new := hstarted.new
  claim := ⟨hstarted.claim.identity, hstarted.claim.commandId, hstarted.claim.generation,
    hstarted.claim.subjectId, hstarted.claim.fingerprint,
    hcreated.trans hstarted.claim.createdAt, hstarted.claim.expiresAt⟩
  current := hcurrent.trans hstarted.current
  checks := hchecks
  generation := hstarted.generation
  id := hstarted.id
  apart := hstarted.apart
  effect := by
    intro db r
    refine (mem_install_put db).trans (or_congr_right ?_)
    rw [hstarted.effect]
    constructor
    · rintro ⟨rfl | hsuperseded | hold, hkey⟩
      · exact absurd rfl hkey
      · exact Or.inl hsuperseded
      · exact Or.inr hold
    · rintro (⟨p, hp, rfl⟩ | hold)
      · exact ⟨Or.inr (Or.inl ⟨p, hp, rfl⟩), hstarted.apart p hp⟩
      · exact ⟨Or.inr (Or.inr hold), hold.2.1⟩

/-- `complete`, of the command the transaction has claimed. -/
theorem wp_completeClaimed {response : CapturedResponse}
    {Q : Unit → LedgerCtx → LedgerStore → Prop}
    (hstarted : Started timely request found d row c s) (hstate : row.state = .inProgress)
    (htenant : request.principal.tenantId = request.identity.tenantId)
    (hQ : ∀ row' c' s', Started timely request found d row' c' s' → row'.Holds response →
      Q () c' s') :
    (ledgerIn timely J).wp op Q (RunRaises timely J request (some response))
      (CommandStore.completeClaimed d.acquisition request.principal.tenantId response) c s := by
  simp only [CommandStore.completeClaimed, hstarted.new, LedgerTx.now, LedgerTx.updateRow,
    Prog.bind_eq, Discipline.wp_bind]
  refine Discipline.wp_ofExcept (fun _ _ => ?_) fun e he => ?_
  · intro s₁ henv₁
    have hstarted₁ := hstarted.env henv₁
    have hkey : LedgerKey.command request.principal.tenantId d.acquisition.commandId = row.key := by
      have htenant' : row.tenantId = request.identity.tenantId := by
        rw [← hstarted.request, ← congrArg CommandIdentityArgs.tenantId hstarted.claim.identity]
      rw [LedgerRow.key, htenant', hstarted.claim.commandId, htenant]
    have hvisible : (c.visible s₁.db).get row.key = some row :=
      LedgerRow.mem_iff_get.mp ((hstarted₁.effect s₁.db row).mpr (Or.inl rfl))
    rw [hkey, hvisible]
    have hmine : (some row).filter (fun row => row.generation = d.acquisition.generation ∧
        row.state = .inProgress ∧ row.isCurrent) = some row := by
      rw [Option.filter_some,
        if_pos (decide_eq_true ⟨hstarted.claim.generation, hstate, hstarted.current⟩)]
    simp only [Discipline.wp]
    rw [hmine]
    intro s₂ henv₂
    have hheld : Started timely request found d row (c.holdRow row.key (some row)) s₁ :=
      hstarted₁.mono (List.subset_cons_self _ _) (List.prefix_refl _) (List.Subset.refl _) rfl
    have hstarted₂ :
        Started timely request found d row ((c.holdRow row.key (some row)).tell s₂.now) s₂ :=
      (hheld.env henv₂).mono (List.Subset.refl _) (List.prefix_append _ _) (List.Subset.refl _) rfl
    have htime : row.createdAt ≤ s₂.now := hstarted.claim.createdAt ▸ hstarted₂.time
    obtain ⟨hcoherent, hrest⟩ := of_decide_eq_true hstarted.checks
    obtain ⟨completed, hcompleted⟩ := CommandStore.complete_isOk hcoherent hstate
      hstarted.current response htime
    simp only [hcompleted]
    obtain ⟨hstatus, hheaders, hbody, hmedia⟩ := CommandStore.complete_eq_ok hcompleted
    obtain ⟨hcoherent', hstate', hcurrent', hcreated'⟩ := CommandStore.complete_row hcompleted
    have hchecks : LedgerRow.checks { row with toCommandRow := completed.stored } = true := by
      refine decide_eq_true ⟨(CommandRow.coherent_stored completed).trans hcoherent',
        hrest.1, hrest.2.1, hrest.2.2.1, ?_⟩
      show completed.createdAt < row.expiresAt
      rw [hcreated']
      exact hrest.2.2.2
    refine wp_accept hchecks (hstarted₂.raises hstarted₂.expired _ (by simp) (by simp) (by simp))
      fun _ => ?_
    intro s₃ henv₃
    have hstarted₃ := hstarted₂.env henv₃
    refine ⟨⟨row, LedgerRow.mem_iff_get.mp ((hstarted₃.effect s₃.db row).mpr (Or.inl rfl)), rfl,
      fun _ => rfl⟩, ?_⟩
    refine hQ _ _ s₃ (hstarted₃.complete hchecks hcurrent' hcreated') ?_
    refine ⟨hstate', hstatus, ?_, hbody, hmedia⟩
    show completed.responseHeaders.map jsonbDict = _
    rw [hheaders]
    rfl
  · cases he

/-- The transaction of a command. -/
theorem wp_run (request : AcquireArgs) (response : Option CapturedResponse) :
    (ledgerIn timely J).wp (.run request response)
      (fun out c s => ∃ a, out = .acquired a ∧ RunReturns timely request response a c s)
      (RunRaises timely J request response) (LedgerOp.prog (.run request response))
      (Ctx.init s.db.rows) s := by
  simp only [LedgerOp.prog, Prog.bind_eq, Discipline.wp_bind]
  refine wp_acquire rfl rfl (fun a c s ha hlogged hwrites hlock hanswered => ?_)
    fun hvalid found d row c s hstarted hresponse hstate => ?_
  · simp only [ha]
    exact ⟨a, rfl, hlock, hanswered, fun _ => hlogged, Or.inl ⟨ha, hwrites⟩⟩
  · have hanswered : ∀ {row' c' s'}, Started timely request found d row' c' s' → timely = true →
        ∀ e ∈ s'.log, AnsweredAfter e (.run request response) c'.clocks
          (.ok (.acquired d.acquisition)) :=
      fun hstarted' htimely e he =>
        hstarted'.answeredAfter htimely hstarted'.expired he response _
    have hfirst : ∀ log, d.acquisition.replayed = true →
        ReplaysLogged request d.acquisition log := by
      intro log hreplayed
      rw [hstarted.new] at hreplayed
      cases hreplayed
    cases response with
    | none =>
        simp only [hstarted.new]
        exact ⟨d.acquisition, rfl, hstarted.lock, hanswered hstarted, hfirst _,
          Or.inr ⟨found, d, row, hstarted, hresponse, rfl, fun _ => hstate,
            fun _ hheld => (by cases hheld)⟩⟩
    | some response =>
        simp only [hstarted.new, Discipline.wp_bind]
        have htenant : request.principal.tenantId = request.identity.tenantId := by
          simp only [AcquireArgs.validate, bind_eq_ok, check_eq_ok, decide_eq_true_eq] at hvalid
          exact hvalid.choose_spec.1
        refine wp_completeClaimed hstarted hstate htenant fun row' c' s' hstarted' hholds => ?_
        exact ⟨d.acquisition, rfl, hstarted'.lock, hanswered hstarted', hfirst _,
          Or.inr ⟨found, d, row', hstarted', hresponse, rfl, fun hnone => (by cases hnone),
            fun held hheld => (by cases hheld; exact hholds)⟩⟩

/-! ## Walking through a batch -/

/-- What a transaction has deleted: rows that it holds and that are to be pruned. -/
structure Deleting (before : Datetime) (batch : List LedgerRow) (c : LedgerCtx) (s : LedgerStore) :
    Prop where
  held : ∀ r ∈ batch, r.key ∈ c.held
  stored : ∀ r ∈ batch, s.db.get r.key = some r
  prunable : ∀ r ∈ batch, r.prunable before = true

theorem Deleting.env {before : Datetime} {batch : List LedgerRow} (h : Deleting before batch c s)
    (henv : (ledgerIn timely J).Env c s s') : Deleting before batch c s' where
  held := h.held
  stored r hr := (henv.rows _ (h.held r hr)).trans (h.stored r hr)
  prunable := h.prunable

theorem Deleting.mono {before : Datetime} {batch : List LedgerRow} (h : Deleting before batch c s)
    (hheld : c.held ⊆ c'.held) : Deleting before batch c' s :=
  { h with held := fun r hr => hheld (h.held r hr) }

/-- The rows of a batch, which are the rows of the snapshot that are to be pruned. -/
theorem wp_lockBatch {before : Datetime} {E : PyError → LedgerCtx → LedgerStore → Prop}
    {rows : List LedgerRow} : ∀ {n : ℕ} {c : LedgerCtx} {s : LedgerStore}
    {Q : List LedgerRow → LedgerCtx → LedgerStore → Prop}, c.writes = [] →
    (ledgerIn timely J).Env c s s →
    (∀ batch c' s', (ledgerIn timely J).Env c s s' → (ledgerIn timely J).Env c' s' s' →
      c.held ⊆ c'.held → c'.writes = [] → Deleting before batch c' s' → Q batch c' s') →
    (ledgerIn timely J).wp op Q E (CommandStore.lockBatch before rows n) c s := by
  induction rows with
  | nil =>
      intro n c s Q hwrites hself hQ
      exact hQ [] c s hself hself (List.Subset.refl _) hwrites ⟨by simp, by simp, by simp⟩
  | cons row rows ih =>
      intro n c s Q hwrites hself hQ
      cases n with
      | zero => exact hQ [] c s hself hself (List.Subset.refl _) hwrites ⟨by simp, by simp, by simp⟩
      | succ n =>
          intro s₁ henv₁
          have hself₁ : (ledgerIn timely J).Env c s₁ s₁ := Discipline.Env.refl henv₁.inv henv₁.ids
          constructor
          · -- another transaction holds the row
            refine ih hwrites hself₁ fun batch c' s' henv' hself' hheld' hwrites' hbatch => ?_
            exact hQ batch c' s' (henv₁.trans henv') hself' hheld' hwrites' hbatch
          · intro _
            rw [show c.visible s₁.db = s₁.db by rw [Ctx.visible, hwrites]; rfl]
            cases hget : s₁.db.get row.key with
            | none =>
                refine ih hwrites hself₁ fun batch c' s' henv' hself' hheld' hwrites' hbatch => ?_
                exact hQ batch c' s' (henv₁.trans henv') hself' hheld' hwrites' hbatch
            | some r =>
                have hheld : c.held ⊆ (c.holdRow row.key (some r)).held := List.subset_cons_self _ _
                have hself₂ : (ledgerIn timely J).Env (c.holdRow row.key (some r)) s₁ s₁ :=
                  Discipline.Env.refl henv₁.inv henv₁.ids
                have hkept : ∀ {batch c' s'}, (ledgerIn timely J).Env
                    (c.holdRow row.key (some r)) s₁ s' →
                    (ledgerIn timely J).Env c' s' s' → (c.holdRow row.key (some r)).held ⊆ c'.held →
                    c'.writes = [] →
                      Deleting before batch c' s' → Q batch c' s' :=
                  fun henv' hself' hheld' hwrites' hbatch => hQ _ _ _
                    (henv₁.trans henv'.of_holdRow) hself' (List.Subset.trans hheld hheld')
                    hwrites' hbatch
                by_cases hprunable : (some r).any (LedgerRow.prunable before) = true
                · simp only [if_pos hprunable, Prog.bind_eq, Discipline.wp_bind]
                  refine ih hwrites hself₂ fun batch c' s' henv' hself' hheld' hwrites' hbatch => ?_
                  refine hkept henv' hself' hheld' hwrites' ?_
                  split_ifs with hsame
                  · -- the version that is locked is the one of the snapshot
                    cases hsame
                    have hmine : row.key ∈ (c.holdRow row.key (some row)).held := List.mem_cons_self
                    exact
                      { held := List.forall_mem_cons.mpr ⟨hheld' hmine, hbatch.held⟩
                        stored := List.forall_mem_cons.mpr
                          ⟨(henv'.rows _ hmine).trans hget, hbatch.stored⟩
                        prunable := List.forall_mem_cons.mpr ⟨hprunable, hbatch.prunable⟩ }
                  · exact hbatch
                · simp only [if_neg hprunable]
                  refine ih hwrites hself₂ fun batch c' s' henv' hself' hheld' hwrites' hbatch => ?_
                  exact hkept henv' hself' hheld' hwrites' hbatch

theorem wp_deleteBatch {E : PyError → LedgerCtx → LedgerStore → Prop} {batch : List LedgerRow} :
    ∀ {c : LedgerCtx} {s : LedgerStore} {Q : Unit → LedgerCtx → LedgerStore → Prop},
    (ledgerIn timely J).Env c s s →
    (∀ c' s', (ledgerIn timely J).Env c s s' → c.held ⊆ c'.held →
      c'.writes = c.writes ++ batch.map (fun r => .erase r.key) → Q () c' s') →
    (ledgerIn timely J).wp op Q E (CommandStore.deleteBatch batch) c s := by
  induction batch with
  | nil =>
      intro c s Q hself hQ
      exact hQ c s hself (List.Subset.refl _) (by simp)
  | cons row batch ih =>
      intro c s Q hself hQ s₁ henv₁
      refine ih (Discipline.Env.refl henv₁.inv henv₁.ids) fun c' s' henv' hheld' hwrites' => ?_
      refine hQ c' s' (henv₁.trans henv'.of_change) (List.Subset.trans (List.subset_cons_self _ _)
        hheld') ?_
      rw [hwrites']
      simp [Ctx.change]

/-- What a transaction that prunes leaves when it returns. -/
structure PruneReturns (timely : Bool) (before : Datetime) (c : LedgerCtx) (s : LedgerStore) :
    Prop where
  cutoff : timely = true → before ≤ s.now
  effect : ∃ batch, Deleting before batch c s ∧ c.writes = batch.map fun r => .erase r.key

theorem PruneReturns.env {before : Datetime} (h : PruneReturns timely before c s)
    (henv : (ledgerIn timely J).Env c s s') : PruneReturns timely before c s' where
  cutoff htimely := (h.cutoff htimely).trans henv.time
  effect := by
    obtain ⟨batch, hbatch, hwrites⟩ := h.effect
    exact ⟨batch, hbatch.env henv, hwrites⟩

/-- The transaction of a batch. -/
theorem wp_prune {before : Datetime} {batchSize : ℤ} (hcutoff : timely = true → before ≤ s.now) :
    (ledgerIn timely J).wp (.prune before batchSize)
      (fun out c s => ∃ n, out = .pruned n ∧ PruneReturns timely before c s)
      (fun e c _ => c.writes = [] ∧ c.clocks = [] ∧ ∃ message, e = .configuration message)
      (LedgerOp.prog (.prune before batchSize)) (Ctx.init s.db.rows) s := by
  simp only [LedgerOp.prog, CommandStore.prune, Prog.bind_eq, Discipline.wp_bind]
  refine Discipline.wp_ofExcept (fun _ _ => ?_) fun e he => ?_
  · intro s₁ rows henv₁ _
    have hself₁ : (ledgerIn timely J).Env ((Ctx.init s.db.rows).see s₁.db.rows) s₁ s₁ :=
      Discipline.Env.refl henv₁.inv henv₁.ids
    refine wp_lockBatch rfl hself₁ fun batch c₂ s₂ henv₂ hself₂ _ hwrites₂ hbatch => ?_
    refine wp_deleteBatch hself₂ fun c₃ s₃ henv₃ hheld₃ hwrites₃ => ?_
    rw [hwrites₂, List.nil_append] at hwrites₃
    refine ⟨_, rfl, fun htimely => ?_, batch, (hbatch.env henv₃).mono hheld₃, hwrites₃⟩
    exact (hcutoff htimely).trans (henv₁.time.trans (henv₂.time.trans henv₃.time))
  · obtain ⟨-, rfl⟩ := check_eq_error.mp he
    exact ⟨rfl, rfl, _, rfl⟩

end Walking

end FastapiEffects
