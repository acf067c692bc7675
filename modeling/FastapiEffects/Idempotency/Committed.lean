import FastapiEffects.Idempotency.Acquired

/-! # The ledger keeps its discipline

What each way a transaction can end does to the committed state, and from it that every program
of the ledger keeps the discipline (`ledger_sound`).
-/

namespace FastapiEffects

open Python ReadCommitted

variable [Platform]

/-- A transaction claims one command at most. -/
theorem Claim.LoggedAs.unique {d d' : Claim} {e : LedgerEntry} (h : d.LoggedAs e)
    (h' : d'.LoggedAs e) : d' = d := by
  obtain ⟨request, response, a, lockedAt⟩ := d
  obtain ⟨request', response', a', lockedAt'⟩ := d'
  obtain ⟨hrequest, hresponse⟩ := LedgerOp.run.inj (h'.op.symm.trans h.op)
  have hresult := LedgerOutcome.acquired.inj (Except.ok.inj (h'.result.symm.trans h.result))
  have htime := Option.some.inj (h'.time.symm.trans h.time)
  simp only at hrequest hresponse hresult htime
  rw [hrequest, hresponse, hresult, htime]

section Commits

variable {timely : Bool} {request : AcquireArgs} {response : Option CapturedResponse}
  {c : LedgerCtx} {s : LedgerStore} {e : LedgerEntry} {db' : LedgerDb}

/-- The log after one more transaction. -/
theorem LedgerInv.answered_append (h : LedgerInv timely s) (htimely : timely = true)
    (hanswered : ∀ entry ∈ s.log, AnsweredAfter entry e.op e.clocks e.result) :
    (s.log ++ [e]).Pairwise fun e e' => AnsweredAfter e e'.op e'.clocks e'.result := by
  refine List.pairwise_append.mpr ⟨h.answered htimely, List.pairwise_singleton _ _, ?_⟩
  intro entry hentry e' he'
  rw [List.mem_singleton] at he'
  rw [he']
  exact hanswered entry hentry

/-- A transaction that claims nothing may end, when the rows it removes have expired. -/
theorem LedgerInv.remove (h : LedgerInv timely s) (hnone : ∀ d : Claim, ¬ d.LoggedAs e)
    (hanswered : timely = true → ∀ entry ∈ s.log, AnsweredAfter entry e.op e.clocks e.result)
    (hkept : ∀ r ∈ db'.rows, r ∈ s.db.rows)
    (hremoved : timely = true → ∀ r ∈ s.db.rows, r ∈ db'.rows ∨ r.expiresAt ≤ s.now) :
    LedgerInv timely ⟨db', s.now, s.log ++ [e]⟩ where
  checked r hr := h.checked r (hkept r hr)
  current r hr r' hr' := h.current r (hkept r hr) r' (hkept r' hr')
  claimed r hr := by
    obtain ⟨entry, hentry, hrest⟩ := h.claimed r (hkept r hr)
    exact ⟨entry, List.mem_append_left _ hentry, hrest⟩
  kept htimely entry hentry d held hd hheld := by
    rcases List.mem_append.mp hentry with hentry | hentry
    · rcases h.kept htimely entry hentry d held hd hheld with hexpired | ⟨r, hr, hclaim, hrest⟩
      · exact Or.inl hexpired
      · rcases hremoved htimely r hr with hstays | hexpired
        · exact Or.inr ⟨r, hstays, hclaim, hrest⟩
        · exact Or.inl (hclaim.expiresAt ▸ hexpired)
    · rw [List.mem_singleton.mp hentry] at hd
      exact absurd hd (hnone d)
  answered htimely := h.answered_append htimely (hanswered htimely)

/-- A transaction that has claimed a command may end. -/
theorem LedgerInv.start {found : Option LedgerRow} {d : Claim} {row : LedgerRow}
    (h : LedgerInv timely s) (hstarted : Started timely request found d row c s)
    (hlogged : d.LoggedAs e)
    (hfresh : ∀ r ∈ s.db.rows, r.commandId ∉ c.ids)
    (hanswered : timely = true → ∀ entry ∈ s.log, AnsweredAfter entry e.op e.clocks e.result)
    (hopen : d.response = none → row.state = .inProgress)
    (hholds : ∀ held, d.response = some held → row.Holds held) :
    LedgerInv timely ⟨s.db.install c.writes, s.now, s.log ++ [e]⟩ where
  checked r hr := by
    rcases (hstarted.effect s.db r).mp hr with rfl | ⟨p, hp, rfl⟩ | ⟨hr, -⟩
    · exact hstarted.checks
    · exact LedgerRow.supersede_checks (h.checked p (Table.mem_of_get (hstarted.some p hp).2.1))
        (hstarted.expired p hp)
    · exact h.checked r hr
  current r hr r' hr' hcurrent hcurrent' hid := by
    -- a current row of the identity beside the new one would be the one that was found
    have hother : ∀ r' ∈ s.db.rows, r'.isCurrent = true →
        r'.toCommandIdentityArgs = row.toCommandIdentityArgs →
          ¬ ∀ p, found = some p → r'.key ≠ p.key := by
      intro r' hr' hcurrent' hid hapart
      rw [hstarted.claim.identity, hstarted.request] at hid
      exact hapart r' (hstarted.eq_of_current h hr' hcurrent' hid) rfl
    rcases (hstarted.effect s.db r).mp hr with rfl | ⟨p, -, rfl⟩ | ⟨hold, -, hapart⟩
    · rcases (hstarted.effect s.db r').mp hr' with rfl | ⟨p, -, rfl⟩ | ⟨hold', -, hapart'⟩
      · rfl
      · cases hcurrent'
      · exact absurd hapart' (hother r' hold' hcurrent' hid)
    · cases hcurrent
    · rcases (hstarted.effect s.db r').mp hr' with rfl | ⟨p, -, rfl⟩ | ⟨hold', -⟩
      · exact absurd hapart (hother r hold hcurrent hid.symm)
      · cases hcurrent'
      · exact h.current r hold r' hold' hcurrent hcurrent' hid
  claimed r hr := by
    rcases (hstarted.effect s.db r).mp hr with rfl | ⟨p, hp, rfl⟩ | ⟨hold, -⟩
    · refine ⟨e, List.mem_append_right _ List.mem_cons_self, d, hlogged,
        hstarted.claim, fun hstate => ?_⟩
      cases hresponse : d.response with
      | none =>
          rw [hopen hresponse] at hstate
          cases hstate
      | some held => exact ⟨held, rfl, hholds held hresponse⟩
    · obtain ⟨entry, hentry, d', hd', hrow, -⟩ :=
        h.claimed p (Table.mem_of_get (hstarted.some p hp).2.1)
      refine ⟨entry, List.mem_append_left _ hentry, d', hd', ?_, fun hstate => by cases hstate⟩
      exact ⟨hrow.identity, hrow.commandId, hrow.generation, hrow.subjectId, hrow.fingerprint,
        hrow.createdAt, hrow.expiresAt⟩
    · obtain ⟨entry, hentry, hrest⟩ := h.claimed r hold
      exact ⟨entry, List.mem_append_left _ hentry, hrest⟩
  kept htimely entry hentry d' held hd' hheld := by
    rcases List.mem_append.mp hentry with hentry | hentry
    · rcases h.kept htimely entry hentry d' held hd' hheld with hexpired | ⟨r, hr, hrow, hrest⟩
      · exact Or.inl hexpired
      · by_cases hfound : found = some r
        · exact Or.inl (hrow.expiresAt ▸ (hstarted.expired r hfound).trans hstarted.time)
        · refine Or.inr ⟨r, (hstarted.effect s.db r).mpr (Or.inr
            (Or.inr ⟨hr, ?_, ?_⟩)), hrow, hrest⟩
          · intro hkey
            exact hfresh r hr ((LedgerKey.command.inj hkey).2 ▸ hstarted.id)
          · intro p hp hkey
            rw [hp, Table.eq_of_key_eq hr (Table.mem_of_get (hstarted.some p hp).2.1)
              hkey] at hfound
            exact hfound rfl
    · rw [List.mem_singleton.mp hentry] at hd'
      rw [hlogged.unique hd'] at hheld ⊢
      exact Or.inr ⟨row, (hstarted.effect s.db row).mpr (Or.inl rfl), hstarted.claim,
        hstarted.current, hholds held hheld⟩
  answered htimely := h.answered_append htimely (hanswered htimely)

/-- What a transaction may not touch without the lock of an identity, it has not touched. -/
theorem ledgerRely_of_held (hlocked : ∀ n, UnderLock n e → .advisory n ∈ c.held)
    (hrows : ∀ r ∈ db'.rows, r ∈ s.db.rows ∨ lockOf r.toCommandIdentityArgs ∈ c.held) :
    ∀ x, x ∉ c.held → ledgerRely x s ⟨db', s.now, s.log ++ [e]⟩ := by
  intro x hx
  cases x with
  | command tenantId commandId => trivial
  | advisory n =>
      constructor
      · intro r hr hn
        refine (hrows r hr).resolve_right fun hmine => hx ?_
        rw [lockOf, hn] at hmine
        exact hmine
      · intro entry hentry hunder
        refine (List.mem_append.mp hentry).resolve_right fun hlast => hx ?_
        rw [List.mem_singleton.mp hlast] at hunder
        exact hlocked n hunder

/-- A transaction of a command has logged it under the lock. -/
theorem UnderLock.held (hop : e.op = .run request response) (hclocks : e.clocks = c.clocks)
    (hlock : c.clocks ≠ [] → lockOf request.identity.toCommandIdentityArgs ∈ c.held) {n : ℤ}
    (h : UnderLock n e) : .advisory n ∈ c.held := by
  obtain ⟨request', response', hop', hkey, hne⟩ := h
  rw [hop] at hop'
  cases hop'
  rw [← hkey]
  exact hlock (hclocks ▸ hne)

/-- A transaction that raises leaves the rows as they are. -/
theorem endOk_raises (hinv : LedgerInv timely s) (hresult : ∃ err, e.result = .error err)
    (hanswered : timely = true → ∀ entry ∈ s.log, AnsweredAfter entry e.op e.clocks e.result)
    (hlocked : ∀ n, UnderLock n e → .advisory n ∈ c.held) :
    (ledgerDiscipline timely).EndOk c s (s.commit e []) where
  inv := by
    refine hinv.remove (fun d hd => ?_) hanswered (fun _ hr => hr) fun _ _ hr => Or.inl hr
    obtain ⟨err, herr⟩ := hresult
    have hok := hd.result
    rw [herr] at hok
    cases hok
  trans _ _ hr _ _ := hr
  grows := trivial
  rely := ledgerRely_of_held hlocked fun _ hr => Or.inl hr
  ids _ hi := Or.inr hi

/-- A transaction that has claimed a command, or answered from one. -/
theorem RunReturns.endOk {a : Acquisition} (h : RunReturns timely request response a c s)
    (hinv : LedgerInv timely s)
    (hids : ∀ i ∈ c.ids, i ∉ (ledgerDiscipline timely).ids s.db s.log)
    (hop : e.op = .run request response) (hclocks : e.clocks = c.clocks)
    (hresult : e.result = .ok (.acquired a)) :
    (ledgerDiscipline timely).EndOk c s (s.commit e c.writes) := by
  have hanswered : timely = true → ∀ entry ∈ s.log, AnsweredAfter entry e.op e.clocks e.result := by
    rw [hop, hclocks, hresult]
    exact h.answered
  have hlocked : ∀ n, UnderLock n e → .advisory n ∈ c.held :=
    fun n hunder => hunder.held hop hclocks fun _ => h.lock
  rcases h.effect with ⟨hreplayed, hwrites⟩ |
    ⟨found, d, row, hstarted, hresponse, ha, hopen, hholds⟩
  · rw [hwrites]
    exact
      { inv := by
          refine hinv.remove (fun d hd => ?_) hanswered (fun _ hr => hr) fun _ _ hr => Or.inl hr
          have hok := hd.result
          rw [hresult] at hok
          cases hok
          have hnew := hd.new
          rw [hreplayed] at hnew
          cases hnew
        trans := fun _ _ hr _ _ => hr
        grows := trivial
        rely := ledgerRely_of_held hlocked fun _ hr => Or.inl hr
        ids := fun _ hi => Or.inr hi }
  · have hfresh : ∀ r ∈ s.db.rows, r.commandId ∉ c.ids :=
      fun r hr hmine => hids _ hmine ⟨r, hr, rfl⟩
    have hlogged : d.LoggedAs e :=
      { op := by rw [hop, hresponse, hstarted.request]
        result := by rw [hresult, ha]
        new := hstarted.new
        time := by
          rw [hclocks]
          exact hstarted.clock }
    exact
      { inv := hinv.start hstarted hlogged hfresh hanswered (fun hnone => hopen (hresponse ▸ hnone))
          fun held hheld => hholds held (hresponse ▸ hheld)
        trans := by
          intro _ r hr _ hexpires
          refine (hstarted.effect s.db r).mpr (Or.inr (Or.inr ⟨hr, ?_, ?_⟩))
          · intro hkey
            exact hfresh r hr ((LedgerKey.command.inj hkey).2 ▸ hstarted.id)
          · intro p hp hkey
            -- the row that is superseded has expired
            rw [Table.eq_of_key_eq hr (Table.mem_of_get (hstarted.some p hp).2.1) hkey] at hexpires
            exact absurd (hexpires.trans_le (hstarted.expired p hp)) (not_lt.mpr hstarted.time)
        grows := trivial
        rely := by
          refine ledgerRely_of_held hlocked fun r hr => ?_
          rcases (hstarted.effect s.db r).mp hr with rfl | ⟨p, hp, rfl⟩ | ⟨hold, -⟩
          · right
            rw [hstarted.claim.identity, hstarted.request]
            exact h.lock
          · right
            have hmatch := of_decide_eq_true (hstarted.some p hp).2.2
            show lockOf p.toCommandIdentityArgs ∈ c.held
            rw [hmatch.1]
            exact h.lock
          · exact Or.inl hold
        ids := by
          rintro i ⟨r, hr, rfl⟩
          rcases (hstarted.effect s.db r).mp hr with rfl | ⟨p, hp, rfl⟩ | ⟨hold, -⟩
          · exact Or.inl hstarted.id
          · exact Or.inr ⟨p, Table.mem_of_get (hstarted.some p hp).2.1, rfl⟩
          · exact Or.inr ⟨r, hold, rfl⟩ }

omit [Platform] in
/-- The rows after deletions. -/
theorem mem_install_erases {db : LedgerDb} {batch : List LedgerRow} {r : LedgerRow} :
    r ∈ (db.install (batch.map fun r => Write.erase r.key)).rows ↔
      r ∈ db.rows ∧ ∀ p ∈ batch, r.key ≠ p.key := by
  induction batch generalizing db with
  | nil => simp
  | cons p batch ih =>
      rw [List.map_cons, Table.install_erase, ih, Table.mem_erase, List.forall_mem_cons, and_assoc]
      rfl

/-- A transaction that prunes. -/
theorem PruneReturns.endOk {before : Datetime} {batchSize : ℤ}
    (h : PruneReturns timely before c s) (hinv : LedgerInv timely s)
    (hop : e.op = .prune before batchSize) :
    (ledgerDiscipline timely).EndOk c s (s.commit e c.writes) := by
  obtain ⟨batch, hbatch, hwrites⟩ := h.effect
  have hmem : ∀ r, r ∈ (s.db.install c.writes).rows ↔
      r ∈ s.db.rows ∧ ∀ p ∈ batch, r.key ≠ p.key := by
    rw [hwrites]
    exact fun r => mem_install_erases
  have hgone : timely = true → ∀ r ∈ s.db.rows,
      r ∈ (s.db.install c.writes).rows ∨ r.expiresAt ≤ s.now := by
    intro htimely r hr
    by_cases hdeleted : ∃ p ∈ batch, r.key = p.key
    · right
      obtain ⟨p, hp, hkey⟩ := hdeleted
      rw [Table.eq_of_key_eq hr (Table.mem_of_get (hbatch.stored p hp)) hkey]
      have hprunable := of_decide_eq_true (hbatch.prunable p hp)
      exact hprunable.2.trans (h.cutoff htimely)
    · left
      push Not at hdeleted
      exact (hmem r).mpr ⟨hr, hdeleted⟩
  have hkept : ∀ r ∈ (s.db.install c.writes).rows, r ∈ s.db.rows := fun r hr => ((hmem r).mp hr).1
  exact
    { inv := by
        refine hinv.remove (fun d hd => ?_)
          (fun _ entry _ d held _ _ request response lockedAt hrun => ?_)
          hkept hgone
        · have hrun := hd.op
          rw [hop] at hrun
          cases hrun
        · rw [hop] at hrun
          cases hrun
      trans := by
        intro htimely r hr _ hexpires
        exact (hgone htimely r hr).resolve_right (not_le.mpr hexpires)
      grows := trivial
      rely := by
        refine ledgerRely_of_held (fun n hunder => ?_) fun r hr => Or.inl (hkept r hr)
        obtain ⟨request, response, hrun, -⟩ := hunder
        rw [hop] at hrun
        cases hrun
      ids := by
        rintro i ⟨r, hr, rfl⟩
        exact Or.inr ⟨r, hkept r hr, rfl⟩ }

end Commits

/-- What a transaction of the ledger promises when it returns. -/
def LedgerOp.Returns (timely : Bool) (op : LedgerOp) (out : LedgerOutcome) (c : LedgerCtx)
    (s : LedgerStore) : Prop :=
  match op with
  | .run request response => ∃ a, out = .acquired a ∧ RunReturns timely request response a c s
  | .prune before _ => ∃ n, out = .pruned n ∧ PruneReturns timely before c s

/-- What it promises when it raises. -/
def LedgerOp.Raises (timely : Bool) (J : LedgerDb → Prop) (op : LedgerOp) (e : PyError)
    (c : LedgerCtx) (s : LedgerStore) : Prop :=
  match op with
  | .run request response => RunRaises timely J request response e c s
  | .prune _ _ => c.writes = [] ∧ c.clocks = [] ∧ ∃ message, e = .configuration message

/-- Every program of the ledger keeps its promise. -/
theorem ledger_promises (timely : Bool) (J : LedgerDb → Prop) :
    (ledgerIn timely J).Promises (LedgerOp.Returns timely) (LedgerOp.Raises timely J) where
  returns op out c s s' h henv := by
    cases op with
    | run request response =>
        obtain ⟨a, hout, hreturns⟩ := h
        exact ⟨a, hout, hreturns.env henv⟩
    | prune before batchSize =>
        obtain ⟨n, hout, hreturns⟩ := h
        exact ⟨n, hout, hreturns.env henv⟩
  raises op e c s s' h henv := by
    cases op with
    | run request response => exact RunRaises.env h henv
    | prune before batchSize => exact h
  progs op s hinv hallowed := by
    cases op with
    | run request response => exact wp_run request response
    | prune before batchSize => exact wp_prune hallowed

/-- Every transaction of the ledger keeps the discipline, whatever the others do. -/
theorem ledger_sound (timely : Bool) : (ledgerDiscipline timely).Sound := by
  intro op s hinv hallowed
  refine Discipline.wp_of_restrict (J := fun _ => True) (fun _ => trivial) ?_
  refine Discipline.wp_mono (fun out c s₁ hout s₂ henv => ?_) (fun err c s₁ herr s₂ henv => ?_)
    ((ledger_promises timely fun _ => True).progs op s ⟨hinv, trivial⟩ hallowed)
  · have hout := (ledger_promises timely fun _ => True).returns op out c s₁ s₂ hout
      (henv.restrict trivial)
    cases op with
    | run request response =>
        obtain ⟨a, rfl, hreturns⟩ := hout
        exact hreturns.endOk henv.inv henv.ids rfl rfl rfl
    | prune before batchSize =>
        obtain ⟨n, rfl, hreturns⟩ := hout
        exact hreturns.endOk henv.inv rfl
  · have herr := (ledger_promises timely fun _ => True).raises op err c s₁ s₂ herr
      (henv.restrict trivial)
    cases op with
    | run request response =>
        refine endOk_raises henv.inv ⟨err, rfl⟩ (fun htimely entry hentry => ?_) fun n hunder => ?_
        · exact herr.answered htimely entry hentry
        · exact hunder.held rfl rfl herr.lock
    | prune before batchSize =>
        refine endOk_raises henv.inv ⟨err, rfl⟩ (fun htimely entry hentry => ?_) fun n hunder => ?_
        · intro d held _ _ request response lockedAt hrun
          cases hrun
        · obtain ⟨request, response, hrun, -⟩ := hunder
          cases hrun

end FastapiEffects
