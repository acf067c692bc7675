import FastapiEffects.Idempotency.Windows

/-! # The generations of a command

`acquire` numbers a new row after the current row it finds, or from the start when it finds none.
That is safe as long as a current row, or nothing, stands above the stored generations (`Ordered`),
which pruners keep as long as none of them commits the deletion of a row and leaves an older one.
A pruner that skips an older row because another one has locked it does leave it.
-/

namespace FastapiEffects

open Python ReadCommitted

deriving instance DecidableEq for Write

section Runs

variable [Platform]

/-- Every row stands in a generation of its own, below or at that of a current row. -/
structure Ordered (db : LedgerDb) : Prop where
  topped : Topped db
  distinct : ∀ r ∈ db.rows, ∀ r' ∈ db.rows, r'.toCommandIdentityArgs = r.toCommandIdentityArgs →
    r'.generation = r.generation → r' = r

/-- Changes that delete a row of a command delete the older ones of the command as well. -/
def DeletesOlder (db : LedgerDb) (writes : List (Write LedgerKey LedgerRow)) : Prop :=
  ∀ r ∈ db.rows, .erase r.key ∈ writes → ∀ r' ∈ db.rows,
    r'.toCommandIdentityArgs = r.toCommandIdentityArgs → r'.generation < r.generation →
      .erase r'.key ∈ writes

instance (db : LedgerDb) (writes : List (Write LedgerKey LedgerRow)) :
    Decidable (DeletesOlder db writes) :=
  inferInstanceAs (Decidable (∀ r ∈ db.rows, _ ∈ writes → ∀ r' ∈ db.rows,
    r'.toCommandIdentityArgs = r.toCommandIdentityArgs → r'.generation < r.generation → _ ∈ writes))

/-- A step that is no commit, or the commit of such changes. -/
def DeletesInOrder (w w' : LedgerWorld) : Prop :=
  ∀ t x out, w.txn t = some x → x.prog = .ret out →
    w' = { w.close t with store := w.store.commit (x.entry (.ok out)) x.ctx.writes } →
      DeletesOlder w.store.db x.ctx.writes

variable {timely : Bool} {now : Datetime} {w w' : LedgerWorld} {request : AcquireArgs}
  {found : Option LedgerRow} {d : Claim} {row : LedgerRow} {c : LedgerCtx} {s : LedgerStore}

/-- A new row comes after all stored ones of its identity. -/
theorem Started.generation_lt (h : Started timely request found d row c s)
    (hinv : LedgerInv timely s) (htopped : Topped s.db) {r : LedgerRow} (hr : r ∈ s.db.rows)
    (hid : r.toCommandIdentityArgs = row.toCommandIdentityArgs) :
    r.generation < row.generation := by
  obtain ⟨r', hr', hcurrent, hid', hle⟩ := htopped r hr
  have hrequest : row.toCommandIdentityArgs = request.identity.toCommandIdentityArgs := by
    rw [h.claim.identity, h.request]
  have hfound := h.eq_of_current hinv hr' hcurrent (hid'.trans (hid.trans hrequest))
  have hgeneration := h.generation
  rw [hfound] at hgeneration
  rw [hgeneration]
  exact Int.lt_add_one_of_le hle

/-- A row of the ledger after a claim is the new one, or was there, if not as it is. -/
theorem Started.mem_cases (h : Started timely request found d row c s) {r : LedgerRow}
    (hr : r ∈ (s.db.install c.writes).rows) : r = row ∨ ∃ r₀ ∈ s.db.rows, r₀.key = r.key ∧
      r₀.toCommandIdentityArgs = r.toCommandIdentityArgs ∧ r₀.generation = r.generation := by
  rcases (h.effect s.db r).mp hr with hrow | ⟨p, hp, rfl⟩ | ⟨hold, -⟩
  · exact Or.inl hrow
  · exact Or.inr ⟨p, Table.mem_of_get (h.some p hp).2.1, rfl, rfl, rfl⟩
  · exact Or.inr ⟨r, hold, rfl, rfl, rfl⟩

/-- A claim keeps the generations in order. -/
theorem Ordered.start (h : Ordered s.db) (hinv : LedgerInv timely s)
    (hstarted : Started timely request found d row c s)
    (hfresh : ∀ r ∈ s.db.rows, r.commandId ∉ c.ids) : Ordered (s.db.install c.writes) where
  topped := by
    have hrow : row ∈ (s.db.install c.writes).rows := (hstarted.effect s.db row).mpr (Or.inl rfl)
    intro r hr
    rcases hstarted.mem_cases hr with rfl | ⟨r₀, hr₀, -, hid₀, hgeneration₀⟩
    · exact ⟨r, hrow, hstarted.current, rfl, le_rfl⟩
    by_cases hid : r.toCommandIdentityArgs = row.toCommandIdentityArgs
    · have hlt := hstarted.generation_lt hinv h.topped hr₀ (hid₀.trans hid)
      exact ⟨row, hrow, hstarted.current, hid.symm, (hgeneration₀ ▸ hlt).le⟩
    · -- the rows of other identities stay
      obtain ⟨r', hr', hcurrent, hid', hle⟩ := h.topped r₀ hr₀
      have hother : r'.toCommandIdentityArgs ≠ row.toCommandIdentityArgs := by
        rw [hid', hid₀]
        exact hid
      refine ⟨r', (hstarted.effect s.db r').mpr (Or.inr (Or.inr ⟨hr', ?_, ?_⟩)), hcurrent,
        hid'.trans hid₀, hgeneration₀ ▸ hle⟩
      · intro hkey
        exact hfresh r' hr' ((LedgerKey.command.inj hkey).2 ▸ hstarted.id)
      · intro p hp hkey
        obtain ⟨-, hget, hmatch⟩ := hstarted.some p hp
        rw [Table.eq_of_key_eq hr' (Table.mem_of_get hget) hkey] at hother
        refine hother ((of_decide_eq_true hmatch).1.trans ?_)
        rw [hstarted.claim.identity, hstarted.request]
  distinct := by
    intro r hr r' hr' hid hgeneration
    rcases hstarted.mem_cases hr with rfl | ⟨r₀, hr₀, hkey, hid₀, hgeneration₀⟩
    · rcases hstarted.mem_cases hr' with rfl | ⟨r₀', hr₀', -, hid₀', hgeneration₀'⟩
      · rfl
      · have hlt := hstarted.generation_lt hinv h.topped hr₀' (hid₀'.trans hid)
        rw [hgeneration₀', hgeneration] at hlt
        exact absurd hlt (lt_irrefl _)
    · rcases hstarted.mem_cases hr' with rfl | ⟨r₀', hr₀', hkey', hid₀', hgeneration₀'⟩
      · have hlt := hstarted.generation_lt hinv h.topped hr₀ (hid₀.trans hid.symm)
        rw [hgeneration₀, hgeneration] at hlt
        exact absurd hlt (lt_irrefl _)
      · have hsame := h.distinct r₀ hr₀ r₀' hr₀' (hid₀'.trans (hid.trans hid₀.symm))
          (hgeneration₀'.trans (hgeneration.trans hgeneration₀.symm))
        refine Table.eq_of_key_eq hr' hr ?_
        exact hkey'.symm.trans ((congrArg LedgerRow.key hsame).trans hkey)

/-- A prune keeps them when it deletes older rows first. -/
theorem Ordered.prune {before : Datetime} (h : Ordered s.db)
    (hpruned : PruneReturns timely before c s)
    (holder : DeletesOlder s.db c.writes) : Ordered (s.db.install c.writes) := by
  obtain ⟨batch, hbatch, hwrites⟩ := hpruned.effect
  have hmem : ∀ r, r ∈ (s.db.install c.writes).rows ↔ r ∈ s.db.rows ∧ .erase r.key ∉ c.writes := by
    intro r
    rw [hwrites, mem_install_erases]
    simp [eq_comm]
  constructor
  · intro r hr
    obtain ⟨hold, hkept⟩ := (hmem r).mp hr
    obtain ⟨r', hr', hcurrent, hid, hle⟩ := h.topped r hold
    refine ⟨r', (hmem r').mpr ⟨hr', fun herased => hkept ?_⟩, hcurrent, hid, hle⟩
    rcases hle.lt_or_eq with hlt | heq
    · exact holder r' hr' herased r hold hid.symm hlt
    · rw [h.distinct r' hr' r hold hid.symm heq]
      exact herased
  · intro r hr r' hr'
    exact h.distinct r ((hmem r).mp hr).1 r' ((hmem r').mp hr').1

/-- A step keeps the generations in order when it deletes in order. -/
theorem Ordered.step (hinv : WorldInv (ledgerDiscipline timely) w) (h : Ordered w.store.db)
    (hstep : Step (ledger timely) w w') (horder : DeletesInOrder w w')
    (hpromised : ∀ t x, w.txn t = some x → (ledgerIn timely Ordered).wp x.op (x.op.Returns timely)
      (x.op.Raises timely Ordered) x.prog x.ctx w.store) : Ordered w'.store.db := by
  have hsame : w'.store.db = w.store.db → Ordered w'.store.db := fun hdb => hdb ▸ h
  cases hstep with
  | @commit t x out hx hp =>
      have hreturns := hpromised t x hx
      have holder := horder t x out hx hp rfl
      have henv := (hinv.txn t x hx).env hinv
      rw [hp] at hreturns
      obtain ⟨op, beganDb, beganAt, prog, ctx⟩ := x
      cases op with
      | run request response =>
          obtain ⟨a, -, hreturns⟩ := hreturns
          rcases hreturns.effect with ⟨-, hwrites⟩ | ⟨found, d, row, hstarted, -⟩
          · refine hsame ?_
            show w.store.db.install ctx.writes = w.store.db
            rw [hwrites]
            rfl
          · exact h.start hinv.inv hstarted fun r hr hmine => henv.ids _ hmine ⟨r, hr, rfl⟩
      | prune before batchSize =>
          obtain ⟨n, -, hpruned⟩ := hreturns
          exact h.prune hpruned holder
  | fail hx hp => exact h
  | _ => exact hsame (by simp [World.set, World.own, Store.atTime, World.close])

/-- What such a run keeps. -/
theorem ordered_of_run (hrun : Relation.ReflTransGen
      (fun w w' => Step (ledger timely) w w' ∧ DeletesInOrder w w') (LedgerWorld.start now) w) :
    WorldInv (ledgerDiscipline timely) w ∧ Ordered w.store.db ∧ ∀ t x, w.txn t = some x →
      (ledgerIn timely Ordered).wp x.op (x.op.Returns timely) (x.op.Raises timely Ordered) x.prog
        x.ctx w.store := by
  refine WorldInv.promised_of (ledger_sound timely) (ledger_promises timely Ordered)
    (ledger_worldInv_start timely now) (fun _ => rfl) ⟨fun r hr => ?_, fun r hr => ?_⟩
    (fun w w' hinv hordered hstep horder hpromised => hordered.step hinv hstep horder
      hpromised) hrun
  · cases hr
  · cases hr

/-- Whatever commands and prunes interleave, no prune that commits leaving an older row of a
command it has deleted: the stored generations of an identity are distinct, its current row is the
last of them, no insertion is refused, and an identity is refused only while its row has not
expired. -/
theorem generations_usable (hrun : Relation.ReflTransGen
      (fun w w' => Step (ledger timely) w w' ∧ DeletesInOrder w w') (LedgerWorld.start now) w) :
    (∀ r ∈ w.store.db.rows, ∀ r' ∈ w.store.db.rows,
      r'.toCommandIdentityArgs = r.toCommandIdentityArgs → r'.generation = r.generation → r' = r) ∧
    (∀ r ∈ w.store.db.rows, r.isCurrent = true → ∀ r' ∈ w.store.db.rows,
      r'.toCommandIdentityArgs = r.toCommandIdentityArgs → r'.generation ≤ r.generation) ∧
    (∀ t x, w.txn t = some x → x.prog ≠ .raise .integrity) ∧
    ∀ t x request response, w.txn t = some x → x.op = .run request response →
      x.prog = .raise .commandConflict ∨ x.prog = .raise .commandInProgress →
        ∃ row ∈ w.store.db.rows, row.isCurrentOf request.identity = true ∧
          ∃ lockedAt, x.ctx.clocks.head? = some lockedAt ∧ lockedAt < row.expiresAt := by
  obtain ⟨hinv, hordered, hpromised⟩ := ordered_of_run hrun
  refine ⟨hordered.distinct, ?_, ?_, ?_⟩
  · intro r hr hcurrent r' hr' hid
    obtain ⟨top, htop, hcurrent', hid', hle⟩ := hordered.topped r' hr'
    rw [hinv.inv.current r hr top htop hcurrent hcurrent' (hid'.trans hid)] at hle
    exact hle
  · intro t x hx hp
    have hraises := hpromised t x hx
    rw [hp] at hraises
    obtain ⟨op, beganDb, beganAt, prog, ctx⟩ := x
    cases op with
    | run request response =>
        obtain ⟨db, hdb, hnot⟩ := RunRaises.integrity hraises rfl
        exact hnot hdb.topped
    | prune before batchSize =>
        obtain ⟨-, -, message, herr⟩ := hraises
        cases herr
  · intro t x request response hx hop hp
    have hraises := hpromised t x hx
    rw [hop] at hraises
    have hrefused : ∃ row, KeptOut request row x.ctx w.store := by
      rcases hp with hp | hp
      · rw [hp] at hraises
        exact RunRaises.refused hraises (Or.inl rfl)
      · rw [hp] at hraises
        exact RunRaises.refused hraises (Or.inr rfl)
    obtain ⟨row, hrow⟩ := hrefused
    exact ⟨row, Table.mem_of_get hrow.stored, hrow.current, hrow.unexpired⟩

/-- Whether all that is pending deletes older rows. -/
def LedgerWorld.ordersDeletes (w : LedgerWorld) : Bool :=
  w.txns.all fun x => x.all fun x => DeletesOlder w.store.db x.ctx.writes

theorem deletesInOrder_of_ordersDeletes (h : LedgerWorld.ordersDeletes w = true) :
    DeletesInOrder w w' := by
  intro t x out hx _ _
  have hmem : some x ∈ w.txns :=
    List.mem_of_getElem? (Option.join_eq_some_iff.mp hx)
  have hpending := List.all_eq_true.mp h _ hmem
  simpa using hpending

end Runs

namespace Commanding

open scoped Checksum

/-- Two generations of the command, both expired. -/
def expired : List (Act UUID LedgerOp) :=
  completes 0 3 100 ++ .tick 1000000 :: completes 1 5 101 ++ [.tick 2000000]

/-- A prune deletes both, and the command is claimed again. -/
def pruned : List (Act UUID LedgerOp) :=
  expired ++ .start (.prune 2000000 2) :: steps 2 6 ++ .start (.run request none) :: steps 3 3 ++
    [.mint 3 102, .step 3]

/-- A prune that has locked the older generation makes a second one skip it, and rolls back after
the second one has deleted the newer generation; the command is to be claimed again. -/
def skipped : List (Act UUID LedgerOp) :=
  expired ++ .start (.prune 2000000 1) :: steps 2 2 ++ .start (.prune 2000000 1) :: steps 3 5 ++
    .abort 2 :: .start (.run request none) :: steps 4 3 ++ [.mint 4 102, .step 4]

/-- Whether a transaction is about to return a claim. -/
def claims : LedgerTx LedgerOutcome → Bool
  | .ret (.acquired acquisition) => !acquisition.replayed
  | _ => false

/-- Whether an insertion of the transaction was refused. -/
def refused : LedgerTx LedgerOutcome → Bool
  | .raise .integrity => true
  | _ => false

theorem eq_of_refused {p : LedgerTx LedgerOutcome} (h : refused p = true) :
    p = .raise .integrity := by
  unfold refused at h
  split at h
  · rfl
  · cases h

end Commanding

open Checksum Commanding in
/-- After both generations are gone the command is claimed again. -/
theorem generations_usable_pruned : ∃ w : LedgerWorld,
    (∃ x, w.txn 3 = some x ∧ claims x.prog = true) ∧
    ∀ t x, w.txn t = some x → x.prog ≠ .raise .integrity := by
  have hrun : ((LedgerWorld.start 0).runWhile (ledger true) LedgerWorld.ordersDeletes pruned).any
      (fun w => (w.txn 3).any fun x => claims x.prog) = true := by
    decide +kernel
  simp only [Option.any_eq_true] at hrun
  obtain ⟨w, hw, hclaims⟩ := hrun
  have hordered : Relation.ReflTransGen (fun v v' => Step (ledger true) v v' ∧ DeletesInOrder v v')
      (LedgerWorld.start 0) w :=
    (World.run_of_runWhile hw).lift id fun v v' hstep =>
      ⟨hstep.1, deletesInOrder_of_ordersDeletes hstep.2⟩
  exact ⟨w, hclaims, (generations_usable hordered).2.2.1⟩

open Checksum Commanding in
/-- After the older generation was skipped the command is not claimed again. -/
theorem insertion_refused_after_skip : ¬ ∀ w : LedgerWorld,
    Reachable (ledger true) (LedgerWorld.start 0) w →
      ∀ t x, w.txn t = some x → x.prog ≠ .raise .integrity := by
  intro hclaim
  have hrun : ((LedgerWorld.start 0).run (ledger true) skipped).any
      (fun w => (w.txn 4).any fun x => refused x.prog) = true := by
    decide +kernel
  simp only [Option.any_eq_true] at hrun
  obtain ⟨w, hw, x, hx, hrefused⟩ := hrun
  exact hclaim w (World.run_reachable hw) 4 x hx (eq_of_refused hrefused)

end FastapiEffects
