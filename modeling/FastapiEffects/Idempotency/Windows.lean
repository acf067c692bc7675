import FastapiEffects.Idempotency.Committed
import FastapiEffects.Sqlalchemy.Canonical

/-! # The windows of commands

What the discipline gives of every run of the ledger. With cutoffs at or before the time of the
database a completed command answers for its identity until it expires, and no prune deletes it
before; with a cutoff ahead of the clock one does, and the command is executed again.
-/

namespace FastapiEffects

open Python ReadCommitted

section Runs

variable [Platform] {timely : Bool} {now : Datetime} {w w' : LedgerWorld} {t : ℕ}
  {x : Txn LedgerKey LedgerRow UUID PyError LedgerOp LedgerOutcome}

/-- The empty ledger. -/
theorem ledgerInv_start (timely : Bool) (now : Datetime) :
    LedgerInv timely (LedgerWorld.start now).store where
  checked _ hr := by cases hr
  current _ hr := by cases hr
  claimed _ hr := by cases hr
  kept _ _ he := by cases he
  answered _ := List.Pairwise.nil

theorem ledger_worldInv_start (timely : Bool) (now : Datetime) :
    WorldInv (ledgerDiscipline timely) (LedgerWorld.start now) := by
  refine WorldInv.of_idle ⟨rfl, fun _ => rfl⟩ (ledgerInv_start timely now) fun i hi => ?_
  obtain ⟨r, hr, -⟩ := hi
  cases hr

/-- Every reachable ledger keeps the discipline. -/
theorem ledger_worldInv (hreach : Reachable (ledger timely) (LedgerWorld.start now) w) :
    WorldInv (ledgerDiscipline timely) w :=
  (ledger_worldInv_start timely now).reachable (ledger_sound timely) hreach

/-- Every running transaction keeps what its program promises. -/
theorem ledger_promised (hreach : Reachable (ledger timely) (LedgerWorld.start now) w)
    (hx : w.txn t = some x) :
    (ledgerIn timely fun _ => True).wp x.op (x.op.Returns timely)
      (x.op.Raises timely fun _ => True) x.prog x.ctx w.store := by
  have hrun : Relation.ReflTransGen (fun w w' => Step (ledger timely) w w' ∧ True)
      (LedgerWorld.start now) w := hreach.lift id fun _ _ hstep => ⟨hstep, trivial⟩
  have hall := WorldInv.promised_of (ledger_sound timely) (ledger_promises timely fun _ => True)
    (ledger_worldInv_start timely now) (fun _ => rfl) trivial (fun _ _ _ _ _ _ _ => trivial) hrun
  exact hall.2.2 t x hx

/-- A transaction that is about to return is answered after those of the log. -/
theorem answered_of_ret (hreach : Reachable (ledger true) (LedgerWorld.start now) w)
    (hx : w.txn t = some x) {out : LedgerOutcome} (hp : x.prog = .ret out) {e : LedgerEntry}
    (he : e ∈ w.store.log) : AnsweredAfter e x.op x.ctx.clocks (.ok out) := by
  have hpromised := ledger_promised hreach hx
  rw [hp] at hpromised
  obtain ⟨op, beganDb, beganAt, prog, ctx⟩ := x
  cases op with
  | run request response =>
      obtain ⟨a, rfl, hreturns⟩ := hpromised
      exact hreturns.answered rfl e he
  | prune before batchSize =>
      intro d c _ _ request response lockedAt hrun
      cases hrun

/-- So is one that is about to raise. -/
theorem answered_of_raise (hreach : Reachable (ledger true) (LedgerWorld.start now) w)
    (hx : w.txn t = some x) {err : PyError} (hp : x.prog = .raise err) {e : LedgerEntry}
    (he : e ∈ w.store.log) : AnsweredAfter e x.op x.ctx.clocks (.error err) := by
  have hpromised := ledger_promised hreach hx
  rw [hp] at hpromised
  obtain ⟨op, beganDb, beganAt, prog, ctx⟩ := x
  cases op with
  | run request response => exact RunRaises.answered hpromised rfl e he
  | prune before batchSize =>
      intro d c _ _ request response lockedAt hrun
      cases hrun

/-- A conflict leaves nothing pending. -/
theorem writes_of_conflict (hreach : Reachable (ledger timely) (LedgerWorld.start now) w)
    (hx : w.txn t = some x) (hp : x.prog = .raise .commandConflict) : x.ctx.writes = [] := by
  have hpromised := ledger_promised hreach hx
  rw [hp] at hpromised
  obtain ⟨op, beganDb, beganAt, prog, ctx⟩ := x
  cases op with
  | run request response => exact RunRaises.conflict hpromised rfl
  | prune before batchSize => exact And.left hpromised

/-- Two claims of one identity that were both completed have windows that do not overlap. -/
theorem AnsweredAfter.disjoint {e e' : LedgerEntry} (h : AnsweredAfter e e'.op e'.clocks e'.result)
    {d d' : Claim} {c : CapturedResponse} (hd : d.LoggedAs e) (hd' : d'.LoggedAs e')
    (hc : d.response = some c)
    (hid : d'.request.identity.toCommandIdentityArgs = d.request.identity.toCommandIdentityArgs) :
    d.expiresAt ≤ d'.lockedAt := by
  refine (h d c hd hc _ _ _ hd'.op hid hd'.time).resolve_right fun hanswers => ?_
  unfold Claim.Answers at hanswers
  rw [hd'.result] at hanswers
  split_ifs at hanswers
  obtain ⟨c', -, hreplayed⟩ := hanswers
  have hnew := hd'.new
  rw [LedgerOutcome.acquired.inj (Except.ok.inj hreplayed)] at hnew
  cases hnew

/-- The command of an identity is executed once in its window. -/
structure AtMostOnce (w : LedgerWorld) : Prop where
  /-- The windows of the completed commands of one identity do not overlap. -/
  windows : w.store.log.Pairwise fun e e' => ∀ (d d' : Claim) (c c' : CapturedResponse),
    d.LoggedAs e → d'.LoggedAs e' → d.response = some c → d'.response = some c' →
      d'.request.identity.toCommandIdentityArgs = d.request.identity.toCommandIdentityArgs →
        d.expiresAt ≤ d'.lockedAt
  /-- Until it expires, the completed command stands in its row. -/
  kept : ∀ e ∈ w.store.log, ∀ (d : Claim) (c : CapturedResponse), d.LoggedAs e →
    d.response = some c → d.expiresAt ≤ w.store.now ∨
      ∃ r ∈ w.store.db.rows, d.Row r ∧ r.isCurrent = true ∧ r.Holds c
  /-- A later transaction that acquires the command in the window is answered from it. -/
  answered : w.store.log.Pairwise fun e e' => AnsweredAfter e e'.op e'.clocks e'.result
  /-- So is one that has not committed yet, whether or not it will. -/
  returning : ∀ t x, w.txn t = some x → ∀ out, x.prog = .ret out → ∀ e ∈ w.store.log,
    AnsweredAfter e x.op x.ctx.clocks (.ok out)
  raising : ∀ t x, w.txn t = some x → ∀ err, x.prog = .raise err → ∀ e ∈ w.store.log,
    AnsweredAfter e x.op x.ctx.clocks (.error err)
  conflict : ∀ t x, w.txn t = some x → x.prog = .raise .commandConflict → x.ctx.writes = []
  /-- Every row was claimed by a transaction that has committed. -/
  claimed : ∀ r ∈ w.store.db.rows, ∃ e ∈ w.store.log, ∃ d : Claim, d.LoggedAs e ∧ d.Row r

/-- Whatever acquires, completions, rollbacks and prunes interleave, no cutoff being ahead of the
clock: a command is executed once at most in the window of its completion. -/
theorem ledger_at_most_once (hreach : Reachable (ledger true) (LedgerWorld.start now) w) :
    AtMostOnce w where
  windows := by
    refine ((ledger_worldInv hreach).inv.answered rfl).imp ?_
    intro e e' hanswered d d' c c' hd hd' hc _ hid
    exact hanswered.disjoint hd hd' hc hid
  kept := (ledger_worldInv hreach).inv.kept rfl
  answered := (ledger_worldInv hreach).inv.answered rfl
  returning _ _ hx _ hp _ he := answered_of_ret hreach hx hp he
  raising _ _ hx _ hp _ he := answered_of_raise hreach hx hp he
  conflict _ _ hx hp := writes_of_conflict hreach hx hp
  claimed r hr := by
    obtain ⟨e, he, d, hd, hrow, -⟩ := (ledger_worldInv hreach).inv.claimed r hr
    exact ⟨e, he, d, hd, hrow⟩

/-- No step deletes a completed command before it expires, and a request of it is still answered
with its response, as long as no cutoff is ahead of the clock. -/
theorem prune_keeps_unexpired (hreach : Reachable (ledger true) (LedgerWorld.start now) w) :
    (∀ w', Step (ledger true) w w' → ∀ r ∈ w.store.db.rows, r.state = .completed →
      w.store.now < r.expiresAt → r ∈ w'.store.db.rows) ∧
    ∀ t x, w.txn t = some x → ∀ request response lockedAt, x.op = .run request response →
      x.ctx.clocks.head? = some lockedAt → ∀ e ∈ w.store.log, ∀ (d : Claim) (c : CapturedResponse),
        d.LoggedAs e → d.response = some c → lockedAt < d.expiresAt →
          request.identity.toCommandIdentityArgs = d.request.identity.toCommandIdentityArgs →
            (∀ out, x.prog = .ret out → d.Answers c request (.ok out)) ∧
              ∀ err, x.prog = .raise err → d.Answers c request (.error err) := by
  constructor
  · intro w' hstep r hr hstate hexpires
    rcases (ledger_worldInv hreach).step_trans hstep with ⟨hdb, -⟩ | htrans
    · rw [hdb]
      exact hr
    · exact htrans rfl r hr hstate hexpires
  · intro t x hx request response lockedAt hop hclock e he d c hd hc hwindow hid
    constructor
    · intro out hp
      exact (answered_of_ret hreach hx hp he d c hd hc request response lockedAt hop hid
        hclock).resolve_left (not_le.mpr hwindow)
    · intro err hp
      exact (answered_of_raise hreach hx hp he d c hd hc request response lockedAt hop hid
        hclock).resolve_left (not_le.mpr hwindow)

end Runs

/-! A command that lives for a second, and what happens to it. -/

namespace Commanding

open scoped Checksum

def principalArgs : PrincipalArgs := { tenantId := 1, subjectId := "s", issuedAt := 0 }

theorem principal_valid : principalArgs.postInit = .ok () := by decide +kernel

def identityArgs : CommandIdentityArgs := ⟨1, "r", "POST", List.replicate 32 0⟩

theorem identity_valid : identityArgs.postInit = .ok () := by decide +kernel

def request : AcquireArgs where
  principal := ⟨principalArgs, List.nodup_nil, principal_valid⟩
  identity := ⟨identityArgs, identity_valid⟩
  fingerprint := ⟨1, Vector.replicate 32 0⟩
  version := rfl
  ttl := 1000000

def responseArgs : CapturedArgs := ⟨200, "text/plain", [], Dict.empty⟩

theorem response_made : responseArgs.postInit = .ok responseArgs := by decide +kernel

def response : CapturedResponse := ⟨responseArgs, responseArgs, response_made⟩

/-- Some statements of a transaction. -/
def steps (t n : ℕ) : List (Act UUID LedgerOp) := List.replicate n (.step t)

/-- The transaction `t` claims the command as `i` after some statements, completes it
and commits. -/
def completes (t n : ℕ) (i : UUID) : List (Act UUID LedgerOp) :=
  .start (.run request (some response)) :: steps t n ++ .mint t i :: steps t 5

/-- A second transaction has acquired the command. -/
def replaying : List (Act UUID LedgerOp) :=
  completes 0 3 100 ++ .start (.run request none) :: steps 1 4

/-- A second transaction is about to commit what it has pruned. -/
def pruning (before : Datetime) (n : ℕ) : List (Act UUID LedgerOp) :=
  completes 0 3 100 ++ .start (.prune before 1) :: steps 1 n

/-- Whether a transaction is about to return a replay. -/
def replays : LedgerTx LedgerOutcome → Bool
  | .ret (.acquired acquisition) => acquisition.replayed
  | _ => false

end Commanding

open Checksum Commanding in
/-- The second request is answered by the first. -/
theorem ledger_at_most_once_replayed : ∃ w : LedgerWorld, w.store.log.length = 1 ∧
    (∃ x, w.txn 1 = some x ∧ replays x.prog = true) ∧ AtMostOnce w := by
  have hrun : ((LedgerWorld.start 0).run (ledger true) replaying).any (fun w =>
      w.store.log.length = 1 ∧ (w.txn 1).any fun x => replays x.prog) = true := by
    decide +kernel
  simp only [Option.any_eq_true, decide_eq_true_eq] at hrun
  obtain ⟨w, hw, hlength, x, hx, hreplays⟩ := hrun
  exact ⟨w, hlength, ⟨x, hx, hreplays⟩, ledger_at_most_once (World.run_reachable hw)⟩

open Checksum Commanding in
/-- A prune up to now leaves the command. -/
theorem prune_keeps_unexpired_now : ∃ (w : LedgerWorld) (r : LedgerRow), r ∈ w.store.db.rows ∧
    r.state = .completed ∧ w.store.now < r.expiresAt ∧
      ∀ w', Step (ledger true) w w' → r ∈ w'.store.db.rows := by
  have hrun : ((LedgerWorld.start 0).run (ledger true) (pruning 0 1)).any (fun w =>
      w.store.db.rows.any fun r => r.state = .completed ∧ w.store.now < r.expiresAt) = true := by
    decide +kernel
  simp only [Option.any_eq_true, List.any_eq_true, decide_eq_true_eq] at hrun
  obtain ⟨w, hw, r, hr, hstate, hexpires⟩ := hrun
  refine ⟨w, r, hr, hstate, hexpires, fun w' hstep => ?_⟩
  exact (prune_keeps_unexpired (World.run_reachable hw)).1 w' hstep r hr hstate hexpires

open Checksum Commanding in
/-- A prune up to a later time deletes it. -/
theorem prune_deletes_unexpired : ¬ ∀ w w' : LedgerWorld,
    Reachable (ledger false) (LedgerWorld.start 0) w → Step (ledger false) w w' →
      ∀ r ∈ w.store.db.rows, r.state = .completed → w.store.now < r.expiresAt →
        r ∈ w'.store.db.rows := by
  intro hclaim
  have hrun : ((LedgerWorld.start 0).run (ledger false) (pruning 1000000 3)).any (fun w =>
      (w.store.db.rows.any fun r => r.state = .completed ∧ w.store.now < r.expiresAt) &&
        (w.act (ledger false) (.step 1)).any fun w' => w'.store.db.rows = []) = true := by
    decide +kernel
  simp only [Option.any_eq_true, Bool.and_eq_true, List.any_eq_true, decide_eq_true_eq] at hrun
  obtain ⟨w, hw, ⟨r, hr, hstate, hexpires⟩, w', hw', hgone⟩ := hrun
  have hkept := hclaim w w' (World.run_reachable hw) (World.step_of_act hw') r hr hstate hexpires
  rw [hgone] at hkept
  cases hkept

end FastapiEffects
