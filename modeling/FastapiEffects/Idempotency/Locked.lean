import FastapiEffects.Idempotency.Ledger
import FastapiEffects.ReadCommitted.Outcome
import FastapiEffects.ReadCommitted.Unique

/-! # What a command knows under its lock

The discipline of the ledger. A transaction that holds the advisory lock of an identity is the
only one to store rows of it and to log commands of it, so what it has read stays true until it
ends. What it knows of the commands before it is in `Timed`, and what it leaves in `Started`.
-/

namespace FastapiEffects

open Python ReadCommitted

variable [Platform]

/-- The committed state. -/
abbrev LedgerStore := Store LedgerKey LedgerRow PyError LedgerOp LedgerOutcome

/-- A transaction of the log. -/
abbrev LedgerEntry := Entry LedgerKey LedgerRow PyError LedgerOp LedgerOutcome

/-- What a transaction of the ledger holds. -/
abbrev LedgerCtx := Ctx LedgerKey LedgerRow UUID

/-! ## Claims -/

/-- A command that was claimed: by which request, with which response when it was completed, as
which command, and when. -/
structure Claim where
  request : AcquireArgs
  response : Option CapturedResponse
  acquisition : Acquisition
  lockedAt : Datetime

/-- The end of the window `[created_at, expires_at)` of a claim. -/
def Claim.expiresAt (d : Claim) : Datetime := d.lockedAt + d.request.ttl

/-- The transaction that claimed a command, in the log. -/
structure Claim.LoggedAs (d : Claim) (e : LedgerEntry) : Prop where
  op : e.op = .run d.request d.response
  result : e.result = .ok (.acquired d.acquisition)
  new : d.acquisition.replayed = false
  time : e.clocks.head? = some d.lockedAt

/-- The row of a claim. -/
structure Claim.Row (d : Claim) (r : LedgerRow) : Prop where
  identity : r.toCommandIdentityArgs = d.request.identity.toCommandIdentityArgs
  commandId : r.commandId = d.acquisition.commandId
  generation : r.generation = d.acquisition.generation
  subjectId : r.subjectId = d.request.principal.subjectId
  fingerprint : r.fingerprint = d.request.fingerprint
  createdAt : r.createdAt = d.lockedAt
  expiresAt : r.expiresAt = d.expiresAt

/-- A completed row that holds a response. -/
structure LedgerRow.Holds (r : LedgerRow) (c : CapturedResponse) : Prop where
  state : r.state = .completed
  status : r.responseStatus = some c.statusCode
  headers : r.responseHeaders = some (jsonbDict c.headers)
  body : r.responseBody = some c.body
  mediaType : r.responseMediaType = some c.mediaType

/-- Two responses with the same status, headers, media type and body. -/
structure CapturedResponse.Same (c c' : CapturedResponse) : Prop where
  status : c'.statusCode = c.statusCode
  headers : c'.headers.items.Perm c.headers.items
  body : c'.body = c.body
  mediaType : c'.mediaType = c.mediaType

/-- How a command that was completed with `c` answers a request: with its response, or with a
conflict when the subject or the fingerprint is another one. -/
def Claim.Answers (d : Claim) (c : CapturedResponse) (request : AcquireArgs)
    (result : Except PyError LedgerOutcome) : Prop :=
  if request.principal.subjectId = d.request.principal.subjectId ∧
      request.fingerprint = d.request.fingerprint then
    ∃ c', c.Same c' ∧ result = .ok (.acquired
      ⟨d.acquisition.commandId, d.acquisition.generation, true, some c', rfl⟩)
  else result = .error .commandConflict

/-- How a transaction fares after the one of `e`: when it acquires the command that `e` has
completed, it comes after the window or is answered from it. -/
def AnsweredAfter (e : LedgerEntry) (op : LedgerOp) (clocks : List Datetime)
    (result : Except PyError LedgerOutcome) : Prop :=
  ∀ (d : Claim) (c : CapturedResponse), d.LoggedAs e → d.response = some c →
    ∀ request response lockedAt, op = .run request response →
      request.identity.toCommandIdentityArgs = d.request.identity.toCommandIdentityArgs →
      clocks.head? = some lockedAt → d.expiresAt ≤ lockedAt ∨ d.Answers c request result

/-- A replay of a command that a transaction of the log has completed, for the same identity,
subject and fingerprint: it returns the response that was stored. -/
structure ReplaysLogged (request : AcquireArgs) (a : Acquisition)
    (log : List LedgerEntry) : Prop where
  origin : ∃ e ∈ log, ∃ (d : Claim) (c c' : CapturedResponse), d.LoggedAs e ∧ d.response = some c ∧
    d.request.identity.toCommandIdentityArgs = request.identity.toCommandIdentityArgs ∧
    d.request.principal.subjectId = request.principal.subjectId ∧
    d.request.fingerprint = request.fingerprint ∧ c.Same c' ∧ a.response = some c'

theorem ReplaysLogged.mono {request : AcquireArgs} {a : Acquisition} {log log' : List LedgerEntry}
    (h : ReplaysLogged request a log) (hlog : log <+: log') : ReplaysLogged request a log' := by
  obtain ⟨e, he, hrest⟩ := h.origin
  exact ⟨e, hlog.subset he, hrest⟩

/-! ## The discipline -/

/-- The name of the advisory lock of an identity. -/
def lockOf (i : CommandIdentityArgs) : LedgerKey := .advisory (advisoryKey i)

/-- A transaction of the log that has read the clock under an advisory lock. -/
def UnderLock (n : ℤ) (e : LedgerEntry) : Prop :=
  ∃ request response, e.op = .run request response ∧
    advisoryKey request.identity.toCommandIdentityArgs = n ∧ e.clocks ≠ []

/-- A claim was made under the lock of its identity. -/
theorem Claim.LoggedAs.underLock {d : Claim} {e : LedgerEntry} (h : d.LoggedAs e)
    {i : CommandIdentityArgs} (hid : i = d.request.identity.toCommandIdentityArgs) :
    UnderLock (advisoryKey i) e := by
  refine ⟨_, _, h.op, by rw [hid], fun hnil => ?_⟩
  have htime := h.time
  rw [hnil] at htime
  cases htime

/-- What the others leave alone while an advisory lock is held: they store no row of its
identities, and log no command of theirs. -/
def ledgerRely : LedgerKey → LedgerStore → LedgerStore → Prop
  | .advisory n, s, s' =>
      (∀ r ∈ s'.db.rows, advisoryKey r.toCommandIdentityArgs = n → r ∈ s.db.rows) ∧
        ∀ e ∈ s'.log, UnderLock n e → e ∈ s.log
  | .command _ _, _, _ => True

/-- What every committed state of the ledger keeps. The last two hold when no cutoff is ahead of
the clock. -/
structure LedgerInv (timely : Bool) (s : LedgerStore) : Prop where
  checked : ∀ r ∈ s.db.rows, r.checks = true
  current : ∀ r ∈ s.db.rows, ∀ r' ∈ s.db.rows, r.isCurrent = true → r'.isCurrent = true →
    r'.toCommandIdentityArgs = r.toCommandIdentityArgs → r' = r
  claimed : ∀ r ∈ s.db.rows, ∃ e ∈ s.log, ∃ d : Claim, d.LoggedAs e ∧ d.Row r ∧
    (r.state = .completed → ∃ c, d.response = some c ∧ r.Holds c)
  kept : timely = true → ∀ e ∈ s.log, ∀ (d : Claim) (c : CapturedResponse), d.LoggedAs e →
    d.response = some c → d.expiresAt ≤ s.now ∨
      ∃ r ∈ s.db.rows, d.Row r ∧ r.isCurrent = true ∧ r.Holds c
  answered : timely = true →
    s.log.Pairwise fun e e' => AnsweredAfter e e'.op e'.clocks e'.result

theorem LedgerInv.atTime {timely : Bool} {s : LedgerStore} {t : Datetime} (h : LedgerInv timely s)
    (ht : s.now ≤ t) : LedgerInv timely (s.atTime t) where
  checked := h.checked
  current := h.current
  claimed := h.claimed
  kept htimely e he d c hd hc :=
    (h.kept htimely e he d c hd hc).imp_left fun hexpired => hexpired.trans ht
  answered := h.answered

theorem ledgerRely_refl (x : LedgerKey) (s : LedgerStore) : ledgerRely x s s := by
  cases x with
  | command tenantId commandId => trivial
  | advisory n => exact ⟨fun r hr _ => hr, fun e he _ => he⟩

theorem ledgerRely_trans (x : LedgerKey) (a b c : LedgerStore) (h : ledgerRely x a b)
    (h' : ledgerRely x b c) : ledgerRely x a c := by
  cases x with
  | command tenantId commandId => trivial
  | advisory n =>
      exact ⟨fun r hr hn => h.1 r (h'.1 r hr hn) hn, fun e he hn => h.2 e (h'.2 e he hn) hn⟩

theorem ledgerRely_tick (x : LedgerKey) (s : LedgerStore) (t : Int) (_ : s.now ≤ t) :
    ledgerRely x s (s.atTime t) := by
  cases x with
  | command tenantId commandId => trivial
  | advisory n => exact ledgerRely_refl (.advisory n) s

/-- The discipline of the ledger. -/
def ledgerDiscipline (timely : Bool) :
    Discipline LedgerKey LedgerRow UUID PyError LedgerOp LedgerOutcome where
  toProtocol := ledger timely
  Inv := LedgerInv timely
  Trans s s' := timely = true → ∀ r ∈ s.db.rows, r.state = .completed → s.now < r.expiresAt →
    r ∈ s'.db.rows
  grows _ _ := True
  rely := ledgerRely
  ids db _ := {i | ∃ r ∈ db.rows, r.commandId = i}
  inv_tick _ _ h ht := h.atTime ht
  grows_refl _ := trivial
  grows_trans _ _ _ _ _ := trivial
  rely_refl := ledgerRely_refl
  rely_trans := ledgerRely_trans
  rely_tick := ledgerRely_tick

/-- The discipline of the runs in which the stored rows always satisfy `J`. -/
abbrev ledgerIn (timely : Bool) (J : LedgerDb → Prop) :
    Discipline LedgerKey LedgerRow UUID PyError LedgerOp LedgerOutcome :=
  (ledgerDiscipline timely).restrict J

/-- Every row of the ledger stands in a generation below or at that of a current row. -/
def Topped (db : LedgerDb) : Prop :=
  ∀ r ∈ db.rows, ∃ r' ∈ db.rows, r'.isCurrent = true ∧
    r'.toCommandIdentityArgs = r.toCommandIdentityArgs ∧ r.generation ≤ r'.generation

/-! ## Under the lock -/

section Locked

variable {timely : Bool} {J : LedgerDb → Prop} {request : AcquireArgs} {found : Option LedgerRow}
  {lockedAt : Datetime} {c c' : LedgerCtx} {s s' : LedgerStore}

/-- What a transaction has found of its command, and what stays so. -/
structure Located (request : AcquireArgs) (found : Option LedgerRow) (c : LedgerCtx)
    (s : LedgerStore) : Prop where
  lock : lockOf request.identity.toCommandIdentityArgs ∈ c.held
  none : found = none → ∀ r ∈ s.db.rows, r.isCurrentOf request.identity = false
  some : ∀ row, found = some row → row.key ∈ c.held ∧ s.db.get row.key = some row ∧
    row.isCurrentOf request.identity = true

theorem Located.env (h : Located request found c s)
    (henv : (ledgerIn timely J).Env c s s') : Located request found c s' where
  lock := h.lock
  none := by
    intro hnone r hr
    by_cases hid : r.toCommandIdentityArgs = request.identity.toCommandIdentityArgs
    · exact h.none hnone r ((henv.rely _ h.lock).1 r hr (by rw [hid]))
    · simp [LedgerRow.isCurrentOf, hid]
  some := by
    intro row hrow
    obtain ⟨hheld, hget, hcurrent⟩ := h.some row hrow
    exact ⟨hheld, (henv.rows _ hheld).trans hget, hcurrent⟩

theorem Located.mono (h : Located request found c s) (hheld : c.held ⊆ c'.held) :
    Located request found c' s where
  lock := hheld h.lock
  none := h.none
  some := fun row hrow => ⟨hheld (h.some row hrow).1, (h.some row hrow).2⟩

/-- The row that was found is the only current one of its identity. -/
theorem Located.eq_of_current (hinv : LedgerInv timely s) (h : Located request found c s)
    {r : LedgerRow} (hr : r ∈ s.db.rows) (hcurrent : r.isCurrent = true)
    (hid : r.toCommandIdentityArgs = request.identity.toCommandIdentityArgs) : found = .some r := by
  cases hfound : found with
  | none =>
      have hnot := h.none hfound r hr
      simp [LedgerRow.isCurrentOf, hid, hcurrent] at hnot
  | some row =>
      obtain ⟨-, hget, hmatch⟩ := h.some row hfound
      have hmatch := of_decide_eq_true hmatch
      rw [hinv.current row (Table.mem_of_get hget) r hr hmatch.2 hcurrent (hid.trans hmatch.1.symm)]

/-- What it knows besides, once it has read the clock. -/
structure Timed (timely : Bool) (request : AcquireArgs) (found : Option LedgerRow)
    (lockedAt : Datetime) (c : LedgerCtx) (s : LedgerStore) : Prop
    extends Located request found c s where
  clock : c.clocks.head? = .some lockedAt
  time : lockedAt ≤ s.now
  past : timely = true → ∀ e ∈ s.log, ∀ (d : Claim) (response : CapturedResponse), d.LoggedAs e →
    d.response = .some response →
      request.identity.toCommandIdentityArgs = d.request.identity.toCommandIdentityArgs →
        d.expiresAt ≤ lockedAt ∨ ∃ row, found = .some row ∧ d.Row row ∧ row.Holds response

theorem Timed.env (h : Timed timely request found lockedAt c s)
    (henv : (ledgerIn timely J).Env c s s') :
    Timed timely request found lockedAt c s' where
  toLocated := h.toLocated.env henv
  clock := h.clock
  time := h.time.trans henv.time
  past := by
    intro htimely e he d response hd hresponse hid
    exact h.past htimely e ((henv.rely _ h.lock).2 e he (hd.underLock hid)) d response hd hresponse
      hid

theorem Timed.mono (h : Timed timely request found lockedAt c s) (hheld : c.held ⊆ c'.held)
    (hclocks : c.clocks <+: c'.clocks) : Timed timely request found lockedAt c' s where
  toLocated := h.toLocated.mono hheld
  clock := by
    obtain ⟨rest, hrest⟩ := hclocks
    rw [← hrest, List.head?_append, h.clock]
    rfl
  time := h.time
  past := h.past

/-- Reading the clock under the lock. -/
theorem Located.timed (h : Located request found c s) (hinv : LedgerInv timely s)
    (hclocks : c.clocks = []) : Timed timely request found s.now (c.tell s.now) s where
  toLocated := h.mono (List.Subset.refl _)
  clock := by simp [Ctx.tell, hclocks]
  time := le_rfl
  past := by
    intro htimely e he d response hd hresponse hid
    refine (hinv.kept htimely e he d response hd hresponse).imp_right ?_
    rintro ⟨r, hr, hrow, hcurrent, hholds⟩
    exact ⟨r, h.eq_of_current hinv hr hcurrent (hrow.identity.trans hid.symm), hrow, hholds⟩

/-- What a transaction leaves stays so. -/
theorem answeredAfter_env (hlock : c.clocks ≠ [] →
    lockOf request.identity.toCommandIdentityArgs ∈ c.held)
    {response : Option CapturedResponse} {result : Except PyError LedgerOutcome}
    (h : ∀ e ∈ s.log, AnsweredAfter e (.run request response) c.clocks result)
    (henv : (ledgerIn timely J).Env c s s') :
    ∀ e ∈ s'.log, AnsweredAfter e (.run request response) c.clocks result := by
  intro e he d held hd hheld request' response' lockedAt hop hid hclock
  cases hop
  have hclocks : c.clocks ≠ [] := by
    rintro hnil
    rw [hnil] at hclock
    cases hclock
  exact h e ((henv.rely _ (hlock hclocks)).2 e he (hd.underLock hid)) d held hd hheld _ _ lockedAt
    rfl hid hclock

/-- Every answer is one after the windows before it when the row that was found has expired. -/
theorem Timed.answeredAfter (h : Timed timely request found lockedAt c s) (htimely : timely = true)
    (hgone : ∀ row, found = .some row → row.expiresAt ≤ lockedAt) {e : LedgerEntry} (he : e ∈ s.log)
    (response : Option CapturedResponse) (result : Except PyError LedgerOutcome) :
    AnsweredAfter e (.run request response) c.clocks result := by
  intro d held hd hheld request' response' lockedAt' hop hid hclock
  cases hop
  rw [h.clock] at hclock
  cases hclock
  left
  rcases h.past htimely e he d held hd hheld hid with hexpired | ⟨row, hfound, hrow, -⟩
  · exact hexpired
  · exact hrow.expiresAt ▸ hgone row hfound

/-- What a transaction knows that goes on to insert a row: the row that was found has expired, and
is superseded. -/
structure Ready (timely : Bool) (request : AcquireArgs) (found : Option LedgerRow)
    (lockedAt : Datetime) (c : LedgerCtx) (s : LedgerStore) : Prop
    extends Timed timely request found lockedAt c s where
  expired : ∀ p, found = .some p → p.expiresAt ≤ lockedAt
  effect : ∀ (db : LedgerDb) r, r ∈ (db.install c.writes).rows ↔
    (∃ p, found = .some p ∧ r = p.supersede lockedAt) ∨
      (r ∈ db.rows ∧ ∀ p, found = .some p → r.key ≠ p.key)

/-- What a transaction leaves that has claimed a command as `d`, whose row it has made `row`. -/
structure Started (timely : Bool) (request : AcquireArgs) (found : Option LedgerRow) (d : Claim)
    (row : LedgerRow) (c : LedgerCtx) (s : LedgerStore) : Prop
    extends Timed timely request found d.lockedAt c s where
  expired : ∀ p, found = .some p → p.expiresAt ≤ d.lockedAt
  request : d.request = request
  new : d.acquisition.replayed = false
  claim : d.Row row
  current : row.isCurrent = true
  checks : row.checks = true
  generation : row.generation = (found.map fun p => p.generation + 1).getD 1
  id : row.commandId ∈ c.ids
  apart : ∀ p, found = .some p → p.key ≠ row.key
  effect : ∀ (db : LedgerDb) r, r ∈ (db.install c.writes).rows ↔
    r = row ∨ (∃ p, found = .some p ∧ r = p.supersede d.lockedAt) ∨
      (r ∈ db.rows ∧ r.key ≠ row.key ∧ ∀ p, found = .some p → r.key ≠ p.key)

theorem Ready.env (h : Ready timely request found lockedAt c s)
    (henv : (ledgerIn timely J).Env c s s') : Ready timely request found lockedAt c s' where
  toTimed := h.toTimed.env henv
  expired := h.expired
  effect := h.effect

theorem Ready.mono (h : Ready timely request found lockedAt c s) (hheld : c.held ⊆ c'.held)
    (hclocks : c.clocks <+: c'.clocks) (hwrites : c'.writes = c.writes) :
    Ready timely request found lockedAt c' s where
  toTimed := h.toTimed.mono hheld hclocks
  expired := h.expired
  effect := by
    rw [hwrites]
    exact h.effect

variable {d : Claim} {row : LedgerRow}

theorem Started.env (h : Started timely request found d row c s)
    (henv : (ledgerIn timely J).Env c s s') : Started timely request found d row c s' :=
  { h with toTimed := h.toTimed.env henv }

theorem Started.mono (h : Started timely request found d row c s) (hheld : c.held ⊆ c'.held)
    (hclocks : c.clocks <+: c'.clocks) (hids : c.ids ⊆ c'.ids) (hwrites : c'.writes = c.writes) :
    Started timely request found d row c' s :=
  { h with
    toTimed := h.toTimed.mono hheld hclocks
    id := hids h.id
    effect := by
      rw [hwrites]
      exact h.effect }

/-- The row that keeps a request out, as it stays while the transaction runs. -/
structure KeptOut (request : AcquireArgs) (row : LedgerRow) (c : LedgerCtx) (s : LedgerStore) :
    Prop where
  held : row.key ∈ c.held
  stored : s.db.get row.key = .some row
  current : row.isCurrentOf request.identity = true
  unexpired : ∃ lockedAt, c.clocks.head? = .some lockedAt ∧ lockedAt < row.expiresAt

/-- What a transaction that acquires leaves when it raises. -/
structure RunRaises (timely : Bool) (J : LedgerDb → Prop) (request : AcquireArgs)
    (response : Option CapturedResponse) (e : PyError) (c : LedgerCtx)
    (s : LedgerStore) : Prop where
  lock : c.clocks ≠ [] → lockOf request.identity.toCommandIdentityArgs ∈ c.held
  answered : timely = true → ∀ entry ∈ s.log,
    AnsweredAfter entry (.run request response) c.clocks (.error e)
  conflict : e = .commandConflict → c.writes = []
  refused : e = .commandConflict ∨ e = .commandInProgress → ∃ row, KeptOut request row c s
  integrity : e = .integrity → ∃ db, J db ∧ ¬ Topped db

/-- What a transaction that acquires leaves when it returns: it has changed nothing, or claimed a
command, and completed it when it has a response. -/
structure RunReturns (timely : Bool) (request : AcquireArgs) (response : Option CapturedResponse)
    (a : Acquisition) (c : LedgerCtx) (s : LedgerStore) : Prop where
  lock : lockOf request.identity.toCommandIdentityArgs ∈ c.held
  answered : timely = true → ∀ entry ∈ s.log,
    AnsweredAfter entry (.run request response) c.clocks (.ok (.acquired a))
  logged : a.replayed = true → ReplaysLogged request a s.log
  effect : (a.replayed = true ∧ c.writes = []) ∨
    ∃ found d row, Started timely request found d row c s ∧ d.response = response ∧
      d.acquisition = a ∧ (response = none → row.state = .inProgress) ∧
      ∀ held, response = some held → row.Holds held

/-- Other errors than these say nothing. -/
theorem Timed.raises (h : Timed timely request found lockedAt c s)
    (hgone : ∀ row, found = .some row → row.expiresAt ≤ lockedAt) {e : PyError}
    (response : Option CapturedResponse) (hconflict : e ≠ .commandConflict)
    (hprogress : e ≠ .commandInProgress) (hintegrity : e ≠ .integrity) :
    RunRaises timely J request response e c s where
  lock _ := h.lock
  answered htimely _ hentry := h.answeredAfter htimely hgone hentry response _
  conflict heq := absurd heq hconflict
  refused heq := absurd heq (not_or.mpr ⟨hconflict, hprogress⟩)
  integrity heq := absurd heq hintegrity

theorem RunRaises.env {response : Option CapturedResponse} {e : PyError}
    (h : RunRaises timely J request response e c s) (henv : (ledgerIn timely J).Env c s s') :
    RunRaises timely J request response e c s' where
  lock := h.lock
  answered htimely := answeredAfter_env h.lock (h.answered htimely) henv
  conflict := h.conflict
  refused hrefused := by
    obtain ⟨row, hrow⟩ := h.refused hrefused
    exact ⟨row, { hrow with stored := (henv.rows _ hrow.held).trans hrow.stored }⟩
  integrity := h.integrity

theorem RunReturns.env {response : Option CapturedResponse} {a : Acquisition}
    (h : RunReturns timely request response a c s) (henv : (ledgerIn timely J).Env c s s') :
    RunReturns timely request response a c s' where
  lock := h.lock
  answered htimely := answeredAfter_env (fun _ => h.lock) (h.answered htimely) henv
  logged hreplayed := (h.logged hreplayed).mono henv.log
  effect := by
    refine h.effect.imp_right ?_
    rintro ⟨found, d, row, hstarted, hrest⟩
    exact ⟨found, d, row, hstarted.env henv, hrest⟩

end Locked

end FastapiEffects
