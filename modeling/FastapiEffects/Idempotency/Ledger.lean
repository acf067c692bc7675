import FastapiEffects.Core.Principal
import FastapiEffects.Idempotency.Responses
import FastapiEffects.ReadCommitted.Runner
import FastapiEffects.Sqlalchemy.Repository
import Mathlib.Data.List.Lex
import Mathlib.Data.List.Sort
import Mathlib.Data.Prod.Lex

/-! # The command ledger

`CommandStore` as transactions on the table of commands. A command is claimed under the advisory
lock of its identity and completed in the same transaction; it is replayed until it expires, and
superseded by a next generation afterwards. Pruning deletes expired rows in bounded batches,
past the rows others have locked.
-/

namespace FastapiEffects

open Python ReadCommitted

/-! ## Identities -/

/-- The arguments of `CommandIdentity(...)`, which are columns of a command. -/
structure CommandIdentityArgs where
  tenantId : UUID
  routeId : Str
  method : Str
  keyDigest : Bytes
deriving DecidableEq

/-- `_ROUTE`. -/
def isCommandRoute (s : Str) : Bool :=
  s.fullmatch (PyChar.isIn [('a', 'z'), ('0', '9')] [])
    (PyChar.isIn [('a', 'z'), ('0', '9')] ['.', '_', '-']) 127

/-- `_METHOD`. -/
def isCommandMethod (s : Str) : Bool :=
  3 ≤ s.length ∧ s.length ≤ 16 ∧ s.all (PyChar.isIn [('A', 'Z')] [])

/-- `CommandIdentity.__post_init__`. -/
def CommandIdentityArgs.postInit (i : CommandIdentityArgs) : Except PyError Unit := do
  check (isCommandRoute i.routeId) (.configuration "Command route identity is invalid.")
  check (isCommandMethod i.method) (.configuration "Command method is invalid.")
  check (i.keyDigest.length = 32) (.configuration "Command key digest is invalid.")

/-- `CommandIdentity`. -/
structure CommandIdentity extends CommandIdentityArgs where
  valid : toCommandIdentityArgs.postInit = .ok ()
deriving DecidableEq

/-- `int.from_bytes(bs, byteorder="big", signed=True)`. -/
def signedBig (bs : Bytes) : ℤ :=
  (BitVec.ofNat (8 * bs.length) (bs.foldl (fun n b => 256 * n + b.toNat) 0)).toInt

/-- `s.encode("ascii")` of ASCII text. -/
def encodeAscii (s : Str) : Bytes := s.map fun c => UInt8.ofNat c.ord

/-- `_advisory_key`. -/
def advisoryKey [Platform] (i : CommandIdentityArgs) : ℤ :=
  signedBig ((Platform.sha256 (encodeAscii "fastapi_effects:command-lock:v1" ++ [0] ++
    i.tenantId.bytes ++ encodeAscii i.routeId ++ [0] ++ encodeAscii i.method ++ [0] ++
    i.keyDigest)).toList.take 8)

/-! ## Rows -/

deriving instance DecidableEq for Dict, CommandRow, CapturedArgs

/-- `CommandRow`, with all of its columns; `fingerprint` holds the version and the digest. -/
structure LedgerRow extends CommandIdentityArgs, CommandRow where
  commandId : UUID
  generation : ℤ
  subjectId : Str
  fingerprint : RequestFingerprint
  expiresAt : Datetime
deriving DecidableEq

/-- The primary keys of the table, and the names of advisory locks. -/
inductive LedgerKey where
  | command (tenantId commandId : UUID)
  | advisory (key : ℤ)
deriving DecidableEq

namespace LedgerRow

def key (r : LedgerRow) : LedgerKey := .command r.tenantId r.commandId

/-- Two rows with one identity and one generation. The partial index that allows one current row
of an identity has nothing to add, since no row is inserted beside a current one. -/
def clash (r r' : LedgerRow) : Bool :=
  r.toCommandIdentityArgs = r'.toCommandIdentityArgs ∧ r.generation = r'.generation

theorem clash_comm (r r' : LedgerRow) : r.clash r' = r'.clash r := by
  simp only [clash, eq_comm]

/-- The `CHECK`s of the table. -/
def checks (r : LedgerRow) : Bool :=
  r.toCommandRow.coherent ∧ r.keyDigest.length = 32 ∧ 0 < r.generation ∧ 0 < r.fingerprint.version ∧
    r.createdAt < r.expiresAt

/-- Whether the columns can hold the values. -/
def fits (r : LedgerRow) : Bool :=
  r.generation ≤ maxInteger ∧ r.fingerprint.version ≤ maxInteger ∧ storableText r.subjectId ∧
    r.subjectId.length ≤ 512

/-- The row the select of `acquire` is after. -/
def isCurrentOf (identity : CommandIdentity) (r : LedgerRow) : Bool :=
  r.toCommandIdentityArgs = identity.toCommandIdentityArgs ∧ r.isCurrent

/-- The row that `acquire` marks as superseded. -/
def supersede (r : LedgerRow) (lockedAt : Datetime) : LedgerRow :=
  { r with
    state := .superseded
    isCurrent := false
    supersededAt := some lockedAt
    updatedAt := lockedAt }

/-- `state IN ('completed', 'superseded') AND expires_at <= cutoff`. -/
def prunable (cutoff : Datetime) (r : LedgerRow) : Bool :=
  (r.state = .completed ∨ r.state = .superseded) ∧ r.expiresAt ≤ cutoff

/-- `ORDER BY expires_at, command_id`. -/
def age (r : LedgerRow) : ℤ ×ₗ ℕ := toLex (r.expiresAt, r.commandId.toNat)

end LedgerRow

instance : Schema LedgerKey LedgerRow := ⟨LedgerRow.key, LedgerRow.clash, LedgerRow.clash_comm⟩

/-- The place of a key among the members of a `jsonb` object: by length, then by bytes. -/
def jsonbOrder (key : Str) : ℕ ×ₗ List ℕ :=
  let bytes := key.encode?.getD []
  toLex (bytes.length, bytes.map UInt8.toNat)

/-- The members in the order of `jsonb`. -/
def jsonbItems (items : List (Str × Str)) : List (Str × Str) :=
  items.insertionSort fun m m' => jsonbOrder m.1 ≤ jsonbOrder m'.1

theorem jsonbItems_perm (items : List (Str × Str)) : (jsonbItems items).Perm items :=
  List.perm_insertionSort _ _

theorem nodup_jsonbItems {items : List (Str × Str)} (h : (items.map Prod.fst).Nodup) :
    ((jsonbItems items).map Prod.fst).Nodup :=
  ((jsonbItems_perm items).map Prod.fst).nodup_iff.mpr h

/-- What a `jsonb` column returns of a dictionary of texts. -/
def jsonbDict (d : Dict Str Str) : Dict Str Str := ⟨jsonbItems d.items, nodup_jsonbItems d.nodup⟩

/-- What the table keeps of the columns of a response. -/
def CommandRow.stored (row : CommandRow) : CommandRow :=
  { row with responseHeaders := row.responseHeaders.map jsonbDict }

/-! ## Statements -/

/-- The ledger. -/
abbrev LedgerDb := Table LedgerKey LedgerRow

/-- A part of a transaction on it. -/
abbrev LedgerTx (α : Type) := Prog LedgerKey LedgerRow UUID PyError α

namespace LedgerTx

/-- Raise what a computation of the client raises. -/
abbrev lift {α : Type} (x : Except PyError α) : LedgerTx α := .ofExcept x

/-- `DatabaseClock.now`. -/
def now : LedgerTx Datetime := .clock .ret

/-- `pg_advisory_xact_lock`. -/
def advisoryLock (key : ℤ) : LedgerTx Unit := .advisory (.advisory key) (.ret ())

/-- Whether a row passes the checks of the table. -/
def accept (r : LedgerRow) : Except PyError Unit := do
  check r.fits .data
  check r.checks .integrity

/-- `UPDATE` of one row. -/
def updateRow (r : LedgerRow) : LedgerTx Unit := do
  lift (accept r)
  Prog.put r (.ret ())

/-- `INSERT` of one row. -/
def insertRow (r : LedgerRow) : LedgerTx Unit := do
  lift (accept r)
  Prog.insert r fun stored => if stored then .ret () else .raise .integrity

/-- `SELECT ... FOR UPDATE` of the current row of an identity, whose latest version is held
against the conditions again. -/
def selectCurrent (identity : CommandIdentity) : LedgerTx (Option LedgerRow) :=
  .scan fun rows =>
    match rows.find? (LedgerRow.isCurrentOf identity) with
    | none => .ret none
    | some row => .lock row.key fun found => .ret (found.filter (LedgerRow.isCurrentOf identity))

end LedgerTx

/-! ## Acquiring and completing -/

variable [Platform]

/-- The arguments of `acquire`; `RequestFingerprint.__post_init__` has accepted the fingerprint. -/
structure AcquireArgs where
  principal : Principal
  identity : CommandIdentity
  fingerprint : RequestFingerprint
  version : fingerprint.version = fingerprintVersion
  ttl : Timedelta

/-- `CommandAcquisition`. -/
structure Acquisition where
  commandId : UUID
  generation : ℤ
  replayed : Bool
  response : Option CapturedResponse
  coherent : replayed = response.isSome

omit [Platform] in
/-- `_validate_request`. -/
def AcquireArgs.validate (r : AcquireArgs) : Except PyError Unit := do
  check (r.principal.tenantId = r.identity.tenantId)
    (.configuration "Command identity tenant does not match its principal.")
  check (1000000 ≤ r.ttl ∧ r.ttl ≤ 365 * 86400000000)
    (.configuration "Command expiry interval is invalid.")

omit [Platform] in
/-- The row a claim inserts. -/
def AcquireArgs.claim (r : AcquireArgs) (commandId : UUID) (generation : ℤ)
    (lockedAt expiresAt : Datetime) : LedgerRow where
  toCommandIdentityArgs := r.identity.toCommandIdentityArgs
  commandId := commandId
  generation := generation
  isCurrent := true
  subjectId := r.principal.subjectId
  fingerprint := r.fingerprint
  state := .inProgress
  responseStatus := none
  responseHeaders := none
  responseBody := none
  responseMediaType := none
  createdAt := lockedAt
  updatedAt := lockedAt
  expiresAt := expiresAt
  completedAt := none
  supersededAt := none

namespace CommandStore

/-- The part of `acquire` that inserts a row. -/
def start (request : AcquireArgs) (generation : ℤ) (lockedAt : Datetime) :
    LedgerTx Acquisition := do
  let commandId ← Prog.fresh .ret
  let expiresAt ← LedgerTx.lift (orRaise (lockedAt.add? request.ttl) .overflow)
  LedgerTx.insertRow (request.claim commandId generation lockedAt expiresAt)
  return ⟨commandId, generation, false, none, rfl⟩

/-- The part of `acquire` that answers from a row that has not expired. -/
def answer (request : AcquireArgs) (row : LedgerRow) : LedgerTx Acquisition :=
  if row.subjectId ≠ request.principal.subjectId ∨ row.fingerprint ≠ request.fingerprint then
    .raise .commandConflict
  else if row.state = .completed then do
    let response ← LedgerTx.lift (responseFromRow row.toCommandRow)
    return ⟨row.commandId, row.generation, true, some response, rfl⟩
  else .raise .commandInProgress

/-- `CommandStore.acquire`. -/
def acquire (request : AcquireArgs) : LedgerTx Acquisition := do
  LedgerTx.lift request.validate
  LedgerTx.advisoryLock (advisoryKey request.identity.toCommandIdentityArgs)
  let found ← LedgerTx.selectCurrent request.identity
  let lockedAt ← LedgerTx.now
  match found with
  | none => start request 1 lockedAt
  | some row =>
      if row.expiresAt ≤ lockedAt then do
        LedgerTx.updateRow (row.supersede lockedAt)
        start request (row.generation + 1) lockedAt
      else answer request row

/-- `CommandStore.complete`, as part of a transaction. -/
def completeClaimed (acquisition : Acquisition) (tenantId : UUID)
    (response : CapturedResponse) : LedgerTx Unit := do
  LedgerTx.lift (check (!acquisition.replayed)
    (.configuration "A replayed command cannot be completed again."))
  let found ← Prog.lock (.command tenantId acquisition.commandId) .ret
  let row ← LedgerTx.lift (orRaise (found.filter fun row =>
    row.generation = acquisition.generation ∧ row.state = .inProgress ∧ row.isCurrent)
    .commandInProgress)
  let completedAt ← LedgerTx.now
  let completed ← LedgerTx.lift (complete acquisition.replayed (some row.toCommandRow)
    response completedAt)
  LedgerTx.updateRow { row with toCommandRow := completed.stored }

/-! ## Pruning -/

omit [Platform] in
/-- The rows of a batch: `FOR UPDATE SKIP LOCKED` takes those nobody has locked and that still are
to be pruned, in their order, up to the limit. A row that changed since the snapshot is locked, and
not found again by the `DELETE`. -/
def lockBatch (cutoff : Datetime) : List LedgerRow → ℕ → LedgerTx (List LedgerRow)
  | [], _ => return []
  | _ :: _, 0 => return []
  | row :: rows, n + 1 => Prog.tryLock row.key fun found =>
      if found.any (LedgerRow.prunable cutoff) then do
        let batch ← lockBatch cutoff rows n
        return if found = some row then row :: batch else batch
      else lockBatch cutoff rows (n + 1)

omit [Platform] in
/-- The `DELETE`. -/
def deleteBatch : List LedgerRow → LedgerTx Unit
  | [] => return ()
  | row :: rows => Prog.erase row.key (deleteBatch rows)

omit [Platform] in
/-- `CommandStore.prune` on an idle session, with the function `prune_commands`. -/
def prune (before : Datetime) (batchSize : ℤ) : LedgerTx ℕ := do
  LedgerTx.lift (check (1 ≤ batchSize ∧ batchSize ≤ 10000)
    (.configuration "Command pruning batch size is invalid."))
  let rows ← Prog.scan .ret
  let candidates := (rows.filter (LedgerRow.prunable before)).insertionSort
    fun r r' => r.age ≤ r'.age
  let batch ← lockBatch before candidates batchSize.toNat
  deleteBatch batch
  return batch.length

end CommandStore

/-! ## The system -/

/-- The transactions on the ledger: one that acquires a command and may complete it, and one that
prunes. -/
inductive LedgerOp where
  | run (request : AcquireArgs) (response : Option CapturedResponse)
  | prune (before : Datetime) (batchSize : ℤ)

/-- What a transaction returns. -/
inductive LedgerOutcome where
  | acquired (acquisition : Acquisition)
  | pruned (deleted : ℕ)

/-- The transaction of an operation. A replayed command is not completed again. -/
def LedgerOp.prog : LedgerOp → LedgerTx LedgerOutcome
  | .run request response => do
      let acquisition ← CommandStore.acquire request
      match acquisition.replayed, response with
      | false, some response =>
          CommandStore.completeClaimed acquisition request.principal.tenantId response
          return .acquired acquisition
      | _, _ => return .acquired acquisition
  | .prune before batchSize => do
      let deleted ← CommandStore.prune before batchSize
      return .pruned deleted

/-- A cutoff at or before the time of the database. -/
def LedgerOp.Timely (now : Datetime) : LedgerOp → Prop
  | .run _ _ => True
  | .prune before _ => before ≤ now

instance (now : Datetime) (op : LedgerOp) : Decidable (op.Timely now) :=
  match op with
  | .run _ _ => inferInstanceAs (Decidable True)
  | .prune before _ => inferInstanceAs (Decidable (before ≤ now))

/-- The operations on PostgreSQL; with `timely` the cutoffs are at or before its time. -/
def ledger (timely : Bool) : Protocol LedgerKey LedgerRow UUID PyError LedgerOp LedgerOutcome where
  prog := LedgerOp.prog
  allowed s op := timely = true → op.Timely s.now
  guard _ _ _ _ := True

instance (timely : Bool) (s : Store LedgerKey LedgerRow PyError LedgerOp LedgerOutcome)
    (op : LedgerOp) :
    Decidable ((ledger timely).allowed s op) :=
  inferInstanceAs (Decidable (timely = true → op.Timely s.now))

instance (timely : Bool) (op : LedgerOp) (seen : List LedgerRow) (y : LedgerKey)
    (row : Option LedgerRow) : Decidable ((ledger timely).guard op seen y row) :=
  inferInstanceAs (Decidable True)

/-- The state of the whole system. -/
abbrev LedgerWorld := World LedgerKey LedgerRow UUID PyError LedgerOp LedgerOutcome

/-- The system before anything happened. -/
def LedgerWorld.start (now : Datetime) : LedgerWorld where
  store := ⟨Table.empty, now, []⟩
  owner _ := none
  minted _ := none
  txns := []

end FastapiEffects
