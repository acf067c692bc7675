import FastapiEffects.Conformance.Safety
import FastapiEffects.Python.Indented
import FastapiEffects.Python.Isoformat
import FastapiEffects.Python.UuidText
import FastapiEffects.Sqlalchemy.Strict

/-! # Conformance reports

`CheckResult` and `ConformanceReport`: what their constructors check and normalize, the JSON text
`render_report` writes of a report, and `from_json`, which reads such a text and computes again
everything that is derived in it.
-/

namespace FastapiEffects

open Python

/-! ## The contract -/

inductive Invariant where
  | atomicIntent | tenantContinuity | authorityProvenance | stableRetryIdentity | independentFanout
  | causalLineage | replayAccountability | leaseFencing | contextCleanup | secretMinimization
  | commandIdentity | delegationBinding | webhookBoundary | executorHandoff
deriving DecidableEq

def Invariant.value : Invariant → Str
  | .atomicIntent => "BC-01"
  | .tenantContinuity => "BC-02"
  | .authorityProvenance => "BC-03"
  | .stableRetryIdentity => "BC-04"
  | .independentFanout => "BC-05"
  | .causalLineage => "BC-06"
  | .replayAccountability => "BC-07"
  | .leaseFencing => "BC-08"
  | .contextCleanup => "BC-09"
  | .secretMinimization => "BC-10"
  | .commandIdentity => "BC-11"
  | .delegationBinding => "BC-12"
  | .webhookBoundary => "BC-13"
  | .executorHandoff => "BC-14"

def Invariant.all : List Invariant :=
  [.atomicIntent, .tenantContinuity, .authorityProvenance, .stableRetryIdentity, .independentFanout,
    .causalLineage, .replayAccountability, .leaseFencing, .contextCleanup, .secretMinimization,
    .commandIdentity, .delegationBinding, .webhookBoundary, .executorHandoff]

inductive CertificationProfile where
  | core | security | delivery | webhook | executor | command | delegation | complete
deriving DecidableEq

def CertificationProfile.value : CertificationProfile → Str
  | .core => "core"
  | .security => "security"
  | .delivery => "delivery"
  | .webhook => "webhook"
  | .executor => "executor"
  | .command => "command"
  | .delegation => "delegation"
  | .complete => "complete"

def CertificationProfile.all : List CertificationProfile :=
  [.core, .security, .delivery, .webhook, .executor, .command, .delegation, .complete]

/-- `profile_invariants`. -/
def profileInvariants : CertificationProfile → List Invariant
  | .core => [.atomicIntent, .tenantContinuity, .authorityProvenance, .stableRetryIdentity,
      .independentFanout, .causalLineage, .replayAccountability]
  | .security => [.tenantContinuity, .authorityProvenance, .leaseFencing, .contextCleanup,
      .secretMinimization, .delegationBinding]
  | .delivery => [.stableRetryIdentity, .independentFanout, .replayAccountability, .leaseFencing]
  | .webhook => [.stableRetryIdentity, .replayAccountability, .secretMinimization, .webhookBoundary]
  | .executor => [.tenantContinuity, .authorityProvenance, .leaseFencing, .contextCleanup,
      .executorHandoff]
  | .command => [.secretMinimization, .commandIdentity]
  | .delegation => [.secretMinimization, .delegationBinding]
  | .complete => Invariant.all

inductive CheckStatus where
  | pass | fail | skip | error
deriving DecidableEq

def CheckStatus.value : CheckStatus → Str
  | .pass => "pass"
  | .fail => "fail"
  | .skip => "skip"
  | .error => "error"

def CheckStatus.all : List CheckStatus := [.pass, .fail, .skip, .error]

inductive Severity where
  | info | warning | error | critical
deriving DecidableEq

def Severity.value : Severity → Str
  | .info => "info"
  | .warning => "warning"
  | .error => "error"
  | .critical => "critical"

def Severity.all : List Severity := [.info, .warning, .error, .critical]

/-- The member of an enumeration of texts with a value; none is a `ValueError`. -/
def memberOf? {α : Type} (all : List α) (value : α → Str) : Json → Option α
  | .str s => all.find? fun a => value a = s
  | _ => none

/-! ## One result -/

/-- A character of `_CHECK_ID` after the first. -/
def isCheckIdChar (c : PyChar) : Bool :=
  PyChar.isIn [('a', 'z'), ('0', '9')] ['.', '_', '-'] c

/-- `_CHECK_ID.fullmatch`. -/
def isCheckId : Str → Bool
  | [] => false
  | c :: rest => PyChar.isIn [('a', 'z'), ('0', '9')] [] c && rest.length ≤ 159 &&
      rest.all isCheckIdChar

/-- `_DIGEST.fullmatch`. -/
def isReportDigest (s : Str) : Bool :=
  s.length = 64 ∧ s.all (PyChar.isIn [('a', 'f'), ('0', '9')] [])

/-- The arguments of `CheckResult(...)`; its texts and its number may be of any type. -/
structure CheckArgs where
  checkId : Json
  invariant : Invariant
  status : CheckStatus
  severity : Severity
  summary : Json
  durationMs : Json
  evidence : Evidence
  remediation : Json
  exceptionType : Json

/-- The fields of a `CheckResult`. -/
structure CheckFields where
  checkId : Str
  invariant : Invariant
  status : CheckStatus
  severity : Severity
  summary : Str
  durationMs : ℕ
  evidence : List (Str × Json)
  remediation : Option Str
  exceptionType : Option Str
deriving DecidableEq

/-- `isinstance(value, str)`. -/
def textOr (error : PyError) : Json → Except PyError Str
  | .str s => .ok s
  | _ => .error error

/-- An `int` that is no `bool` and not negative. -/
def naturalOr (error : PyError) : Json → Except PyError ℕ
  | .int (.ofNat n) => .ok n
  | _ => .error error

/-- A text that may be absent, cleaned. -/
def cleanOr (error : PyError) (maximum : ℕ) : Json → Except PyError (Option Str)
  | .null => .ok none
  | .str s => .ok (some (cleanText s maximum))
  | _ => .error error

/-- `isinstance(normalized, dict)`. -/
def membersOr (error : PyError) : Json → Except PyError (List (Str × Json))
  | .obj members => .ok members
  | _ => .error error

/-- `isinstance(value, list)`. -/
def itemsOr (error : PyError) : Json → Except PyError (List Json)
  | .arr items => .ok items
  | _ => .error error

section Models

variable [Platform]

/-- `CheckResult.__post_init__`. -/
def CheckArgs.postInit (c : CheckArgs) : Except PyError CheckFields := do
  let checkId ← textOr (.configuration "Conformance check_id is invalid.") c.checkId
  check (isCheckId checkId) (.configuration "Conformance check_id is invalid.")
  let durationMs ← naturalOr (.configuration "Conformance duration_ms must be non-negative.")
    c.durationMs
  let summary ← textOr (.configuration "Conformance summary must be text.") c.summary
  check (!(cleanText summary 512).isEmpty) (.configuration "Conformance summary must not be empty.")
  let evidence ← membersOr (.configuration "Conformance evidence must be a mapping.")
    (safeJson 0 c.evidence)
  let remediation ← cleanOr (.configuration "Conformance remediation must be text.") 1024
    c.remediation
  let exceptionType ← cleanOr (.configuration "Conformance exception_type must be text.") 256
    c.exceptionType
  return ⟨checkId, c.invariant, c.status, c.severity, cleanText summary 512, durationMs, evidence,
    remediation, exceptionType⟩

/-- `CheckResult`. -/
structure CheckResult extends CheckFields where
  valid : ∃ c : CheckArgs, c.postInit = .ok toCheckFields
deriving DecidableEq

/-- `CheckResult(...)`. -/
def CheckResult.make (c : CheckArgs) : Except PyError CheckResult :=
  match h : c.postInit with
  | .ok fields => .ok ⟨fields, c, h⟩
  | .error e => .error e

/-- A text or `None`. -/
def textOrNull (value : Option Str) : Json := value.elim .null .str

/-- `CheckResult.as_dict`. -/
def CheckResult.asDict (r : CheckResult) : List (Str × Json) :=
  [("check_id", .str r.checkId),
    ("invariant", .str r.invariant.value),
    ("status", .str r.status.value),
    ("severity", .str r.severity.value),
    ("summary", .str r.summary),
    ("duration_ms", .int r.durationMs),
    ("evidence", .obj r.evidence),
    ("remediation", textOrNull r.remediation),
    ("exception_type", textOrNull r.exceptionType)]

/-- `c == d`. -/
def CheckResult.equals (c d : CheckResult) : Bool :=
  c.checkId = d.checkId ∧ c.invariant = d.invariant ∧ c.status = d.status ∧
    c.severity = d.severity ∧ c.summary = d.summary ∧ c.durationMs = d.durationMs ∧
    (Json.obj c.evidence).equals (.obj d.evidence) ∧ c.remediation = d.remediation ∧
    c.exceptionType = d.exceptionType

/-- The fields `CheckResult.from_dict` expects. -/
def checkKeys : List Str :=
  ["check_id", "invariant", "status", "severity", "summary", "duration_ms", "evidence",
    "remediation", "exception_type"]

/-- `CheckResult.from_dict`. -/
def CheckResult.fromDict (value : List (Str × Json)) : Except PyError CheckResult := do
  let keys := value.map Prod.fst
  check (keys ⊆ checkKeys ∧ checkKeys ⊆ keys)
    (.configuration "Conformance check fields are incomplete or unknown.")
  let field (name : String) : Json := (Json.get? (.obj value) name).getD .null
  let unknown := PyError.configuration "Conformance check enumeration is invalid."
  let invariant ← orRaise (memberOf? Invariant.all Invariant.value (field "invariant")) unknown
  let status ← orRaise (memberOf? CheckStatus.all CheckStatus.value (field "status")) unknown
  let severity ← orRaise (memberOf? Severity.all Severity.value (field "severity")) unknown
  let evidence ← membersOr (.configuration "Conformance check evidence must be an object.")
    (field "evidence")
  CheckResult.make ⟨field "check_id", invariant, status, severity, field "summary",
    field "duration_ms", Evidence.ofJson (.obj evidence), field "remediation",
    field "exception_type"⟩

/-! ## The report -/

/-- `t.isoformat()`. -/
def isoformatOf {Z : Type} [HostZones Z] (t : LocalDatetime Z) : Str :=
  t.wall.dateText ++ "T" ++ t.wall.clockText ++
    (if t.wall.microsecond = 0 then [] else
        PyChar.scalar '.' :: Datetime.padded 6 t.wall.microsecond) ++
    t.utcoffset.elim [] UtcOffset.text

/-- The arguments of `ConformanceReport(...)`. -/
structure ReportArgs (Z : Type) [HostZones Z] where
  profile : CertificationProfile
  manifestDigest : Json
  results : List CheckResult
  startedAt : LocalDatetime Z
  finishedAt : LocalDatetime Z
  runId : UUID
  contractVersion : Json := .str "1.0"
  schemaVersion : Json := .int 1
  environment : Evidence

/-- The fields of a `ConformanceReport`; its versions are the one contract's and the
one schema's. -/
structure ReportFields (Z : Type) [HostZones Z] where
  profile : CertificationProfile
  manifestDigest : Str
  results : List CheckResult
  startedAt : LocalDatetime Z
  finishedAt : LocalDatetime Z
  runId : UUID
  environment : List (Str × Json)
deriving DecidableEq

/-- `_MAX_REPORT_BYTES` and `_MAX_RESULTS`. -/
def maxReportBytes : ℕ := 8 * 1024 * 1024
def maxResults : ℕ := 2048

variable {Z : Type} [DecidableEq Z] [HostZones Z]

omit [Platform] [DecidableEq Z] in
/-- `value.tzinfo is None or value.utcoffset() is None`. -/
def checkAware (name : String) (value : LocalDatetime Z) : Except PyError Unit :=
  check (value.tzinfo.isSome && value.utcoffset.isSome)
    (.configuration s!"Conformance {name} must be timezone-aware.")

/-- `ConformanceReport.__post_init__`. -/
def ReportArgs.postInit (r : ReportArgs Z) : Except PyError (ReportFields Z) := do
  check (r.schemaVersion = .int 1)
    (.configuration "Conformance report schema version is invalid.")
  check (r.contractVersion = .str "1.0")
    (.configuration "Conformance report contract version is invalid.")
  let manifestDigest ← textOr (.configuration "Manifest digest must be a SHA-256 hex digest.")
    r.manifestDigest
  check (isReportDigest manifestDigest)
    (.configuration "Manifest digest must be a SHA-256 hex digest.")
  checkAware "started_at" r.startedAt
  checkAware "finished_at" r.finishedAt
  check (¬ r.finishedAt.before r.startedAt)
    (.configuration "Conformance finished_at precedes started_at.")
  check (r.results.length ≤ maxResults)
    (.configuration "Conformance report contains too many results.")
  check (r.results.map (·.checkId)).Nodup (.configuration "Conformance report repeats a check_id.")
  let environment ← membersOr (.configuration "Conformance environment must be a mapping.")
    (safeJson 0 r.environment)
  return ⟨r.profile, manifestDigest, r.results, r.startedAt, r.finishedAt, r.runId, environment⟩

/-- `ConformanceReport`. -/
structure ConformanceReport (Z : Type) [DecidableEq Z] [HostZones Z] extends ReportFields Z where
  valid : ∃ r : ReportArgs Z, r.postInit = .ok toReportFields

/-- `ConformanceReport(...)`. -/
def ConformanceReport.make (r : ReportArgs Z) : Except PyError (ConformanceReport Z) :=
  match h : r.postInit with
  | .ok fields => .ok ⟨fields, r, h⟩
  | .error e => .error e

namespace ConformanceReport

/-- `status`. -/
def status (r : ConformanceReport Z) : CheckStatus :=
  if r.results.isEmpty then .error
  else if r.results.any (·.status = .error) then .error
  else if r.results.any (·.status = .fail) then .fail
  else if r.results.all (·.status = .skip) then .skip
  else .pass

/-- `certified`. -/
def certified (r : ConformanceReport Z) : Bool :=
  (profileInvariants r.profile).all
      (fun i => r.results.any fun c => c.status = .pass ∧ c.invariant = i) &&
    !r.results.isEmpty && r.results.all (·.status = .pass)

/-- `counts`. -/
def counts (r : ConformanceReport Z) : List (Str × Json) :=
  CheckStatus.all.map fun status =>
    (status.value, .int (r.results.filter (·.status = status)).length)

/-- `as_dict`. -/
def asDict (r : ConformanceReport Z) : Except PyError (List (Str × Json)) := do
  let startedAt ← orRaise r.startedAt.astimezoneUtc? .overflow
  let finishedAt ← orRaise r.finishedAt.astimezoneUtc? .overflow
  return [("schema_version", .int 1),
    ("contract_version", .str "1.0"),
    ("run_id", .str r.runId.str),
    ("profile", .str r.profile.value),
    ("manifest_digest", .str r.manifestDigest),
    ("started_at", .str (isoformatOf startedAt)),
    ("finished_at", .str (isoformatOf finishedAt)),
    ("status", .str r.status.value),
    ("certified", .bool r.certified),
    ("counts", .obj r.counts),
    ("environment", .obj r.environment),
    ("results", .arr (r.results.map fun c => .obj c.asDict))]

/-- `canonical_bytes`. -/
def canonicalBytes (r : ConformanceReport Z) : Except PyError Bytes := do
  orRaise ((Json.obj (← r.asDict)).dumps.bind Str.encode?) .value

/-- `hexdigest()`. -/
def hexdigest (digest : Bytes) : Str :=
  digest.flatMap fun b => [.scalar (hexDigit (b.toNat / 16)), .scalar (hexDigit (b.toNat % 16))]

/-- `digest`. -/
def digest (r : ConformanceReport Z) : Except PyError Str := do
  return hexdigest (Platform.sha256 (← r.canonicalBytes)).toList

/-- `render_report` as JSON. -/
def renderJson (r : ConformanceReport Z) : Except PyError Str := do
  let value ← r.asDict
  let digest ← r.digest
  let members : List (Str × Json) := value ++ [(("report_digest" : Str), Json.str digest)]
  let text ← orRaise (Json.obj members).dumpsIndented .value
  return text ++ "\n"

/-- `q == r`. -/
def equals (q r : ConformanceReport Z) : Bool :=
  q.profile = r.profile ∧ q.manifestDigest = r.manifestDigest ∧
    q.results.length = r.results.length ∧
    (List.zipWith CheckResult.equals q.results r.results).all id ∧
    q.startedAt.equals r.startedAt ∧ q.finishedAt.equals r.finishedAt ∧ q.runId = r.runId ∧
    (Json.obj q.environment).equals (.obj r.environment)

/-- The fields `from_dict` expects. -/
def reportKeys : List Str :=
  ["schema_version", "contract_version", "run_id", "profile", "manifest_digest", "started_at",
    "finished_at", "status", "certified", "counts", "environment", "results"]

/-- `del value["report_digest"]`. -/
def withoutDigest (value : List (Str × Json)) : List (Str × Json) :=
  value.filter fun m => m.1 ≠ "report_digest"

/-- `value.get("report_digest")`, and the report without it. -/
def suppliedDigest (value : List (Str × Json)) :
    Except PyError (Option Str × List (Str × Json)) :=
  match (Json.get? (.obj value) "report_digest").getD .null with
  | .null => .ok (none, value)
  | .str s => do
      check (isReportDigest s)
        (.configuration "Conformance report digest must be a SHA-256 hex digest.")
      return (some s, withoutDigest value)
  | _ => .error (.configuration "Conformance report digest must be a SHA-256 hex digest.")

/-- `isinstance(item, dict)` of every result. -/
def resultMembers : List Json → Except PyError (List (List (Str × Json)))
  | [] => .ok []
  | item :: rest => do
      let members ← membersOr
        (.configuration "Conformance report results must contain objects.") item
      return members :: (← resultMembers rest)

/-- `datetime.fromisoformat(value)`. -/
def timeOf (value : Json) : Except PyError (LocalDatetime Z) :=
  match value with
  | .str s => orRaise (LocalDatetime.fromisoformat? s)
      (.configuration "Conformance report value is invalid.")
  | _ => .error (.configuration "Conformance report value is invalid.")

/-- `UUID(value)`. -/
def runIdOf (value : Json) : Except PyError UUID :=
  match value with
  | .str s => orRaise (UUID.ofStr? Platform.decimal s)
      (.configuration "Conformance report value is invalid.")
  | _ => .error (.configuration "Conformance report value is invalid.")

/-- What `from_dict` compares with the report it has made. -/
def confirm (value : List (Str × Json)) (supplied : Option Str) (r : ConformanceReport Z) :
    Except PyError (ConformanceReport Z) := do
  let field (name : String) : Json := (Json.get? (.obj value) name).getD .null
  check (field "status" = .str r.status.value)
    (.configuration "Conformance report status is inconsistent.")
  check (field "certified" = .bool r.certified)
    (.configuration "Conformance report certification is inconsistent.")
  check ((field "counts").equals (.obj r.counts))
    (.configuration "Conformance report counts are inconsistent.")
  match supplied with
  | none => return r
  | some s => do
      check (s = (← r.digest)) (.configuration "Conformance report digest is inconsistent.")
      return r

/-- `from_dict`. -/
def fromDict (given : List (Str × Json)) : Except PyError (ConformanceReport Z) := do
  let (supplied, value) ← suppliedDigest given
  let keys := value.map Prod.fst
  check (keys ⊆ reportKeys ∧ reportKeys ⊆ keys)
    (.configuration "Conformance report fields are incomplete or unknown.")
  let field (name : String) : Json := (Json.get? (.obj value) name).getD .null
  let items ← itemsOr (.configuration "Conformance report results must be an array.")
    (field "results")
  let environment ← membersOr (.configuration "Conformance report environment must be an object.")
    (field "environment")
  let members ← resultMembers items
  let profile ← orRaise
    (memberOf? CertificationProfile.all CertificationProfile.value (field "profile"))
    (.configuration "Conformance report value is invalid.")
  let runId ← runIdOf (field "run_id")
  let startedAt ← timeOf (field "started_at")
  let finishedAt ← timeOf (field "finished_at")
  let results ← members.mapM CheckResult.fromDict
  let report ← ConformanceReport.make
    { profile, results, startedAt, finishedAt, runId
      manifestDigest := field "manifest_digest"
      contractVersion := field "contract_version"
      schemaVersion := field "schema_version"
      environment := Evidence.ofJson (.obj environment) }
  confirm value supplied report

/-- The hooks of `from_json`. -/
def reportHooks : Hooks PyError where
  object pairs :=
    if (pairs.map Prod.fst).Nodup then .ok (.obj pairs)
    else .error (.configuration "Conformance report contains duplicate object keys.")
  constant _ := .error (.configuration "Conformance report contains a non-finite number.")

/-- The bytes and the text of what `from_json` is given. -/
def decodeReport (payload : JsonInput) : Except PyError Str := do
  let tooLarge := PyError.configuration "Conformance report JSON exceeds the size limit."
  match payload with
  | .text s => do
      -- the `UnicodeEncodeError` of a lone surrogate is not caught
      let encoded ← orRaise s.encode? .value
      check (encoded.length ≤ maxReportBytes) tooLarge
      return s
  | .bytes raw => do
      check (raw.length ≤ maxReportBytes) tooLarge
      orRaise (Str.decode? raw) (.configuration "Conformance report is not valid UTF-8 JSON.")

/-- `from_json`. -/
def fromJson (payload : JsonInput) : Except PyError (ConformanceReport Z) := do
  let decoded ← decodeReport payload
  match Json.loadsWith reportHooks decoded with
  | .error .malformed => .error (.configuration "Conformance report is not valid UTF-8 JSON.")
  -- the `ValueError` of a long integer is not a `JSONDecodeError`
  | .error .value => .error .value
  | .error (.hook e) => .error e
  | .ok value => do
      let members ← membersOr (.configuration "Conformance report root must be an object.") value
      fromDict members

end ConformanceReport

end Models

end FastapiEffects
