import FastapiEffects.Errors
import FastapiEffects.Python.Json
import FastapiEffects.Python.Time

/-! # Retry policies and deadlines

`RetryPolicy` with the checks its constructor makes, its snapshot form, and the
deadline functions every component derives its timeouts from. A random source is
the function `uniform` that draws one number between two bounds.
-/

namespace FastapiEffects

open Python

/-- `^[a-z0-9][a-z0-9._-]{0,127}$`: the keys of policies, routes and failures. -/
def isStableKey (s : Str) : Bool :=
  s.fullmatch (PyChar.isIn [('a', 'z'), ('0', '9')] [])
    (PyChar.isIn [('a', 'z'), ('0', '9')] ['.', '_', '-']) 127

/-- `_finite_number`. -/
def finiteNumber (name : String) (value : Number) : Except PyError Binary64 :=
  match value.toFloat? with
  | some (.finite x) => .ok x
  | some _ => .error (.configuration s!"Retry {name} must be finite.")
  | none => .error .overflow

theorem finiteNumber_float {name : String} {f : PyFloat} {x : Binary64}
    (h : finiteNumber name (.float f) = .ok x) : f = .finite x := by
  cases f with
  | finite y => exact congrArg _ (Except.ok.inj h)
  | inf negative => cases h
  | nan => cases h

/-- The arguments of the `RetryPolicy` constructor, with its defaults. -/
structure RetryPolicyArgs where
  name : Str
  version : ℤ := 1
  maxAttempts : ℤ := 8
  maximumElapsedSeconds : ℤ := 86400
  baseDelaySeconds : Number := .float (.nearest false 2)
  maximumDelaySeconds : Number := .float (.nearest false 900)
  handlerTimeoutSeconds : Number := .float (.nearest false 60)
  leaseDurationSeconds : Number := .float (.nearest false 120)
  jitter : Str := "full"
deriving DecidableEq

/-- `RetryPolicy.__post_init__`. -/
def RetryPolicyArgs.postInit (p : RetryPolicyArgs) : Except PyError Unit := do
  check (isStableKey p.name)
    (.configuration "Retry policy name must be a lower-case stable key.")
  check (0 < p.version ∧ 0 < p.maxAttempts)
    (.configuration "Retry policy version and max_attempts must be positive integers.")
  check (0 < p.maximumElapsedSeconds)
    (.configuration "Retry maximum elapsed time must be a positive integer.")
  let baseDelay ← finiteNumber "base delay" p.baseDelaySeconds
  let maximumDelay ← finiteNumber "maximum delay" p.maximumDelaySeconds
  let handlerTimeout ← finiteNumber "handler timeout" p.handlerTimeoutSeconds
  let leaseDuration ← finiteNumber "lease duration" p.leaseDurationSeconds
  check (0 ≤ baseDelay.toRat ∧ baseDelay.toRat ≤ maximumDelay.toRat)
    (.configuration "Retry delay bounds are invalid.")
  check (0 < handlerTimeout.toRat ∧ 0 < leaseDuration.toRat)
    (.configuration "Timeout and lease duration must be positive.")
  check (handlerTimeout.toRat < leaseDuration.toRat)
    (.configuration "Lease duration must exceed the handler timeout.")
  check (maximumDelay.toRat ≤ p.maximumElapsedSeconds)
    (.configuration "Retry maximum delay must not exceed maximum elapsed time.")
  check (handlerTimeout.toRat ≤ p.maximumElapsedSeconds)
    (.configuration "Handler timeout must not exceed maximum elapsed time.")
  check (p.jitter = "full")
    (.configuration "The runtime supports only full-jitter retry policy.")

/-- A policy its constructor accepts. -/
structure RetryPolicy extends RetryPolicyArgs where
  valid : toRetryPolicyArgs.postInit = .ok ()
deriving DecidableEq

/-- What the constructor checks of the counters. -/
theorem RetryPolicyArgs.postInit_counts {p : RetryPolicyArgs} (h : p.postInit = .ok ()) :
    0 < p.version ∧ 0 < p.maxAttempts ∧ 0 < p.maximumElapsedSeconds := by
  unfold RetryPolicyArgs.postInit at h
  simp only [bind_eq_ok, check_eq_ok] at h
  grind

namespace RetryPolicy

theorem maxAttempts_pos (p : RetryPolicy) : 0 < p.maxAttempts :=
  (RetryPolicyArgs.postInit_counts p.valid).2.1

/-- `RetryPolicy(...)`. -/
def make (p : RetryPolicyArgs) : Except PyError RetryPolicy :=
  match h : p.postInit with
  | .ok () => .ok ⟨p, h⟩
  | .error e => .error e

/-- `policy.retry_delay(attempt_number, random_source)`. -/
def retryDelay (p : RetryPolicy) (attemptNumber : ℤ) (uniform : ℚ → ℚ → PyFloat) :
    Except PyError Timedelta := do
  check (0 < attemptNumber) (.configuration "Retry attempt number must be positive.")
  -- `2 ** n` becomes a float here, which it cannot from 2¹⁰²⁴ on
  check (attemptNumber - 1 < 1024) .overflow
  let upper := min p.maximumDelaySeconds.floatValue
    (p.baseDelaySeconds.floatValue * 2 ^ (attemptNumber - 1).toNat)
  match uniform 0 upper with
  | .finite delay =>
      check (0 ≤ delay.toRat ∧ delay.toRat ≤ upper)
        (.configuration "Random source returned an invalid retry delay.")
      orRaise (Timedelta.ofSeconds? delay.toRat) .overflow
  | _ => .error (.configuration "Random source returned an invalid retry delay.")

/-- `policy.permits_retry(...)`. -/
def permitsRetry (p : RetryPolicy) (attemptNumber : ℤ) (firstAttemptAt now : Datetime) :
    Except PyError Bool := do
  check (0 < attemptNumber) (.configuration "Retry attempt number must be positive.")
  let elapsed := Timedelta.totalSeconds (now - firstAttemptAt)
  return attemptNumber < p.maxAttempts ∧ elapsed < p.maximumElapsedSeconds

/-! ## Snapshots -/

/-- `float(...)` of a field of the snapshot. -/
def floatField (value : Number) : Except PyError Json :=
  (orRaise value.toFloat? .overflow).map .float

/-- `policy.to_dict()`. -/
def toDict (p : RetryPolicy) : Except PyError Json := do
  return .obj [
    ("name", .str p.name),
    ("version", .int p.version),
    ("max_attempts", .int p.maxAttempts),
    ("maximum_elapsed_seconds", .int p.maximumElapsedSeconds),
    ("base_delay_seconds", ← floatField p.baseDelaySeconds),
    ("maximum_delay_seconds", ← floatField p.maximumDelaySeconds),
    ("handler_timeout_seconds", ← floatField p.handlerTimeoutSeconds),
    ("lease_duration_seconds", ← floatField p.leaseDurationSeconds),
    ("jitter", .str p.jitter)]

/-- `_snapshot_str(value[key])`. -/
def snapshotStr (value : Json) (key : Str) : Except PyError Str :=
  match value.get? key with
  | some (.str s) => .ok s
  | some _ => .error .type
  | none => .error .key

/-- `_snapshot_int(value[key])`. -/
def snapshotInt (value : Json) (key : Str) : Except PyError ℤ :=
  match value.get? key with
  | some (.int n) => .ok n
  | some _ => .error .type
  | none => .error .key

/-- `_snapshot_float(value[key])`. -/
def snapshotFloat (value : Json) (key : Str) : Except PyError Number :=
  match value.get? key with
  | some (.int n) => (orRaise (Number.toFloat? (.int n)) .overflow).map .float
  | some (.float x) => .ok (.float x)
  | some _ => .error .type
  | none => .error .key

/-- The arguments `from_dict` reads out of a snapshot. -/
def snapshotArgs (value : Json) : Except PyError RetryPolicyArgs := do
  return {
    name := ← snapshotStr value "name"
    version := ← snapshotInt value "version"
    maxAttempts := ← snapshotInt value "max_attempts"
    maximumElapsedSeconds := ← snapshotInt value "maximum_elapsed_seconds"
    baseDelaySeconds := ← snapshotFloat value "base_delay_seconds"
    maximumDelaySeconds := ← snapshotFloat value "maximum_delay_seconds"
    handlerTimeoutSeconds := ← snapshotFloat value "handler_timeout_seconds"
    leaseDurationSeconds := ← snapshotFloat value "lease_duration_seconds"
    jitter := ← snapshotStr value "jitter" }

/-- `RetryPolicy.from_dict(value)`. -/
def fromDict (value : Json) : Except PyError RetryPolicy :=
  match snapshotArgs value >>= make with
  | .error .key | .error .type | .error .value =>
      .error (.configuration "Retry policy snapshot is invalid.")
  | result => result

/-- The constructor looks at the numbers as floats. -/
theorem finiteNumber_congr {name : String} {a b : Number} (h : a.toFloat? = b.toFloat?) :
    finiteNumber name a = finiteNumber name b := by
  unfold finiteNumber
  rw [h]

theorem floatField_eq_ok {a : Number} {j : Json} (h : floatField a = .ok j) :
    ∃ x, a.toFloat? = some x ∧ j = .float x := by
  unfold floatField at h
  cases hx : a.toFloat? with
  | none => simp [hx, orRaise, Except.map] at h
  | some x =>
      simp only [hx, orRaise, Except.map, Except.ok.injEq] at h
      exact ⟨x, rfl, h.symm⟩

theorem make_of_valid {args : RetryPolicyArgs} (h : args.postInit = .ok ()) :
    make args = .ok ⟨args, h⟩ := by
  unfold make
  split
  · rfl
  · rename_i heq
    rw [h] at heq
    cases heq

theorem fromDict_of_valid {j : Json} {args : RetryPolicyArgs} (hargs : snapshotArgs j = .ok args)
    (h : args.postInit = .ok ()) : fromDict j = .ok ⟨args, h⟩ := by
  have hmake : (snapshotArgs j >>= make) = .ok ⟨args, h⟩ := by
    rw [hargs]
    exact make_of_valid h
  rw [fromDict, hmake]

/-- The arguments with their numbers as floats. -/
def withFloats (p : RetryPolicyArgs) (base maximum timeout lease : PyFloat) : RetryPolicyArgs :=
  { p with
    baseDelaySeconds := .float base
    maximumDelaySeconds := .float maximum
    handlerTimeoutSeconds := .float timeout
    leaseDurationSeconds := .float lease }

/-- What a snapshot says, `from_dict` reads. -/
theorem snapshotArgs_dict (p : RetryPolicyArgs) (base maximum timeout lease : PyFloat) :
    snapshotArgs (.obj [
      ("name", .str p.name),
      ("version", .int p.version),
      ("max_attempts", .int p.maxAttempts),
      ("maximum_elapsed_seconds", .int p.maximumElapsedSeconds),
      ("base_delay_seconds", .float base),
      ("maximum_delay_seconds", .float maximum),
      ("handler_timeout_seconds", .float timeout),
      ("lease_duration_seconds", .float lease),
      ("jitter", .str p.jitter)]) = .ok (withFloats p base maximum timeout lease) :=
  rfl

/-- A policy survives its snapshot, with its numbers as floats. -/
theorem fromDict_toDict {p : RetryPolicy} {j : Json} (h : p.toDict = .ok j) :
    ∃ base maximum timeout lease, p.handlerTimeoutSeconds.toFloat? = some timeout ∧
      p.leaseDurationSeconds.toFloat? = some lease ∧
      ∃ hvalid, fromDict j =
        .ok ⟨withFloats p.toRetryPolicyArgs base maximum timeout lease, hvalid⟩ := by
  unfold toDict at h
  obtain ⟨_, baseField, h⟩ := bind_eq_ok.mp h
  obtain ⟨_, maximumField, h⟩ := bind_eq_ok.mp h
  obtain ⟨_, timeoutField, h⟩ := bind_eq_ok.mp h
  obtain ⟨_, leaseField, h⟩ := bind_eq_ok.mp h
  obtain ⟨base, hbase, rfl⟩ := floatField_eq_ok baseField
  obtain ⟨maximum, hmaximum, rfl⟩ := floatField_eq_ok maximumField
  obtain ⟨timeout, htimeout, rfl⟩ := floatField_eq_ok timeoutField
  obtain ⟨lease, hlease, rfl⟩ := floatField_eq_ok leaseField
  refine ⟨base, maximum, timeout, lease, htimeout, hlease, ?_⟩
  have hvalid : (withFloats p.toRetryPolicyArgs base maximum timeout lease).postInit = .ok () := by
    rw [← p.valid, RetryPolicyArgs.postInit, RetryPolicyArgs.postInit]
    simp only [withFloats, finiteNumber_congr (a := .float base) hbase.symm,
      finiteNumber_congr (a := .float maximum) hmaximum.symm,
      finiteNumber_congr (a := .float timeout) htimeout.symm,
      finiteNumber_congr (a := .float lease) hlease.symm]
    rfl
  refine ⟨hvalid, ?_⟩
  rw [← Except.ok.inj h]
  exact fromDict_of_valid (snapshotArgs_dict _ _ _ _ _) hvalid

end RetryPolicy

/-! ## Deadlines -/

/-- `delivery_deadline`: the latest finish of a delivery. -/
def deliveryDeadline (policy : RetryPolicy) (createdAt : Datetime) : Except PyError Datetime := do
  let elapsed ← orRaise (Timedelta.ofSeconds? policy.maximumElapsedSeconds) .overflow
  orRaise (createdAt.add? elapsed) .overflow

/-- `attempt_deadline`: the earliest deadline that applies to an attempt. -/
def attemptDeadline (policy : RetryPolicy)
    (deliveryCreatedAt attemptStartedAt leaseExpiresAt : Datetime) : Except PyError Datetime := do
  let deadline ← deliveryDeadline policy deliveryCreatedAt
  let timeout ← orRaise (Timedelta.ofSeconds? policy.handlerTimeoutSeconds.value) .overflow
  let handlerDeadline ← orRaise (attemptStartedAt.add? timeout) .overflow
  return min (min deadline handlerDeadline) leaseExpiresAt

/-- `remaining_attempt_seconds`: the timeout left at `now`. -/
def remainingAttemptSeconds (policy : RetryPolicy)
    (deliveryCreatedAt attemptStartedAt leaseExpiresAt now : Datetime)
    (configuredLimitSeconds : Option Number) : Except PyError ℚ := do
  let deadline ← attemptDeadline policy deliveryCreatedAt attemptStartedAt leaseExpiresAt
  let remaining := Timedelta.totalSeconds (deadline - now)
  match configuredLimitSeconds with
  | none => return max 0 remaining
  | some limit =>
      let configured ← finiteNumber "configured attempt limit" limit
      check (0 < configured.toRat) (.configuration "Configured attempt limit must be positive.")
      return max 0 (min remaining configured.toRat)

/-- What is left of an attempt is at most what its deadline leaves. -/
theorem remainingAttemptSeconds_eq_ok {policy : RetryPolicy} {created started expiry now : Datetime}
    {limit : Option Number} {q : ℚ}
    (h : remainingAttemptSeconds policy created started expiry now limit = .ok q) :
    ∃ deadline, attemptDeadline policy created started expiry = .ok deadline ∧
      q ≤ max 0 (Timedelta.totalSeconds (deadline - now)) := by
  unfold remainingAttemptSeconds at h
  obtain ⟨deadline, hdeadline, h⟩ := bind_eq_ok.mp h
  refine ⟨deadline, hdeadline, ?_⟩
  cases limit with
  | none => exact (Except.ok.inj h).ge
  | some limit =>
      obtain ⟨configured, -, h⟩ := bind_eq_ok.mp h
      obtain ⟨-, -, h⟩ := bind_eq_ok.mp h
      rw [← Except.ok.inj h]
      exact max_le_max_left 0 (min_le_left _ _)

/-- A positive timeout ends by the deadline. -/
theorem add_remaining_le {policy : RetryPolicy} {created started expiry now : Datetime}
    {limit : Option Number} {q : ℚ} {duration : Timedelta} {deadline : Datetime}
    (h : remainingAttemptSeconds policy created started expiry now limit = .ok q) (hq : 0 < q)
    (hduration : Timedelta.ofSeconds? q = some duration)
    (hdeadline : attemptDeadline policy created started expiry = .ok deadline) :
    now + duration ≤ deadline := by
  obtain ⟨deadline', hdeadline', hle⟩ := remainingAttemptSeconds_eq_ok h
  rw [hdeadline] at hdeadline'
  cases hdeadline'
  have hleft : q ≤ Timedelta.totalSeconds (deadline - now) := by
    rcases le_max_iff.mp hle with h0 | h1
    · exact absurd hq (not_lt.mpr h0)
    · exact h1
  have hround := roundHalfEven_mono (mul_le_mul_of_nonneg_right hleft (by norm_num : (0 : ℚ) ≤ 1000000))
  rw [Timedelta.roundHalfEven_totalSeconds, ← Timedelta.ofSeconds?_eq_some hduration] at hround
  exact le_sub_iff_add_le'.mp hround

/-- A positive timeout that is limited by a duration is at least a microsecond. -/
theorem remaining_duration_pos {policy : RetryPolicy}
    {created started expiry now : Datetime} {timeout duration : Timedelta} {q : ℚ}
    (h : remainingAttemptSeconds policy created started expiry now
      (some timeout.secondsNumber) = .ok q) (hq : 0 < q) (htimeout : 0 < timeout)
    (hduration : Timedelta.ofSeconds? q = some duration) : 0 < duration := by
  unfold remainingAttemptSeconds at h
  obtain ⟨deadline, -, h⟩ := bind_eq_ok.mp h
  obtain ⟨configured, hconfigured, h⟩ := bind_eq_ok.mp h
  obtain ⟨-, -, h⟩ := bind_eq_ok.mp h
  have heq := Except.ok.inj h
  have hmin : 0 < min (Timedelta.totalSeconds (deadline - now)) configured.toRat := by
    rcases lt_max_iff.mp (heq ▸ hq) with h0 | h1
    · exact absurd h0 (lt_irrefl 0)
    · exact h1
  obtain ⟨hleft, hlimit⟩ := lt_min_iff.mp hmin
  rw [max_eq_right hmin.le] at heq
  -- a whole number of microseconds is left
  have hmicros : (1 : ℚ) ≤ Timedelta.totalSeconds (deadline - now) * 1000000 := by
    have hpos : (0 : ℚ) < ((deadline - now : ℤ) : ℚ) := by
      unfold Timedelta.totalSeconds at hleft
      exact (div_pos_iff_of_pos_right (by norm_num)).mp hleft
    have hint : (1 : ℤ) ≤ deadline - now := by exact_mod_cast hpos
    have hone : (1 : ℚ) ≤ ((deadline - now : ℤ) : ℚ) := by exact_mod_cast hint
    simpa [Timedelta.totalSeconds] using hone
  -- and the limit is more than half of one
  have hconf : (1 : ℚ) / 2 < configured.toRat * 1000000 := by
    have htotal : 0 < Timedelta.totalSeconds timeout := by
      unfold Timedelta.totalSeconds
      have : (0 : ℚ) < ((timeout : ℤ) : ℚ) := by exact_mod_cast htimeout
      positivity
    have hone : (1 : ℚ) / 1000000 ≤ Timedelta.totalSeconds timeout := by
      unfold Timedelta.totalSeconds
      have : (1 : ℚ) ≤ ((timeout : ℤ) : ℚ) := by exact_mod_cast htimeout
      linarith
    have hround : Binary64.round? false (Timedelta.totalSeconds timeout) = some configured := by
      have hnearest := PyFloat.nearest_eq_finite (finiteNumber_float hconfigured)
      rwa [decide_eq_false (not_lt.mpr htimeout.le), abs_of_pos htotal] at hnearest
    have hnormal : (2 : ℚ) ^ (-1022 : ℤ) ≤ 1 / 1000000 :=
      (zpow_le_zpow_right₀ (by norm_num) (by norm_num : (-1022 : ℤ) ≤ -20)).trans (by norm_num)
    have hhalf := Binary64.half_lt_of_round? hround (hnormal.trans hone)
    rw [Binary64.toRat, (Binary64.round?_eq_some hround).1, if_neg (by simp)]
    linarith
  rw [Timedelta.ofSeconds?_eq_some hduration, ← heq]
  refine roundHalfEven_pos ?_
  rw [min_mul_of_nonneg _ _ (by norm_num)]
  exact lt_min (by linarith) hconf

end FastapiEffects
