import FastapiEffects.Core.Retry

/-! # Backoff

When `retry_delay` returns. The power of two becomes a float before the cap is applied, and the
drawn delay becomes a `timedelta`, so the attempt number and the delay have limits of their own.
-/

namespace FastapiEffects

open Python

namespace RetryPolicy

/-- The bound `retry_delay` asks its random source for. -/
def retryUpper (p : RetryPolicy) (attemptNumber : ℤ) : ℚ :=
  min p.maximumDelaySeconds.floatValue
    (p.baseDelaySeconds.floatValue * 2 ^ (attemptNumber - 1).toNat)

variable {p : RetryPolicy} {n : ℤ} {uniform : ℚ → ℚ → PyFloat}

/-- From the attempt after the 1024th the power of two is too large for a float. -/
theorem retryDelay_overflow (hn : 1024 < n) : p.retryDelay n uniform = .error .overflow := by
  have hpositive : (0 : ℤ) < n := by omega
  have hlarge : ¬ n - 1 < 1024 := by omega
  simp only [retryDelay, check, hpositive, hlarge, decide_true, decide_false, if_true,
    Bool.false_eq_true, if_false, bind, Except.bind]

/-- Up to the 1024th attempt the drawn delay decides. -/
theorem retryDelay_draw {x : Binary64} (hn : 1 ≤ n) (hle : n ≤ 1024)
    (hx : uniform 0 (p.retryUpper n) = .finite x) (h0 : 0 ≤ x.toRat)
    (hupper : x.toRat ≤ p.retryUpper n) :
    p.retryDelay n uniform = orRaise (Timedelta.ofSeconds? x.toRat) .overflow := by
  have hpositive : (0 : ℤ) < n := by omega
  have hsmall : n - 1 < 1024 := by omega
  rw [retryUpper] at hx hupper
  simp only [retryDelay, check, hpositive, hsmall, decide_true, if_true, bind, Except.bind, hx, h0,
    hupper, and_self]

/-- `0.0` -/
def zeroFloat : Binary64 := ⟨false, 0, -1074, by decide⟩

/-- A source that draws 0. -/
def drawZero : ℚ → ℚ → PyFloat := fun _ _ => .finite zeroFloat

/-- The default policy with more attempts than a float has powers of two. -/
def patient : RetryPolicy := ⟨{ name := "patient", maxAttempts := 2000 }, by decide +kernel⟩

end RetryPolicy

end FastapiEffects
