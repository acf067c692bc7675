import FastapiEffects.Python.Float

/-! # Datetimes and durations

An aware `datetime` is the number of microseconds since the epoch, in UTC, where
the database hands them out; a `timedelta` is a number of microseconds. Both have
the ranges of `datetime.min`, `datetime.max`, `timedelta.min` and `timedelta.max`,
and arithmetic that leaves them raises `OverflowError`, here `none`. Seconds are
exact rationals.
-/

namespace Python

/-- A timezone-aware `datetime`. -/
abbrev Datetime := ℤ

/-- A `timedelta`. -/
abbrev Timedelta := ℤ

namespace Timedelta

/-- `timedelta.min`: -999999999 days. -/
def min : Timedelta := -999999999 * 86400000000

/-- `timedelta.max`: a microsecond less than 10⁹ days. -/
def max : Timedelta := 1000000000 * 86400000000 - 1

/-- `timedelta(microseconds=n)`. -/
def ofMicroseconds? (n : ℤ) : Option Timedelta :=
  if min ≤ n ∧ n ≤ max then some n else none

/-- `timedelta(seconds=q)`. -/
def ofSeconds? (q : ℚ) : Option Timedelta := ofMicroseconds? (roundHalfEven (q * 1000000))

/-- `d.total_seconds()`. -/
def totalSeconds (d : Timedelta) : ℚ := (d : ℚ) / 1000000

/-- `d.total_seconds()` as the `float` a caller passes on. -/
def secondsNumber (d : Timedelta) : Number := .float (.nearest (d < 0) |totalSeconds d|)

/-- A duration survives the way through its seconds. -/
theorem roundHalfEven_totalSeconds (d : Timedelta) :
    roundHalfEven (totalSeconds d * 1000000) = d := by
  have : totalSeconds d * 1000000 = ((d : ℤ) : ℚ) := by
    unfold totalSeconds
    ring
  rw [this, roundHalfEven_intCast]

theorem ofSeconds?_eq_some {q : ℚ} {d : Timedelta} (h : ofSeconds? q = some d) :
    d = roundHalfEven (q * 1000000) := by
  unfold ofSeconds? ofMicroseconds? at h
  split_ifs at h
  exact (Option.some.inj h).symm

theorem ofSeconds?_nonneg {q : ℚ} {d : Timedelta} (h : ofSeconds? q = some d) (hq : 0 ≤ q) :
    0 ≤ d := by
  rw [ofSeconds?_eq_some h]
  exact roundHalfEven_nonneg (by positivity)

end Timedelta

namespace Datetime

/-- `datetime.min` in UTC: the start of the year 1. -/
def min : Datetime := -62135596800 * 1000000

/-- `datetime.max` in UTC: the last microsecond of the year 9999. -/
def max : Datetime := 253402300800 * 1000000 - 1

/-- `t + d`. -/
def add? (t : Datetime) (d : Timedelta) : Option Datetime :=
  if min ≤ t + d ∧ t + d ≤ max then some (t + d) else none

theorem add?_eq_some {t : Datetime} {d : Timedelta} {u : Datetime} (h : add? t d = some u) :
    u = t + d := by
  unfold add? at h
  split_ifs at h
  exact (Option.some.inj h).symm

/-- Within the range of `datetime`. -/
def Valid (t : Datetime) : Prop := min ≤ t ∧ t ≤ max

instance (t : Datetime) : Decidable (Valid t) := inferInstanceAs (Decidable (_ ∧ _))

theorem add?_eq_some_iff {t : Datetime} {d : Timedelta} {u : Datetime} :
    add? t d = some u ↔ Valid (t + d) ∧ u = t + d := by
  unfold add? Valid
  split_ifs with h
  · exact ⟨fun heq => ⟨h, (Option.some.inj heq).symm⟩, fun ⟨_, heq⟩ => congrArg some heq.symm⟩
  · exact ⟨fun heq => (by cases heq), fun ⟨hvalid, _⟩ => absurd hvalid h⟩

/-! ### Seconds since the epoch -/

/-- `int(t.timestamp())`: the float nearest to the seconds since the epoch, towards zero.
No `datetime` is too large for a float. -/
def epochSeconds (t : Datetime) : ℤ :=
  match Binary64.ofRat? (Timedelta.totalSeconds t) with
  | some x => x.toInt
  | none => 0

/-- The microseconds of a time that lie before its last whole second, towards zero. -/
def wholeSeconds (t : Datetime) : ℤ := t.tdiv 1000000

theorem wholeSeconds_of_nonneg {t : ℤ} (h : 0 ≤ t) : wholeSeconds t = t / 1000000 :=
  Int.tdiv_eq_ediv_of_nonneg h

theorem wholeSeconds_of_neg {t : ℤ} (h : t < 0) : wholeSeconds t = -(-t / 1000000) := by
  rw [wholeSeconds, ← Int.tdiv_eq_ediv_of_nonneg (by omega), Int.neg_tdiv, neg_neg]

/-- Cutting a time to whole seconds moves it towards the epoch, by less than a second. -/
theorem wholeSeconds_bounds (t : ℤ) :
    (0 ≤ t → wholeSeconds t * 1000000 ≤ t ∧ t < (wholeSeconds t + 1) * 1000000) ∧
      (t < 0 → t ≤ wholeSeconds t * 1000000 ∧ (wholeSeconds t - 1) * 1000000 < t ∧
        wholeSeconds t ≤ 0) := by
  constructor
  · intro h
    rw [wholeSeconds_of_nonneg h]
    omega
  · intro h
    rw [wholeSeconds_of_neg h]
    omega

/-- Up to 2⁵³ seconds from the epoch the float rounds to one of the two whole seconds
around a time, and up to 2³⁴ seconds, which is the year 2514, to the one nearer zero. -/
theorem natAbs_epochSeconds {t : ℤ} (ht : |t| < 2 ^ 53 * 1000000) :
    ∃ n : ℤ, epochSeconds t = (if t < 0 then -n else n) ∧ |t| / 1000000 ≤ n ∧
      n ≤ (|t| + 999999) / 1000000 ∧ (|t| < 2 ^ 34 * 1000000 → n = |t| / 1000000) := by
  rcases eq_or_ne t 0 with rfl | hne
  · exact ⟨0, by decide +kernel, by norm_num, by norm_num, by norm_num⟩
  obtain ⟨a, ha⟩ : ∃ a : ℤ, a = |t| := ⟨_, rfl⟩
  have hpos : 0 < a := ha ▸ abs_pos.mpr hne
  have habs : |Timedelta.totalSeconds t| = (a : ℚ) / 1000000 := by
    rw [Timedelta.totalSeconds, abs_div, ha, Int.cast_abs]
    norm_num
  rw [← ha] at ht ⊢
  have hsign : Timedelta.totalSeconds t < 0 ↔ t < 0 := by
    rw [Timedelta.totalSeconds, div_neg_iff]
    constructor
    · rintro (⟨-, h⟩ | ⟨h, -⟩)
      · norm_num at h
      · exact_mod_cast h
    · exact fun h => Or.inr ⟨by exact_mod_cast h, by norm_num⟩
  obtain ⟨q, hq⟩ : ∃ q : ℚ, q = (a : ℚ) / 1000000 := ⟨_, rfl⟩
  rw [← hq] at habs
  have hnormal : (2 : ℚ) ^ (-1022 : ℤ) ≤ q := by
    have hone : (1 : ℚ) ≤ a := by exact_mod_cast hpos
    have hsmall : (2 : ℚ) ^ (-1022 : ℤ) ≤ (2 : ℚ) ^ (-20 : ℤ) :=
      zpow_le_zpow_right₀ (by norm_num) (by norm_num)
    refine hsmall.trans ?_
    rw [hq, le_div_iff₀ (by norm_num)]
    refine le_trans ?_ hone
    norm_num
  have hlt : q < 2 ^ 53 := by
    rw [hq, div_lt_iff₀ (by norm_num)]
    exact_mod_cast ht
  obtain ⟨x, k, hx, -, -⟩ := Binary64.round?_of_lt (Timedelta.totalSeconds t < 0) hnormal hlt
  have hseconds : epochSeconds t = x.toInt := by
    rw [epochSeconds, Binary64.ofRat?, habs, hx]
  have hneg : x.negative = decide (t < 0) := by
    rw [(Binary64.round?_eq_some hx).1]
    exact decide_eq_decide.mpr hsign
  refine ⟨⌊x.magnitude⌋, ?_, ?_, ?_, ?_⟩
  · rw [hseconds, Binary64.toInt, hneg]
    simp only [decide_eq_true_eq]
  · refine Int.le_floor.mpr ((Binary64.round?_between hnormal hlt hx _).1 ?_)
    rw [hq, le_div_iff₀ (by norm_num)]
    exact_mod_cast Int.ediv_mul_le a (by norm_num : (1000000 : ℤ) ≠ 0)
  · have hle : x.magnitude ≤ (((a + 999999) / 1000000 : ℤ) : ℚ) := by
      refine (Binary64.round?_between hnormal hlt hx _).2 ?_
      rw [hq, div_le_iff₀ (by norm_num)]
      have : a ≤ (a + 999999) / 1000000 * 1000000 := by omega
      exact_mod_cast this
    exact_mod_cast (Int.floor_le x.magnitude).trans hle
  · intro hsmall
    have hfloor : ⌊x.magnitude⌋ < a / 1000000 + 1 := by
      have hlt' : x.magnitude < ((a / 1000000 + 1 : ℤ) : ℚ) := by
        refine Binary64.round?_lt_of_micro hnormal ?_ hx ?_
        · rw [hq, div_lt_iff₀ (by norm_num)]
          exact_mod_cast hsmall
        · rw [hq, ← add_div, div_le_iff₀ (by norm_num)]
          have : a + 1 ≤ (a / 1000000 + 1) * 1000000 := by omega
          exact_mod_cast this
      exact Int.floor_lt.mpr hlt'
    have hge : a / 1000000 ≤ ⌊x.magnitude⌋ := by
      refine Int.le_floor.mpr ((Binary64.round?_between hnormal hlt hx _).1 ?_)
      rw [hq, le_div_iff₀ (by norm_num)]
      exact_mod_cast Int.ediv_mul_le a (by norm_num : (1000000 : ℤ) ≠ 0)
    omega

theorem epochSeconds_nonneg {t : ℤ} (h0 : 0 ≤ t) (hmax : t ≤ max) :
    0 ≤ epochSeconds t ∧ epochSeconds t ≤ 253402300800 := by
  have habs : |t| = t := abs_of_nonneg h0
  have hmax' : t ≤ 253402300800 * 1000000 - 1 := hmax
  obtain ⟨n, hn, hlow, hhigh, -⟩ := natAbs_epochSeconds (t := t) (by rw [habs]; omega)
  rw [habs] at hlow hhigh
  rw [hn, if_neg (not_lt.mpr h0)]
  constructor <;> omega

/-- A whole second is exact. -/
theorem epochSeconds_mul {n : ℤ} (hn : |n| < 2 ^ 53) : epochSeconds (n * 1000000) = n := by
  have habs : |n * 1000000| = |n| * 1000000 := by rw [abs_mul]; rfl
  obtain ⟨m, hm, hlow, hhigh, -⟩ := natAbs_epochSeconds (t := n * 1000000) (by rw [habs]; omega)
  rw [habs] at hlow hhigh
  have hmn : m = |n| := by omega
  rw [hm, hmn]
  rcases lt_or_ge n 0 with hneg | hpos
  · rw [if_pos (by omega), abs_of_neg hneg, neg_neg]
  · rw [if_neg (by omega), abs_of_nonneg hpos]

/-- Until the year 2514 nothing is rounded up. -/
theorem epochSeconds_eq {t : ℤ} (ht : |t| < 2 ^ 34 * 1000000) :
    epochSeconds t = wholeSeconds t := by
  obtain ⟨n, hn, -, -, hexact⟩ := natAbs_epochSeconds (t := t) (ht.trans (by norm_num))
  rw [hn, hexact ht, wholeSeconds]
  rcases lt_or_ge t 0 with hneg | hpos
  · rw [if_pos hneg, abs_of_neg hneg, ← wholeSeconds_of_neg hneg, wholeSeconds]
  · rw [if_neg (not_lt.mpr hpos), abs_of_nonneg hpos, Int.tdiv_eq_ediv_of_nonneg hpos]

end Datetime

end Python
