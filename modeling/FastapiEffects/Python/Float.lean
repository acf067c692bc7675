import Mathlib.Data.Int.Log
import Mathlib.Data.Rat.Floor
import Mathlib.Algebra.Order.Field.Power
import Mathlib.Tactic.Linarith
import Mathlib.Tactic.Positivity
import Mathlib.Tactic.FieldSimp
import Mathlib.Tactic.Ring

/-! # Python numbers

`float` is IEEE 754 binary64: a finite one carries the proof that its significand
and exponent are canonical, so two of them are the same number only when they are
the same value. Decimal text and integers are rounded to nearest, ties to even.
-/

namespace Python

/-- The nearest integer, ties to even. -/
def roundHalfEven (q : ℚ) : ℤ :=
  if q - ⌊q⌋ < 1 / 2 then ⌊q⌋
  else if 1 / 2 < q - ⌊q⌋ then ⌊q⌋ + 1
  else if ⌊q⌋ % 2 = 0 then ⌊q⌋ else ⌊q⌋ + 1

@[simp] theorem roundHalfEven_intCast (n : ℤ) : roundHalfEven n = n := by
  simp [roundHalfEven]

theorem roundHalfEven_natCast (n : ℕ) : roundHalfEven n = n := by
  exact_mod_cast roundHalfEven_intCast n

theorem floor_le_roundHalfEven (q : ℚ) : ⌊q⌋ ≤ roundHalfEven q := by
  unfold roundHalfEven
  split_ifs <;> omega

theorem roundHalfEven_le_floor_add_one (q : ℚ) : roundHalfEven q ≤ ⌊q⌋ + 1 := by
  unfold roundHalfEven
  split_ifs <;> omega

/-- Rounding keeps order. -/
theorem roundHalfEven_mono {p q : ℚ} (h : p ≤ q) : roundHalfEven p ≤ roundHalfEven q := by
  rcases lt_or_eq_of_le (Int.floor_mono h) with hlt | heq
  · have h1 := roundHalfEven_le_floor_add_one p
    have h2 := floor_le_roundHalfEven q
    omega
  · unfold roundHalfEven
    rw [heq]
    split_ifs <;> first | omega | linarith

theorem roundHalfEven_nonneg {q : ℚ} (h : 0 ≤ q) : 0 ≤ roundHalfEven q :=
  (Int.floor_nonneg.mpr h).trans (floor_le_roundHalfEven q)

/-- More than half rounds up. -/
theorem roundHalfEven_pos {q : ℚ} (h : 1 / 2 < q) : 0 < roundHalfEven q := by
  rcases lt_or_ge q 1 with hlt | hge
  · have hfloor : ⌊q⌋ = 0 := Int.floor_eq_zero_iff.mpr ⟨by linarith, hlt⟩
    rw [roundHalfEven, hfloor, Int.cast_zero, sub_zero, if_neg (not_lt.mpr h.le), if_pos h]
    norm_num
  · have h1 : (1 : ℤ) ≤ ⌊q⌋ := Int.le_floor.mpr (by exact_mod_cast hge)
    have := floor_le_roundHalfEven q
    omega

/-- The significands and exponents of the finite binary64 numbers. -/
def IsCanonical (mantissa : ℕ) (exponent : ℤ) : Prop :=
  (2 ^ 52 ≤ mantissa ∧ mantissa < 2 ^ 53 ∧ -1074 ≤ exponent ∧ exponent ≤ 971) ∨
    (mantissa < 2 ^ 52 ∧ exponent = -1074)

instance (m : ℕ) (e : ℤ) : Decidable (IsCanonical m e) := inferInstanceAs (Decidable (_ ∨ _))

/-- A finite `float`. -/
structure Binary64 where
  negative : Bool
  mantissa : ℕ
  exponent : ℤ
  canonical : IsCanonical mantissa exponent
deriving DecidableEq

namespace Binary64

/-- The magnitude as a rational number. -/
def magnitude (x : Binary64) : ℚ := x.mantissa * 2 ^ x.exponent

/-- The value as a rational number. -/
def toRat (x : Binary64) : ℚ := if x.negative then -x.magnitude else x.magnitude

/-- A number with given parts, when they are canonical. -/
def mk? (negative : Bool) (m : ℕ) (e : ℤ) : Option Binary64 :=
  if h : IsCanonical m e then some ⟨negative, m, e, h⟩ else none

/-- The exponent of the nearest number to a magnitude. -/
def scale (q : ℚ) : ℤ := if q = 0 then -1074 else max (-1074) (Int.log 2 q - 52)

/-- The nearest number to a magnitude, with the given sign; `none` when it is too
large. -/
def round? (negative : Bool) (q : ℚ) : Option Binary64 :=
  let m := (roundHalfEven (q / 2 ^ scale q)).toNat
  if m = 2 ^ 53 then mk? negative (2 ^ 52) (scale q + 1) else mk? negative m (scale q)

/-- The nearest number to a rational; `none` when it is too large. -/
def ofRat? (q : ℚ) : Option Binary64 := round? (q < 0) |q|

theorem magnitude_nonneg (x : Binary64) : 0 ≤ x.magnitude := by
  unfold magnitude
  positivity

theorem scale_magnitude (x : Binary64) : scale x.magnitude = x.exponent := by
  have h2 : (0 : ℚ) < 2 ^ x.exponent := by positivity
  by_cases hm : x.mantissa = 0
  · have he : x.exponent = -1074 := by
      rcases x.canonical with ⟨h, -⟩ | ⟨-, h⟩
      · omega
      · exact h
    simp [scale, magnitude, hm, he]
  have hpos : 0 < x.magnitude := by
    unfold magnitude
    have : (0 : ℚ) < x.mantissa := by exact_mod_cast Nat.pos_of_ne_zero hm
    positivity
  -- the logarithm is fixed by the two powers of two around the magnitude
  have hlow := Int.zpow_log_le_self (b := 2) (by norm_num) hpos
  have hhigh := Int.lt_zpow_succ_log_self (b := 2) (by norm_num) x.magnitude
  simp only [Nat.cast_ofNat] at hlow hhigh
  have hupper : x.magnitude < 2 ^ (x.exponent + 53) := by
    have hlt : (x.mantissa : ℚ) < 2 ^ 53 := by
      have : x.mantissa < 2 ^ 53 := by
        rcases x.canonical with ⟨-, h, -⟩ | ⟨h, -⟩ <;> omega
      exact_mod_cast this
    rw [zpow_add₀ (by norm_num), mul_comm]
    exact mul_lt_mul_of_pos_right (by exact_mod_cast hlt) h2
  have hlog_lt : Int.log 2 x.magnitude < x.exponent + 53 :=
    (zpow_lt_zpow_iff_right₀ (by norm_num : (1 : ℚ) < 2)).mp (hlow.trans_lt hupper)
  simp only [scale, hpos.ne', if_false]
  rcases x.canonical with ⟨hge, -, hmin, -⟩ | ⟨-, he⟩
  · have hlower : (2 : ℚ) ^ (x.exponent + 52) ≤ x.magnitude := by
      have hge' : ((2 : ℚ) ^ 52) ≤ x.mantissa := by exact_mod_cast hge
      rw [zpow_add₀ (by norm_num), mul_comm]
      exact mul_le_mul_of_nonneg_right (by exact_mod_cast hge') h2.le
    have hlog_ge : x.exponent + 52 < Int.log 2 x.magnitude + 1 :=
      (zpow_lt_zpow_iff_right₀ (by norm_num : (1 : ℚ) < 2)).mp (hlower.trans_lt hhigh)
    omega
  · omega

/-- A number is its own nearest number. -/
theorem round?_magnitude (x : Binary64) : round? x.negative x.magnitude = some x := by
  have h2 : (2 : ℚ) ^ x.exponent ≠ 0 := by positivity
  have hm : (roundHalfEven (x.magnitude / 2 ^ x.exponent)).toNat = x.mantissa := by
    have : x.magnitude / 2 ^ x.exponent = ((x.mantissa : ℕ) : ℚ) := by
      rw [magnitude]
      field_simp
    rw [this, roundHalfEven_natCast, Int.toNat_natCast]
  have hne : x.mantissa ≠ 2 ^ 53 := by
    rcases x.canonical with ⟨-, h, -⟩ | ⟨h, -⟩ <;> omega
  simp only [round?, scale_magnitude, hm, hne, if_false, mk?]
  rw [dif_pos x.canonical]

theorem mk?_eq_some {negative : Bool} {m : ℕ} {e : ℤ} {x : Binary64}
    (h : mk? negative m e = some x) :
    x.negative = negative ∧ x.magnitude = m * (2 : ℚ) ^ e := by
  unfold mk? at h
  split_ifs at h
  rw [← Option.some.inj h]
  exact ⟨rfl, rfl⟩

/-- What rounding gives has the significand that was rounded. -/
theorem round?_eq_some {negative : Bool} {q : ℚ} {x : Binary64} (h : round? negative q = some x) :
    x.negative = negative ∧
      x.magnitude = (roundHalfEven (q / 2 ^ scale q)).toNat * (2 : ℚ) ^ scale q := by
  unfold round? at h
  simp only at h
  split_ifs at h with hcarry
  · obtain ⟨hneg, hmag⟩ := mk?_eq_some h
    refine ⟨hneg, ?_⟩
    rw [hmag, hcarry, zpow_add₀ (by norm_num : (2 : ℚ) ≠ 0)]
    push_cast
    ring
  · exact mk?_eq_some h

section Normal

variable {q : ℚ}

/-- The scale of a magnitude that no binary64 number below 2⁻¹⁰²² is next to. -/
theorem scale_eq (hq : (2 : ℚ) ^ (-1022 : ℤ) ≤ q) :
    scale q = Int.log 2 q - 52 ∧ -1022 ≤ Int.log 2 q := by
  have hpos : 0 < q := lt_of_lt_of_le (by positivity) hq
  have hhigh := Int.lt_zpow_succ_log_self (b := 2) (by norm_num) q
  simp only [Nat.cast_ofNat] at hhigh
  have hlog : -1022 ≤ Int.log 2 q := by
    have hlt := (zpow_lt_zpow_iff_right₀ (by norm_num : (1 : ℚ) < 2)).mp (hq.trans_lt hhigh)
    omega
  refine ⟨?_, hlog⟩
  simp only [scale, hpos.ne', if_false]
  omega

theorem zpow_log_eq (q : ℚ) :
    (2 : ℚ) ^ Int.log 2 q = 2 ^ 52 * 2 ^ (Int.log 2 q - 52) := by
  rw [← zpow_natCast, ← zpow_add₀ (by norm_num)]
  congr 1
  push_cast
  ring

/-- Such a magnitude keeps all the bits of its significand. -/
theorem significand_bounds (hq : (2 : ℚ) ^ (-1022 : ℤ) ≤ q) :
    (2 : ℤ) ^ 52 ≤ roundHalfEven (q / 2 ^ scale q) ∧
      roundHalfEven (q / 2 ^ scale q) ≤ (2 : ℤ) ^ 53 := by
  have hpos : 0 < q := lt_of_lt_of_le (by positivity) hq
  have hlow := Int.zpow_log_le_self (b := 2) (by norm_num) hpos
  have hhigh := Int.lt_zpow_succ_log_self (b := 2) (by norm_num) q
  simp only [Nat.cast_ofNat] at hlow hhigh
  have hscale := (scale_eq hq).1
  constructor
  · refine le_trans (Int.le_floor.mpr ?_) (floor_le_roundHalfEven _)
    rw [le_div_iff₀ (by positivity), hscale, Int.cast_pow, Int.cast_ofNat, ← zpow_log_eq]
    exact hlow
  · refine (roundHalfEven_le_floor_add_one _).trans ?_
    refine Int.add_one_le_iff.mpr (Int.floor_lt.mpr ?_)
    rw [zpow_add₀ (by norm_num), zpow_one, zpow_log_eq] at hhigh
    rw [div_lt_iff₀ (by positivity), hscale, Int.cast_pow, Int.cast_ofNat]
    linarith

/-- A normal number is more than half of what it was rounded from. -/
theorem half_lt_of_round? {negative : Bool} {x : Binary64}
    (h : round? negative q = some x) (hq : (2 : ℚ) ^ (-1022 : ℤ) ≤ q) : q / 2 < x.magnitude := by
  have hhigh := Int.lt_zpow_succ_log_self (b := 2) (by norm_num) q
  simp only [Nat.cast_ofNat] at hhigh
  have hfull := (significand_bounds hq).1
  have hcast : ((roundHalfEven (q / 2 ^ scale q)).toNat : ℚ) = roundHalfEven (q / 2 ^ scale q) := by
    exact_mod_cast Int.toNat_of_nonneg (le_trans (by positivity) hfull)
  have hge : (2 : ℚ) ^ Int.log 2 q ≤ x.magnitude := by
    rw [(round?_eq_some h).2, hcast, zpow_log_eq, (scale_eq hq).1]
    have hfull' : ((2 : ℚ) ^ 52) ≤ roundHalfEven (q / 2 ^ (Int.log 2 q - 52)) := by
      rw [← (scale_eq hq).1]
      exact_mod_cast hfull
    exact mul_le_mul_of_nonneg_right hfull' (by positivity)
  rw [zpow_add₀ (by norm_num), zpow_one] at hhigh
  linarith

/-- A magnitude between the smallest normal number and 2⁵³ is rounded to a multiple of
some 2⁻ᵏ, with fewer fractional bits the larger it is. -/
theorem round?_of_lt (negative : Bool) (hq : (2 : ℚ) ^ (-1022 : ℤ) ≤ q) (hlt : q < 2 ^ 53) :
    ∃ x : Binary64, ∃ k : ℕ, round? negative q = some x ∧
      x.magnitude * 2 ^ k = roundHalfEven (q * 2 ^ k) ∧ ∀ n : ℕ, q < 2 ^ n → 53 ≤ n + k := by
  have hpos : 0 < q := lt_of_lt_of_le (by positivity) hq
  have hlow := Int.zpow_log_le_self (b := 2) (by norm_num) hpos
  simp only [Nat.cast_ofNat] at hlow
  have hbound : ∀ n : ℕ, q < 2 ^ n → Int.log 2 q < n := by
    intro n hn
    rw [← zpow_natCast] at hn
    exact (zpow_lt_zpow_iff_right₀ (by norm_num : (1 : ℚ) < 2)).mp (hlow.trans_lt hn)
  obtain ⟨hscale, hlog⟩ := scale_eq hq
  obtain ⟨hge, hle⟩ := significand_bounds hq
  obtain ⟨k, hk⟩ : ∃ k : ℕ, scale q = -(k : ℤ) := by
    have := hbound 53 hlt
    exact ⟨(52 - Int.log 2 q).toNat, by omega⟩
  have hdiv : q / 2 ^ scale q = q * 2 ^ k := by
    rw [hk, zpow_neg, div_inv_eq_mul, zpow_natCast]
  have hsome : ∃ x, round? negative q = some x := by
    by_cases hcarry : (roundHalfEven (q / 2 ^ scale q)).toNat = 2 ^ 53
    · have hcanon : IsCanonical (2 ^ 52) (scale q + 1) :=
        Or.inl ⟨le_refl _, by norm_num, by omega, by omega⟩
      exact ⟨⟨negative, _, _, hcanon⟩, by rw [round?, if_pos hcarry, mk?, dif_pos hcanon]⟩
    · have hcanon : IsCanonical (roundHalfEven (q / 2 ^ scale q)).toNat (scale q) :=
        Or.inl ⟨by omega, by omega, by omega, by omega⟩
      exact ⟨⟨negative, _, _, hcanon⟩, by rw [round?, if_neg hcarry, mk?, dif_pos hcanon]⟩
  obtain ⟨x, hx⟩ := hsome
  refine ⟨x, k, hx, ?_, fun n hn => ?_⟩
  · rw [hdiv] at hge
    rw [(round?_eq_some hx).2, hdiv, hk, zpow_neg, zpow_natCast,
      inv_mul_cancel_right₀ (by positivity)]
    exact_mod_cast Int.toNat_of_nonneg (le_trans (by positivity) hge)
  · have := hbound n hn
    omega

/-- No integer lies between such a magnitude and what it is rounded to. -/
theorem round?_between {negative : Bool} {x : Binary64} (hq : (2 : ℚ) ^ (-1022 : ℤ) ≤ q)
    (hlt : q < 2 ^ 53) (hx : round? negative q = some x) (n : ℤ) :
    ((n : ℚ) ≤ q → (n : ℚ) ≤ x.magnitude) ∧ (q ≤ n → x.magnitude ≤ n) := by
  obtain ⟨y, k, hy, hmag, -⟩ := round?_of_lt negative hq hlt
  cases hx.symm.trans hy
  have hpow : (0 : ℚ) < 2 ^ k := by positivity
  have hcast : ((n * 2 ^ k : ℤ) : ℚ) = n * 2 ^ k := by push_cast; rfl
  constructor
  · intro hn
    have hle : ((n * 2 ^ k : ℤ) : ℚ) ≤ q * 2 ^ k := by
      rw [hcast]
      exact mul_le_mul_of_nonneg_right hn hpow.le
    have hmono := roundHalfEven_mono hle
    rw [roundHalfEven_intCast] at hmono
    refine le_of_mul_le_mul_right ?_ hpow
    rw [hmag, ← hcast]
    exact_mod_cast hmono
  · intro hn
    have hle : q * 2 ^ k ≤ ((n * 2 ^ k : ℤ) : ℚ) := by
      rw [hcast]
      exact mul_le_mul_of_nonneg_right hn hpow.le
    have hmono := roundHalfEven_mono hle
    rw [roundHalfEven_intCast] at hmono
    refine le_of_mul_le_mul_right ?_ hpow
    rw [hmag, ← hcast]
    exact_mod_cast hmono

/-- Below 2³⁴ a millionth is not rounded away. -/
theorem round?_lt_of_micro {negative : Bool} {x : Binary64} (hq : (2 : ℚ) ^ (-1022 : ℤ) ≤ q)
    (hlt : q < 2 ^ 34) (hx : round? negative q = some x) {n : ℤ} (hn : q + 1 / 1000000 ≤ n) :
    x.magnitude < n := by
  obtain ⟨y, k, hy, hmag, hbits⟩ := round?_of_lt negative hq (hlt.trans (by norm_num))
  cases hx.symm.trans hy
  have hk : 19 ≤ k := by
    have := hbits 34 hlt
    omega
  have hpow : (2 : ℚ) ^ 19 ≤ 2 ^ k := pow_le_pow_right₀ (by norm_num) hk
  have hround : roundHalfEven (q * 2 ^ k) < n * 2 ^ k := by
    have hhalf : q * 2 ^ k < ((n * 2 ^ k - 1 : ℤ) : ℚ) + 1 / 2 := by
      push_cast
      nlinarith
    have hfloor : ⌊q * 2 ^ k⌋ ≤ n * 2 ^ k - 1 := by
      refine Int.lt_add_one_iff.mp (Int.floor_lt.mpr ?_)
      push_cast at hhalf ⊢
      linarith
    rcases lt_or_eq_of_le hfloor with hlt' | heq
    · have := roundHalfEven_le_floor_add_one (q * 2 ^ k)
      omega
    · have hlow : q * 2 ^ k - ⌊q * 2 ^ k⌋ < 1 / 2 := by
        rw [heq]
        linarith
      rw [roundHalfEven, if_pos hlow]
      omega
  refine lt_of_mul_lt_mul_right ?_ (by positivity : (0 : ℚ) ≤ 2 ^ k)
  rw [hmag]
  exact_mod_cast hround

end Normal

/-- `int(x)`: towards zero. -/
def toInt (x : Binary64) : ℤ := if x.negative then -⌊x.magnitude⌋ else ⌊x.magnitude⌋

end Binary64

/-- A `float`. -/
inductive PyFloat where
  | finite (x : Binary64)
  | inf (negative : Bool)
  | nan
deriving DecidableEq

namespace PyFloat

/-- The `float` nearest to a signed magnitude; too large a one is infinite. -/
def nearest (negative : Bool) (q : ℚ) : PyFloat :=
  match Binary64.round? negative q with
  | some x => .finite x
  | none => .inf negative

theorem nearest_eq_finite {negative : Bool} {q : ℚ} {x : Binary64}
    (h : nearest negative q = .finite x) : Binary64.round? negative q = some x := by
  unfold nearest at h
  split at h
  · rw [← PyFloat.finite.inj h]
    assumption
  · cases h

/-- `math.isfinite`. -/
def isfinite : PyFloat → Bool
  | .finite _ => true
  | _ => false

end PyFloat

/-- An `int` or a `float` where Python accepts either. -/
inductive Number where
  | int (n : ℤ)
  | float (x : PyFloat)
deriving DecidableEq

namespace Number

/-- `float(x)`; `none` is an `OverflowError` of an `int` too large for a float. -/
def toFloat? : Number → Option PyFloat
  | .int n => (Binary64.ofRat? n).map .finite
  | .float x => some x

/-- The value of a finite number. -/
def value : Number → ℚ
  | .int n => n
  | .float (.finite x) => x.toRat
  | .float _ => 0

/-- The value of `float(x)`, where that is a finite number. -/
def floatValue (x : Number) : ℚ := (x.toFloat?.map fun y => (Number.float y).value).getD 0

end Number

end Python
