import FastapiEffects.Python.Time
import FastapiEffects.Python.Dumps

/-! # Dates

The proleptic Gregorian calendar of `datetime`: a day has an ordinal, counted from the first of
January of year 1, and a year, a month and a day of that month. A `Datetime` is an instant; its
text is that of the instant in UTC.
-/

namespace Python

namespace Calendar

/-- `_is_leap`. -/
def isLeap (year : ℕ) : Bool := year % 4 = 0 ∧ (year % 100 ≠ 0 ∨ year % 400 = 0)

/-- `_days_before_year`. -/
def daysBeforeYear (year : ℕ) : ℕ :=
  (year - 1) * 365 + (year - 1) / 4 - (year - 1) / 100 + (year - 1) / 400

/-- `_DAYS_BEFORE_MONTH`, for a month of 1 to 12. -/
def daysBeforeMonth (leap : Bool) (month : ℕ) : ℕ :=
  [0, 0, 31, 59, 90, 120, 151, 181, 212, 243, 273, 304, 334].getD month 0 +
    if 2 < month ∧ leap then 1 else 0

/-- `_days_in_month`. -/
def daysInMonth (leap : Bool) (month : ℕ) : ℕ :=
  if month = 2 ∧ leap then 29
  else [0, 31, 28, 31, 30, 31, 30, 31, 31, 30, 31, 30, 31].getD month 0

/-- `_ymd2ord`. -/
def ymd2ord (year month day : ℕ) : ℕ :=
  daysBeforeYear year + daysBeforeMonth (isLeap year) month + day

/-- The month and the day of a day of a year, counted from 0. -/
def monthDay (leap : Bool) (n : ℕ) : ℕ × ℕ :=
  -- the estimate is never too small, and at most one month too large
  let month := (n + 50) / 32
  let preceding := daysBeforeMonth leap month
  if n < preceding then (month - 1, n - daysBeforeMonth leap (month - 1) + 1)
  else (month, n - preceding + 1)

/-- `_ord2ymd`. -/
def ord2ymd (ordinal : ℕ) : ℕ × ℕ × ℕ :=
  let n := ordinal - 1
  let (n400, n) := (n / 146097, n % 146097)
  let (n100, n) := (n / 36524, n % 36524)
  let (n4, n) := (n / 1461, n % 1461)
  let (n1, n) := (n / 365, n % 365)
  let year := n400 * 400 + 1 + n100 * 100 + n4 * 4 + n1
  -- the last day of a leap year, or of 400 years
  if n1 = 4 ∨ n100 = 4 then (year - 1, 12, 31)
  else (year, monthDay (n1 = 3 ∧ (n4 ≠ 24 ∨ n100 = 3)) n)

/-- A day of a month of a year. -/
structure IsDate (year month day : ℕ) : Prop where
  year_pos : 1 ≤ year
  month_pos : 1 ≤ month
  month_le : month ≤ 12
  day_pos : 1 ≤ day
  day_le : day ≤ daysInMonth (isLeap year) month

theorem isLeap_eq {a b c d : ℕ} (hb : b < 4) (hc : c < 25) (hd : d < 4) :
    isLeap (a * 400 + 1 + b * 100 + c * 4 + d) = decide (d = 3 ∧ (c ≠ 24 ∨ b = 3)) := by
  refine decide_eq_decide.mpr ?_
  omega

theorem daysBeforeYear_eq {a b c d : ℕ} (hb : b < 4) (hc : c < 25) (hd : d < 4) :
    daysBeforeYear (a * 400 + 1 + b * 100 + c * 4 + d) =
      a * 146097 + b * 36524 + c * 1461 + d * 365 := by
  unfold daysBeforeYear
  omega

/-- The days of a year have a month and a day of it. -/
theorem monthDay_spec (leap : Bool) :
    ∀ n < 365, 1 ≤ (monthDay leap n).1 ∧ (monthDay leap n).1 ≤ 12 ∧ 1 ≤ (monthDay leap n).2 ∧
      (monthDay leap n).2 ≤ daysInMonth leap (monthDay leap n).1 ∧
      daysBeforeMonth leap (monthDay leap n).1 + (monthDay leap n).2 = n + 1 := by
  cases leap <;> decide +kernel

/-- A day has the date that is its ordinal's. -/
theorem ord2ymd_spec {n : ℕ} (h : 1 ≤ n) :
    ∃ year month day, ord2ymd n = (year, month, day) ∧ IsDate year month day ∧
      ymd2ord year month day = n := by
  obtain ⟨m, rfl⟩ : ∃ m, n = m + 1 := ⟨n - 1, by omega⟩
  obtain ⟨a, ha⟩ : ∃ a, a = m / 146097 := ⟨_, rfl⟩
  obtain ⟨b, hb⟩ : ∃ b, b = m % 146097 / 36524 := ⟨_, rfl⟩
  obtain ⟨c, hc⟩ : ∃ c, c = m % 146097 % 36524 / 1461 := ⟨_, rfl⟩
  obtain ⟨d, hd⟩ : ∃ d, d = m % 146097 % 36524 % 1461 / 365 := ⟨_, rfl⟩
  obtain ⟨r, hr⟩ : ∃ r, r = m % 146097 % 36524 % 1461 % 365 := ⟨_, rfl⟩
  simp only [ord2ymd, Nat.add_sub_cancel, ← ha, ← hb, ← hc, ← hd, ← hr]
  split_ifs with hlast
  · -- the thirty-first of December of a leap year
    obtain ⟨b', c', hb', hc', hyear, hleap, hm⟩ : ∃ b' c', b' < 4 ∧ c' < 25 ∧
        a * 400 + 1 + b * 100 + c * 4 + d - 1 = a * 400 + 1 + b' * 100 + c' * 4 + 3 ∧
        (c' ≠ 24 ∨ b' = 3) ∧ m = a * 146097 + b' * 36524 + c' * 1461 + 3 * 365 + 365 := by
      by_cases hb4 : b = 4
      · exact ⟨3, 24, by omega, by omega, by omega, by omega, by omega⟩
      · exact ⟨b, c, by omega, by omega, by omega, by omega, by omega⟩
    have hisLeap : isLeap (a * 400 + 1 + b' * 100 + c' * 4 + 3) = true := by
      rw [isLeap_eq hb' hc' (by omega)]
      exact decide_eq_true ⟨rfl, hleap⟩
    refine ⟨_, _, _, rfl, ?_, ?_⟩
    · rw [hyear]
      refine ⟨by omega, by omega, by omega, by omega, ?_⟩
      rw [hisLeap]
      decide
    · rw [hyear, ymd2ord, hisLeap, daysBeforeYear_eq hb' hc' (by omega), hm]
      have : daysBeforeMonth true 12 = 335 := rfl
      omega
  · have hb4 : b < 4 := by omega
    have hc25 : c < 25 := by omega
    have hd4 : d < 4 := by omega
    have hspec := monthDay_spec (decide (d = 3 ∧ (c ≠ 24 ∨ b = 3))) r (by omega)
    have hisLeap := isLeap_eq (a := a) hb4 hc25 hd4
    obtain ⟨month, day, hmonth⟩ : ∃ month day,
        monthDay (decide (d = 3 ∧ (c ≠ 24 ∨ b = 3))) r = (month, day) := ⟨_, _, rfl⟩
    rw [hmonth] at hspec ⊢
    obtain ⟨hpos, hle, hday, hdayle, hsum⟩ := hspec
    refine ⟨_, _, _, rfl, ⟨by omega, hpos, hle, hday, ?_⟩, ?_⟩
    · rw [hisLeap]
      exact hdayle
    · rw [ymd2ord, hisLeap, daysBeforeYear_eq hb4 hc25 hd4, Nat.add_assoc, hsum]
      omega

/-- The year of a day up to the end of the year 9999. -/
theorem year_le {n year month day : ℕ} (hn : n ≤ 3652059) (h : IsDate year month day)
    (heq : ymd2ord year month day = n) : year ≤ 9999 := by
  have hday := h.day_pos
  by_contra hlt
  have hbefore : 3652059 ≤ daysBeforeYear year := by
    unfold daysBeforeYear
    omega
  unfold ymd2ord at heq
  omega

end Calendar

namespace Datetime

def day : ℤ := 86400000000

/-- The ordinal of the day of an instant in UTC; the epoch is the first of January 1970. -/
def toordinal (t : Datetime) : ℕ := (t / day + 719163).toNat

/-- The microseconds of an instant since the start of its day. -/
def timeOfDay (t : Datetime) : ℕ := (t % day).toNat

/-- A number in at least `width` digits. -/
def padded (width n : ℕ) : Str :=
  let digits := Nat.toDigits 10 n
  Str.ofChars (List.replicate (width - digits.length) '0' ++ digits)

/-- The date of `isoformat`. -/
def dateText (t : Datetime) : Str :=
  let (year, month, day) := Calendar.ord2ymd t.toordinal
  padded 4 year ++ "-" ++ padded 2 month ++ "-" ++ padded 2 day

/-- The hours, minutes and seconds of `isoformat`. -/
def clockText (t : Datetime) : Str :=
  let seconds := t.timeOfDay / 1000000
  padded 2 (seconds / 3600) ++ ":" ++ padded 2 (seconds / 60 % 60) ++ ":" ++ padded 2 (seconds % 60)

/-- The microseconds of an instant within its second. -/
def microsecond (t : Datetime) : ℕ := t.timeOfDay % 1000000

/-- `t.isoformat()` in UTC: microseconds only where there are any. -/
def isoformat (t : Datetime) : Str :=
  t.dateText ++ "T" ++ t.clockText ++
    (if t.microsecond = 0 then [] else PyChar.scalar '.' :: padded 6 t.microsecond) ++ "+00:00"

example : isoformat 951782400000001 = "2000-02-29T00:00:00.000001+00:00" := by decide +kernel

end Datetime

end Python
