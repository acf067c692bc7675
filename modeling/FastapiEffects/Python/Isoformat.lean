import FastapiEffects.Python.Zoned

/-! # The texts of datetimes

`datetime.isoformat(timespec="microseconds")` and `datetime.fromisoformat`, which takes the
calendar dates and the week dates of ISO 8601, with any one character before the time, and
offsets up to microseconds. What the one writes of a reading of UTC the other reads.
-/

namespace Python

namespace Str

/-- The loop of `replace`; `skip` characters of an occurrence are left. -/
def replaceFrom (old new : Str) : ℕ → Str → Str
  | _, [] => []
  | 0, c :: s =>
      if old.isPrefixOf (c :: s) then new ++ replaceFrom old new (old.length - 1) s
      else c :: replaceFrom old new 0 s
  | skip + 1, _ :: s => replaceFrom old new skip s

/-- `s.replace(old, new)` of a text `old` that is not empty. -/
def replace (old new s : Str) : Str := replaceFrom old new 0 s

/-- Text without the first character of `old` is left as it is. -/
theorem replace_append_of_not_mem {c : PyChar} {old new s t : Str} (h : c ∉ s) :
    replace (c :: old) new (s ++ t) = s ++ replace (c :: old) new t := by
  unfold replace
  induction s with
  | nil => rfl
  | cons d s ih =>
      have hne : ¬ (c :: old).isPrefixOf (d :: (s ++ t)) = true := by
        rw [List.isPrefixOf_cons_cons, Bool.and_eq_true]
        rintro ⟨heq, -⟩
        exact h (beq_iff_eq.mp heq ▸ List.mem_cons_self)
      rw [List.cons_append, replaceFrom, if_neg hne, ih (List.not_mem_of_not_mem_cons h)]
      rfl

end Str

namespace PyChar

/-- An ASCII digit. -/
def isDigit (c : PyChar) : Bool := c.between '0' '9'

end PyChar

/-! ## Writing -/

namespace UtcOffset

open Datetime (padded)

/-- The offset of `isoformat`: seconds and microseconds only where there are any. -/
def text (o : UtcOffset) : Str :=
  let seconds := o.delta.natAbs / 1000000
  let micro := o.delta.natAbs % 1000000
  let tail : Str := if micro = 0 then [] else PyChar.scalar '.' :: padded 6 micro
  let rest : Str :=
    if seconds % 60 = 0 ∧ micro = 0 then []
    else PyChar.scalar ':' :: padded 2 (seconds % 60) ++ tail
  (if o.delta < 0 then "-" else "+") ++ padded 2 (seconds / 3600) ++ ":" ++
    padded 2 (seconds / 60 % 60) ++ rest

end UtcOffset

namespace LocalDatetime

variable {Z : Type} [HostZones Z]

/-- `t.isoformat(timespec="microseconds")`. -/
def isoformatMicroseconds (t : LocalDatetime Z) : Str :=
  t.wall.dateText ++ "T" ++ t.wall.clockText ++ "." ++ Datetime.padded 6 t.wall.microsecond ++
    t.utcoffset.elim [] UtcOffset.text

example : UtcOffset.zero.text = "+00:00" := by decide +kernel

end LocalDatetime

/-! ## Reading -/

namespace Isoformat

/-- `parse_digits`: the number of the first `n` characters, and the rest. -/
def digits? (n : ℕ) (s : Str) : Option (ℕ × Str) :=
  if (s.take n).length = n ∧ (s.take n).all PyChar.isDigit then
    some (Str.digitsValue (s.take n), s.drop n)
  else none

/-- The text after a character it has to start with. -/
def after? (c : Char) (s : Str) : Option Str :=
  if s.head? = some (.scalar c) then some s.tail else none

/-- `_iso_to_ymd`: the ordinal of a day of a week; the first week has the first Thursday. -/
def isoToOrdinal? (year week day : ℕ) : Option ℤ :=
  let first := Calendar.ymd2ord year 1 1
  let weekday := (first + 6) % 7
  let long := weekday = 3 ∨ (weekday = 2 ∧ Calendar.isLeap year)
  if 1 ≤ year ∧ 1 ≤ week ∧ (week ≤ 52 ∨ (week = 53 ∧ long)) ∧ 1 ≤ day ∧ day ≤ 7 then
    let monday : ℤ := first - weekday + if 3 < weekday then 7 else 0
    some (monday + (week - 1) * 7 + (day - 1))
  else none

/-- `parse_isoformat_date`: the ordinal of a date, which has dashes everywhere or nowhere. -/
def date? (s : Str) : Option ℤ := do
  let (year, s) ← digits? 4 s
  let dashed := s.head? = some (.scalar '-')
  let s := if dashed then s.tail else s
  if s.head? = some (.scalar 'W') then
    let (week, s) ← digits? 2 s.tail
    if s = [] then isoToOrdinal? year week 1
    else
      let s ← if dashed then after? '-' s else some s
      let (day, s) ← digits? 1 s
      if s = [] then isoToOrdinal? year week day else none
  else
    let (month, s) ← digits? 2 s
    let s ← if dashed then after? '-' s else some s
    let (day, s) ← digits? 2 s
    if s = [] ∧ 1 ≤ year ∧ 1 ≤ month ∧ month ≤ 12 ∧ 1 ≤ day ∧
        day ≤ Calendar.daysInMonth (Calendar.isLeap year) month then
      some (Calendar.ymd2ord year month day)
    else none

/-- Hours, minutes, seconds and microseconds. -/
structure Clock where
  hour : ℕ
  minute : ℕ
  second : ℕ
  micro : ℕ
deriving DecidableEq

namespace Clock

def total (c : Clock) : ℕ := ((c.hour * 60 + c.minute) * 60 + c.second) * 1000000 + c.micro

/-- What the constructor of `datetime` takes. -/
def IsTime (c : Clock) : Prop := c.hour < 24 ∧ c.minute < 60 ∧ c.second < 60

instance (c : Clock) : Decidable c.IsTime := inferInstanceAs (Decidable (_ ∧ _))

end Clock

/-- The fraction of a second in microseconds; digits after the sixth are cut off. -/
def fraction? (s : Str) : Option ℕ :=
  if s ≠ [] ∧ s.all PyChar.isDigit then some (Str.digitsValue (s.take 6) * 10 ^ (6 - s.length)) else none

/-- `parse_hh_mm_ss_ff`: `HH[:MM[:SS[.ffffff]]]`, with colons everywhere or nowhere. -/
def clock? (s : Str) : Option Clock := do
  let (hour, s) ← digits? 2 s
  if s = [] then return ⟨hour, 0, 0, 0⟩
  let colons := s.head? = some (.scalar ':')
  let (minute, s) ← digits? 2 (if colons then s.tail else s)
  if s = [] then return ⟨hour, minute, 0, 0⟩
  let s ← if colons then after? ':' s else some s
  let (second, s) ← digits? 2 s
  if s = [] then return ⟨hour, minute, second, 0⟩
  let micro ← ((after? '.' s).or (after? ',' s)).bind fraction?
  return ⟨hour, minute, second, micro⟩

/-- `_find_isoformat_datetime_separator`: how long the date is. -/
def separator (s : Str) : ℕ :=
  if s.length = 7 then 7
  else if s[4]? = some (.scalar '-') then
    if s[5]? = some (.scalar 'W') ∧
        (s[8]? ≠ some (.scalar '-') ∨ s[10]?.any PyChar.isDigit) then 8
    else 10
  else if s[4]? = some (.scalar 'W') then
    let digits := 7 + ((s.drop 7).takeWhile PyChar.isDigit).length
    if digits < 9 then digits else if digits % 2 = 0 then 7 else 8
  else 8

/-- The sign before an offset, or the letter of UTC. -/
def isZone (c : PyChar) : Bool := c = .scalar '+' ∨ c = .scalar '-' ∨ c = .scalar 'Z'

/-- `parse_isoformat_time`: the time, and the zone if there is one. -/
def time? (s : Str) : Option (Clock × Option UtcOffset) := do
  let before := s.takeWhile fun c => ¬ isZone c
  let clock ← clock? before
  match s.drop before.length with
  | [] => return (clock, none)
  | [.scalar 'Z'] => return (clock, some .zero)
  | sign :: rest =>
    if sign = .scalar 'Z' then none
    else
      let offset ← clock? rest
      let delta : ℤ := if sign = .scalar '-' then -offset.total else offset.total
      return (clock, some (← UtcOffset.ofMicroseconds? delta))

end Isoformat

namespace LocalDatetime

variable {Z : Type}

/-- `datetime.fromisoformat(s)`. -/
def fromisoformat? (s : Str) : Option (LocalDatetime Z) := do
  let length := Isoformat.separator s
  let ordinal ← Isoformat.date? (s.take length)
  let (clock, offset) ←
    if s.length ≤ length + 1 then some (⟨0, 0, 0, 0⟩, none)
    else Isoformat.time? (s.drop (length + 1))
  let wall : Datetime := (ordinal - 719163) * Datetime.day + clock.total
  if h : clock.IsTime ∧ wall.Valid then
    some ⟨wall, false, offset.map .timezone, h.2⟩
  else none

end LocalDatetime

/-! ## What is written is read -/

namespace Datetime

/-- A number that fits has exactly the digits asked for. -/
theorem length_padded {width n : ℕ} (hwidth : 0 < width) (h : n < 10 ^ width) :
    (padded width n).length = width := by
  have hle := (Nat.length_toDigits_le_iff (by norm_num : 1 < 10) hwidth).mpr h
  simp only [padded, Str.ofChars, List.length_map, List.length_append, List.length_replicate]
  omega

theorem isDigit_padded (width n : ℕ) : ∀ c ∈ padded width n, c.isDigit = true := by
  intro c hc
  obtain ⟨d, hd, rfl⟩ := List.mem_map.mp hc
  rcases List.mem_append.mp hd with hd | hd
  · rw [List.eq_of_mem_replicate hd]
    decide
  · have hdigit : d.isDigit = true :=
      Nat.isDigit_of_mem_toDigits (by norm_num) (by norm_num) hd
    simp only [Char.isDigit, Bool.and_eq_true, decide_eq_true_eq] at hdigit
    refine decide_eq_true ⟨?_, ?_⟩
    · exact hdigit.1
    · exact hdigit.2

theorem digitsValue_padded (width n : ℕ) : Str.digitsValue (padded width n) = n := by
  have hchars : (padded width n).filterMap PyChar.scalar? =
      List.replicate (width - (Nat.toDigits 10 n).length) '0' ++ Nat.toDigits 10 n := by
    simp only [padded, Str.ofChars, List.filterMap_map]
    exact List.filterMap_some
  rw [Str.digitsValue, hchars, Nat.ofDigitChars_append, Nat.ofDigitChars_replicate_zero, mul_zero,
    Nat.ofDigitChars_ten_toDigits]

/-- Digits start with no other character. -/
theorem head?_padded {width n : ℕ} {c : PyChar} (hc : c.isDigit = false) (rest : Str) :
    (padded width n ++ rest).head? ≠ some c := by
  intro hhead
  have hne : padded width n ≠ [] := by
    simp [padded, Str.ofChars, Nat.toDigits_ne_nil]
  rw [List.head?_append_of_ne_nil _ hne] at hhead
  rw [isDigit_padded width n c (List.mem_of_head? hhead)] at hc
  cases hc

end Datetime

namespace Isoformat

open Datetime (padded)

/-- Digits are read up to where they end. -/
theorem digits?_padded {width n : ℕ} (hwidth : 0 < width) (h : n < 10 ^ width) (rest : Str) :
    digits? width (padded width n ++ rest) = some (n, rest) := by
  have hlength := Datetime.length_padded hwidth h
  rw [digits?, List.take_left' hlength, List.drop_left' hlength, Datetime.digitsValue_padded]
  exact if_pos ⟨hlength, List.all_eq_true.mpr (Datetime.isDigit_padded width n)⟩

theorem daysInMonth_le (leap : Bool) : ∀ month ≤ 12, Calendar.daysInMonth leap month ≤ 31 := by
  cases leap <;> decide

theorem after?_cons (c : Char) (s : Str) : after? c (.scalar c :: s) = some s :=
  if_pos rfl

/-- A date is read. -/
theorem date?_text {year month day : ℕ} (hyear : year ≤ 9999) (h : Calendar.IsDate year month day) :
    date? (padded 4 year ++ "-" ++ padded 2 month ++ "-" ++ padded 2 day) =
      some (Calendar.ymd2ord year month day) := by
  have hday : day < 10 ^ 2 :=
    (h.day_le.trans (daysInMonth_le _ month h.month_le)).trans_lt (by norm_num)
  have hmonth : month < 10 ^ 2 := h.month_le.trans_lt (by norm_num)
  have htext : (padded 4 year ++ "-" ++ padded 2 month ++ "-" ++ padded 2 day : Str) =
      padded 4 year ++ PyChar.scalar '-' :: (padded 2 month ++
        PyChar.scalar '-' :: (padded 2 day ++ [])) := by
    simp [Str.ofString]
  have hweek : (padded 2 month ++ PyChar.scalar '-' :: (padded 2 day ++ [])).head? ≠
      some (.scalar 'W') := Datetime.head?_padded (by decide) _
  rw [htext, date?, digits?_padded (by norm_num) (by omega)]
  simp only [Option.bind_eq_bind, Option.bind_some, List.head?_cons, if_true,
    List.tail_cons]
  rw [if_neg hweek, digits?_padded (by norm_num) hmonth, Option.bind_some, after?_cons,
    Option.bind_some, digits?_padded (by norm_num) hday, Option.bind_some]
  exact if_pos ⟨rfl, h.year_pos, h.month_pos, h.month_le, h.day_pos, h.day_le⟩

/-- The time of day of `isoformat`: microseconds after a point, or nothing. -/
def clockText (c : Clock) (fraction : Bool) : Str :=
  padded 2 c.hour ++ ":" ++ padded 2 c.minute ++ ":" ++ padded 2 c.second ++
    if fraction then PyChar.scalar '.' :: padded 6 c.micro else []

/-- A time is read. -/
theorem clock?_text {c : Clock} (h : c.IsTime) (hmicro : c.micro < 10 ^ 6) {fraction : Bool}
    (hzero : fraction = false → c.micro = 0) : clock? (clockText c fraction) = some c := by
  obtain ⟨hhour, hminute, hsecond⟩ := h
  have htext : clockText c fraction = padded 2 c.hour ++ PyChar.scalar ':' ::
      (padded 2 c.minute ++ PyChar.scalar ':' :: (padded 2 c.second ++
        if fraction then PyChar.scalar '.' :: padded 6 c.micro else [])) := by
    simp [clockText, Str.ofString]
  have hlength := Datetime.length_padded (by norm_num) hmicro
  have hfraction : fraction? (padded 6 c.micro) = some c.micro := by
    have hne : padded 6 c.micro ≠ [] := List.ne_nil_of_length_pos (by rw [hlength]; norm_num)
    rw [fraction?, if_pos ⟨hne, List.all_eq_true.mpr (Datetime.isDigit_padded 6 _)⟩,
      List.take_of_length_le hlength.le, Datetime.digitsValue_padded, hlength]
    simp
  rw [htext, clock?, digits?_padded (by norm_num) (by omega)]
  simp only [Option.bind_eq_bind, Option.bind_some, List.head?_cons, if_true,
    List.tail_cons, reduceCtorEq, if_false]
  rw [digits?_padded (by norm_num) (by omega)]
  simp only [Option.bind_some, reduceCtorEq, if_false, after?_cons]
  rw [digits?_padded (by norm_num) (by omega)]
  cases fraction with
  | true =>
      simp only [Option.bind_some, if_true, reduceCtorEq, if_false, after?_cons, Option.some_or,
        hfraction]
      rfl
  | false =>
      rw [if_neg Bool.false_ne_true, Option.bind_some, if_pos rfl]
      rw [← hzero rfl]
      rfl

/-- The date ends after ten characters. -/
theorem separator_text {year month : ℕ} (hyear : year ≤ 9999) {rest : Str} (hrest : 3 ≤ rest.length) :
    separator (padded 4 year ++ PyChar.scalar '-' :: (padded 2 month ++ rest)) = 10 := by
  have hlength : (padded 4 year).length = 4 := Datetime.length_padded (by norm_num) (by omega)
  have hdash : (padded 4 year ++ PyChar.scalar '-' :: (padded 2 month ++ rest))[4]? =
      some (.scalar '-') := by
    rw [List.getElem?_append_right hlength.le, hlength]
    rfl
  have hweek : (padded 4 year ++ PyChar.scalar '-' :: (padded 2 month ++ rest))[5]? ≠
      some (.scalar 'W') := by
    rw [List.getElem?_append_right (by omega), hlength, List.getElem?_cons_succ,
      ← List.head?_eq_getElem?]
    exact Datetime.head?_padded (by decide) rest
  have hseven : (padded 4 year ++ PyChar.scalar '-' :: (padded 2 month ++ rest)).length ≠ 7 := by
    simp only [List.length_append, List.length_cons, hlength]
    omega
  rw [separator, if_neg hseven, if_pos hdash, if_neg fun h => hweek h.1]

/-- A time has digits, colons and a point. -/
theorem mem_clockText {c : Clock} {fraction : Bool} {d : PyChar} (hd : d ∈ clockText c fraction) :
    d.isDigit = true ∨ d ∈ Str.ofString ":." := by
  have hdigit : ∀ width n, d ∈ padded width n → d.isDigit = true ∨ d ∈ Str.ofString ":." :=
    fun width n h => Or.inl (Datetime.isDigit_padded width n d h)
  have hcolon : d ∈ Str.ofString ":" → d.isDigit = true ∨ d ∈ Str.ofString ":." := by
    intro h
    have hsub : Str.ofString ":" ⊆ Str.ofString ":." := by decide
    exact Or.inr (hsub h)
  simp only [clockText, List.mem_append] at hd
  rcases hd with ((((hd | hd) | hd) | hd) | hd) | hd
  · exact hdigit _ _ hd
  · exact hcolon hd
  · exact hdigit _ _ hd
  · exact hcolon hd
  · exact hdigit _ _ hd
  · split_ifs at hd
    · rcases List.mem_cons.mp hd with rfl | hd
      · exact Or.inr (by decide)
      · exact hdigit _ _ hd
    · cases hd

/-- The characters of a time are not those of a zone. -/
theorem isZone_clockText (c : Clock) (fraction : Bool) :
    ∀ d ∈ clockText c fraction, isZone d = false := by
  intro d hd
  by_contra hzone
  rcases of_decide_eq_true (eq_true_of_ne_false hzone) with rfl | rfl | rfl <;>
    exact absurd (mem_clockText hd) (by decide)

/-- A time of UTC is read. -/
theorem time?_text {c : Clock} (h : c.IsTime) (hmicro : c.micro < 10 ^ 6) {fraction : Bool}
    (hzero : fraction = false → c.micro = 0) :
    time? (clockText c fraction ++ "+00:00") = some (c, some .zero) := by
  have hclock := clock?_text h hmicro hzero
  have hzone := isZone_clockText c fraction
  generalize clockText c fraction = text at hclock hzone ⊢
  have hbefore : (text ++ Str.ofString "+00:00").takeWhile (fun d => decide ¬ isZone d = true) =
      text := by
    rw [List.takeWhile_append_of_pos fun d hd => by simp [hzone d hd]]
    exact List.append_nil text
  have hdrop : (text ++ Str.ofString "+00:00").drop text.length =
      .scalar '+' :: Str.ofString "00:00" := List.drop_left
  have hoffset : clock? (Str.ofString "00:00") = some ⟨0, 0, 0, 0⟩ := by decide
  rw [time?]
  simp only [hbefore, hclock, Option.bind_eq_bind, Option.bind_some]
  rw [hdrop]
  split
  · rename_i heq
    exact absurd heq (List.cons_ne_nil _ _)
  · rename_i heq
    exact absurd (List.cons.inj heq).1 (by decide)
  · rename_i sign rest hrest heq
    obtain ⟨hsign, hoff⟩ := List.cons.inj heq
    rw [← hsign, ← hoff, if_neg (by decide), hoffset]
    rfl

/-- The microseconds of a day, as its hours, minutes, seconds and microseconds. -/
def clockOf (t : ℤ) : Clock :=
  let seconds := Datetime.timeOfDay t / 1000000
  ⟨seconds / 3600, seconds / 60 % 60, seconds % 60, Datetime.microsecond t⟩

theorem isTime_clockOf (t : ℤ) : (clockOf t).IsTime ∧ (clockOf t).micro < 10 ^ 6 := by
  have hday : t % Datetime.day < 86400000000 := Int.emod_lt_of_pos t (by decide)
  simp only [Clock.IsTime, clockOf, Datetime.microsecond, Datetime.timeOfDay]
  omega

theorem total_clockOf (t : ℤ) : ((clockOf t).total : ℤ) = t % Datetime.day := by
  have hpos : 0 ≤ t % Datetime.day := Int.emod_nonneg t (by decide)
  simp only [Clock.total, clockOf, Datetime.microsecond, Datetime.timeOfDay]
  omega

end Isoformat

namespace LocalDatetime

open Datetime (padded)
open Isoformat (clockOf)

variable {Z : Type}

/-- The text of a reading of UTC. -/
def utcText (t : Datetime) : Str :=
  t.dateText ++ "T" ++ t.clockText ++ "." ++ padded 6 t.microsecond ++ "+00:00"

/-- The text of a reading of UTC, the microseconds of a whole second left out or not. -/
theorem fromisoformat?_text {t : ℤ} (h : Datetime.Valid t) (fraction : Bool)
    (hzero : fraction = false → Datetime.microsecond t = 0) {text : Str}
    (hsplit : text = Datetime.dateText t ++
      PyChar.scalar 'T' :: (Isoformat.clockText (clockOf t) fraction ++ Str.ofString "+00:00")) :
    fromisoformat? text = some (ofUtc t h : LocalDatetime Z) := by
  have hmin : (-62135596800 * 1000000 : ℤ) ≤ t := h.1
  have hmax : t ≤ (253402300800 * 1000000 - 1 : ℤ) := h.2
  have hordinal : (Datetime.toordinal t : ℤ) = t / Datetime.day + 719163 := by
    simp only [Datetime.toordinal, Datetime.day]
    omega
  have hpos : 1 ≤ Datetime.toordinal t := by
    simp only [Datetime.day] at hordinal
    omega
  have hle : Datetime.toordinal t ≤ 3652059 := by
    simp only [Datetime.day] at hordinal
    omega
  obtain ⟨year, month, day, hymd, hdate, heq⟩ := Calendar.ord2ymd_spec hpos
  have hyear := Calendar.year_le hle hdate heq
  have htext : Datetime.dateText t = padded 4 year ++ "-" ++ padded 2 month ++ "-" ++ padded 2 day := by
    rw [Datetime.dateText, hymd]
  have hdigits : (padded 4 year).length = 4 ∧ (padded 2 month).length = 2 ∧
      (padded 2 day).length = 2 := by
    have hmonth := hdate.month_le
    have hday := hdate.day_le.trans (Isoformat.daysInMonth_le _ month hmonth)
    exact ⟨Datetime.length_padded (by norm_num) (by omega),
      Datetime.length_padded (by norm_num) (by omega),
      Datetime.length_padded (by norm_num) (by omega)⟩
  have hlength : (Datetime.dateText t).length = 10 := by
    rw [htext]
    simp [Str.ofString, hdigits]
  obtain ⟨htime, hmicro⟩ := Isoformat.isTime_clockOf t
  have hread := Isoformat.time?_text htime hmicro hzero
  generalize Isoformat.clockText (clockOf t) fraction ++ Str.ofString "+00:00" = clock
    at hsplit hread
  have hseparator : Isoformat.separator text = 10 := by
    have hshape : text = padded 4 year ++ PyChar.scalar '-' :: (padded 2 month ++
        PyChar.scalar '-' :: (padded 2 day ++ PyChar.scalar 'T' :: clock)) := by
      rw [hsplit, htext]
      simp [Str.ofString]
    rw [hshape]
    refine Isoformat.separator_text hyear ?_
    simp only [List.length_cons, List.length_append, hdigits.2.2]
    omega
  have hlong : ¬ text.length ≤ 10 + 1 := by
    have hne : clock ≠ [] := by
      rintro rfl
      cases hread
    have hpos := List.length_pos_of_ne_nil hne
    rw [hsplit]
    simp only [List.length_append, List.length_cons, hlength]
    omega
  have htake : text.take 10 = Datetime.dateText t := by
    rw [hsplit, List.take_left' hlength]
  have hdrop : text.drop (10 + 1) = clock := by
    rw [hsplit, ← List.drop_drop, List.drop_left' hlength]
    rfl
  have hwall : ((Datetime.toordinal t : ℤ) - 719163) * Datetime.day + (clockOf t).total = t := by
    rw [hordinal, Isoformat.total_clockOf, add_sub_cancel_right]
    exact Int.ediv_mul_add_emod t Datetime.day
  have hvalid : ∀ wall : ℤ, wall = t → (if h : (clockOf t).IsTime ∧ Datetime.Valid wall then
      some (⟨wall, false, (some UtcOffset.zero).map .timezone, h.2⟩ : LocalDatetime Z) else none) =
        some (ofUtc t h) := by
    rintro wall rfl
    exact dif_pos ⟨htime, h⟩
  rw [fromisoformat?]
  simp only [hseparator, htake, hdrop, if_neg hlong, htext, Isoformat.date?_text hyear hdate,
    hread, heq, Option.bind_eq_bind, Option.bind_some]
  exact hvalid _ hwall

/-- What is written of a reading of UTC is read as that reading. -/
theorem fromisoformat?_utcText {t : ℤ} (h : Datetime.Valid t) :
    fromisoformat? (utcText t) = some (ofUtc t h : LocalDatetime Z) := by
  refine fromisoformat?_text h true (by simp) ?_
  simp [utcText, Datetime.clockText, Isoformat.clockText, clockOf, Str.ofString]

theorem fromisoformat?_isoformat {t : ℤ} (h : Datetime.Valid t) :
    fromisoformat? (Datetime.isoformat t) = some (ofUtc t h : LocalDatetime Z) := by
  by_cases hzero : Datetime.microsecond t = 0
  · refine fromisoformat?_text h false (fun _ => hzero) ?_
    simp [Datetime.isoformat, hzero, Datetime.clockText, Isoformat.clockText, clockOf, Str.ofString]
  · refine fromisoformat?_text h true (by simp) ?_
    simp [Datetime.isoformat, hzero, Datetime.clockText, Isoformat.clockText, clockOf, Str.ofString]


theorem isoformatMicroseconds_of_utc [HostZones Z] {t : LocalDatetime Z}
    (h : t.tzinfo = some .utc) : t.isoformatMicroseconds = utcText t.wall := by
  have hoffset : t.utcoffset = some .zero := by
    rw [utcoffset, h]
    rfl
  rw [isoformatMicroseconds, hoffset]
  rfl

/-- Dates and times have digits and four other characters. -/
theorem mem_dateTime {t : Datetime} {c : PyChar}
    (hc : c ∈ t.dateText ++ "T" ++ t.clockText ++ "." ++ padded 6 t.microsecond) :
    c.isDigit = true ∨ c ∈ Str.ofString "-T:." := by
  have hdigit : ∀ width n, c ∈ padded width n → c.isDigit = true ∨ c ∈ Str.ofString "-T:." :=
    fun width n h => Or.inl (Datetime.isDigit_padded width n c h)
  have hother : ∀ s : Str, s ⊆ Str.ofString "-T:." → c ∈ s →
      c.isDigit = true ∨ c ∈ Str.ofString "-T:." := fun s hs h => Or.inr (hs h)
  rw [Datetime.dateText, Datetime.clockText] at hc
  simp only [List.mem_append] at hc
  rcases hc with (((hc | hc) | hc) | hc) | hc
  · rcases hc with (((hc | hc) | hc) | hc) | hc
    · exact hdigit _ _ hc
    · exact hother _ (by decide) hc
    · exact hdigit _ _ hc
    · exact hother _ (by decide) hc
    · exact hdigit _ _ hc
  · exact hother _ (by decide) hc
  · rcases hc with (((hc | hc) | hc) | hc) | hc
    · exact hdigit _ _ hc
    · exact hother _ (by decide) hc
    · exact hdigit _ _ hc
    · exact hother _ (by decide) hc
    · exact hdigit _ _ hc
  · exact hother _ (by decide) hc
  · exact hdigit _ _ hc

/-- The text of a reading of UTC with `Z` for its offset, and with the offset put back. -/
theorem replace_utcText (t : Datetime) :
    Str.replace "Z" "+00:00" (Str.replace "+00:00" "Z" (utcText t)) = utcText t := by
  have habsent : ∀ c : PyChar, c.isDigit = false → c ∉ Str.ofString "-T:." →
      c ∉ t.dateText ++ "T" ++ t.clockText ++ "." ++ padded 6 t.microsecond := by
    intro c hdigit hother hc
    rcases mem_dateTime hc with h | h
    · rw [hdigit] at h
      cases h
    · exact hother h
  have hplus := habsent (.scalar '+') (by decide) (by decide)
  have hzulu := habsent (.scalar 'Z') (by decide) (by decide)
  have hwritten : Str.replace "+00:00" "Z" (utcText t) =
      t.dateText ++ "T" ++ t.clockText ++ "." ++ padded 6 t.microsecond ++ "Z" := by
    rw [utcText]
    exact Str.replace_append_of_not_mem hplus
  rw [hwritten]
  exact Str.replace_append_of_not_mem hzulu

end LocalDatetime

end Python
