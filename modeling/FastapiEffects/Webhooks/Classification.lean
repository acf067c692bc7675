import FastapiEffects.Python.Digits
import FastapiEffects.Python.Zoned
import FastapiEffects.Webhooks.Transport

/-! # Responses and when to try again

`classify_response` and the `Retry-After` header it reads: seconds or an HTTP date, clamped to
what the retry policy and the deadline of the delivery leave. The reading of a date is a
parameter.
-/

namespace FastapiEffects

open Python

/-- What `parsedate_to_datetime` reads: the clock, and the offset unless it is `-0000`. -/
structure ParsedDate where
  wall : Datetime
  offset : Option UtcOffset
  valid : wall.Valid

/-- `email.utils.parsedate_to_datetime`; `none` is a `TypeError`, a `ValueError` or an
`OverflowError`. -/
class EmailUtils where
  parsedateToDatetime : Str → Option ParsedDate

/-- A date without an offset is one of UTC. -/
def ParsedDate.aware {Z : Type} (d : ParsedDate) : LocalDatetime Z :=
  ⟨d.wall, false, some (.timezone (d.offset.getD .zero)), d.valid⟩

inductive ResponseDisposition where
  | success
  | retryable
  | permanent
deriving DecidableEq

structure ResponseClassification where
  disposition : ResponseDisposition
  code : Str
  retryAfter : Option Timedelta := none

section RetryAfter

variable [Digits] [EmailUtils] {Z : Type} [HostZones Z] [DecidableEq Z]

/-- The delay that a header says. -/
def saidDelay (normalized : Str) (now : LocalDatetime Z) : Except PyError (Option Timedelta) :=
  if normalized.isdigit then do
    let seconds ← orRaise normalized.intOfDigits? .value
    let delay ← orRaise (Timedelta.ofSeconds? seconds) .overflow
    return some delay
  else match EmailUtils.parsedateToDatetime normalized with
    | none => return none
    | some parsed => do
        let delay ← orRaise (parsed.aware.sub? now) .type
        return some delay

/-- The delay within the maximum and before the deadline. -/
def clampedDelay (delay : Timedelta) (now : LocalDatetime Z) (maximum : Timedelta)
    (deadline : Option (LocalDatetime Z)) : Except PyError Timedelta :=
  let delay := max 0 (min delay maximum)
  match deadline with
  | none => .ok delay
  | some deadline => do
      let left ← orRaise (deadline.sub? now) .type
      return min delay (max 0 left)

/-- `parse_retry_after`. -/
def parseRetryAfter (value : Option Str) (now : LocalDatetime Z) (maximum : Timedelta)
    (deadline : Option (LocalDatetime Z)) : Except PyError (Option Timedelta) :=
  match value with
  | none => .ok none
  | some value =>
      if maximum < 0 then .ok none
      else do
        match ← saidDelay value.strip now with
        | none => return none
        | some delay => return some (← clampedDelay delay now maximum deadline)

/-- `classify_response`. -/
def classifyResponse (statusCode : ℕ) (headers : List (Str × Str)) (now : LocalDatetime Z)
    (maximumRetryAfter : Timedelta) (deadline : Option (LocalDatetime Z)) :
    Except PyError ResponseClassification :=
  let code : Str := "webhook.http_" ++ Str.ofChars (intText statusCode)
  if 200 ≤ statusCode ∧ statusCode < 300 then
    .ok { disposition := .success, code := "webhook.succeeded" }
  else if statusCode ∈ [408, 425, 429] ∨ (500 ≤ statusCode ∧ statusCode < 600) then do
    let retryAfter ← parseRetryAfter (headerValue? headers "retry-after") now maximumRetryAfter deadline
    return { disposition := .retryable, code, retryAfter }
  else if 300 ≤ statusCode ∧ statusCode < 400 then
    .ok { disposition := .permanent, code := "webhook.redirect" }
  else .ok { disposition := .permanent, code }

/-! ## Seconds -/

omit [Digits] [EmailUtils] [HostZones Z] [DecidableEq Z] in
/-- So many seconds are too long for a `timedelta`. -/
theorem ofSeconds?_natCast (n : ℕ) : Timedelta.ofSeconds? (n : ℚ) =
    if n < 86400 * 1000000000 then some ((n : ℤ) * 1000000) else none := by
  have hround : roundHalfEven ((n : ℚ) * 1000000) = (n : ℤ) * 1000000 := by
    rw [← roundHalfEven_intCast ((n : ℤ) * 1000000)]
    push_cast
    rfl
  unfold Timedelta.ofSeconds? Timedelta.ofMicroseconds? Timedelta.min Timedelta.max
  rw [hround]
  have hmin : (-999999999 * 86400000000 : ℤ) ≤ n * 1000000 := by omega
  have hmax : (n * 1000000 : ℤ) ≤ 1000000000 * 86400000000 - 1 ↔ n < 86400 * 1000000000 := by omega
  by_cases hn : n < 86400 * 1000000000
  · rw [if_pos hn, if_pos ⟨hmin, hmax.mpr hn⟩]
  · rw [if_neg hn, if_neg fun h => hn (hmax.mp h.2)]

/-- Digits that are read as a number of seconds a `timedelta` holds. -/
def IsSeconds (s : Str) : Prop := ∃ n, s.intOfDigits? = some n ∧ n < 86400 * 1000000000

/-- Digits say their seconds, or raise. -/
theorem saidDelay_of_isdigit {s : Str} {now : LocalDatetime Z} {said : Option Timedelta}
    (hdigit : s.isdigit = true) : saidDelay s now = .ok said ↔
      ∃ n, s.intOfDigits? = some n ∧ n < 86400 * 1000000000 ∧ said = some ((n : ℤ) * 1000000) := by
  unfold saidDelay
  rw [if_pos hdigit]
  constructor
  · intro h
    obtain ⟨n, hn, h⟩ := bind_eq_ok.mp h
    obtain ⟨delay, hdelay, h⟩ := bind_eq_ok.mp h
    have hdelay := orRaise_eq_ok.mp hdelay
    rw [ofSeconds?_natCast] at hdelay
    split_ifs at hdelay with hlt
    cases hdelay
    cases h
    exact ⟨n, orRaise_eq_ok.mp hn, hlt, rfl⟩
  · rintro ⟨n, hn, hlt, rfl⟩
    refine bind_eq_ok.mpr ⟨n, orRaise_eq_ok.mpr hn, bind_eq_ok.mpr ⟨(n : ℤ) * 1000000, ?_, rfl⟩⟩
    rw [orRaise_eq_ok, ofSeconds?_natCast, if_pos hlt]

omit [Digits] [EmailUtils] in
/-- A date has an offset, so that an aware `now` can be subtracted from it. -/
theorem ParsedDate.sub?_isSome (parsed : ParsedDate) {now : LocalDatetime Z}
    (hnow : now.utcoffset.isSome = true) : ((parsed.aware : LocalDatetime Z).sub? now).isSome = true := by
  unfold LocalDatetime.sub?
  split_ifs with hzone hoffset
  · rfl
  · rfl
  · rw [hnow] at hoffset
    exact absurd rfl hoffset

/-- A header that is no number of seconds says the delay until its date, or none. -/
theorem saidDelay_of_not_isdigit {s : Str} {now : LocalDatetime Z} (hdigit : ¬ s.isdigit = true)
    (hnow : now.utcoffset.isSome = true) : ∃ said, saidDelay s now = .ok said ∧
      said.isSome = (EmailUtils.parsedateToDatetime s).isSome := by
  unfold saidDelay
  rw [if_neg hdigit]
  cases hparsed : EmailUtils.parsedateToDatetime s with
  | none => exact ⟨none, rfl, rfl⟩
  | some parsed =>
      obtain ⟨delay, hdelay⟩ := Option.isSome_iff_exists.mp (parsed.sub?_isSome hnow)
      exact ⟨some delay, bind_eq_ok.mpr ⟨delay, orRaise_eq_ok.mpr hdelay, rfl⟩, rfl⟩

/-! ## Clamping -/

omit [Digits] [EmailUtils] in
/-- What a delay is clamped to. -/
theorem clampedDelay_cases {delay maximum clamped : Timedelta} {now : LocalDatetime Z}
    {deadline : Option (LocalDatetime Z)}
    (h : clampedDelay delay now maximum deadline = .ok clamped) :
    (deadline = none ∧ clamped = max 0 (min delay maximum)) ∨
      ∃ d left, deadline = some d ∧ d.sub? now = some left ∧
        clamped = min (max 0 (min delay maximum)) (max 0 left) := by
  unfold clampedDelay at h
  cases deadline with
  | none =>
      cases h
      exact .inl ⟨rfl, rfl⟩
  | some d =>
      obtain ⟨left, hleft, h⟩ := bind_eq_ok.mp h
      cases h
      exact .inr ⟨d, left, rfl, orRaise_eq_ok.mp hleft, rfl⟩

omit [Digits] [EmailUtils] in
theorem clampedDelay_bounds {delay maximum clamped : Timedelta} {now : LocalDatetime Z}
    {deadline : Option (LocalDatetime Z)} (hmaximum : 0 ≤ maximum)
    (h : clampedDelay delay now maximum deadline = .ok clamped) :
    0 ≤ clamped ∧ clamped ≤ maximum ∧ ∀ d ∈ deadline, ∀ left ∈ d.sub? now, clamped ≤ max 0 left := by
  have hle : max 0 (min delay maximum) ≤ maximum := max_le hmaximum (min_le_right _ _)
  rcases clampedDelay_cases h with ⟨rfl, rfl⟩ | ⟨d, left, rfl, hleft, rfl⟩
  · exact ⟨le_max_left _ _, hle, by simp⟩
  · refine ⟨le_min (le_max_left _ _) (le_max_left _ _), (min_le_left _ _).trans hle, ?_⟩
    intro d' hd' left' hleft'
    cases hd'
    rw [hleft] at hleft'
    cases hleft'
    exact min_le_right _ _

omit [Digits] [EmailUtils] in
/-- The larger delay is clamped to the larger. -/
theorem clampedDelay_mono {delay delay' maximum clamped clamped' : Timedelta}
    {now : LocalDatetime Z} {deadline : Option (LocalDatetime Z)} (hle : delay ≤ delay')
    (h : clampedDelay delay now maximum deadline = .ok clamped)
    (h' : clampedDelay delay' now maximum deadline = .ok clamped') : clamped ≤ clamped' := by
  have hmono : max 0 (min delay maximum) ≤ max 0 (min delay' maximum) :=
    max_le_max le_rfl (min_le_min hle le_rfl)
  rcases clampedDelay_cases h with ⟨rfl, rfl⟩ | ⟨d, left, rfl, hleft, rfl⟩
  · rcases clampedDelay_cases h' with ⟨-, rfl⟩ | ⟨_, _, hnone, -, -⟩
    · exact hmono
    · cases hnone
  · rcases clampedDelay_cases h' with ⟨hnone, -⟩ | ⟨_, left', hsome, hleft', rfl⟩
    · cases hnone
    · cases hsome
      rw [hleft] at hleft'
      cases hleft'
      exact min_le_min hmono le_rfl

omit [Digits] [EmailUtils] in
/-- Clamping raises for a deadline that cannot be subtracted from. -/
theorem clampedDelay_ok_iff {delay maximum : Timedelta} {now : LocalDatetime Z}
    {deadline : Option (LocalDatetime Z)} :
    (∃ clamped, clampedDelay delay now maximum deadline = .ok clamped) ↔
      ∀ d ∈ deadline, (d.sub? now).isSome = true := by
  unfold clampedDelay
  cases deadline with
  | none => simp
  | some d =>
      constructor
      · rintro ⟨clamped, h⟩ d' hd'
        cases hd'
        obtain ⟨left, hleft, -⟩ := bind_eq_ok.mp h
        rw [orRaise_eq_ok.mp hleft]
        rfl
      · intro h
        obtain ⟨left, hleft⟩ := Option.isSome_iff_exists.mp (h d rfl)
        exact ⟨_, bind_eq_ok.mpr ⟨left, orRaise_eq_ok.mpr hleft, rfl⟩⟩

/-- The header is read, and what it says is clamped. -/
theorem parseRetryAfter_eq_ok {value : Str} {now : LocalDatetime Z} {maximum : Timedelta}
    {deadline : Option (LocalDatetime Z)} {result : Option Timedelta} (hmaximum : 0 ≤ maximum) :
    parseRetryAfter (some value) now maximum deadline = .ok result ↔
      (saidDelay value.strip now = .ok none ∧ result = none) ∨
        ∃ delay clamped, saidDelay value.strip now = .ok (some delay) ∧
          clampedDelay delay now maximum deadline = .ok clamped ∧ result = some clamped := by
  unfold parseRetryAfter
  dsimp only
  rw [if_neg (not_lt.mpr hmaximum), bind_eq_ok]
  constructor
  · rintro ⟨_ | delay, hsaid, h⟩
    · cases h
      exact .inl ⟨hsaid, rfl⟩
    · obtain ⟨clamped, hclamped, h⟩ := bind_eq_ok.mp h
      cases h
      exact .inr ⟨delay, clamped, hsaid, hclamped, rfl⟩
  · rintro (⟨hsaid, rfl⟩ | ⟨delay, clamped, hsaid, hclamped, rfl⟩)
    · exact ⟨none, hsaid, rfl⟩
    · exact ⟨some delay, hsaid, bind_eq_ok.mpr ⟨clamped, hclamped, rfl⟩⟩

/-! ## Retry-After -/

/-- Decimal digits of ASCII. -/
def IsAsciiDecimal (s : Str) : Prop := s ≠ [] ∧ ∀ c ∈ s, PyChar.between '0' '9' c = true

/-- The number they write. -/
def asciiNumber (s : Str) : ℕ := Str.ofDecimals (s.map fun c => c.ord - 48)

omit [EmailUtils] [HostZones Z] [DecidableEq Z] in
theorem IsAsciiDecimal.spec {s : Str} (h : IsAsciiDecimal s) : s.strip = s ∧ s.isdigit = true ∧
    ∀ n, s.intOfDigits? = some n → n = asciiNumber s := by
  have hdecimal : ∀ c ∈ s, Digits.decimal c = some (c.ord - 48) := by
    intro c hc
    have hbounds : 48 ≤ c.ord ∧ c.ord ≤ 57 := of_decide_eq_true (h.2 c hc)
    rw [Digits.decimal_latin1 c (by omega), if_pos (h.2 c hc)]
  refine ⟨Str.strip_eq_self fun c hc => PyChar.isSpace_of_between ?_, ?_, ?_⟩
  · have hbounds : 48 ≤ c.ord ∧ c.ord ≤ 57 := of_decide_eq_true (h.2 c hc)
    refine decide_eq_true ?_
    change 33 ≤ c.ord ∧ c.ord ≤ 126
    omega
  · unfold Str.isdigit
    simp only [decide_eq_true_eq, List.all_eq_true]
    exact ⟨h.1, fun c hc => Digits.isDigit_of_decimal c _ (hdecimal c hc)⟩
  · intro n hn
    have hmap : s.mapM Digits.decimal = some (s.map fun c => c.ord - 48) := by
      rw [mapM_eq_some_iff, List.forall₂_map_right_iff, List.forall₂_same]
      exact hdecimal
    unfold Str.intOfDigits? at hn
    split_ifs at hn
    rw [hmap] at hn
    exact (Option.some.inj hn).symm

/-- Reading a header returns a delay within the bounds or none, unless the header is a number
that `int` refuses or that is too long for a `timedelta`, or the deadline has no offset; and
the larger number does not give the smaller delay. -/
theorem parseRetryAfter_total (value : Str) (now : LocalDatetime Z) (maximum : Timedelta)
    (deadline : Option (LocalDatetime Z)) (hnow : now.utcoffset.isSome = true)
    (hmaximum : 0 ≤ maximum) :
    ((∃ result, parseRetryAfter (some value) now maximum deadline = .ok result ∧
        ∀ delay ∈ result, 0 ≤ delay ∧ delay ≤ maximum ∧
          ∀ d ∈ deadline, ∀ left ∈ d.sub? now, delay ≤ max 0 left) ↔
      (value.strip.isdigit = true → IsSeconds value.strip) ∧
      (value.strip.isdigit = true ∨ (EmailUtils.parsedateToDatetime value.strip).isSome = true →
        ∀ d ∈ deadline, (d.sub? now).isSome = true)) ∧
    ∀ smaller larger delay delay', IsAsciiDecimal smaller → IsAsciiDecimal larger →
      asciiNumber smaller ≤ asciiNumber larger →
      parseRetryAfter (some smaller) now maximum deadline = .ok (some delay) →
      parseRetryAfter (some larger) now maximum deadline = .ok (some delay') → delay ≤ delay' := by
  constructor
  · constructor
    · rintro ⟨result, h, -⟩
      have hread := (parseRetryAfter_eq_ok hmaximum).mp h
      constructor
      · intro hdigit
        have hsaid : ∃ said, saidDelay value.strip now = .ok said := by
          rcases hread with ⟨hsaid, -⟩ | ⟨delay, _, hsaid, -, -⟩
          · exact ⟨_, hsaid⟩
          · exact ⟨_, hsaid⟩
        obtain ⟨said, hsaid⟩ := hsaid
        obtain ⟨n, hn, hlt, -⟩ := (saidDelay_of_isdigit hdigit).mp hsaid
        exact ⟨n, hn, hlt⟩
      · intro hfound
        rcases hread with ⟨hsaid, -⟩ | ⟨delay, clamped, -, hclamped, -⟩
        · -- nothing was said
          exfalso
          by_cases hdigit : value.strip.isdigit = true
          · obtain ⟨n, -, -, hnone⟩ := (saidDelay_of_isdigit hdigit).mp hsaid
            cases hnone
          · obtain ⟨said, hsaid', hsome⟩ := saidDelay_of_not_isdigit hdigit hnow
            rw [hsaid] at hsaid'
            cases hsaid'
            rw [← hsome] at hfound
            rcases hfound with hfound | hfound
            · exact hdigit hfound
            · cases hfound
        · exact clampedDelay_ok_iff.mp ⟨clamped, hclamped⟩
    · rintro ⟨hseconds, hdeadline⟩
      have hsaid : ∃ said, saidDelay value.strip now = .ok said ∧ (said.isSome = true →
          value.strip.isdigit = true ∨ (EmailUtils.parsedateToDatetime value.strip).isSome = true) := by
        by_cases hdigit : value.strip.isdigit = true
        · obtain ⟨n, hn, hlt⟩ := hseconds hdigit
          exact ⟨_, (saidDelay_of_isdigit hdigit).mpr ⟨n, hn, hlt, rfl⟩, fun _ => .inl hdigit⟩
        · obtain ⟨said, hsaid, hsome⟩ := saidDelay_of_not_isdigit hdigit hnow
          exact ⟨said, hsaid, fun hsaid => .inr (hsome ▸ hsaid)⟩
      obtain ⟨_ | delay, hsaid, hfound⟩ := hsaid
      · exact ⟨none, (parseRetryAfter_eq_ok hmaximum).mpr (.inl ⟨hsaid, rfl⟩), by simp⟩
      · obtain ⟨clamped, hclamped⟩ := clampedDelay_ok_iff.mpr (hdeadline (hfound rfl))
        refine ⟨some clamped,
          (parseRetryAfter_eq_ok hmaximum).mpr (.inr ⟨delay, clamped, hsaid, hclamped, rfl⟩), ?_⟩
        intro delay' hdelay'
        cases hdelay'
        exact clampedDelay_bounds hmaximum hclamped
  · intro smaller larger delay delay' hsmaller hlarger hle h h'
    obtain ⟨hstrip, hdigit, hnumber⟩ := hsmaller.spec
    obtain ⟨hstrip', hdigit', hnumber'⟩ := hlarger.spec
    have hread := (parseRetryAfter_eq_ok hmaximum).mp h
    have hread' := (parseRetryAfter_eq_ok hmaximum).mp h'
    rw [hstrip] at hread
    rw [hstrip'] at hread'
    rcases hread with ⟨-, hnone⟩ | ⟨said, clamped, hsaid, hclamped, hresult⟩
    · cases hnone
    rcases hread' with ⟨-, hnone⟩ | ⟨said', clamped', hsaid', hclamped', hresult'⟩
    · cases hnone
    cases hresult
    cases hresult'
    obtain ⟨n, hn, -, hsome⟩ := (saidDelay_of_isdigit hdigit).mp hsaid
    obtain ⟨n', hn', -, hsome'⟩ := (saidDelay_of_isdigit hdigit').mp hsaid'
    cases hsome
    cases hsome'
    refine clampedDelay_mono ?_ hclamped hclamped'
    rw [hnumber n hn, hnumber' n' hn']
    have hcast : (asciiNumber smaller : ℤ) ≤ asciiNumber larger := by exact_mod_cast hle
    exact Int.mul_le_mul_of_nonneg_right hcast (by norm_num)

end RetryAfter

namespace HalfMinute

open scoped Digits

scoped instance emailUtils : EmailUtils := ⟨fun _ => none⟩

theorem now_valid : Datetime.Valid 0 := by decide

/-- The epoch, at which the response was received. -/
def now : LocalDatetime Empty := .ofUtc 0 now_valid

def maximum : Timedelta := 30000000

/-- Twelve seconds are a delay within the maximum. -/
theorem parseRetryAfter_twelve : ∃ result, parseRetryAfter (some "12") now maximum none = .ok result ∧
    ∀ delay ∈ result, 0 ≤ delay ∧ delay ≤ maximum ∧
      ∀ d ∈ (none : Option (LocalDatetime Empty)), ∀ left ∈ d.sub? now, delay ≤ max 0 left :=
  (parseRetryAfter_total "12" now maximum none (by decide) (by decide)).1.mpr
    ⟨fun _ => ⟨12, by decide, by decide⟩, by simp⟩

/-- A superscript two is refused by `int`, and a number of 14 digits by `timedelta`. -/
theorem parseRetryAfter_raises :
    (¬ ∃ result, parseRetryAfter (some "²") now maximum none = .ok result) ∧
      ¬ ∃ result, parseRetryAfter (some "86400000000000") now maximum none = .ok result := by
  constructor
  · rintro ⟨result, h⟩
    have hraised : parseRetryAfter (some "²") now maximum none = .error .value := by decide
    rw [hraised] at h
    cases h
  · rintro ⟨result, h⟩
    have hraised : parseRetryAfter (some "86400000000000") now maximum none = .error .overflow := by
      decide +kernel
    rw [hraised] at h
    cases h

end HalfMinute

end FastapiEffects
