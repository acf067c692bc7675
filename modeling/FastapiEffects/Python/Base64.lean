import FastapiEffects.Python.Str
import Mathlib.Data.List.DropRight

/-! # Base64

`base64.b64encode`, and `base64.b64decode` with `validate=True`, which takes whole
groups of four characters and padding only where the bytes end. A token is written
without its padding (`unpadded`), which can be put back (`padded_unpadded`).
-/

namespace Python.Base64

/-! ## Digits -/

/-- The standard alphabet. -/
def alphabet : List Char :=
  "ABCDEFGHIJKLMNOPQRSTUVWXYZabcdefghijklmnopqrstuvwxyz0123456789+/".toList

/-- The padding character. -/
def pad : PyChar := .scalar '='

/-- The character of six bits. -/
def digit (n : ℕ) : PyChar := .scalar (alphabet.getD n '=')

/-- The six bits of a character. -/
def value? (c : PyChar) : Option ℕ :=
  if c.between 'A' 'Z' then some (c.ord - 65)
  else if c.between 'a' 'z' then some (c.ord - 71)
  else if c.between '0' '9' then some (c.ord + 4)
  else if c = .scalar '+' then some 62
  else if c = .scalar '/' then some 63
  else none

theorem value?_digit (n : ℕ) (h : n < 64) : value? (digit n) = some n := by
  revert n
  decide +kernel

/-- The characters of the alphabet. -/
def isDigit (c : PyChar) : Bool := c.isIn [('A', 'Z'), ('a', 'z'), ('0', '9')] ['+', '/']

theorem isDigit_digit (n : ℕ) (h : n < 64) : isDigit (digit n) = true := by
  revert n
  decide +kernel

/-! ## Encoding and decoding -/

/-- `base64.b64encode(value)`. -/
def encode : Bytes → Str
  | a :: b :: c :: rest =>
      digit (a.toNat / 4) :: digit (a.toNat % 4 * 16 + b.toNat / 16) ::
        digit (b.toNat % 16 * 4 + c.toNat / 64) :: digit (c.toNat % 64) :: encode rest
  | [a, b] =>
      [digit (a.toNat / 4), digit (a.toNat % 4 * 16 + b.toNat / 16), digit (b.toNat % 16 * 4), pad]
  | [a] => [digit (a.toNat / 4), digit (a.toNat % 4 * 16), pad, pad]
  | [] => []

/-- The three bytes of four digits. -/
def group? (a b c d : PyChar) : Option Bytes := do
  let x ← value? a
  let y ← value? b
  let z ← value? c
  let w ← value? d
  return [UInt8.ofNat (x * 4 + y / 16), UInt8.ofNat (y % 16 * 16 + z / 4),
    UInt8.ofNat (z % 4 * 64 + w)]

/-- The last group, which may be padded. The bits left over are not looked at. -/
def lastGroup? (a b c d : PyChar) : Option Bytes :=
  if c = pad ∧ d = pad then do
    let x ← value? a
    let y ← value? b
    return [UInt8.ofNat (x * 4 + y / 16)]
  else if d = pad then do
    let x ← value? a
    let y ← value? b
    let z ← value? c
    return [UInt8.ofNat (x * 4 + y / 16), UInt8.ofNat (y % 16 * 16 + z / 4)]
  else group? a b c d

/-- `base64.b64decode(value, validate=True)`; `none` is a `binascii.Error`. -/
def decode? : Str → Option Bytes
  | [] => some []
  | a :: b :: c :: d :: rest =>
      if rest = [] then lastGroup? a b c d
      else do return (← group? a b c d) ++ (← decode? rest)
  | _ => none

theorem digit_ne_pad (n : ℕ) (h : n < 64) : digit n ≠ pad := by
  intro heq
  have hdigit := isDigit_digit n h
  rw [heq] at hdigit
  exact absurd hdigit (by decide)

/-- A group without padding comes before the rest. -/
theorem decode?_cons {a b c d : PyChar} {rest : Str} (hd : d ≠ pad) :
    decode? (a :: b :: c :: d :: rest) = do return (← group? a b c d) ++ (← decode? rest) := by
  rw [decode?]
  split_ifs with hrest
  · subst hrest
    cases hgroup : group? a b c d <;> simp [lastGroup?, hd, hgroup, decode?]
  · rfl

theorem group?_digits {a b c : UInt8} : group? (digit (a.toNat / 4))
    (digit (a.toNat % 4 * 16 + b.toNat / 16)) (digit (b.toNat % 16 * 4 + c.toNat / 64))
    (digit (c.toNat % 64)) = some [a, b, c] := by
  have ha := a.toNat_lt
  have hb := b.toNat_lt
  have hc := c.toNat_lt
  have h1 : a.toNat / 4 * 4 + (a.toNat % 4 * 16 + b.toNat / 16) / 16 = a.toNat := by omega
  have h2 : (a.toNat % 4 * 16 + b.toNat / 16) % 16 * 16 + (b.toNat % 16 * 4 + c.toNat / 64) / 4 =
      b.toNat := by omega
  have h3 : (b.toNat % 16 * 4 + c.toNat / 64) % 4 * 64 + c.toNat % 64 = c.toNat := by omega
  simp only [group?, value?_digit _ (show a.toNat / 4 < 64 by omega),
    value?_digit _ (show a.toNat % 4 * 16 + b.toNat / 16 < 64 by omega),
    value?_digit _ (show b.toNat % 16 * 4 + c.toNat / 64 < 64 by omega),
    value?_digit _ (show c.toNat % 64 < 64 by omega), Option.bind_eq_bind, Option.bind_some,
    h1, h2, h3, UInt8.ofNat_toNat]
  rfl

/-- Decoding undoes encoding. -/
theorem decode?_encode (bs : Bytes) : decode? (encode bs) = some bs := by
  induction bs using encode.induct with
  | case1 a b c rest ih =>
      rw [encode, decode?_cons (digit_ne_pad _ (by omega)), group?_digits, ih]
      rfl
  | case2 a b =>
      have ha := a.toNat_lt
      have hb := b.toNat_lt
      have h1 : a.toNat / 4 * 4 + (a.toNat % 4 * 16 + b.toNat / 16) / 16 = a.toNat := by omega
      have h2 : (a.toNat % 4 * 16 + b.toNat / 16) % 16 * 16 + b.toNat % 16 * 4 / 4 = b.toNat := by
        omega
      simp only [encode, decode?, lastGroup?, if_pos,
        digit_ne_pad _ (show b.toNat % 16 * 4 < 64 by omega), false_and, if_false,
        value?_digit _ (show a.toNat / 4 < 64 by omega),
        value?_digit _ (show a.toNat % 4 * 16 + b.toNat / 16 < 64 by omega),
        value?_digit _ (show b.toNat % 16 * 4 < 64 by omega), Option.bind_eq_bind,
        Option.bind_some, h1, h2, UInt8.ofNat_toNat]
      rfl
  | case3 a =>
      have ha := a.toNat_lt
      have h1 : a.toNat / 4 * 4 + a.toNat % 4 * 16 / 16 = a.toNat := by omega
      simp only [encode, decode?, lastGroup?, if_pos, and_self,
        value?_digit _ (show a.toNat / 4 < 64 by omega),
        value?_digit _ (show a.toNat % 4 * 16 < 64 by omega), Option.bind_eq_bind,
        Option.bind_some, h1, UInt8.ofNat_toNat]
      rfl
  | case4 => rfl

/-! ## The URL-safe alphabet -/

/-- `translate(maketrans(b"+/", b"-_"))`. -/
def toUrlsafe (c : PyChar) : PyChar :=
  if c = .scalar '+' then .scalar '-' else if c = .scalar '/' then .scalar '_' else c

/-- `translate(maketrans(b"-_", b"+/"))`. -/
def ofUrlsafe (c : PyChar) : PyChar :=
  if c = .scalar '-' then .scalar '+' else if c = .scalar '_' then .scalar '/' else c

/-- `base64.urlsafe_b64encode(value)`. -/
def urlsafeEncode (bs : Bytes) : Str := (encode bs).map toUrlsafe

/-- `value.rstrip(b"=")`. -/
def stripPad (s : Str) : Str := s.rdropWhile fun c => c = pad

/-- `value + "=" * (-len(value) % 4)`. -/
def restorePad (s : Str) : Str := s ++ List.replicate (-(s.length : ℤ) % 4).toNat pad

/-- `base64.b64decode(value, altchars=b"-_", validate=True)`. -/
def urlsafeDecode? (s : Str) : Option Bytes := decode? (s.map ofUrlsafe)

/-- The characters of the URL-safe alphabet. -/
def isUrlsafe (c : PyChar) : Bool := c.isIn [('A', 'Z'), ('a', 'z'), ('0', '9')] ['_', '-']

theorem isUrlsafe_toUrlsafe {c : PyChar} (h : isDigit c = true) :
    isUrlsafe (toUrlsafe c) = true ∧ ofUrlsafe (toUrlsafe c) = c ∧ toUrlsafe c ≠ pad := by
  by_cases hplus : c = .scalar '+'
  · subst hplus
    decide
  by_cases hslash : c = .scalar '/'
  · subst hslash
    decide
  -- letters and digits stand for themselves in both alphabets
  have hsame : toUrlsafe c = c := by rw [toUrlsafe, if_neg hplus, if_neg hslash]
  have hletter : c.isIn [('A', 'Z'), ('a', 'z'), ('0', '9')] [] = true := by
    simpa [isDigit, PyChar.isIn, hplus, hslash] using h
  have hne : ∀ x : PyChar, x.isIn [('A', 'Z'), ('a', 'z'), ('0', '9')] [] = false → c ≠ x := by
    rintro x hx rfl
    rw [hletter] at hx
    cases hx
  rw [hsame]
  refine ⟨?_, ?_, hne _ (by decide)⟩
  · unfold isUrlsafe PyChar.isIn at *
    simp only [List.any_nil, Bool.or_false] at hletter
    rw [hletter, Bool.true_or]
  · rw [ofUrlsafe, if_neg (hne _ (by decide)), if_neg (hne _ (by decide))]

/-- What is encoded is digits and the padding they ask for. -/
theorem encode_eq (bs : Bytes) : ∃ s : Str, encode bs = restorePad s ∧
    (∀ c ∈ s, isDigit c = true) ∧ s.length = (4 * bs.length + 2) / 3 := by
  induction bs using encode.induct with
  | case1 a b c rest ih =>
      obtain ⟨s, hs, hdigits, hlen⟩ := ih
      have ha := a.toNat_lt
      have hb := b.toNat_lt
      refine ⟨digit (a.toNat / 4) :: digit (a.toNat % 4 * 16 + b.toNat / 16) ::
        digit (b.toNat % 16 * 4 + c.toNat / 64) :: digit (c.toNat % 64) :: s, ?_, ?_, ?_⟩
      · have hpad : (-((s.length + 1 + 1 + 1 + 1 : ℕ) : ℤ) % 4) = -(s.length : ℤ) % 4 := by omega
        simp only [encode, hs, restorePad, List.length_cons, hpad, List.cons_append]
      · have hc := c.toNat_lt
        simp only [List.forall_mem_cons]
        exact ⟨isDigit_digit _ (by omega), isDigit_digit _ (by omega), isDigit_digit _ (by omega),
          isDigit_digit _ (by omega), hdigits⟩
      · simp only [List.length_cons, hlen]
        omega
  | case2 a b =>
      have ha := a.toNat_lt
      have hb := b.toNat_lt
      refine ⟨[digit (a.toNat / 4), digit (a.toNat % 4 * 16 + b.toNat / 16),
        digit (b.toNat % 16 * 4)], rfl, ?_, by simp⟩
      simp only [List.forall_mem_cons]
      exact ⟨isDigit_digit _ (by omega), isDigit_digit _ (by omega), isDigit_digit _ (by omega),
        by simp⟩
  | case3 a =>
      have ha := a.toNat_lt
      refine ⟨[digit (a.toNat / 4), digit (a.toNat % 4 * 16)], rfl, ?_, by simp⟩
      simp only [List.forall_mem_cons]
      exact ⟨isDigit_digit _ (by omega), isDigit_digit _ (by omega), by simp⟩
  | case4 => exact ⟨[], rfl, by simp, rfl⟩

theorem between_of_isDigit {c : PyChar} (h : isDigit c = true) : c.between '!' '~' = true := by
  have hrange : ∀ lo hi : Char, 33 ≤ lo.toNat → hi.toNat ≤ 126 → c.between lo hi = true →
      c.between '!' '~' = true := by
    intro lo hi hlo hhi hc
    have hbounds : lo.toNat ≤ c.ord ∧ c.ord ≤ hi.toNat := of_decide_eq_true hc
    exact decide_eq_true ⟨hlo.trans hbounds.1, hbounds.2.trans hhi⟩
  simp only [isDigit, PyChar.isIn, List.any_cons, List.any_nil, Bool.or_false, Bool.or_eq_true,
    decide_eq_true_eq] at h
  rcases h with (h | h | h) | h | h
  · exact hrange _ _ (by decide) (by decide) h
  · exact hrange _ _ (by decide) (by decide) h
  · exact hrange _ _ (by decide) (by decide) h
  · subst h
    decide
  · subst h
    decide

/-- The text of an encoding is printable, and a third longer than the bytes. -/
theorem encode_text (bs : Bytes) : (∀ c ∈ encode bs, c.between '!' '~' = true) ∧
    (encode bs).length = (bs.length + 2) / 3 * 4 := by
  obtain ⟨s, hs, hdigits, hlen⟩ := encode_eq bs
  rw [hs, restorePad]
  constructor
  · intro c hc
    rcases List.mem_append.mp hc with hc | hc
    · exact between_of_isDigit (hdigits c hc)
    · rw [List.eq_of_mem_replicate hc]
      decide
  · rw [List.length_append, List.length_replicate]
    omega

/-- A token part: what is encoded, without its padding. -/
theorem stripPad_urlsafeEncode (bs : Bytes) :
    (∀ c ∈ stripPad (urlsafeEncode bs), isUrlsafe c = true) ∧
      (stripPad (urlsafeEncode bs)).length = (4 * bs.length + 2) / 3 ∧
      urlsafeDecode? (restorePad (stripPad (urlsafeEncode bs))) = some bs := by
  obtain ⟨s, hs, hdigits, hlen⟩ := encode_eq bs
  have hpad : toUrlsafe pad = pad := by decide
  have hstrip : stripPad (urlsafeEncode bs) = s.map toUrlsafe := by
    rw [urlsafeEncode, hs, restorePad, List.map_append, List.map_replicate, hpad, stripPad]
    generalize (-(s.length : ℤ) % 4).toNat = k
    induction k with
    | zero =>
        rw [List.replicate_zero, List.append_nil, List.rdropWhile_eq_self_iff]
        intro hne
        obtain ⟨c, hc, hlast⟩ := List.mem_map.mp (List.getLast_mem hne)
        rw [← hlast]
        simpa using (isUrlsafe_toUrlsafe (hdigits c hc)).2.2
    | succ k ih =>
        rw [List.replicate_succ', ← List.append_assoc, List.rdropWhile_concat_pos _ _ _ (by simp), ih]
  have hback : (s.map toUrlsafe).map ofUrlsafe = s := by
    rw [List.map_map]
    refine (List.map_congr_left fun c hc => ?_).trans (List.map_id s)
    exact (isUrlsafe_toUrlsafe (hdigits c hc)).2.1
  rw [hstrip]
  refine ⟨?_, by rw [List.length_map, hlen], ?_⟩
  · intro c hc
    obtain ⟨d, hd, rfl⟩ := List.mem_map.mp hc
    exact (isUrlsafe_toUrlsafe (hdigits d hd)).1
  · have hofpad : ofUrlsafe pad = pad := by decide
    rw [urlsafeDecode?, restorePad, List.map_append, List.map_replicate, hofpad, hback,
      List.length_map, ← decode?_encode bs, hs, restorePad]

end Python.Base64
