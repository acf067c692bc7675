import FastapiEffects.Python.Loads
import Mathlib.Data.List.SplitBy

/-! # URLs

`urllib.parse.unquote` with its UTF-8 decoder that replaces what is malformed, and the
path component of `urllib.parse.urlsplit`.
-/

namespace Python

namespace Utf8

/-! ## `bytes.decode("utf-8", "replace")` -/

/-- What the decoder has read of a character: nothing, or the leading bytes, with the
number of bytes still to come and the range of the next one. -/
inductive Pending where
  | start
  | more (needed : ℕ) (lo hi : UInt8) (value : ℕ)
deriving DecidableEq

/-- The character that stands for malformed bytes. -/
def replacement : PyChar := .scalar (Char.ofNat 0xFFFD)

/-- The first byte of a character. -/
def first (b : UInt8) : Str × Pending :=
  if b < 0x80 then ([.scalar (Char.ofNat b.toNat)], .start)
  else if 0xC2 ≤ b ∧ b ≤ 0xDF then ([], .more 1 0x80 0xBF (b.toNat % 32))
  else if 0xE0 ≤ b ∧ b ≤ 0xEF then
    ([], .more 2 (if b = 0xE0 then 0xA0 else 0x80) (if b = 0xED then 0x9F else 0xBF) (b.toNat % 16))
  else if 0xF0 ≤ b ∧ b ≤ 0xF4 then
    ([], .more 3 (if b = 0xF0 then 0x90 else 0x80) (if b = 0xF4 then 0x8F else 0xBF) (b.toNat % 8))
  else ([replacement], .start)

/-- One byte. A byte that does not continue the character before it starts a new one. -/
def step : Pending → UInt8 → Str × Pending
  | .start, b => first b
  | .more needed lo hi value, b =>
      if lo ≤ b ∧ b ≤ hi then
        if needed ≤ 1 then ([.scalar (Char.ofNat (value * 64 + b.toNat % 64))], .start)
        else ([], .more (needed - 1) 0x80 0xBF (value * 64 + b.toNat % 64))
      else (replacement :: (first b).1, (first b).2)

/-- The text of bytes after what is pending. -/
def decodeFrom : Pending → Bytes → Str
  | .start, [] => []
  | .more .., [] => [replacement]
  | p, b :: rest => (step p b).1 ++ decodeFrom (step p b).2 rest

def decodeReplace (bs : Bytes) : Str := decodeFrom .start bs

/-- Whether something is pending. -/
def Pending.size : Pending → ℕ
  | .start => 0
  | .more .. => 1

theorem length_first (b : UInt8) : (first b).1.length + (first b).2.size ≤ 1 := by
  unfold first
  split_ifs <;> simp [Pending.size]

theorem length_step (p : Pending) (b : UInt8) :
    (step p b).1.length + (step p b).2.size ≤ p.size + 1 := by
  have hfirst := length_first b
  cases p with
  | start =>
      simp only [step, Pending.size] at hfirst ⊢
      omega
  | more needed lo hi value =>
      simp only [step]
      split_ifs
      · simp [Pending.size]
      · simp [Pending.size]
      · simp only [List.length_cons, Pending.size] at hfirst ⊢
        omega

theorem length_decodeFrom (p : Pending) (bs : Bytes) :
    (decodeFrom p bs).length ≤ p.size + bs.length := by
  induction bs generalizing p with
  | nil => cases p <;> simp [decodeFrom, Pending.size]
  | cons b rest ih =>
      have hstep := length_step p b
      have hrest := ih (step p b).2
      rw [decodeFrom, List.length_append, List.length_cons]
      omega

/-- No byte becomes more than one character. -/
theorem length_decodeReplace (bs : Bytes) : (decodeReplace bs).length ≤ bs.length := by
  simpa [decodeReplace, Pending.size] using length_decodeFrom .start bs

/-- ASCII bytes are their own characters. -/
theorem decodeReplace_ascii {s : Str} (h : s.isAscii = true) :
    decodeReplace (s.map fun c => UInt8.ofNat c.ord) = s := by
  have hall := Str.ord_lt_of_isAscii h
  clear h
  unfold decodeReplace
  induction s with
  | nil => rfl
  | cons c s ih =>
      have hc : c.ord < 128 := hall c List.mem_cons_self
      have hbyte : UInt8.ofNat c.ord < 0x80 := by
        rw [UInt8.lt_iff_toNat_lt, UInt8.toNat_ofNat']
        exact (Nat.mod_le _ _).trans_lt hc
      have hfirst : first (UInt8.ofNat c.ord) = ([c], .start) := by
        rw [first, if_pos hbyte]
        exact congrArg (fun x => ([x], Pending.start)) (Str.ofByte_ord hc)
      have ih := ih fun c hc => hall c (List.mem_cons_of_mem _ hc)
      rw [List.map_cons, decodeFrom, step, hfirst, ih]
      rfl

end Utf8

/-! ## `unquote` -/

namespace Url

open Loads (hexValue?)

/-- `unquote_to_bytes` of ASCII text. -/
def unquoteToBytes : Str → Bytes
  | .scalar '%' :: a :: b :: rest =>
      match hexValue? a, hexValue? b with
      | some x, some y => UInt8.ofNat (x * 16 + y) :: unquoteToBytes rest
      | _, _ => 37 :: unquoteToBytes (a :: b :: rest)
  | c :: rest => UInt8.ofNat c.ord :: unquoteToBytes rest
  | [] => []

/-- The runs of ASCII and of other characters. -/
def asciiRuns (s : Str) : List Str := s.splitBy fun c d => decide (c.ord < 128) = decide (d.ord < 128)

/-- `urllib.parse.unquote`. -/
def unquote (s : Str) : Str :=
  (asciiRuns s).flatMap fun run =>
    if run.isAscii then Utf8.decodeReplace (unquoteToBytes run) else run

/-! ## `urlsplit` -/

/-- Whether `urlsplit` takes a network location: the brackets of an IPv6 host are right, and
no character of it becomes a delimiter under NFKC. -/
class Netloc where
  accepts : Str → Bool
  accepts_ascii : ∀ s : Str, s.isAscii = true → .scalar '[' ∉ s → .scalar ']' ∉ s →
    accepts s = true

/-- A character of a scheme. -/
def isSchemeChar : PyChar → Bool :=
  PyChar.isIn [('a', 'z'), ('A', 'Z'), ('0', '9')] ['+', '-', '.']

/-- The text without a scheme. -/
def dropScheme (url : Str) : Str :=
  match url.partition (.scalar ':') with
  | (scheme, some rest) =>
      if scheme.head?.any (PyChar.isIn [('a', 'z'), ('A', 'Z')] []) ∧ scheme.all isSchemeChar
      then rest else url
  | (_, none) => url

/-- The characters `urlsplit` removes everywhere. -/
def isRemoved : PyChar → Bool := PyChar.isIn [] ['\t', '\r', '\n']

def isDelimiter : PyChar → Bool := PyChar.isIn [] ['/', '?', '#']

/-- `urlsplit(url).path`; `none` is the `ValueError` of a network location. -/
def urlPath? [Netloc] (url : Str) : Option Str :=
  let cleaned := (url.dropWhile fun c => c.ord ≤ 32).filter fun c => !isRemoved c
  let url := dropScheme cleaned
  let path (rest : Str) : Str :=
    (rest.takeWhile (· ≠ .scalar '#')).takeWhile (· ≠ .scalar '?')
  if Str.ofString "//" <+: url then
    let netloc := (url.drop 2).takeWhile fun c => !isDelimiter c
    if Netloc.accepts netloc then some (path ((url.drop 2).dropWhile fun c => !isDelimiter c))
    else none
  else some (path url)

/-! ## What decoding keeps -/

theorem unquote_ascii {s : Str} (h : s.isAscii = true) :
    unquote s = Utf8.decodeReplace (unquoteToBytes s) := by
  rcases eq_or_ne s [] with rfl | hne
  · rfl
  · have hall := Str.ord_lt_of_isAscii h
    have hchain : s.IsChain fun c d => decide (decide (c.ord < 128) = decide (d.ord < 128)) := by
      refine List.Pairwise.isChain (List.pairwise_of_forall_mem_list fun c hc d hd => ?_)
      simp [hall c hc, hall d hd]
    rw [unquote, asciiRuns, List.splitBy_of_isChain hne hchain, List.flatMap_singleton, if_pos h]

theorem unquoteToBytes_cons {c : PyChar} (h : c ≠ .scalar '%') (s : Str) :
    unquoteToBytes (c :: s) = UInt8.ofNat c.ord :: unquoteToBytes s := by
  rw [unquoteToBytes]
  rintro a b rest rfl
  exact absurd rfl h

/-- Text without escapes is its own decoding. -/
theorem unquoteToBytes_of_not_mem {s : Str} (h : .scalar '%' ∉ s) :
    unquoteToBytes s = s.map fun c => UInt8.ofNat c.ord := by
  induction s with
  | nil => rfl
  | cons c s ih =>
      have hne : c ≠ .scalar '%' := fun heq => h (heq ▸ List.mem_cons_self)
      rw [unquoteToBytes_cons hne, ih (List.not_mem_of_not_mem_cons h), List.map_cons]

/-- Decoding escapes makes a text no longer. -/
theorem length_unquoteToBytes (s : Str) : (unquoteToBytes s).length ≤ s.length := by
  fun_induction unquoteToBytes s with
  | case1 a b rest x hx y hy ih =>
      simp only [List.length_cons]
      omega
  | case2 a b rest hne ih =>
      simp only [List.length_cons] at ih ⊢
      omega
  | case3 c rest hne ih =>
      simp only [List.length_cons]
      omega
  | case4 => simp

end Url

end Python
