import FastapiEffects.Python.Str

/-! # Percent encoding

`urllib.parse.quote` with a set of characters that are left as they are.
-/

namespace Python

namespace Url

variable {safe : PyChar → Bool}

/-- An upper case hexadecimal digit. -/
def upperHexDigit (n : ℕ) : PyChar := .scalar (Char.ofNat (if n < 10 then 48 + n else 55 + n))

/-- A byte as a percent escape. -/
def escape (b : UInt8) : Str :=
  [.scalar '%', upperHexDigit (b.toNat / 16), upperHexDigit (b.toNat % 16)]

/-- A byte of the text: itself when it is safe. -/
def quoteByte (safe : PyChar → Bool) (b : UInt8) : Str :=
  if safe (Str.ofByte b) then [Str.ofByte b] else escape b

/-- `quote(s, safe)`; `none` is a `UnicodeEncodeError`. -/
def quote (safe : PyChar → Bool) (s : Str) : Option Str :=
  s.encode?.map fun bytes => bytes.flatMap (quoteByte safe)

/-- How many characters are written for a text. -/
def quotedLength (safe : PyChar → Bool) (s : Str) : ℕ :=
  let bytes := s.encode?.getD []
  bytes.countP (fun b => safe (Str.ofByte b)) + 3 * bytes.countP (fun b => !safe (Str.ofByte b))

theorem quote_length {s t : Str} (h : quote safe s = some t) : t.length = quotedLength safe s := by
  obtain ⟨bytes, hbytes, rfl⟩ := Option.map_eq_some_iff.mp h
  rw [quotedLength, hbytes, Option.getD_some]
  clear h hbytes
  induction bytes with
  | nil => rfl
  | cons b bytes ih =>
      rw [List.flatMap_cons, List.length_append, ih, List.countP_cons, List.countP_cons, quoteByte]
      cases safe (Str.ofByte b) with
      | true =>
          simp only [if_true, List.length_singleton, Bool.not_true, Bool.false_eq_true, if_false]
          omega
      | false =>
          simp only [Bool.false_eq_true, if_false, Bool.not_false, if_true, escape, List.length_cons,
            List.length_nil]
          omega

theorem upperHexDigit_isIn : ∀ n < 16,
    (upperHexDigit n).isIn [('0', '9'), ('A', 'F')] [] = true := by decide

theorem div_lt_of_byte (b : UInt8) : b.toNat / 16 < 16 := by
  have hlt := b.toNat_lt
  omega

/-- What is written is safe, or a percent sign or a digit of an escape. -/
theorem quote_mem {s t : Str} (h : quote safe s = some t) : ∀ c ∈ t,
    safe c = true ∨ c = .scalar '%' ∨ c.isIn [('0', '9'), ('A', 'F')] [] = true := by
  obtain ⟨bytes, hbytes, rfl⟩ := Option.map_eq_some_iff.mp h
  intro c hc
  obtain ⟨b, -, hc⟩ := List.mem_flatMap.mp hc
  unfold quoteByte at hc
  by_cases hsafe : safe (Str.ofByte b) = true
  · rw [if_pos hsafe] at hc
    rw [List.mem_singleton.mp hc]
    exact .inl hsafe
  · rw [if_neg hsafe] at hc
    rcases List.mem_cons.mp hc with rfl | hc
    · exact .inr (.inl rfl)
    · rcases List.mem_cons.mp hc with rfl | hc
      · exact .inr (.inr (upperHexDigit_isIn _ (div_lt_of_byte b)))
      · rw [List.mem_singleton.mp hc]
        exact .inr (.inr (upperHexDigit_isIn _ (Nat.mod_lt _ (by decide))))

/-- Safe ASCII text is left as it is. -/
theorem quote_eq_self {s : Str} (hascii : s.isAscii = true) (hsafe : ∀ c ∈ s, safe c = true) :
    quote safe s = some s := by
  have hself : ∀ c ∈ s, quoteByte safe (UInt8.ofNat c.ord) = [c] := by
    intro c hc
    rw [quoteByte, Str.ofByte_ord (Str.ord_lt_of_isAscii hascii c hc), if_pos (hsafe c hc)]
  rw [quote, Str.encode?_ascii hascii, Option.map_some, List.flatMap_map,
    List.flatMap_congr hself, List.flatMap_singleton']

/-- Text is encoded character by character. -/
theorem encode?_cons {c : PyChar} {s : Str} {bytes : Bytes} :
    Str.encode? (c :: s) = some bytes ↔ ∃ head rest,
      Str.encode? [c] = some head ∧ s.encode? = some rest ∧ bytes = head ++ rest := by
  simp only [Str.encode?, List.mapM_cons, List.mapM_nil, Option.map_eq_some_iff,
    Option.bind_eq_bind, Option.bind_eq_some_iff, Option.pure_def, Option.some.injEq]
  constructor
  · rintro ⟨cs, ⟨x, hx, xs, hxs, rfl⟩, rfl⟩
    exact ⟨_, _, ⟨[x], ⟨x, hx, [], rfl, rfl⟩, rfl⟩, ⟨xs, hxs, rfl⟩, by simp⟩
  · rintro ⟨_, _, ⟨_, ⟨x, hx, _, rfl, rfl⟩, rfl⟩, ⟨xs, hxs, rfl⟩, rfl⟩
    exact ⟨_, ⟨x, hx, xs, hxs, rfl⟩, by simp⟩

theorem quote_cons {c : PyChar} {s t : Str} : quote safe (c :: s) = some t ↔
    ∃ head rest, quote safe [c] = some head ∧ quote safe s = some rest ∧ t = head ++ rest := by
  simp only [quote, Option.map_eq_some_iff, encode?_cons (s := s)]
  constructor
  · rintro ⟨bytes, ⟨head, rest, hhead, hrest, rfl⟩, rfl⟩
    exact ⟨_, _, ⟨head, hhead, rfl⟩, ⟨rest, hrest, rfl⟩, List.flatMap_append⟩
  · rintro ⟨_, _, ⟨head, hhead, rfl⟩, ⟨rest, hrest, rfl⟩, rfl⟩
    exact ⟨_, ⟨head, rest, hhead, hrest, rfl⟩, List.flatMap_append⟩

/-- A character that is safe is written as it is. -/
theorem quote_cons_safe {c : PyChar} {s t : Str} (hascii : c.ord < 128) (hsafe : safe c = true)
    (h : quote safe (c :: s) = some t) : ∃ rest, quote safe s = some rest ∧ t = c :: rest := by
  obtain ⟨head, rest, hhead, hrest, rfl⟩ := quote_cons.mp h
  rw [quote_eq_self (by simpa [Str.isAscii] using hascii) (by simpa using hsafe)] at hhead
  cases hhead
  exact ⟨rest, hrest, rfl⟩

/-- The bytes of a character that is not ASCII are not ASCII. -/
theorem le_of_mem_utf8EncodeChar {c : Char} (h : 128 ≤ c.toNat) {b : UInt8}
    (hb : b ∈ String.utf8EncodeChar c) : 128 ≤ b.toNat := by
  have hv : 128 ≤ c.val.toNat := h
  have hbyte : ∀ n, 128 ≤ n → n < 256 → 128 ≤ (UInt8.ofNat n).toNat := by
    intro n hle hlt
    rw [UInt8.toNat_ofNat', Nat.mod_eq_of_lt hlt]
    exact hle
  simp only [String.utf8EncodeChar] at hb
  split_ifs at hb
  · omega
  · simp only [List.mem_cons, List.not_mem_nil, or_false] at hb
    rcases hb with rfl | rfl <;> exact hbyte _ (by omega) (by omega)
  · simp only [List.mem_cons, List.not_mem_nil, or_false] at hb
    rcases hb with rfl | rfl | rfl <;> exact hbyte _ (by omega) (by omega)
  · simp only [List.mem_cons, List.not_mem_nil, or_false] at hb
    rcases hb with rfl | rfl | rfl | rfl <;> exact hbyte _ (by omega) (by omega)

/-- The bytes of a character that is no percent sign are none either. -/
theorem not_mem_encode?_singleton {c : PyChar} {bytes : Bytes} (hne : c ≠ .scalar '%')
    (h : Str.encode? [c] = some bytes) : 37 ∉ bytes := by
  by_cases hascii : c.ord < 128
  · rw [Str.encode?_ascii (by simpa [Str.isAscii] using hascii)] at h
    cases h
    intro hmem
    have heq : 37 = UInt8.ofNat c.ord := List.mem_singleton.mp hmem
    have hself := Str.ofByte_ord hascii
    rw [← heq] at hself
    exact hne (hself.symm.trans rfl)
  · obtain ⟨cs, hcs, rfl⟩ := Option.map_eq_some_iff.mp h
    cases c with
    | surrogate n => cases hcs
    | scalar c =>
        cases hcs
        intro hmem
        have hbyte : (37 : UInt8) ∈ String.utf8EncodeChar c := by simpa using hmem
        exact absurd (le_of_mem_utf8EncodeChar (Nat.le_of_not_lt hascii) hbyte) (by decide)

/-- Nothing is written for no text only. -/
theorem eq_nil_of_quote {s : Str} (h : quote safe s = some []) : s = [] := by
  obtain ⟨bytes, hbytes, hnil⟩ := Option.map_eq_some_iff.mp h
  have hempty : bytes = [] := by
    refine List.eq_nil_iff_forall_not_mem.mpr fun b hb => ?_
    have hbyte := List.flatMap_eq_nil_iff.mp hnil b hb
    unfold quoteByte at hbyte
    split_ifs at hbyte
    cases hbyte
  rw [hempty] at hbytes
  exact Str.encode?_inj hbytes rfl

end Url

end Python
