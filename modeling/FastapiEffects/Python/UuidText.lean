import FastapiEffects.Python.Loads

/-! # Reading UUIDs

`UUID(text)`, which goes through `int(text, 16)` and is as lenient as that: it takes
prefixes, braces, hyphens anywhere, underscores between digits, and decimal digits of
any script (`decimal`). The text of a UUID is read back as the UUID.
-/

namespace Python

open Loads (hexValue?)

namespace Str

/-- The loop of `remove`; `skip` characters of an occurrence are left. -/
def removeFrom (sub : Str) : ℕ → Str → Str
  | _, [] => []
  | 0, c :: s =>
      if sub.isPrefixOf (c :: s) then removeFrom sub (sub.length - 1) s else c :: removeFrom sub 0 s
  | skip + 1, _ :: s => removeFrom sub skip s

/-- `s.replace(sub, "")`. -/
def remove (sub s : Str) : Str := removeFrom sub 0 s

/-- Text without the first character of `sub` has nothing to remove. -/
theorem remove_of_not_mem {c : PyChar} {sub s : Str} (h : c ∉ s) : remove (c :: sub) s = s := by
  unfold remove
  induction s with
  | nil => rfl
  | cons d s ih =>
      have hne : ¬ (c :: sub).isPrefixOf (d :: s) = true := by
        rw [List.isPrefixOf_cons_cons, Bool.and_eq_true]
        rintro ⟨heq, -⟩
        exact h (beq_iff_eq.mp heq ▸ List.mem_cons_self)
      rw [removeFrom, if_neg hne, ih (List.not_mem_of_not_mem_cons h)]

end Str

section

variable (decimal : PyChar → Option ℕ)

/-- A digit of base 16: ASCII, or a decimal digit of another script. -/
def hexDigit? (c : PyChar) : Option ℕ :=
  (hexValue? c).or (if c.ord < 128 then none else decimal c)

/-- Digits with single underscores between them. -/
def hexDigits? (s : Str) : Option (List ℕ) :=
  let underscore : PyChar := .scalar '_'
  if s = [] ∨ s.head? = some underscore ∨ s.getLast? = some underscore ∨
      [underscore, underscore] <:+: s then none
  else (s.filter (· ≠ underscore)).mapM (hexDigit? decimal)

/-- The digits after an optional `0x` and an underscore. -/
def dropHexPrefix (s : Str) : Str :=
  match s with
  | .scalar '0' :: .scalar x :: rest =>
      if x = 'x' ∨ x = 'X' then
        if rest.head? = some (.scalar '_') then rest.tail else rest
      else s
  | _ => s

/-- `int(s, 16)`. -/
def hexInt? (s : Str) : Option ℤ :=
  let value (s : Str) : Option ℤ :=
    (hexDigits? decimal (dropHexPrefix s)).map fun ds =>
      ds.foldl (fun (n : ℤ) (d : ℕ) => n * 16 + d) 0
  match s.strip with
  | .scalar '-' :: rest => (value rest).map fun n => -n
  | .scalar '+' :: rest => value rest
  | rest => value rest

/-- `UUID(s)`. -/
def UUID.ofStr? (s : Str) : Option UUID :=
  let brace : PyChar → Bool := PyChar.isIn [] ['{', '}']
  let bare := ((Str.remove "uuid:" (Str.remove "urn:" s)).dropWhile brace).rdropWhile brace
  let hex := bare.filter (· ≠ .scalar '-')
  if hex.length = 32 then
    match hexInt? decimal hex with
    | some n => if 0 ≤ n ∧ n < 2 ^ 128 then some (BitVec.ofInt 128 n) else none
    | none => none
  else none

/-! ## The text of a UUID -/

/-- The text of hexadecimal digits. -/
def hexText (ds : List ℕ) : Str := ds.map fun d => .scalar (hexDigit d)

/-- A hexadecimal digit is read back, and is no other character of the grammar. -/
theorem hexDigit_spec (d : ℕ) (h : d < 16) : hexValue? (.scalar (hexDigit d)) = some d ∧
    PyChar.isSpace (.scalar (hexDigit d)) = false ∧
    ∀ c ∈ Str.ofString "-+_xXu\x7b\x7d", PyChar.scalar (hexDigit d) ≠ c := by
  revert d
  decide

/-- `raw.hex()`. -/
def Bytes.hex (s : Bytes) : Str := hexText (s.flatMap fun b => [b.toNat / 16, b.toNat % 16])

theorem Bytes.hex_inj {s t : Bytes} (h : Bytes.hex s = Bytes.hex t) : s = t := by
  have hdigit : ∀ {m n : ℕ}, m < 16 → n < 16 → hexDigit m = hexDigit n → m = n := by
    intro m n hm hn heq
    have hread := (hexDigit_spec m hm).1
    rw [heq, (hexDigit_spec n hn).1] at hread
    exact (Option.some.inj hread).symm
  induction s generalizing t with
  | nil =>
      cases t with
      | nil => rfl
      | cons c t => cases h
  | cons b s ih =>
      cases t with
      | nil => cases h
      | cons c t =>
          have hb := b.toNat_lt
          have hc := c.toNat_lt
          simp only [Bytes.hex, hexText, List.flatMap_cons, List.cons_append, List.nil_append,
            List.map_cons, List.cons.injEq, PyChar.scalar.injEq] at h ih
          obtain ⟨hhigh, hlow, hrest⟩ := h
          have hhigh := hdigit (by omega) (by omega) hhigh
          have hlow := hdigit (by omega) (by omega) hlow
          rw [ih hrest, UInt8.toNat_inj.mp (by omega : b.toNat = c.toNat)]

theorem hexText_ne {ds : List ℕ} (h : ∀ d ∈ ds, d < 16) {c : PyChar}
    (hc : c ∈ Str.ofString "-+_xXu\x7b\x7d") : c ∉ hexText ds := by
  intro hmem
  obtain ⟨d, hd, heq⟩ := List.mem_map.mp hmem
  exact (hexDigit_spec d (h d hd)).2.2 c hc heq

theorem hexDigits?_hexText {ds : List ℕ} (h : ∀ d ∈ ds, d < 16) (hne : ds ≠ []) :
    hexDigits? decimal (hexText ds) = some ds := by
  have hunderscore : PyChar.scalar '_' ∉ hexText ds := hexText_ne h (by decide)
  have hfilter : (hexText ds).filter (· ≠ .scalar '_') = hexText ds :=
    List.filter_eq_self.mpr fun c hc => decide_eq_true fun heq => hunderscore (heq ▸ hc)
  have hmap : ∀ es : List ℕ, (∀ d ∈ es, d < 16) →
      (hexText es).mapM (hexDigit? decimal) = some es := by
    intro es hes
    induction es with
    | nil => rfl
    | cons d es ih =>
        have hd : hexDigit? decimal (.scalar (hexDigit d)) = some d := by
          rw [hexDigit?, (hexDigit_spec d (hes d List.mem_cons_self)).1]
          rfl
        have ih := ih fun d hd => hes d (List.mem_cons_of_mem _ hd)
        rw [hexText, List.map_cons, List.mapM_cons, hd]
        rw [hexText] at ih
        rw [ih]
        rfl
  rw [hexDigits?, if_neg, hfilter, hmap ds h]
  rintro (hnil | hhead | hlast | hdouble)
  · exact hne (List.map_eq_nil_iff.mp hnil)
  · exact hunderscore (List.mem_of_head? hhead)
  · exact hunderscore (List.mem_of_getLast? hlast)
  · exact hunderscore (hdouble.subset List.mem_cons_self)

theorem strip_hexText {ds : List ℕ} (h : ∀ d ∈ ds, d < 16) : (hexText ds).strip = hexText ds := by
  have hspace : ∀ c ∈ hexText ds, PyChar.isSpace c = false := by
    intro c hc
    obtain ⟨d, hd, rfl⟩ := List.mem_map.mp hc
    exact (hexDigit_spec d (h d hd)).2.1
  exact Str.strip_eq_self hspace

theorem dropHexPrefix_hexText {ds : List ℕ} (h : ∀ d ∈ ds, d < 16) :
    dropHexPrefix (hexText ds) = hexText ds := by
  unfold dropHexPrefix
  split
  · rename_i x rest heq
    have hx : ¬ (x = 'x' ∨ x = 'X') := by
      rintro (rfl | rfl)
      · exact hexText_ne h (by decide : PyChar.scalar 'x' ∈ _) (by simp [heq])
      · exact hexText_ne h (by decide : PyChar.scalar 'X' ∈ _) (by simp [heq])
    rw [if_neg hx]
  · rfl

/-- The number of hexadecimal digits. -/
theorem hexInt?_hexText {ds : List ℕ} (h : ∀ d ∈ ds, d < 16) (hne : ds ≠ []) :
    hexInt? decimal (hexText ds) = some (ds.foldl (fun (n : ℤ) (d : ℕ) => n * 16 + d) 0) := by
  have hvalue : (hexDigits? decimal (dropHexPrefix (hexText ds))).map
      (fun es => es.foldl (fun (n : ℤ) (d : ℕ) => n * 16 + d) 0) =
        some (ds.foldl (fun (n : ℤ) (d : ℕ) => n * 16 + d) 0) := by
    rw [dropHexPrefix_hexText h, hexDigits?_hexText decimal h hne]
    rfl
  rw [hexInt?, strip_hexText h]
  dsimp only
  split
  · rename_i rest heq
    exact absurd (by simp [heq] : PyChar.scalar '-' ∈ hexText ds) (hexText_ne h (by decide))
  · rename_i rest heq
    exact absurd (by simp [heq] : PyChar.scalar '+' ∈ hexText ds) (hexText_ne h (by decide))
  · exact hvalue

/-- The digits of a number in base 16, the highest first. -/
theorem foldl_digits (n k : ℕ) :
    ((List.range k).map fun i => n / 16 ^ (k - 1 - i) % 16).foldl
      (fun (m : ℤ) (d : ℕ) => m * 16 + d) 0 = ((n % 16 ^ k : ℕ) : ℤ) := by
  induction k generalizing n with
  | zero => simp [Nat.mod_one]
  | succ k ih =>
      have hsplit : ((List.range (k + 1)).map fun i => n / 16 ^ (k + 1 - 1 - i) % 16) =
          ((List.range k).map fun i => n / 16 / 16 ^ (k - 1 - i) % 16) ++ [n % 16] := by
        rw [List.range_succ, List.map_append]
        congr 1
        · refine List.map_congr_left fun i hi => ?_
          have hi : i < k := List.mem_range.mp hi
          rw [Nat.div_div_eq_div_mul, ← pow_succ']
          congr 3
          omega
        · simp
      rw [hsplit, List.foldl_append, ih]
      simp only [List.foldl_cons, List.foldl_nil]
      have hmod : n % 16 ^ (k + 1) = n / 16 % 16 ^ k * 16 + n % 16 := by
        rw [pow_succ', Nat.mod_mul]
        ring
      rw [hmod]
      push_cast
      ring

namespace UUID

/-- The digits of a UUID. -/
def digits (u : UUID) : List ℕ := (List.range 32).map fun i => u.toNat / 16 ^ (31 - i) % 16

theorem hex_eq (u : UUID) : u.hex = hexText u.digits := by
  simp [hex, hexText, digits]

theorem digits_lt (u : UUID) : ∀ d ∈ u.digits, d < 16 := by
  intro d hd
  obtain ⟨i, -, rfl⟩ := List.mem_map.mp hd
  exact Nat.mod_lt _ (by norm_num)

/-- The text of a UUID without its hyphens. -/
theorem filter_str (u : UUID) : u.str.filter (· ≠ .scalar '-') = u.hex := by
  have hself : ∀ s : Str, (∀ c ∈ s, c ∈ u.hex) → s.filter (· ≠ .scalar '-') = s := by
    intro s hs
    refine List.filter_eq_self.mpr fun c hc => decide_eq_true ?_
    rintro rfl
    have hmem := hs _ hc
    rw [hex_eq] at hmem
    exact hexText_ne u.digits_lt (by decide) hmem
  have hdash : (Str.ofString "-").filter (· ≠ .scalar '-') = [] := by decide
  simp only [str, List.filter_append, hdash, List.append_nil]
  rw [hself _ fun c hc => List.mem_of_mem_take hc,
    hself _ fun c hc => List.mem_of_mem_drop (List.mem_of_mem_take hc),
    hself _ fun c hc => List.mem_of_mem_drop (List.mem_of_mem_take hc),
    hself _ fun c hc => List.mem_of_mem_drop (List.mem_of_mem_take hc),
    hself _ fun c hc => List.mem_of_mem_drop hc]
  have hdrop : ∀ a b : ℕ, (u.hex.drop a).take b ++ u.hex.drop (a + b) = u.hex.drop a := by
    intro a b
    rw [← List.drop_drop, List.take_append_drop]
  rw [List.append_assoc, List.append_assoc, List.append_assoc, hdrop 16 4, hdrop 12 4, hdrop 8 4,
    List.take_append_drop]

theorem between_str (u : UUID) : ∀ c ∈ u.str, c.between '!' '~' = true := by
  intro c hc
  rcases eq_or_ne c (.scalar '-') with rfl | hne
  · decide
  · have hhex : c ∈ hexText u.digits := by
      rw [← hex_eq, ← filter_str]
      exact List.mem_filter.mpr ⟨hc, decide_eq_true hne⟩
    obtain ⟨d, hd, rfl⟩ := List.mem_map.mp hhex
    have hdigit : ∀ n < 16, (PyChar.scalar (hexDigit n)).between '!' '~' = true := by decide
    exact hdigit d (u.digits_lt d hd)

theorem isAscii_str (u : UUID) : u.str.isAscii = true := by
  refine Str.isAscii_iff.mpr fun c hc => ?_
  have hbounds : '!'.toNat ≤ c.ord ∧ c.ord ≤ '~'.toNat := of_decide_eq_true (u.between_str c hc)
  exact lt_of_le_of_lt hbounds.2 (by decide)

/-- The characters of the text of a UUID. -/
theorem not_mem_str (u : UUID) {c : PyChar} (hc : c ∈ Str.ofString "+_xXu\x7b\x7d") : c ∉ u.str := by
  intro hmem
  have hne : c ≠ .scalar '-' := by
    rintro rfl
    exact absurd hc (by decide)
  have hhex : c ∈ u.hex := by
    rw [← u.filter_str]
    exact List.mem_filter.mpr ⟨hmem, decide_eq_true hne⟩
  rw [hex_eq] at hhex
  exact hexText_ne u.digits_lt (List.mem_cons_of_mem _ hc) hhex

/-- The text of a UUID is read back. -/
theorem ofStr?_str (u : UUID) : ofStr? decimal u.str = some u := by
  have hu : PyChar.scalar 'u' ∉ u.str := u.not_mem_str (by decide)
  have hurn : Str.remove "urn:" u.str = u.str := Str.remove_of_not_mem hu
  have huuid : Str.remove "uuid:" u.str = u.str := Str.remove_of_not_mem hu
  have hbrace : ∀ c ∈ u.str, PyChar.isIn [] ['{', '}'] c = false := by
    intro c hc
    by_contra hin
    have himp : c ≠ .scalar '\x7b' → c = .scalar '\x7d' := by simpa [PyChar.isIn] using hin
    rcases Decidable.or_iff_not_imp_left.mpr himp with rfl | rfl
    · exact u.not_mem_str (by decide) hc
    · exact u.not_mem_str (by decide) hc
  have hdrop : u.str.dropWhile (PyChar.isIn [] ['{', '}']) = u.str := by
    refine List.dropWhile_eq_self_iff.mpr fun hlen => ?_
    simp [hbrace _ (List.getElem_mem hlen)]
  have hrdrop : u.str.rdropWhile (PyChar.isIn [] ['{', '}']) = u.str := by
    refine List.rdropWhile_eq_self_iff.mpr fun hne => ?_
    simp [hbrace _ (List.getLast_mem hne)]
  have hdigits : u.digits ≠ [] := by simp [digits]
  have hvalue : u.digits.foldl (fun (n : ℤ) (d : ℕ) => n * 16 + d) 0 = (u.toNat : ℤ) := by
    rw [digits, foldl_digits u.toNat 32, Nat.mod_eq_of_lt (by simpa using u.isLt)]
  have hlt : (u.toNat : ℤ) < 2 ^ 128 := by exact_mod_cast u.isLt
  simp only [ofStr?, hurn, huuid, hdrop, hrdrop, filter_str, length_hex, if_true]
  rw [hex_eq, hexInt?_hexText decimal u.digits_lt hdigits, hvalue]
  simp only [Int.natCast_nonneg, hlt, and_self, if_true]
  simp

end UUID

end

end Python
