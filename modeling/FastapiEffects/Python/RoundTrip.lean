import FastapiEffects.Python.Loads

/-! # What is written is read back

`json.loads` of `json.dumps`, value by value: the scanner takes exactly the text of a
value off its input. The hook for objects must take the members it is given, and a float
must be one that its `repr` gives back.
-/

namespace Python

/-! ## Pieces of text -/

namespace Str

@[simp] theorem ofChars_nil : ofChars [] = [] := rfl

@[simp] theorem ofChars_cons (c : Char) (cs : List Char) :
    ofChars (c :: cs) = .scalar c :: ofChars cs := rfl

@[simp] theorem ofChars_append (cs ds : List Char) : ofChars (cs ++ ds) = ofChars cs ++ ofChars ds :=
  List.map_append

@[simp] theorem length_ofChars (cs : List Char) : (ofChars cs).length = cs.length :=
  List.length_map _

end Str

namespace Loads

variable {ε : Type}

/-- What may follow a value: nothing, a comma or a closing bracket. -/
def Ends (rest : Str) : Prop :=
  ∀ c ∈ rest.head?, c = .scalar ',' ∨ c = .scalar ']' ∨ c = .scalar '}'

theorem ends_nil : Ends [] := by
  rintro c hc
  cases hc

theorem ends_cons {c : PyChar} {rest : Str}
    (h : c = .scalar ',' ∨ c = .scalar ']' ∨ c = .scalar '}') : Ends (c :: rest) := by
  rintro d hd
  cases hd
  exact h

/-- Where a value ends there is no space. -/
theorem Ends.skipSpace {rest : Str} (h : Ends rest) : skipSpace rest = rest := by
  cases rest with
  | nil => rfl
  | cons c rest =>
      rcases h c rfl with rfl | rfl | rfl <;> rfl

/-! ## Strings -/

theorem scanUnits_plain {c : PyChar} {rest : Str} (hctl : 32 ≤ c.ord) (hquote : c ≠ .scalar '"')
    (hslash : c ≠ .scalar '\\') : scanUnits (c :: rest) =
      (scanUnits rest : Except (LoadError ε) _).map fun r => ((false, c) :: r.1, r.2) := by
  rw [scanUnits]
  · rw [if_neg]
    rintro (h | h)
    · omega
    · exact hslash h
  · rintro rfl
    exact hquote rfl
  · rintro a b x y z rfl
    exact absurd rfl hslash
  · rintro d rest' rfl
    exact absurd rfl hslash

theorem hexValue?_hexDigit : ∀ n < 16, hexValue? (.scalar (hexDigit n)) = some n := by
  decide

theorem scanUnits_unicode {n : ℕ} (h : n < 32) (rest : Str) :
    scanUnits (.scalar '\\' :: .scalar 'u' :: .scalar '0' :: .scalar '0' ::
        .scalar (hexDigit (n / 16)) :: .scalar (hexDigit (n % 16)) :: rest) =
      (scanUnits rest : Except (LoadError ε) _).map fun r =>
        ((true, .scalar (Char.ofNat n)) :: r.1, r.2) := by
  have hzero : hexValue? (.scalar '0') = some 0 := by decide
  have hhi := hexValue?_hexDigit (n / 16) (by omega)
  have hlo := hexValue?_hexDigit (n % 16) (by omega)
  have hunit : hex4? (.scalar '0') (.scalar '0') (.scalar (hexDigit (n / 16)))
      (.scalar (hexDigit (n % 16))) = some n := by
    simp only [hex4?, hzero, hhi, hlo, Option.bind_eq_bind, Option.bind_some, Option.pure_def,
      Option.some.injEq]
    omega
  have hchar : unitChar n = .scalar (Char.ofNat n) := by
    rw [unitChar, dif_neg (by omega)]
  simp only [scanUnits, hunit, hchar]

/-- One code point, escaped or not; only what is no surrogate comes from a code unit. -/
theorem scanUnits_escapeChar (c : PyChar) (rest : Str) :
    ∃ flag, (flag = true → ∃ x, c = .scalar x) ∧
      scanUnits (escapeChar c ++ rest) =
        (scanUnits rest : Except (LoadError ε) _).map fun r => ((flag, c) :: r.1, r.2) := by
  rcases c with c | n
  · unfold escapeChar
    split
    iterate 5
      · rename_i heq
        cases heq
        exact ⟨false, by simp, rfl⟩
    · rename_i x hquote hslash _ _ _ heq
      cases heq
      split_ifs with hb hf hctl
      · exact ⟨false, by simp, hb ▸ rfl⟩
      · exact ⟨false, by simp, hf ▸ rfl⟩
      · refine ⟨true, by simp, ?_⟩
        have h := scanUnits_unicode (ε := ε) hctl rest
        rw [Char.ofNat_toNat] at h
        exact h
      · exact ⟨false, by simp, scanUnits_plain (not_lt.mp hctl)
          (fun h => hquote (PyChar.scalar.inj h)) fun h => hslash (PyChar.scalar.inj h)⟩
    · rename_i h
      exact absurd rfl (h c)
  · refine ⟨false, by simp, scanUnits_plain ?_ (by simp) (by simp)⟩
    rw [PyChar.ord]
    omega

theorem joinPairs_cons {flag : Bool} {c : PyChar} {units : List (Bool × PyChar)}
    (h : flag = true → ∃ x, c = .scalar x) : joinPairs ((flag, c) :: units) = c :: joinPairs units := by
  rw [joinPairs]
  rintro hi lo rest - hflag rfl
  obtain ⟨x, hx⟩ := h hflag
  cases hx

/-- A quoted text, after its first quote. -/
theorem scanString_quoted (s rest : Str) :
    scanString (s.flatMap escapeChar ++ .scalar '"' :: rest) =
      (.ok (s, rest) : Except (LoadError ε) _) := by
  suffices h : ∃ units, scanUnits (s.flatMap escapeChar ++ .scalar '"' :: rest) =
      (.ok (units, rest) : Except (LoadError ε) _) ∧ joinPairs units = s by
    obtain ⟨units, hunits, hjoin⟩ := h
    rw [scanString, hunits, Except.map, hjoin]
  induction s with
  | nil => exact ⟨[], rfl, rfl⟩
  | cons c s ih =>
      obtain ⟨units, hunits, hjoin⟩ := ih
      obtain ⟨flag, hflag, hscan⟩ :=
        scanUnits_escapeChar (ε := ε) c (s.flatMap escapeChar ++ .scalar '"' :: rest)
      refine ⟨(flag, c) :: units, ?_, ?_⟩
      · rw [List.flatMap_cons, List.append_assoc, hscan, hunits]
        rfl
      · rw [joinPairs_cons hflag, hjoin]

/-! ## Digits -/

/-- Where a run of digits ends. -/
def NoDigit (rest : Str) : Prop := ∀ c, rest.head? = some (.scalar c) → c.isDigit = false

theorem noDigit_cons {c : Char} {rest : Str} (h : c.isDigit = false) :
    NoDigit (.scalar c :: rest) := by
  rintro d hd
  cases hd
  exact h

/-- What may follow a number: no digit, and no part of a fraction or an exponent. -/
structure EndsNumber (rest : Str) : Prop where
  digit : NoDigit rest
  fraction : scanFraction rest = (none, rest)
  exponent : scanExponent rest = (none, rest)

theorem endsNumber_cons {c : Char} (h : c ∈ [',', ']', '}', '\n']) (rest : Str) :
    EndsNumber (.scalar c :: rest) := by
  simp only [List.mem_cons, List.not_mem_nil, or_false] at h
  rcases h with rfl | rfl | rfl | rfl <;> exact ⟨noDigit_cons rfl, rfl, rfl⟩

/-- After a value no number goes on. -/
theorem Ends.not_number {rest : Str} (h : Ends rest) : EndsNumber rest := by
  cases rest with
  | nil =>
      refine ⟨?_, rfl, rfl⟩
      rintro c hc
      cases hc
  | cons c rest =>
      rcases h c rfl with rfl | rfl | rfl <;> exact endsNumber_cons (by decide) rest

theorem spanDigits_append {ds : List Char} (hds : ∀ c ∈ ds, c.isDigit = true) {rest : Str}
    (hrest : NoDigit rest) : spanDigits (Str.ofChars ds ++ rest) = (ds, rest) := by
  induction ds with
  | nil =>
      rcases rest with _ | ⟨c | n, rest⟩
      · rfl
      · rw [Str.ofChars_nil, List.nil_append, spanDigits, if_neg (by simp [hrest c rfl])]
      · rfl
  | cons d ds ih =>
      have hd := hds d List.mem_cons_self
      have htail := ih fun c hc => hds c (List.mem_cons_of_mem d hc)
      rw [Str.ofChars_cons, List.cons_append, spanDigits, if_pos hd, htail]

/-- The digits of an integer: one zero, or no zero in front. -/
structure IsInteger (ds : List Char) : Prop where
  digits : ∀ c ∈ ds, c.isDigit = true
  nonempty : ds ≠ []
  leading : ds.head? = some '0' → ds = ['0']

theorem scanInteger_append {ds : List Char} (hds : IsInteger ds) {rest : Str}
    (hrest : NoDigit rest) : scanInteger (Str.ofChars ds ++ rest) = some (ds, rest) := by
  have hspan := spanDigits_append hds.digits hrest
  unfold scanInteger
  rw [hspan]
  split
  · rename_i heq
    exact absurd (congrArg Prod.fst heq) hds.nonempty
  · rename_i ds' _ heq
    have hcons : ds = '0' :: ds' := congrArg Prod.fst heq
    have hzero := hds.leading (hcons ▸ rfl)
    rw [hzero]
    rfl
  · rename_i heq
    cases heq
    rfl

theorem isDigit_toDigits (n : ℕ) : ∀ c ∈ Nat.toDigits 10 n, c.isDigit = true :=
  fun _ hc => Nat.isDigit_of_mem_toDigits (by norm_num) (by norm_num) hc

/-- The first digit of a positive number is no zero. -/
theorem head?_toDigits {n : ℕ} (h : 0 < n) : (Nat.toDigits 10 n).head? ≠ some '0' := by
  induction n using Nat.strong_induction_on with
  | _ n ih =>
      rcases Nat.lt_or_ge n 10 with hsmall | hlarge
      · rw [Nat.toDigits_of_lt_base hsmall]
        have hdigit : ∀ m < 10, 0 < m → [Nat.digitChar m].head? ≠ some '0' := by decide
        exact hdigit n hsmall h
      · have hquot : 0 < n / 10 := by omega
        have hsplit : Nat.toDigits 10 n = Nat.toDigits 10 (n / 10) ++ Nat.toDigits 10 (n % 10) := by
          rw [Nat.toDigits_append_toDigits (by norm_num) hquot (by omega), Nat.div_add_mod]
        have hne : Nat.toDigits 10 (n / 10) ≠ [] := Nat.toDigits_ne_nil
        rw [hsplit, List.head?_append_of_ne_nil _ hne]
        exact ih _ (by omega) hquot

theorem isInteger_toDigits (n : ℕ) : IsInteger (Nat.toDigits 10 n) := by
  refine ⟨isDigit_toDigits n, Nat.toDigits_ne_nil, fun hhead => ?_⟩
  rcases Nat.eq_zero_or_pos n with rfl | hpos
  · exact Nat.toDigits_zero 10
  · exact absurd hhead (head?_toDigits hpos)

/-! ## Numbers -/

theorem scanNumber_toDigits (negative : Bool) {n : ℕ} {rest : Str} (h : EndsNumber rest)
    (hlen : (Nat.toDigits 10 n).length ≤ maxStrDigits) :
    scanNumber negative (Str.ofChars (Nat.toDigits 10 n) ++ rest) =
      some (.ok (.int (if negative then -n else n), rest) : Except (LoadError ε) _) := by
  obtain ⟨hdigit, hfraction, hexponent⟩ := h
  rw [scanNumber, scanInteger_append (isInteger_toDigits n) hdigit]
  simp only [Option.map_some, hfraction, hexponent, and_self, if_true, if_pos hlen,
    Nat.ofDigitChars_ten_toDigits]

theorem scanFraction_append {fs : List Char} (hfs : ∀ c ∈ fs, c.isDigit = true) (hne : fs ≠ [])
    {rest : Str} (hrest : NoDigit rest) :
    scanFraction (.scalar '.' :: (Str.ofChars fs ++ rest)) = (some fs, rest) := by
  rw [scanFraction, spanDigits_append hfs hrest]
  split
  · rename_i heq
    exact absurd (congrArg Prod.fst heq) hne
  · rename_i heq
    cases heq
    rfl

theorem scanExponent_append (negative : Bool) {es : List Char} (hes : ∀ c ∈ es, c.isDigit = true)
    (hne : es ≠ []) {rest : Str} (hrest : NoDigit rest) :
    scanExponent (.scalar 'e' :: .scalar (if negative then '-' else '+') ::
        (Str.ofChars es ++ rest)) =
      (some (if negative then -(Nat.ofDigitChars 10 es 0 : ℤ) else Nat.ofDigitChars 10 es 0),
        rest) := by
  have hsign : scanSign (.scalar (if negative then '-' else '+') :: (Str.ofChars es ++ rest)) =
      (negative, Str.ofChars es ++ rest) := by
    cases negative <;> rfl
  rw [scanExponent, if_pos (Or.inl rfl), hsign, spanDigits_append hes hrest]
  split
  · rename_i heq
    exact absurd (congrArg Prod.fst heq) hne
  · rename_i heq
    cases heq
    rfl

/-- A number with a fraction and maybe an exponent. -/
theorem scanNumber_fraction (negative : Bool) {ds fs : List Char} (hds : IsInteger ds)
    (hfs : ∀ c ∈ fs, c.isDigit = true) (hne : fs ≠ []) {exponent : Option ℤ} {rest rest' : Str}
    (hrest : NoDigit rest) (hexponent : scanExponent rest = (exponent, rest')) :
    scanNumber negative (Str.ofChars ds ++ .scalar '.' :: (Str.ofChars fs ++ rest)) =
      some (.ok (.float (.nearest negative (Decimal.value
        ⟨Nat.ofDigitChars 10 (ds ++ fs) 0, exponent.getD 0 - fs.length⟩)), rest') :
          Except (LoadError ε) _) := by
  rw [scanNumber, scanInteger_append hds (noDigit_cons rfl)]
  simp only [Option.map_some, scanFraction_append hfs hne hrest, hexponent, reduceCtorEq,
    false_and, if_false, Option.getD_some]

/-- A number with an exponent alone. -/
theorem scanNumber_exponent (negative : Bool) {ds : List Char} (hds : IsInteger ds)
    {exponent : ℤ} {rest rest' : Str}
    (hexponent : scanExponent (.scalar 'e' :: rest) = (some exponent, rest')) :
    scanNumber negative (Str.ofChars ds ++ .scalar 'e' :: rest) =
      some (.ok (.float (.nearest negative (Decimal.value
        ⟨Nat.ofDigitChars 10 ds 0, exponent⟩)), rest') : Except (LoadError ε) _) := by
  have hfraction : scanFraction (.scalar 'e' :: rest) = (none, .scalar 'e' :: rest) := rfl
  rw [scanNumber, scanInteger_append hds (noDigit_cons rfl)]
  simp only [Option.map_some, hfraction, hexponent, reduceCtorEq, and_false, if_false,
    Option.getD_none, Option.getD_some, List.append_nil, List.length_nil, Nat.cast_zero, sub_zero]

/-- The exponent of `pointText`, at least two digits. -/
theorem scanExponent_pointText (n : ℤ) {rest : Str} (h : NoDigit rest) :
    scanExponent (Str.ofChars ('e' :: (if n < 0 then '-' else '+') ::
      (if (Nat.toDigits 10 n.natAbs).length = 1 then '0' :: Nat.toDigits 10 n.natAbs
        else Nat.toDigits 10 n.natAbs)) ++ rest) = (some n, rest) := by
  obtain ⟨es, hes, hdigits, hne, hvalue⟩ : ∃ es, es =
      (if (Nat.toDigits 10 n.natAbs).length = 1 then '0' :: Nat.toDigits 10 n.natAbs
        else Nat.toDigits 10 n.natAbs) ∧ (∀ c ∈ es, c.isDigit = true) ∧ es ≠ [] ∧
      Nat.ofDigitChars 10 es 0 = n.natAbs := by
    refine ⟨_, rfl, ?_⟩
    split_ifs
    · refine ⟨?_, by simp, ?_⟩
      · rintro c hc
        rcases List.mem_cons.mp hc with rfl | hc
        · rfl
        · exact isDigit_toDigits _ c hc
      · rw [Nat.ofDigitChars_cons]
        exact Nat.ofDigitChars_ten_toDigits
    · exact ⟨isDigit_toDigits _, Nat.toDigits_ne_nil, Nat.ofDigitChars_ten_toDigits⟩
  rw [← hes]
  have hscan := scanExponent_append (decide (n < 0)) hdigits hne h
  simp only [decide_eq_true_eq, hvalue] at hscan
  rw [Str.ofChars_cons, Str.ofChars_cons, List.cons_append, List.cons_append, hscan]
  congr 2
  split_ifs <;> omega

section PointText

variable (negative : Bool) {d : Decimal} (hd : d.digits ≠ 0) {rest : Str} (h : EndsNumber rest)

theorem isInteger_singleton {c : Char} (hc : c.isDigit = true) : IsInteger [c] :=
  ⟨fun d hd => List.mem_singleton.mp hd ▸ hc, by simp, fun hhead => by simpa using hhead⟩

include hd in
theorem isInteger_take {ds es : List Char} (hne : ds ≠ [])
    (hsplit : Nat.toDigits 10 d.digits = ds ++ es) : IsInteger ds := by
  refine ⟨fun c hc => ?_, hne, fun hhead => ?_⟩
  · exact isDigit_toDigits d.digits c (hsplit ▸ List.mem_append_left es hc)
  · refine absurd ?_ (head?_toDigits (Nat.pos_of_ne_zero hd))
    rw [hsplit, List.head?_append_of_ne_nil _ hne]
    exact hhead

include h in
/-- `0.` with zeros in front of the digits. -/
theorem scanNumber_small (zeros : ℕ) :
    scanNumber negative (Str.ofChars ('0' :: '.' :: List.replicate zeros '0' ++
        Nat.toDigits 10 d.digits) ++ rest) =
      some (.ok (.float (.nearest negative (Decimal.value
        ⟨d.digits, -(zeros + (Nat.toDigits 10 d.digits).length : ℕ)⟩)), rest) :
          Except (LoadError ε) _) := by
  obtain ⟨hdigit, -, hexponent⟩ := h
  have hfs : ∀ c ∈ List.replicate zeros '0' ++ Nat.toDigits 10 d.digits, c.isDigit = true := by
    rintro c hc
    rcases List.mem_append.mp hc with hc | hc
    · rw [List.eq_of_mem_replicate hc]
      rfl
    · exact isDigit_toDigits _ c hc
  have hscan := scanNumber_fraction (ε := ε) negative (isInteger_singleton (c := '0') rfl) hfs
    (by simp [Nat.toDigits_ne_nil]) hdigit hexponent
  have hvalue : Nat.ofDigitChars 10 ('0' :: (List.replicate zeros '0' ++
      Nat.toDigits 10 d.digits)) 0 = d.digits := by
    rw [Nat.ofDigitChars_cons, Nat.ofDigitChars_append, Nat.ofDigitChars_replicate_zero]
    exact Nat.ofDigitChars_ten_toDigits
  simp only [List.singleton_append, hvalue, List.length_append, List.length_replicate,
    Option.getD_none, zero_sub] at hscan
  exact hscan

include hd h in
/-- The digits, zeros and `.0`. -/
theorem scanNumber_whole (zeros : ℕ) :
    scanNumber negative (Str.ofChars (Nat.toDigits 10 d.digits ++ List.replicate zeros '0' ++
        ['.', '0']) ++ rest) =
      some (.ok (.float (.nearest negative (Decimal.value ⟨d.digits, zeros⟩)), rest) :
          Except (LoadError ε) _) := by
  obtain ⟨hdigit, -, hexponent⟩ := h
  have hinteger : IsInteger (Nat.toDigits 10 d.digits ++ List.replicate zeros '0') := by
    have hfirst := isInteger_take hd Nat.toDigits_ne_nil (List.append_nil _).symm
    refine ⟨fun c hc => ?_, by simp [Nat.toDigits_ne_nil], fun hhead => ?_⟩
    · rcases List.mem_append.mp hc with hc | hc
      · exact isDigit_toDigits _ c hc
      · rw [List.eq_of_mem_replicate hc]
        rfl
    · rw [List.head?_append_of_ne_nil _ Nat.toDigits_ne_nil] at hhead
      exact absurd hhead (head?_toDigits (Nat.pos_of_ne_zero hd))
  have hzero : ∀ c ∈ ['0'], c.isDigit = true := by simp
  have hscan := scanNumber_fraction (ε := ε) negative hinteger hzero (by simp) hdigit hexponent
  have hvalue : Nat.ofDigitChars 10 (Nat.toDigits 10 d.digits ++ List.replicate zeros '0' ++ ['0'])
      0 = d.digits * 10 ^ (zeros + 1) := by
    rw [Nat.ofDigitChars_append, Nat.ofDigitChars_append, Nat.ofDigitChars_replicate_zero,
      Nat.ofDigitChars_ten_toDigits, Nat.ofDigitChars_cons, Nat.ofDigitChars_nil, pow_succ]
    have hzero : '0'.toNat = 48 := rfl
    rw [hzero]
    ring_nf
  have hsame : Decimal.value ⟨d.digits * 10 ^ (zeros + 1), -1⟩ = Decimal.value ⟨d.digits, zeros⟩ := by
    rw [Decimal.value, Decimal.value, zpow_natCast, zpow_neg_one, pow_succ]
    push_cast
    field_simp
  rw [hvalue] at hscan
  simp only [Option.getD_none, List.length_singleton, Nat.cast_one, zero_sub, hsame] at hscan
  rw [Str.ofChars_append, List.append_assoc]
  exact hscan

include hd h in
/-- The point between the digits. -/
theorem scanNumber_middle {ds fs : List Char} (hds : ds ≠ []) (hfs : fs ≠ [])
    (hsplit : Nat.toDigits 10 d.digits = ds ++ fs) :
    scanNumber negative (Str.ofChars (ds ++ '.' :: fs) ++ rest) =
      some (.ok (.float (.nearest negative (Decimal.value ⟨d.digits, -fs.length⟩)), rest) :
          Except (LoadError ε) _) := by
  obtain ⟨hdigit, -, hexponent⟩ := h
  have hdigits : ∀ c ∈ fs, c.isDigit = true :=
    fun c hc => isDigit_toDigits d.digits c (hsplit ▸ List.mem_append_right ds hc)
  have hscan := scanNumber_fraction (ε := ε) negative (isInteger_take hd hds hsplit) hdigits hfs
    hdigit hexponent
  rw [← hsplit, Nat.ofDigitChars_ten_toDigits] at hscan
  simp only [Option.getD_none, zero_sub] at hscan
  rw [Str.ofChars_append, List.append_assoc]
  exact hscan

include hd h in
/-- One digit before the point, and an exponent. -/
theorem scanNumber_power (n : ℤ) {c : Char} {fs : List Char}
    (hsplit : Nat.toDigits 10 d.digits = c :: fs) :
    scanNumber negative (Str.ofChars ([c] ++ (if fs = [] then [] else '.' :: fs) ++
        'e' :: (if n < 0 then '-' else '+') ::
          (if (Nat.toDigits 10 n.natAbs).length = 1 then '0' :: Nat.toDigits 10 n.natAbs
            else Nat.toDigits 10 n.natAbs)) ++ rest) =
      some (.ok (.float (.nearest negative (Decimal.value ⟨d.digits, n - fs.length⟩)), rest) :
          Except (LoadError ε) _) := by
  have hexponent := scanExponent_pointText n h.digit
  have hinteger : IsInteger [c] := isInteger_take hd (by simp) hsplit
  rcases eq_or_ne fs [] with rfl | hne
  · have hscan := scanNumber_exponent (ε := ε) negative hinteger hexponent
    have hvalue : Nat.ofDigitChars 10 [c] 0 = d.digits := by
      rw [← hsplit, Nat.ofDigitChars_ten_toDigits]
    rw [hvalue] at hscan
    rw [if_pos rfl, List.append_nil, List.length_nil, Nat.cast_zero, sub_zero, Str.ofChars_append,
      List.append_assoc]
    exact hscan
  · have hdigits : ∀ x ∈ fs, x.isDigit = true :=
      fun x hx => isDigit_toDigits d.digits x (hsplit ▸ List.mem_cons_of_mem c hx)
    have hscan := scanNumber_fraction (ε := ε) negative hinteger hdigits hne
      (noDigit_cons (by rfl)) hexponent
    rw [List.singleton_append, ← hsplit, Nat.ofDigitChars_ten_toDigits] at hscan
    rw [if_neg hne, Str.ofChars_append, Str.ofChars_append, List.append_assoc, List.append_assoc]
    exact hscan

include hd h in
/-- The number a decimal is written as. -/
theorem scanNumber_pointText :
    scanNumber negative (Str.ofChars (Binary64.pointText d) ++ rest) =
      some (.ok (.float (.nearest negative d.value), rest) : Except (LoadError ε) _) := by
  obtain ⟨ds, hds⟩ : ∃ ds, ds = Nat.toDigits 10 d.digits := ⟨_, rfl⟩
  obtain ⟨c, fs, hcons⟩ : ∃ c fs, ds = c :: fs :=
    List.exists_cons_of_ne_nil (hds ▸ Nat.toDigits_ne_nil)
  have hlength : (ds.length : ℤ) = fs.length + 1 := by
    rw [hcons]
    simp
  rw [Binary64.pointText, ← hds]
  simp only
  by_cases hpower : (ds.length : ℤ) + d.exponent ≤ -4 ∨ 16 < (ds.length : ℤ) + d.exponent
  · have hscan := scanNumber_power (ε := ε) negative hd h (ds.length + d.exponent - 1)
      (hds.symm.trans hcons)
    have hexponent : (ds.length : ℤ) + d.exponent - 1 - fs.length = d.exponent := by omega
    have hone : ds.length = 1 ↔ fs = [] := by rw [hcons]; simp
    rw [hexponent] at hscan
    rw [if_pos hpower, hcons, List.take_succ_cons, List.take_zero, List.tail_cons, ← hcons]
    simp only [hone]
    exact hscan
  rw [if_neg hpower]
  by_cases hsmall : (ds.length : ℤ) + d.exponent ≤ 0
  · have hscan := scanNumber_small (d := d) (ε := ε) negative h (-((ds.length : ℤ) + d.exponent)).toNat
    have hexponent : -(((-((ds.length : ℤ) + d.exponent)).toNat + ds.length : ℕ) : ℤ) =
        d.exponent := by omega
    rw [← hds, hexponent] at hscan
    rw [if_pos hsmall]
    exact hscan
  rw [if_neg hsmall]
  by_cases hwhole : ds.length ≤ ((ds.length : ℤ) + d.exponent).toNat
  · have hscan := scanNumber_whole (ε := ε) negative hd h
      (((ds.length : ℤ) + d.exponent).toNat - ds.length)
    have hexponent : ((((ds.length : ℤ) + d.exponent).toNat - ds.length : ℕ) : ℤ) = d.exponent := by
      omega
    rw [← hds, hexponent] at hscan
    rw [if_pos hwhole]
    exact hscan
  · have hsplit := (List.take_append_drop ((ds.length : ℤ) + d.exponent).toNat ds).symm
    rw [hds] at hsplit
    have hscan := scanNumber_middle (ε := ε) negative hd h ?_ ?_ hsplit
    · rw [← hds] at hscan
      have hexponent : -((ds.drop ((ds.length : ℤ) + d.exponent).toNat).length : ℤ) =
          d.exponent := by
        rw [List.length_drop]
        omega
      rw [hexponent] at hscan
      rw [if_neg hwhole]
      exact hscan
    · rw [← hds, Ne, List.take_eq_nil_iff]
      rintro (hzero | hnil)
      · omega
      · rw [hcons] at hnil
        cases hnil
    · rw [← hds, Ne, List.drop_eq_nil_iff]
      exact hwhole

end PointText

theorem trim_value (d : ℕ) (e : ℤ) (fuel : ℕ) :
    (Decimal.trim d e fuel).value = Decimal.value ⟨d, e⟩ ∧
      (d ≠ 0 → (Decimal.trim d e fuel).digits ≠ 0) := by
  induction fuel generalizing d e with
  | zero => exact ⟨rfl, id⟩
  | succ fuel ih =>
      unfold Decimal.trim
      split_ifs with h
      · obtain ⟨hvalue, hdigits⟩ := ih (d / 10) (e + 1)
        refine ⟨?_, fun _ => hdigits (by omega)⟩
        have hsplit : d = d / 10 * 10 := by omega
        rw [hvalue, Decimal.value, Decimal.value, zpow_add₀ (by norm_num), zpow_one]
        conv_rhs => rw [hsplit]
        push_cast
        ring
      · exact ⟨rfl, id⟩

/-- The shortest decimal reads back. -/
theorem round?_shortest (x : Binary64) : Binary64.round? x.negative x.shortest.value = some x := by
  unfold Binary64.shortest
  simp only
  cases hfind : List.find? (fun d : Decimal => decide (Binary64.round? x.negative d.value = some x))
      ((List.range 17).flatMap fun n => Binary64.neighbours x.magnitude (n + 1)) with
  | some d => simpa using List.find?_some hfind
  | none =>
      have hexact : x.exactDecimal.value = x.magnitude := by
        unfold Binary64.exactDecimal Binary64.magnitude
        split_ifs with h
        · rw [Decimal.value, zpow_zero, mul_one]
          have hpow : (2 : ℚ) ^ x.exponent = 2 ^ x.exponent.toNat := by
            rw [← zpow_natCast, Int.toNat_of_nonneg h]
          rw [hpow]
          push_cast
          rfl
        · obtain ⟨k, hk⟩ : ∃ k : ℕ, x.exponent = -k := ⟨(-x.exponent).toNat, by omega⟩
          have hten : (10 : ℚ) ^ k = 2 ^ k * 5 ^ k := by rw [← mul_pow]; norm_num
          rw [Decimal.value, hk, zpow_neg, zpow_neg, zpow_natCast, zpow_natCast, neg_neg,
            Int.toNat_natCast, hten]
          push_cast
          field_simp
      rw [Option.getD_none, hexact]
      exact x.round?_magnitude

/-- The text of a finite number, after its sign. -/
theorem scanNumber_repr (x : Binary64) {rest : Str} (h : EndsNumber rest) :
    scanNumber x.negative (Str.ofChars (if x.shortest.digits = 0 then ['0', '.', '0'] else
        Binary64.pointText (Decimal.trim x.shortest.digits x.shortest.exponent x.shortest.digits)) ++
          rest) =
      some (.ok (.float (.finite x), rest) : Except (LoadError ε) _) := by
  have hnearest : PyFloat.nearest x.negative x.shortest.value = .finite x := by
    rw [PyFloat.nearest, round?_shortest]
  split_ifs with hzero
  · obtain ⟨hdigit, -, hexponent⟩ := h
    have hdigits : ∀ c ∈ ['0'], c.isDigit = true := by simp
    have hscan := scanNumber_fraction (ε := ε) x.negative (isInteger_singleton (c := '0') rfl)
      hdigits (by simp) hdigit hexponent
    have hvalue : Decimal.value ⟨Nat.ofDigitChars 10 (['0'] ++ ['0']) 0,
        (none : Option ℤ).getD 0 - (['0'].length : ℕ)⟩ = x.shortest.value := by
      rw [Decimal.value, Decimal.value, hzero]
      simp [Nat.ofDigitChars_cons]
    rw [hvalue, hnearest] at hscan
    exact hscan
  · obtain ⟨hvalue, hdigits⟩ := trim_value x.shortest.digits x.shortest.exponent x.shortest.digits
    have hscan := scanNumber_pointText (ε := ε) x.negative (hdigits hzero) h
    rw [hvalue, hnearest] at hscan
    exact hscan

/-! ## Values -/

section Values

variable (hooks : Hooks ε)

/-- A number starts with a digit. -/
theorem head_of_scanNumber {negative : Bool} {s : Str} {r : Except (LoadError ε) (Json × Str)}
    (h : scanNumber negative s = some r) : ∃ c rest, s = .scalar c :: rest ∧ c.isDigit = true := by
  rcases s with _ | ⟨c | n, rest⟩
  · cases h
  · refine ⟨c, rest, rfl, ?_⟩
    by_contra hc
    rw [scanNumber, scanInteger, spanDigits, if_neg hc] at h
    cases h
  · cases h

/-- What starts no string, object or array. -/
theorem scanOnce_scalar {c : Char} {rest : Str} (hquote : c ≠ '"') (hbrace : c ≠ '{')
    (hbracket : c ≠ '[') (fuel : ℕ) :
    scanOnce hooks (fuel + 1) (.scalar c :: rest) = scanScalar hooks (.scalar c :: rest) := by
  rw [scanOnce]
  · rintro rest' heq
    exact hquote (PyChar.scalar.inj (List.cons.inj heq).1)
  · rintro rest' heq
    exact hbrace (PyChar.scalar.inj (List.cons.inj heq).1)
  · rintro rest' heq
    exact hbracket (PyChar.scalar.inj (List.cons.inj heq).1)

/-- The text of a number goes to the scanner of numbers. -/
theorem scanOnce_number {negative : Bool} {s : Str} {r : Except (LoadError ε) (Json × Str)}
    (h : scanNumber negative s = some r) (fuel : ℕ) :
    scanOnce hooks (fuel + 1) (if negative then .scalar '-' :: s else s) = r := by
  cases negative with
  | true =>
      rw [if_pos rfl, scanOnce_scalar hooks (by decide) (by decide) (by decide), scanScalar]
      simp only [h]
  | false =>
      obtain ⟨c, rest, rfl, hc⟩ := head_of_scanNumber h
      have hne : ∀ d : Char, d.isDigit = false → c ≠ d := by
        rintro d hd rfl
        rw [hc] at hd
        cases hd
      rw [if_neg (by simp), scanOnce_scalar hooks (hne _ rfl) (hne _ rfl) (hne _ rfl), scanScalar]
      · simp only [h]
      · rintro rest' heq
        exact hne _ rfl (PyChar.scalar.inj (List.cons.inj heq).1)

theorem scanOnce_int {n : ℤ} {cs : List Char} (hn : intRepr n = some cs) {rest : Str}
    (h : EndsNumber rest) (fuel : ℕ) :
    scanOnce hooks (fuel + 1) (Str.ofChars cs ++ rest) = .ok (.int n, rest) := by
  unfold intRepr at hn
  split_ifs at hn with hlen
  cases hn
  rcases n with n | n
  · have hscan := scanNumber_toDigits (ε := ε) false h hlen
    have hvalue : ((n : ℕ) : ℤ) = Int.ofNat n := rfl
    have hread := scanOnce_number hooks hscan fuel
    rw [if_neg (by simp)] at hread
    exact hread
  · have hscan := scanNumber_toDigits (ε := ε) true (n := n + 1) h hlen
    have hread := scanOnce_number hooks hscan fuel
    rw [if_pos rfl, if_pos rfl] at hread
    rw [Int.negSucc_eq]
    exact_mod_cast hread

theorem scanOnce_float (x : Binary64) {rest : Str} (h : EndsNumber rest) (fuel : ℕ) :
    scanOnce hooks (fuel + 1) (Str.ofChars x.repr ++ rest) = .ok (.float (.finite x), rest) := by
  have hread := scanOnce_number hooks (scanNumber_repr (ε := ε) x h) fuel
  rw [Binary64.repr]
  cases hneg : x.negative with
  | true =>
      rw [hneg, if_pos rfl] at hread
      exact hread
  | false =>
      rw [hneg, if_neg (by simp)] at hread
      exact hread

/-- How the text of a value starts: with no space and no closing bracket. -/
def Starts (t : Str) : Prop :=
  ∃ c t', t = .scalar c :: t' ∧ (c.isDigit = true ∨ c ∈ ['n', 't', 'f', '"', '[', '{', '-'])

theorem Starts.skipSpace {t : Str} (h : Starts t) (rest : Str) :
    skipSpace (t ++ rest) = t ++ rest := by
  obtain ⟨c, t', rfl, hc⟩ := h
  have hspace : PyChar.isIn [] [' ', '\t', '\n', '\r'] (.scalar c) = false := by
    by_contra hin
    have hmem : c = ' ' ∨ c = '\t' ∨ c = '\n' ∨ c = '\r' := by
      simp [PyChar.isIn] at hin
      tauto
    rcases hmem with rfl | rfl | rfl | rfl <;> revert hc <;> decide
  rw [List.cons_append, Loads.skipSpace, List.dropWhile_cons, if_neg (by rw [hspace]; simp)]

theorem Starts.head {t : Str} (h : Starts t) :
    ∃ c t', t = .scalar c :: t' ∧ c ≠ ']' ∧ c ≠ '}' := by
  obtain ⟨c, t', rfl, hc⟩ := h
  refine ⟨c, t', rfl, ?_, ?_⟩
  · rintro rfl
    revert hc
    decide
  · rintro rfl
    revert hc
    decide

theorem starts_text {v : Json} {t : Str} (h : v.text = some t) : Starts t := by
  cases v with
  | null =>
      cases h
      exact ⟨'n', _, rfl, by decide⟩
  | bool b =>
      cases b <;> cases h
      · exact ⟨'f', _, rfl, by decide⟩
      · exact ⟨'t', _, rfl, by decide⟩
  | int n =>
      obtain ⟨cs, hcs, rfl⟩ := Option.map_eq_some_iff.mp (show (intRepr n).map _ = some t from h)
      unfold intRepr at hcs
      split_ifs at hcs
      cases hcs
      rcases n with n | n
      · obtain ⟨c, ds, hds⟩ := List.exists_cons_of_ne_nil (Nat.toDigits_ne_nil (n := n) (b := 10))
        exact ⟨c, Str.ofChars ds, by rw [intText, hds]; rfl,
          Or.inl (isDigit_toDigits n c (hds ▸ List.mem_cons_self))⟩
      · exact ⟨'-', _, rfl, by decide⟩
  | float x =>
      cases x with
      | finite x =>
          cases h
          obtain ⟨c, t, hcons, hc⟩ := head_of_scanNumber (scanNumber_repr (ε := Unit) x ends_nil.not_number)
          rw [List.append_nil] at hcons
          rw [Binary64.repr]
          cases hneg : x.negative with
          | true => exact ⟨'-', _, rfl, by decide⟩
          | false => exact ⟨c, t, hcons, Or.inl hc⟩
      | inf b => cases h
      | nan => cases h
  | str s =>
      cases h
      exact ⟨'"', _, rfl, by decide⟩
  | arr items =>
      obtain ⟨t', -, rfl⟩ := Option.map_eq_some_iff.mp (show (Json.textItems items).map _ = some t from h)
      exact ⟨'[', _, rfl, by decide⟩
  | obj members =>
      obtain ⟨t', -, rfl⟩ :=
        Option.map_eq_some_iff.mp (show (Json.textMembers members).map _ = some t from h)
      exact ⟨'{', _, rfl, by decide⟩

mutual

/-- The hook takes every object of the value as it is. -/
def Kept : Json → Prop
  | .arr items => KeptItems items
  | .obj members => hooks.object members = .ok (.obj members) ∧ KeptMembers members
  | _ => True

def KeptItems : List Json → Prop
  | [] => True
  | x :: xs => Kept x ∧ KeptItems xs

def KeptMembers : List (Str × Json) → Prop
  | [] => True
  | (_, x) :: xs => Kept x ∧ KeptMembers xs

end

variable {hooks} in
theorem keptItems_iff {items : List Json} :
    KeptItems hooks items ↔ ∀ x ∈ items, Kept hooks x := by
  induction items with
  | nil => simp [KeptItems]
  | cons x xs ih => simp [KeptItems, ih]

variable {hooks} in
theorem keptMembers_iff {members : List (Str × Json)} :
    KeptMembers hooks members ↔ ∀ m ∈ members, Kept hooks m.2 := by
  induction members with
  | nil => simp [KeptMembers]
  | cons m ms ih => simp [KeptMembers, ih]

/-- A literal. -/
theorem scanOnce_literal {literal : String} {v : Json} (fuel : ℕ) (rest : Str)
    (h : literal = "null" ∧ v = .null ∨ literal = "true" ∧ v = .bool true ∨
      literal = "false" ∧ v = .bool false) :
    scanOnce hooks (fuel + 1) (Str.ofString literal ++ rest) = .ok (v, rest) := by
  rcases h with ⟨rfl, rfl⟩ | ⟨rfl, rfl⟩ | ⟨rfl, rfl⟩ <;> rfl

theorem quote_append (s rest : Str) :
    quote s ++ rest = .scalar '"' :: (s.flatMap escapeChar ++ .scalar '"' :: rest) := by
  simp [quote, Str.ofString]

theorem scanOnce_quote (s rest : Str) (fuel : ℕ) :
    scanOnce hooks (fuel + 1) (quote s ++ rest) = .ok (.str s, rest) := by
  rw [quote_append, scanOnce, scanString_quoted]
  rfl

/-- An array of some items, after its bracket. -/
theorem scanOnce_array {s t : Str} (ht : Starts t) {rest : Str} (hspace : skipSpace s = t ++ rest)
    (fuel : ℕ) : scanOnce hooks (fuel + 1) (.scalar '[' :: s) =
      (scanItems hooks fuel (t ++ rest)).map fun r => (.arr r.1, r.2) := by
  rw [scanOnce, hspace]
  obtain ⟨c, t', rfl, hne, -⟩ := ht.head
  split
  · rename_i heq
    exact absurd (PyChar.scalar.inj (List.cons.inj heq).1) hne
  · rfl

/-- An object of some members, after its brace. -/
theorem scanOnce_object {s t : Str} (ht : Starts t) {rest : Str}
    (hspace : skipSpace s = t ++ rest) (fuel : ℕ) : scanOnce hooks (fuel + 1) (.scalar '{' :: s) =
      (do
        let (members, rest') ← scanMembers hooks fuel (t ++ rest)
        return (← ofHook (hooks.object members), rest')) := by
  rw [scanOnce, hspace]
  obtain ⟨c, t', rfl, -, hne⟩ := ht.head
  split
  · rename_i heq
    exact absurd (PyChar.scalar.inj (List.cons.inj heq).1) hne
  · rfl

/-- The last item, with space before the bracket. -/
theorem scanItems_last {v : Json} {s after rest : Str} {fuel : ℕ}
    (h : scanOnce hooks fuel s = .ok (v, after)) (hspace : skipSpace after = .scalar ']' :: rest) :
    scanItems hooks (fuel + 1) s = .ok ([v], rest) := by
  rw [scanItems, h]
  simp only [bind, Except.bind, hspace]
  rfl

theorem scanItems_next {v : Json} {items : List Json} {s after next rest : Str} {fuel : ℕ}
    (h : scanOnce hooks fuel s = .ok (v, after)) (hspace : skipSpace after = .scalar ',' :: next)
    (hitems : scanItems hooks fuel (skipSpace next) = .ok (items, rest)) :
    scanItems hooks (fuel + 1) s = .ok (v :: items, rest) := by
  rw [scanItems, h]
  simp only [bind, Except.bind, hspace, hitems]
  rfl

/-- The last member, with space before the brace. -/
theorem scanMembers_last {key : Str} {v : Json} {s after rest : Str} {fuel : ℕ}
    (h : scanOnce hooks fuel (skipSpace s) = .ok (v, after))
    (hspace : skipSpace after = .scalar '}' :: rest) :
    scanMembers hooks (fuel + 1) (quote key ++ .scalar ':' :: s) = .ok ([(key, v)], rest) := by
  have hcolon : skipSpace (.scalar ':' :: s) = .scalar ':' :: s := rfl
  rw [quote_append, scanMembers, scanString_quoted]
  simp only [bind, Except.bind, hcolon, h, hspace]
  rfl

theorem scanMembers_next {key : Str} {v : Json} {members : List (Str × Json)}
    {s after next rest : Str} {fuel : ℕ} (h : scanOnce hooks fuel (skipSpace s) = .ok (v, after))
    (hspace : skipSpace after = .scalar ',' :: next)
    (hmembers : scanMembers hooks fuel (skipSpace next) = .ok (members, rest)) :
    scanMembers hooks (fuel + 1) (quote key ++ .scalar ':' :: s) =
      .ok ((key, v) :: members, rest) := by
  have hcolon : skipSpace (.scalar ':' :: s) = .scalar ':' :: s := rfl
  rw [quote_append, scanMembers, scanString_quoted]
  simp only [bind, Except.bind, hcolon, h, hspace, hmembers]
  rfl

theorem starts_textItems {x : Json} {xs : List Json} {t : Str}
    (h : Json.textItems (x :: xs) = some t) : Starts t := by
  cases xs with
  | nil => exact starts_text h
  | cons y xs =>
      obtain ⟨tx, htx, txs, -, rfl⟩ := Json.textItems_cons.mp h
      obtain ⟨c, t', rfl, hc⟩ := starts_text htx
      exact ⟨c, _, rfl, hc⟩

theorem starts_textMembers {m : Str × Json} {ms : List (Str × Json)} {t : Str}
    (h : Json.textMembers (m :: ms) = some t) : Starts t := by
  obtain ⟨k, x⟩ := m
  cases ms with
  | nil =>
      obtain ⟨tx, -, rfl⟩ := Json.textMembers_singleton.mp h
      exact ⟨'"', _, by rw [quote_append], by decide⟩
  | cons y xs =>
      obtain ⟨tx, -, txs, -, rfl⟩ := Json.textMembers_cons.mp h
      exact ⟨'"', _, by rw [quote_append], by decide⟩

mutual

/-- The scanner takes the text of a value off its input. -/
theorem scanOnce_text : ∀ (v : Json) {t rest : Str} {fuel : ℕ}, v.text = some t → Kept hooks v →
    Ends rest → t.length ≤ fuel → scanOnce hooks fuel (t ++ rest) = .ok (v, rest)
  | v, t, rest, 0, h, _, _, hfuel => by
      obtain ⟨c, t', rfl, -⟩ := starts_text h
      cases hfuel
  | .null, _, rest, fuel + 1, h, _, _, _ => by
      cases h
      exact scanOnce_literal hooks fuel rest (Or.inl ⟨rfl, rfl⟩)
  | .bool true, _, rest, fuel + 1, h, _, _, _ => by
      cases h
      exact scanOnce_literal hooks fuel rest (Or.inr (Or.inl ⟨rfl, rfl⟩))
  | .bool false, _, rest, fuel + 1, h, _, _, _ => by
      cases h
      exact scanOnce_literal hooks fuel rest (Or.inr (Or.inr ⟨rfl, rfl⟩))
  | .int n, _, rest, fuel + 1, h, _, hends, _ => by
      obtain ⟨cs, hcs, rfl⟩ := Option.map_eq_some_iff.mp h
      exact scanOnce_int hooks hcs hends.not_number fuel
  | .float (.finite x), _, rest, fuel + 1, h, _, hends, _ => by
      cases h
      exact scanOnce_float hooks x hends.not_number fuel
  | .float .nan, _, _, _ + 1, h, _, _, _ => by cases h
  | .float (.inf _), _, _, _ + 1, h, _, _, _ => by cases h
  | .str s, _, rest, fuel + 1, h, _, _, _ => by
      cases h
      exact scanOnce_quote hooks s rest fuel
  | .arr [], _, rest, fuel + 1, h, _, _, _ => by
      cases h
      rfl
  | .arr (x :: xs), _, rest, fuel + 1, h, hkept, _, hfuel => by
      obtain ⟨t, ht, rfl⟩ := Option.map_eq_some_iff.mp h
      have hbracket : Str.ofString "[" ++ t ++ Str.ofString "]" ++ rest =
          .scalar '[' :: (t ++ .scalar ']' :: rest) := by simp [Str.ofString]
      have hlen : t.length + 1 ≤ fuel := by
        simp [Str.ofString] at hfuel
        omega
      have hstarts := starts_textItems ht
      rw [hbracket, scanOnce_array hooks hstarts (hstarts.skipSpace _),
        scanItems_text x xs ht hkept hlen]
      rfl
  | .obj [], _, rest, fuel + 1, h, hkept, _, _ => by
      cases h
      have hhook : ofHook (hooks.object []) = .ok (.obj []) := by rw [hkept.1]; rfl
      have hbrace : scanOnce hooks (fuel + 1) (.scalar '{' :: .scalar '}' :: rest) =
          (ofHook (hooks.object [])).map fun v => (v, rest) := rfl
      rw [hhook] at hbrace
      exact hbrace
  | .obj (m :: ms), _, rest, fuel + 1, h, hkept, _, hfuel => by
      obtain ⟨t, ht, rfl⟩ := Option.map_eq_some_iff.mp h
      have hbrace : Str.ofString "\x7b" ++ t ++ Str.ofString "\x7d" ++ rest =
          .scalar '{' :: (t ++ .scalar '}' :: rest) := by simp [Str.ofString]
      have hlen : t.length + 1 ≤ fuel := by
        simp [Str.ofString] at hfuel
        omega
      have hhook : ofHook (hooks.object (m :: ms)) = .ok (.obj (m :: ms)) := by rw [hkept.1]; rfl
      have hstarts := starts_textMembers ht
      rw [hbrace, scanOnce_object hooks hstarts (hstarts.skipSpace _),
        scanMembers_text m ms ht hkept.2 hlen]
      simp only [bind, Except.bind, hhook]
      rfl

theorem scanItems_text : ∀ (x : Json) (xs : List Json) {t rest : Str} {fuel : ℕ},
    Json.textItems (x :: xs) = some t → KeptItems hooks (x :: xs) → t.length + 1 ≤ fuel →
      scanItems hooks fuel (t ++ .scalar ']' :: rest) = .ok (x :: xs, rest)
  | _, _, _, _, 0, _, _, hfuel => by omega
  | x, [], t, rest, fuel + 1, h, hkept, hfuel =>
      scanItems_last hooks (scanOnce_text x h hkept.1 (ends_cons (by simp)) (by omega)) rfl
  | x, y :: ys, _, rest, fuel + 1, h, hkept, hfuel => by
      obtain ⟨tx, htx, txs, htxs, rfl⟩ := Json.textItems_cons.mp h
      rw [List.length_append, List.length_cons] at hfuel
      rw [List.append_assoc, List.cons_append]
      refine scanItems_next hooks (scanOnce_text x htx hkept.1 (ends_cons (by simp)) (by omega))
        rfl ?_
      rw [(starts_textItems htxs).skipSpace]
      exact scanItems_text y ys htxs hkept.2 (by omega)

theorem scanMembers_text : ∀ (m : Str × Json) (ms : List (Str × Json)) {t rest : Str} {fuel : ℕ},
    Json.textMembers (m :: ms) = some t → KeptMembers hooks (m :: ms) → t.length + 1 ≤ fuel →
      scanMembers hooks fuel (t ++ .scalar '}' :: rest) = .ok (m :: ms, rest)
  | _, _, _, _, 0, _, _, hfuel => by omega
  | (k, x), [], _, rest, fuel + 1, h, hkept, hfuel => by
      obtain ⟨tx, htx, rfl⟩ := Json.textMembers_singleton.mp h
      rw [List.length_append, List.length_cons] at hfuel
      rw [List.append_assoc, List.cons_append]
      have hvalue : scanOnce hooks fuel (skipSpace (tx ++ .scalar '}' :: rest)) =
          .ok (x, .scalar '}' :: rest) := by
        rw [(starts_text htx).skipSpace]
        exact scanOnce_text x htx hkept.1 (ends_cons (by simp)) (by omega)
      exact scanMembers_last hooks hvalue rfl
  | (k, x), m :: ms, _, rest, fuel + 1, h, hkept, hfuel => by
      obtain ⟨tx, htx, txs, htxs, rfl⟩ := Json.textMembers_cons.mp h
      simp only [List.length_append, List.length_cons] at hfuel
      rw [List.append_assoc, List.cons_append, List.append_assoc, List.cons_append]
      have hvalue : scanOnce hooks fuel (skipSpace (tx ++ .scalar ',' :: (txs ++ .scalar '}' ::
          rest))) = .ok (x, .scalar ',' :: (txs ++ .scalar '}' :: rest)) := by
        rw [(starts_text htx).skipSpace]
        exact scanOnce_text x htx hkept.1 (ends_cons (by simp)) (by omega)
      refine scanMembers_next hooks hvalue rfl ?_
      rw [(starts_textMembers htxs).skipSpace]
      exact scanMembers_text m ms htxs hkept.2 (by omega)

end

end Values

end Loads

/-- What `json.dumps` writes, `json.loads` reads back, with the members in key order. -/
theorem Json.loadsWith_dumps {ε : Type} (hooks : Hooks ε) {v : Json} {t : Str}
    (h : v.dumps = some t) (hkept : Loads.Kept hooks v.sorted) :
    Json.loadsWith hooks t = .ok v.sorted := by
  have hstarts := Loads.starts_text h
  have hscan := Loads.scanOnce_text hooks v.sorted h hkept Loads.ends_nil (t.length.le_succ)
  have hspace := hstarts.skipSpace []
  rw [List.append_nil] at hscan hspace
  obtain ⟨c, t', rfl, hc⟩ := hstarts
  have hmark : ¬ ((.scalar c :: t' : Str).head? = some (.scalar (Char.ofNat 0xFEFF))) := by
    intro hmark
    cases hmark
    revert hc
    decide
  rw [Json.loadsWith, if_neg hmark, hspace, hscan]
  rfl

end Python
