import FastapiEffects.Errors
import FastapiEffects.Python.Url

/-! # Delegation targets

`canonical_method` and `canonical_target_path`: the one text of an HTTP target that a
token is bound to, and what the canonical text keeps of the path it was made from.
-/

namespace FastapiEffects

open Python
open Python.Loads (hexValue?)

/-- A character of an HTTP method after the first. -/
def isMethodChar : PyChar → Bool :=
  PyChar.isIn [('A', 'Z'), ('0', '9')]
    ['!', '#', '$', '%', '&', Char.ofNat 39, '*', '+', '.', '^', '_', Char.ofNat 96, '|', '~', '-']

/-- `canonical_method`. -/
def canonicalMethod (value : Str) : Except PyError Str := do
  check (value.fullmatch (PyChar.isIn [('A', 'Z')] []) isMethodChar 31)
    (.configuration "Delegation HTTP method is invalid.")
  return value

/-- `_UNRESERVED`. -/
def isUnreserved : PyChar → Bool :=
  PyChar.isIn [('A', 'Z'), ('a', 'z'), ('0', '9')] ['-', '.', '_', '~']

/-- The upper-case hexadecimal digit of a number below 16. -/
def upperHexDigit (n : ℕ) : PyChar := .scalar (Char.ofNat (if n < 10 then 48 + n else 55 + n))

/-- Whether an octet may be encoded in a target. -/
def isSafeOctet (octet : ℕ) : Bool :=
  octet ≠ 47 ∧ octet ≠ 92 ∧ octet ≠ 37 ∧ 32 ≤ octet ∧ octet ≠ 127

/-- An octet as the canonical path writes it. -/
def targetOctet (octet : ℕ) : Str :=
  if isUnreserved (.scalar (Char.ofNat octet)) then [.scalar (Char.ofNat octet)]
  else [.scalar '%', upperHexDigit (octet / 16), upperHexDigit (octet % 16)]

/-- The loop over the characters of a path. -/
def normalizeOctets : Str → Except PyError Str
  | .scalar '%' :: a :: b :: rest =>
      match hexValue? a, hexValue? b with
      | some x, some y => do
          check (isSafeOctet (x * 16 + y))
            (.configuration "Delegation target contains an unsafe encoded octet.")
          return targetOctet (x * 16 + y) ++ (← normalizeOctets rest)
      | _, _ => .error (.configuration "Delegation target has malformed percent encoding.")
  | c :: rest => do
      check (c ≠ .scalar '%')
        (.configuration "Delegation target has malformed percent encoding.")
      return c :: (← normalizeOctets rest)
  | [] => .ok []

/-- The characters no target path may hold. -/
def isForbidden (c : PyChar) : Bool :=
  c.isIn [] ['\\', '?', '#'] || c.ord < 32 || c.ord = 127

/-- `canonical_target_path`. -/
def canonicalTargetPath (value : Str) : Except PyError Str := do
  check (value ≠ [] ∧ value.length ≤ 2048 ∧ Str.ofString "/" <+: value ∧
      ¬ Str.ofString "//" <+: value ∧ ¬ value.any isForbidden)
    (.configuration "Delegation target path is invalid.")
  check value.isAscii
    (.configuration "Delegation target path must use an ASCII URI representation.")
  let result ← normalizeOctets value
  let segments := (result.splitOn (.scalar '/')).drop 1
  check (¬ segments.any fun segment => segment = [] ∨ segment = Str.ofString "." ∨
      segment = Str.ofString "..")
    (.configuration "Delegation target path contains an ambiguous segment.")
  return result

/-! ## Octets -/

/-- The value of a canonical digit. -/
theorem hexValue?_upperHexDigit (n : ℕ) (h : n < 16) : hexValue? (upperHexDigit n) = some n := by
  revert n
  decide

theorem hexValue?_lt {c : PyChar} {n : ℕ} (h : hexValue? c = some n) : n < 16 := by
  unfold hexValue? at h
  split_ifs at h with h1 h2 h3
  · have := of_decide_eq_true h1
    cases h
    simp only [show '9'.toNat = 57 from rfl] at this
    omega
  · have := of_decide_eq_true h2
    cases h
    simp only [show 'f'.toNat = 102 from rfl] at this
    omega
  · have := of_decide_eq_true h3
    cases h
    simp only [show 'F'.toNat = 70 from rfl] at this
    omega

/-- What the canonical form of an octet is, for every octet. -/
theorem targetOctet_cases (octet : ℕ) (h : octet < 256) :
    (targetOctet octet = [.scalar (Char.ofNat octet)] ∧ octet < 128 ∧
      isUnreserved (.scalar (Char.ofNat octet)) = true) ∨
    targetOctet octet = [.scalar '%', upperHexDigit (octet / 16), upperHexDigit (octet % 16)] ∧
      isUnreserved (.scalar (Char.ofNat octet)) = false := by
  unfold targetOctet
  split_ifs with hun
  · refine Or.inl ⟨rfl, ?_, hun⟩
    have hlt := PyChar.ord_lt_of_isIn (n := 128) (by decide) (by decide) hun
    revert octet
    decide +kernel
  · exact Or.inr ⟨rfl, by simpa using hun⟩

/-- A character other than `%` goes through the loop as it is. -/
theorem normalizeOctets_cons {c : PyChar} (h : c ≠ .scalar '%') (rest : Str) :
    normalizeOctets (c :: rest) = do return c :: (← normalizeOctets rest) := by
  rw [normalizeOctets]
  · simp [check, h]
    rfl
  · rintro a b tail rfl
    exact absurd rfl h

/-- The loop on an octet in canonical form. -/
theorem normalizeOctets_targetOctet {octet : ℕ} (h : octet < 256) (hsafe : isSafeOctet octet = true)
    (rest : Str) : normalizeOctets (targetOctet octet ++ rest) =
      do return targetOctet octet ++ (← normalizeOctets rest) := by
  rcases targetOctet_cases octet h with ⟨htarget, -, -⟩ | ⟨htarget, -⟩
  · have hne : (PyChar.scalar (Char.ofNat octet)) ≠ .scalar '%' := by
      revert octet
      decide +kernel
    rw [htarget, List.singleton_append, normalizeOctets_cons hne]
    rfl
  · have hoctet : octet / 16 * 16 + octet % 16 = octet := by omega
    rw [htarget, List.cons_append, List.cons_append, List.cons_append, List.nil_append,
      normalizeOctets, hexValue?_upperHexDigit _ (by omega), hexValue?_upperHexDigit _ (by omega)]
    simp only [hoctet, hsafe, check, if_true, htarget]
    rfl

/-- An octet in canonical form is decoded to the same byte. -/
theorem unquoteToBytes_targetOctet {octet : ℕ} (h : octet < 256) (hsafe : isSafeOctet octet = true)
    (rest : Str) : Url.unquoteToBytes (targetOctet octet ++ rest) =
      UInt8.ofNat octet :: Url.unquoteToBytes rest := by
  rcases targetOctet_cases octet h with ⟨htarget, hlt, -⟩ | ⟨htarget, -⟩
  · have hne : (PyChar.scalar (Char.ofNat octet)) ≠ .scalar '%' := by
      revert octet
      decide +kernel
    have hord : (PyChar.scalar (Char.ofNat octet)).ord = octet := by
      clear htarget hsafe hne
      revert octet
      decide +kernel
    rw [htarget, List.singleton_append, Url.unquoteToBytes_cons hne, hord]
  · have hoctet : octet / 16 * 16 + octet % 16 = octet := by omega
    rw [htarget, List.cons_append, List.cons_append, List.cons_append, List.nil_append,
      Url.unquoteToBytes, hexValue?_upperHexDigit _ (by omega),
      hexValue?_upperHexDigit _ (by omega)]
    simp only [hoctet]

/-- A canonical octet consists of characters a path may hold. -/
theorem isForbidden_targetOctet {octet : ℕ} (h : octet < 256) (hsafe : isSafeOctet octet = true) :
    ∀ c ∈ targetOctet octet, c.ord < 128 ∧ isForbidden c = false := by
  revert octet
  decide +kernel

/-- What the loop makes of a path. -/
structure Normalizes (value result : Str) : Prop where
  again : normalizeOctets result = .ok result
  bytes : Url.unquoteToBytes result = Url.unquoteToBytes value
  length : result.length ≤ value.length
  chars : (∀ c ∈ value, c.ord < 128 ∧ isForbidden c = false) →
    ∀ c ∈ result, c.ord < 128 ∧ isForbidden c = false

theorem normalizeOctets_spec {value result : Str} (h : normalizeOctets value = .ok result) :
    Normalizes value result := by
  induction value using normalizeOctets.induct generalizing result with
  | case1 a b rest x y hx hy ih =>
      rw [normalizeOctets, hx, hy] at h
      obtain ⟨_, hsafe, h⟩ := bind_eq_ok.mp h
      obtain ⟨tail, htail, h⟩ := bind_eq_ok.mp h
      cases h
      have hoctet : x * 16 + y < 256 := by
        have := hexValue?_lt hx
        have := hexValue?_lt hy
        omega
      have hsafe := check_eq_ok.mp hsafe
      obtain ⟨hagain, hbytes, hlength, hchars⟩ := ih htail
      refine ⟨?_, ?_, ?_, ?_⟩
      · rw [normalizeOctets_targetOctet hoctet hsafe, hagain]
        rfl
      · rw [unquoteToBytes_targetOctet hoctet hsafe, hbytes, Url.unquoteToBytes, hx, hy]
      · have hthree : (targetOctet (x * 16 + y)).length ≤ 3 := by
          rcases targetOctet_cases _ hoctet with ⟨h, -⟩ | ⟨h, -⟩ <;> rw [h] <;> simp
        simp only [List.length_append, List.length_cons]
        omega
      · intro hvalue c hc
        rcases List.mem_append.mp hc with hc | hc
        · exact isForbidden_targetOctet hoctet hsafe c hc
        · refine hchars (fun d hd => hvalue d ?_) c hc
          simp [hd]
  | case2 a b rest hne =>
      rw [normalizeOctets] at h
      split at h
      · rename_i x y hx hy
        exact absurd hy (hne x y hx)
      · cases h
  | case3 c rest hne ih =>
      rw [normalizeOctets.eq_2 c rest hne] at h
      obtain ⟨_, hc, h⟩ := bind_eq_ok.mp h
      obtain ⟨tail, htail, h⟩ := bind_eq_ok.mp h
      cases h
      have hc : c ≠ .scalar '%' := by simpa using hc
      obtain ⟨hagain, hbytes, hlength, hchars⟩ := ih htail
      refine ⟨?_, ?_, ?_, ?_⟩
      · rw [normalizeOctets_cons hc, hagain]
        rfl
      · rw [Url.unquoteToBytes_cons hc, Url.unquoteToBytes_cons hc, hbytes]
      · simp only [List.length_cons]
        omega
      · intro hvalue d hd
        rcases List.mem_cons.mp hd with rfl | hd
        · exact hvalue d List.mem_cons_self
        · exact hchars (fun d hd => hvalue d (List.mem_cons_of_mem _ hd)) d hd
  | case4 =>
      cases h
      exact ⟨rfl, rfl, le_rfl, fun h => h⟩

/-! ## Canonical paths -/

/-- What `canonical_target_path` accepts and returns. -/
structure CanonicalPath (value result : Str) : Prop where
  octets : normalizeOctets value = .ok result
  length : value.length ≤ 2048
  root : ∃ rest, value = .scalar '/' :: rest
  chars : ∀ c ∈ value, c.ord < 128 ∧ isForbidden c = false
  segments : ∀ segment ∈ (result.splitOn (.scalar '/')).drop 1,
    segment ≠ [] ∧ segment ≠ Str.ofString "." ∧ segment ≠ Str.ofString ".."

theorem canonicalTargetPath_spec {value result : Str}
    (h : canonicalTargetPath value = .ok result) : CanonicalPath value result := by
  simp only [canonicalTargetPath, bind_eq_ok, check_eq_ok, decide_eq_true_eq] at h
  obtain ⟨-, ⟨hne, hlength, hroot, -, hforbidden⟩, -, hascii, r, hoctets, -, hsegments, hresult⟩ := h
  cases hresult
  refine ⟨hoctets, hlength, ?_, ?_, ?_⟩
  · obtain ⟨rest, rfl⟩ := hroot
    exact ⟨rest, rfl⟩
  · intro c hc
    refine ⟨Str.ord_lt_of_isAscii hascii c hc, ?_⟩
    simpa using fun hf => hforbidden (List.any_eq_true.mpr ⟨c, hc, hf⟩)
  · intro segment hsegment
    have hnone := fun hp => hsegments (List.any_eq_true.mpr ⟨segment, hsegment, hp⟩)
    simpa using hnone

/-- The canonical path starts with a slash, and no second one follows. -/
theorem CanonicalPath.result_root {value result : Str} (h : CanonicalPath value result) :
    ∃ rest, result = .scalar '/' :: rest ∧ rest.head? ≠ some (.scalar '/') := by
  obtain ⟨rest, hrest⟩ := h.root
  have hoctets := h.octets
  rw [hrest, normalizeOctets_cons (by decide)] at hoctets
  obtain ⟨tail, -, hresult⟩ := bind_eq_ok.mp hoctets
  cases hresult
  refine ⟨tail, rfl, ?_⟩
  intro hhead
  cases tail with
  | nil => cases hhead
  | cons c tail =>
      cases hhead
      refine (h.segments [] ?_).1 rfl
      simp [List.splitOn_cons_eq_if_modifyHead]

/-- A canonical path is its own canonical form, and decodes to the same text. -/
theorem canonicalTargetPath_canonical {value result : Str}
    (h : canonicalTargetPath value = .ok result) :
    canonicalTargetPath result = .ok result ∧ Url.unquote result = Url.unquote value := by
  have hspec := canonicalTargetPath_spec h
  have hnormal := normalizeOctets_spec hspec.octets
  have hchars := hnormal.chars hspec.chars
  obtain ⟨rest, hroot, hhead⟩ := hspec.result_root
  have hascii : result.isAscii = true := Str.isAscii_iff.mpr fun c hc => (hchars c hc).1
  constructor
  · simp only [canonicalTargetPath, bind_eq_ok, check_eq_ok, decide_eq_true_eq]
    refine ⟨(), ⟨?_, hnormal.length.trans hspec.length, ?_, ?_, ?_⟩, (), hascii, result,
      hnormal.again, (), ?_, rfl⟩
    · simp [hroot]
    · exact ⟨rest, hroot.symm⟩
    · rintro ⟨tail, htail⟩
      rw [hroot] at htail
      cases htail
      exact hhead rfl
    · intro hany
      obtain ⟨c, hc, hf⟩ := List.any_eq_true.mp hany
      rw [(hchars c hc).2] at hf
      cases hf
    · intro hany
      obtain ⟨segment, hmem, hp⟩ := List.any_eq_true.mp hany
      obtain ⟨h1, h2, h3⟩ := hspec.segments segment hmem
      simp [h1, h2, h3] at hp
  · rw [Url.unquote_ascii hascii,
      Url.unquote_ascii (Str.isAscii_iff.mpr fun c hc => (hspec.chars c hc).1), hnormal.bytes]

theorem canonicalMethod_eq_ok {value result : Str} :
    canonicalMethod value = .ok result ↔
      result = value ∧ value.fullmatch (PyChar.isIn [('A', 'Z')] []) isMethodChar 31 = true := by
  simp only [canonicalMethod, bind_eq_ok, check_eq_ok]
  constructor
  · rintro ⟨-, hmatch, hresult⟩
    cases hresult
    exact ⟨rfl, hmatch⟩
  · rintro ⟨rfl, hmatch⟩
    exact ⟨(), hmatch, rfl⟩

end FastapiEffects
