import FastapiEffects.Delegation.Targets
import FastapiEffects.Python.Sorted

/-! # Segments of a target

The canonical path taken apart: the loop works on each segment by itself, decoding does not
move the slashes, and a `%` of the result always starts an escape that has to stay one.
-/

namespace FastapiEffects

open Python
open Python.Loads (hexValue?)

/-- A text splits in at least one piece. -/
theorem exists_splitOn {α : Type} [DecidableEq α] (a : α) (l : List α) :
    ∃ head tail, l.splitOn a = head :: tail :=
  List.exists_cons_of_ne_nil (List.splitOn_ne_nil a l)

/-- A character that is not the separator belongs to the first piece. -/
theorem splitOn_cons_ne {α : Type} [DecidableEq α] {a x : α} {l head : List α} {tail : List (List α)}
    (hne : x ≠ a) (hl : l.splitOn a = head :: tail) :
    (x :: l).splitOn a = (x :: head) :: tail := by
  rw [List.splitOn_cons_eq_if_modifyHead, if_neg (by simpa using hne), hl]
  rfl

theorem splitOn_cons_self {α : Type} [DecidableEq α] (a : α) (l : List α) :
    (a :: l).splitOn a = [] :: l.splitOn a := by
  rw [List.splitOn_cons_eq_if_modifyHead, if_pos (by simp)]

/-- The pieces of a text consist of its characters. -/
theorem mem_of_mem_splitOn {α : Type} [DecidableEq α] {a c : α} {l piece : List α}
    (hpiece : piece ∈ l.splitOn a) (hc : c ∈ piece) : c ∈ l := by
  induction l generalizing piece with
  | nil =>
      rw [List.splitOn_nil, List.mem_singleton] at hpiece
      rw [hpiece] at hc
      exact absurd hc List.not_mem_nil
  | cons x l ih =>
      by_cases hx : x = a
      · subst hx
        rw [splitOn_cons_self] at hpiece
        rcases List.mem_cons.mp hpiece with rfl | hpiece
        · exact absurd hc List.not_mem_nil
        · exact List.mem_cons_of_mem _ (ih hpiece hc)
      · obtain ⟨head, tail, hl⟩ := exists_splitOn a l
        rw [splitOn_cons_ne hx hl] at hpiece
        rcases List.mem_cons.mp hpiece with rfl | hpiece
        · rcases List.mem_cons.mp hc with rfl | hc
          · exact List.mem_cons_self
          · exact List.mem_cons_of_mem _ (ih (hl ▸ List.mem_cons_self) hc)
        · exact List.mem_cons_of_mem _ (ih (hl ▸ List.mem_cons_of_mem _ hpiece) hc)

/-- A hexadecimal digit is neither a slash nor a percent sign. -/
theorem ne_of_hexValue? {c : PyChar} {n : ℕ} (h : hexValue? c = some n) :
    c ≠ .scalar '/' ∧ c ≠ .scalar '%' := by
  constructor
  · rintro rfl
    cases h
  · rintro rfl
    cases h

/-- An octet in canonical form holds no slash, and a percent sign only at its start. -/
theorem slash_not_mem_targetOctet {octet : ℕ} (h : octet < 256) (hsafe : isSafeOctet octet = true) :
    .scalar '/' ∉ targetOctet octet := by
  revert octet
  decide +kernel

/-- Text without a slash belongs to the first piece. -/
theorem splitOn_append_of_not_mem {s l head : Str} {tail : List Str} (hs : .scalar '/' ∉ s)
    (hl : l.splitOn (.scalar '/') = head :: tail) :
    (s ++ l).splitOn (.scalar '/') = (s ++ head) :: tail := by
  induction s with
  | nil => exact hl
  | cons c s ih =>
      have hne : c ≠ .scalar '/' := fun heq => hs (heq ▸ List.mem_cons_self)
      exact splitOn_cons_ne hne (ih (List.not_mem_of_not_mem_cons hs))

/-! ## One segment at a time -/

/-- The loop on an escape. -/
theorem normalizeOctets_escape {a b : PyChar} {x y : ℕ} (hx : hexValue? a = some x)
    (hy : hexValue? b = some y) {rest tail : Str} (hsafe : isSafeOctet (x * 16 + y) = true)
    (htail : normalizeOctets rest = .ok tail) :
    normalizeOctets (.scalar '%' :: a :: b :: rest) = .ok (targetOctet (x * 16 + y) ++ tail) := by
  rw [normalizeOctets, hx, hy]
  simp only [check, hsafe, if_true, htail]
  rfl

/-- Each segment of the result is made of one segment of the path. -/
theorem normalizeOctets_splitOn {value result : Str} (h : normalizeOctets value = .ok result) :
    List.Forall₂ (fun s t => normalizeOctets s = .ok t) (value.splitOn (.scalar '/'))
      (result.splitOn (.scalar '/')) := by
  induction value using normalizeOctets.induct generalizing result with
  | case1 a b rest x y hy hx ih =>
      rw [normalizeOctets, hx, hy] at h
      obtain ⟨_, hsafe, h⟩ := bind_eq_ok.mp h
      obtain ⟨tail, htail, h⟩ := bind_eq_ok.mp h
      cases h
      have hsafe := check_eq_ok.mp hsafe
      have hlt := hexValue?_lt hx
      have hlt' := hexValue?_lt hy
      obtain ⟨s, ss, hs⟩ := exists_splitOn (.scalar '/') rest
      obtain ⟨t, ts, ht⟩ := exists_splitOn (.scalar '/') tail
      have hpieces := ih htail
      rw [hs, ht] at hpieces
      cases hpieces with
      | cons hfirst hrest =>
          rw [splitOn_cons_ne (by decide) (splitOn_cons_ne (ne_of_hexValue? hx).1
            (splitOn_cons_ne (ne_of_hexValue? hy).1 hs)),
            splitOn_append_of_not_mem (slash_not_mem_targetOctet (by omega) hsafe) ht]
          exact .cons (normalizeOctets_escape hx hy hsafe hfirst) hrest
  | case2 a b rest hne =>
      rw [normalizeOctets] at h
      split at h
      · rename_i x y hx hy
        exact absurd hy (hne x y hx)
      · cases h
  | case3 c rest hne ih =>
      rw [normalizeOctets.eq_2 c rest hne] at h
      obtain ⟨_, hc, h⟩ := bind_eq_ok.mp h
      obtain ⟨tail, htail, h⟩ := bind_eq_ok.mp h
      cases h
      have hc : c ≠ .scalar '%' := by simpa using hc
      have hpieces := ih htail
      by_cases hslash : c = .scalar '/'
      · subst hslash
        rw [splitOn_cons_self, splitOn_cons_self]
        exact .cons rfl hpieces
      · obtain ⟨s, ss, hs⟩ := exists_splitOn (.scalar '/') rest
        obtain ⟨t, ts, ht⟩ := exists_splitOn (.scalar '/') tail
        rw [hs, ht] at hpieces
        cases hpieces with
        | cons hfirst hrest =>
            rw [splitOn_cons_ne hslash hs, splitOn_cons_ne hslash ht]
            refine .cons ?_ hrest
            rw [normalizeOctets_cons hc, hfirst]
            rfl
  | case4 =>
      cases h
      exact .cons rfl .nil

/-! ## Decoding -/

/-- Decoding does not move the slashes of a path whose escapes are safe. -/
theorem splitOn_unquoteToBytes {value result : Str} (h : normalizeOctets value = .ok result)
    (hascii : ∀ c ∈ value, c.ord < 128) :
    (Url.unquoteToBytes value).splitOn 47 = (value.splitOn (.scalar '/')).map Url.unquoteToBytes := by
  induction value using normalizeOctets.induct generalizing result with
  | case1 a b rest x y hy hx ih =>
      rw [normalizeOctets, hx, hy] at h
      obtain ⟨_, hsafe, h⟩ := bind_eq_ok.mp h
      obtain ⟨tail, htail, -⟩ := bind_eq_ok.mp h
      have hsafe := check_eq_ok.mp hsafe
      have hlt := hexValue?_lt hx
      have hlt' := hexValue?_lt hy
      have hne : UInt8.ofNat (x * 16 + y) ≠ 47 := by
        intro heq
        have hnat : (UInt8.ofNat (x * 16 + y)).toNat = 47 := by rw [heq]; rfl
        rw [UInt8.toNat_ofNat', Nat.mod_eq_of_lt (by omega)] at hnat
        rw [hnat] at hsafe
        cases hsafe
      have ih := ih htail fun c hc => hascii c (by simp [hc])
      obtain ⟨s, ss, hs⟩ := exists_splitOn (.scalar '/') rest
      rw [hs, List.map_cons] at ih
      rw [splitOn_cons_ne (by decide) (splitOn_cons_ne (ne_of_hexValue? hx).1
        (splitOn_cons_ne (ne_of_hexValue? hy).1 hs)), List.map_cons, Url.unquoteToBytes,
        Url.unquoteToBytes, hx, hy]
      exact splitOn_cons_ne hne ih
  | case2 a b rest hne =>
      rw [normalizeOctets] at h
      split at h
      · rename_i x y hx hy
        exact absurd hy (hne x y hx)
      · cases h
  | case3 c rest hne ih =>
      rw [normalizeOctets.eq_2 c rest hne] at h
      obtain ⟨_, hc, h⟩ := bind_eq_ok.mp h
      obtain ⟨tail, htail, -⟩ := bind_eq_ok.mp h
      have hc : c ≠ .scalar '%' := by simpa using hc
      have ih := ih htail fun c hc => hascii c (by simp [hc])
      rw [Url.unquoteToBytes_cons hc]
      by_cases hslash : c = .scalar '/'
      · subst hslash
        rw [splitOn_cons_self, List.map_cons, ← ih]
        exact splitOn_cons_self 47 _
      · have hord := hascii c List.mem_cons_self
        have hbyte : UInt8.ofNat c.ord ≠ 47 := by
          intro heq
          have hnat : (UInt8.ofNat c.ord).toNat = 47 := by rw [heq]; rfl
          rw [UInt8.toNat_ofNat', Nat.mod_eq_of_lt (by omega)] at hnat
          exact hslash (PyChar.ord_inj hnat)
        obtain ⟨s, ss, hs⟩ := exists_splitOn (.scalar '/') rest
        rw [hs, List.map_cons] at ih
        rw [splitOn_cons_ne hslash hs, List.map_cons, Url.unquoteToBytes_cons hc]
        exact splitOn_cons_ne hbyte ih
  | case4 => rfl

/-- Bytes of characters below 256 tell them apart. -/
theorem ord_of_byte {m n : ℕ} (hm : m < 256) (hn : n < 256) (h : UInt8.ofNat m = UInt8.ofNat n) :
    m = n := by
  have hnat := congrArg UInt8.toNat h
  rwa [UInt8.toNat_ofNat', UInt8.toNat_ofNat', Nat.mod_eq_of_lt hm, Nat.mod_eq_of_lt hn] at hnat

theorem ord_lt_of_isUnreserved {c : PyChar} (h : isUnreserved c = true) : c.ord < 128 :=
  PyChar.ord_lt_of_isIn (by decide) (by decide) h

/-- An unreserved character is its own canonical form. -/
theorem targetOctet_ord {c : PyChar} (h : isUnreserved c = true) : targetOctet c.ord = [c] := by
  have hlt := ord_lt_of_isUnreserved h
  have hc := Str.ofByte_ord hlt
  rw [Str.ofByte, UInt8.toNat_ofNat', Nat.mod_eq_of_lt (by omega)] at hc
  rw [targetOctet, hc, if_pos h]

/-- A path that decodes to unreserved characters has them as its canonical form. -/
theorem normalizeOctets_unreserved {value result t : Str} (h : normalizeOctets value = .ok result)
    (hascii : ∀ c ∈ value, c.ord < 128) (ht : ∀ c ∈ t, isUnreserved c = true)
    (hbytes : Url.unquoteToBytes value = t.map fun c => UInt8.ofNat c.ord) : result = t := by
  induction value using normalizeOctets.induct generalizing result t with
  | case1 a b rest x y hy hx ih =>
      rw [normalizeOctets, hx, hy] at h
      obtain ⟨_, hsafe, h⟩ := bind_eq_ok.mp h
      obtain ⟨tail, htail, h⟩ := bind_eq_ok.mp h
      cases h
      have hlt := hexValue?_lt hx
      have hlt' := hexValue?_lt hy
      rw [Url.unquoteToBytes, hx, hy] at hbytes
      cases t with
      | nil => cases hbytes
      | cons d t =>
          obtain ⟨hd, htail'⟩ := List.cons.inj hbytes
          have hunreserved := ht d List.mem_cons_self
          have hord := ord_lt_of_isUnreserved hunreserved
          have hoctet := ord_of_byte (by omega) (by omega) hd
          rw [hoctet, targetOctet_ord hunreserved]
          rw [ih htail (fun c hc => hascii c (by simp [hc]))
            (fun c hc => ht c (List.mem_cons_of_mem d hc)) htail']
          rfl
  | case2 a b rest hne =>
      rw [normalizeOctets] at h
      split at h
      · rename_i x y hx hy
        exact absurd hy (hne x y hx)
      · cases h
  | case3 c rest hne ih =>
      rw [normalizeOctets.eq_2 c rest hne] at h
      obtain ⟨_, hc, h⟩ := bind_eq_ok.mp h
      obtain ⟨tail, htail, h⟩ := bind_eq_ok.mp h
      cases h
      have hc : c ≠ .scalar '%' := by simpa using hc
      rw [Url.unquoteToBytes_cons hc] at hbytes
      cases t with
      | nil => cases hbytes
      | cons d t =>
          obtain ⟨hd, htail'⟩ := List.cons.inj hbytes
          have hord := hascii c List.mem_cons_self
          have hord' := ord_lt_of_isUnreserved (ht d List.mem_cons_self)
          have hsame : c = d := PyChar.ord_inj (ord_of_byte (by omega) (by omega) hd)
          rw [hsame, ih htail (fun c hc => hascii c (List.mem_cons_of_mem _ hc))
            (fun c hc => ht c (List.mem_cons_of_mem d hc)) htail']
  | case4 =>
      cases h
      cases t with
      | nil => rfl
      | cons d t => cases hbytes

/-! ## Escapes -/

theorem ne_percent_of_safe : ∀ octet < 256, isSafeOctet octet = true →
    PyChar.scalar (Char.ofNat octet) ≠ .scalar '%' := by
  decide +kernel

/-- A percent sign of the result starts an escape, of an octet that has to be escaped. -/
theorem escape_of_percent {value result : Str} (h : normalizeOctets value = .ok result)
    {pre rest : Str} (hresult : result = pre ++ .scalar '%' :: rest) :
    ∃ a b post x y, rest = a :: b :: post ∧ hexValue? a = some x ∧ hexValue? b = some y ∧
      isSafeOctet (x * 16 + y) = true ∧ isUnreserved (.scalar (Char.ofNat (x * 16 + y))) = false := by
  induction value using normalizeOctets.induct generalizing result pre with
  | case1 a b value x y hy hx ih =>
      rw [normalizeOctets, hx, hy] at h
      obtain ⟨_, hsafe, h⟩ := bind_eq_ok.mp h
      obtain ⟨tail, htail, h⟩ := bind_eq_ok.mp h
      rw [← Except.ok.inj h] at hresult
      have hsafe := check_eq_ok.mp hsafe
      have hlt := hexValue?_lt hx
      have hlt' := hexValue?_lt hy
      have hoctet : x * 16 + y < 256 := by omega
      generalize x * 16 + y = octet at hresult hsafe hoctet
      rcases targetOctet_cases octet hoctet with ⟨htarget, -, -⟩ | ⟨htarget, hreserved⟩
      · rw [htarget, List.singleton_append] at hresult
        cases pre with
        | nil =>
            exact absurd (List.cons.inj hresult).1 (ne_percent_of_safe octet hoctet hsafe)
        | cons c pre => exact ih htail (List.cons.inj hresult).2
      · rw [htarget] at hresult
        have hhigh := hexValue?_upperHexDigit (octet / 16) (by omega)
        have hlow := hexValue?_upperHexDigit (octet % 16) (by omega)
        rcases pre with _ | ⟨c, _ | ⟨d, _ | ⟨e, pre⟩⟩⟩
        · refine ⟨_, _, tail, octet / 16, octet % 16, (List.cons.inj hresult).2.symm, hhigh, hlow, ?_⟩
          rw [show octet / 16 * 16 + octet % 16 = octet by omega]
          exact ⟨hsafe, hreserved⟩
        · exact absurd (List.cons.inj (List.cons.inj hresult).2).1 (ne_of_hexValue? hhigh).2
        · exact absurd (List.cons.inj (List.cons.inj (List.cons.inj hresult).2).2).1
            (ne_of_hexValue? hlow).2
        · exact ih htail (List.cons.inj (List.cons.inj (List.cons.inj hresult).2).2).2
  | case2 a b value hne =>
      rw [normalizeOctets] at h
      split at h
      · rename_i x y hx hy
        exact absurd hy (hne x y hx)
      · cases h
  | case3 c value hne ih =>
      rw [normalizeOctets.eq_2 c value hne] at h
      obtain ⟨_, hc, h⟩ := bind_eq_ok.mp h
      obtain ⟨tail, htail, h⟩ := bind_eq_ok.mp h
      rw [← Except.ok.inj h] at hresult
      have hc : c ≠ .scalar '%' := by simpa using hc
      cases pre with
      | nil => exact absurd (List.cons.inj hresult).1 hc
      | cons d pre => exact ih htail (List.cons.inj hresult).2
  | case4 =>
      cases h
      cases pre <;> cases hresult

/-! ## The canonical form -/

/-- A path without a second reading: no segment is empty or a dot segment, decoded or not,
only what has to be escaped is, and no query or fragment begins. -/
structure UnambiguousPath (path : Str) : Prop where
  segments : ∀ segment ∈ (path.splitOn (.scalar '/')).drop 1,
    segment ≠ [] ∧ segment ≠ Str.ofString "." ∧ segment ≠ Str.ofString ".."
  decoded : ∀ segment ∈ ((Url.unquoteToBytes path).splitOn 47).drop 1,
    segment ≠ [] ∧ segment ≠ [46] ∧ segment ≠ [46, 46]
  escapes : ∀ pre rest, path = pre ++ .scalar '%' :: rest →
    ∃ a b post x y, rest = a :: b :: post ∧ hexValue? a = some x ∧ hexValue? b = some y ∧
      isSafeOctet (x * 16 + y) = true ∧ isUnreserved (.scalar (Char.ofNat (x * 16 + y))) = false
  query : .scalar '?' ∉ path
  fragment : .scalar '#' ∉ path

/-- A segment of a canonical path is its own canonical form. -/
theorem CanonicalPath.segment {value result segment : Str} (h : CanonicalPath value result)
    (hmem : segment ∈ result.splitOn (.scalar '/')) : normalizeOctets segment = .ok segment := by
  have hagain := (normalizeOctets_spec h.octets).again
  have hpieces := normalizeOctets_splitOn hagain
  rw [List.forall₂_same] at hpieces
  exact hpieces segment hmem

/-- A segment of a canonical path does not become a dot segment when it is decoded. -/
theorem CanonicalPath.decoded_segment {value result segment : Str} (h : CanonicalPath value result)
    (hmem : segment ∈ (result.splitOn (.scalar '/')).drop 1) :
    Url.unquoteToBytes segment ≠ [] ∧ Url.unquoteToBytes segment ≠ [46] ∧
      Url.unquoteToBytes segment ≠ [46, 46] := by
  have hpiece := List.mem_of_mem_drop hmem
  have hchars := (normalizeOctets_spec h.octets).chars h.chars
  have hascii : ∀ c ∈ segment, c.ord < 128 := fun c hc => (hchars c (mem_of_mem_splitOn hpiece hc)).1
  have hsame : ∀ t : Str, (∀ c ∈ t, isUnreserved c = true) →
      Url.unquoteToBytes segment = t.map (fun c => UInt8.ofNat c.ord) → segment = t :=
    fun t ht hbytes => normalizeOctets_unreserved (h.segment hpiece) hascii ht hbytes
  obtain ⟨hempty, hdot, hdots⟩ := h.segments segment hmem
  refine ⟨fun hbytes => hempty ?_, fun hbytes => hdot ?_, fun hbytes => hdots ?_⟩
  · exact hsame [] (by simp) hbytes
  · exact hsame (Str.ofString ".") (by decide) hbytes
  · exact hsame (Str.ofString "..") (by decide) hbytes

/-- A canonical path has no second reading. -/
theorem CanonicalPath.unambiguous {value result : Str} (h : CanonicalPath value result) :
    UnambiguousPath result where
  segments := h.segments
  decoded := by
    have hspec := normalizeOctets_spec h.octets
    rw [splitOn_unquoteToBytes hspec.again fun c hc => (hspec.chars h.chars c hc).1, ← List.map_drop]
    intro decoded hdecoded
    obtain ⟨segment, hsegment, rfl⟩ := List.mem_map.mp hdecoded
    exact h.decoded_segment hsegment
  escapes := fun pre rest hresult => escape_of_percent h.octets hresult
  query := by
    intro hmem
    have hforbidden := ((normalizeOctets_spec h.octets).chars h.chars _ hmem).2
    cases hforbidden
  fragment := by
    intro hmem
    have hforbidden := ((normalizeOctets_spec h.octets).chars h.chars _ hmem).2
    cases hforbidden

/-- The segments of an accepted path, decoded, are those of its canonical form. -/
theorem CanonicalPath.decoded_segments {value result : Str} (h : CanonicalPath value result) :
    (value.splitOn (.scalar '/')).map Url.unquoteToBytes =
      (result.splitOn (.scalar '/')).map Url.unquoteToBytes := by
  have hspec := normalizeOctets_spec h.octets
  rw [← splitOn_unquoteToBytes h.octets fun c hc => (h.chars c hc).1,
    ← splitOn_unquoteToBytes hspec.again fun c hc => (hspec.chars h.chars c hc).1, hspec.bytes]

/-- `canonical_target_path` is a canonical form: it is idempotent, it keeps what the path
decodes to, its result has no second reading, and paths with one canonical form decode to
the same octets, segment by segment. -/
theorem canonical_target_path_form {path result : Str} (h : canonicalTargetPath path = .ok result) :
    canonicalTargetPath result = .ok result ∧
      (Url.unquoteToBytes result = Url.unquoteToBytes path ∧
        Url.unquote result = Url.unquote path) ∧
      UnambiguousPath result ∧
      ∀ path', canonicalTargetPath path' = .ok result →
        Url.unquoteToBytes path' = Url.unquoteToBytes path ∧
          (path'.splitOn (.scalar '/')).map Url.unquoteToBytes =
            (path.splitOn (.scalar '/')).map Url.unquoteToBytes := by
  have hspec := canonicalTargetPath_spec h
  have hbytes := (normalizeOctets_spec hspec.octets).bytes
  obtain ⟨hagain, htext⟩ := canonicalTargetPath_canonical h
  refine ⟨hagain, ⟨hbytes, htext⟩, hspec.unambiguous, ?_⟩
  intro path' h'
  have hspec' := canonicalTargetPath_spec h'
  constructor
  · rw [← hbytes, (normalizeOctets_spec hspec'.octets).bytes]
  · rw [hspec.decoded_segments, hspec'.decoded_segments]

theorem canonical_target_path_form_invoice :
    canonicalTargetPath "/v1/invoices/%34%32/pay" = .ok "/v1/invoices/42/pay" ∧
      UnambiguousPath "/v1/invoices/42/pay" ∧
      Url.unquoteToBytes "/v1/invoices/42/pay" = Url.unquoteToBytes "/v1/invoices/%34%32/pay" := by
  have hpath : canonicalTargetPath "/v1/invoices/%34%32/pay" = .ok "/v1/invoices/42/pay" := by
    decide +kernel
  obtain ⟨-, ⟨hbytes, -⟩, hform, -⟩ := canonical_target_path_form hpath
  exact ⟨hpath, hform, hbytes⟩

end FastapiEffects
