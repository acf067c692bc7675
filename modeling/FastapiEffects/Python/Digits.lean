import FastapiEffects.Python.UuidText

/-! # Digits

`str.isdigit`, `int` of the texts it accepts, and `int(raw, 16)` of bytes. Some digits of
Unicode are no decimal digits: `isdigit` is true of them and `int` refuses them.
-/

namespace Python

/-- The digits of Unicode, and the decimal ones with their values. -/
class Digits where
  isDigit : PyChar → Bool
  decimal : PyChar → Option ℕ
  decimal_lt : ∀ c d, decimal c = some d → d < 10
  isDigit_of_decimal : ∀ c d, decimal c = some d → isDigit c = true
  isDigit_latin1 : ∀ c : PyChar, c.ord < 256 → isDigit c = c.isIn [('0', '9')] ['²', '³', '¹']
  decimal_latin1 : ∀ c : PyChar, c.ord < 256 →
    decimal c = if c.between '0' '9' then some (c.ord - 48) else none

namespace Digits

/-- The digits of Latin-1 alone. -/
scoped instance latin1 : Digits where
  isDigit c := c.isIn [('0', '9')] ['²', '³', '¹']
  decimal c := if c.between '0' '9' then some (c.ord - 48) else none
  decimal_lt := by
    intro c d h
    split_ifs at h with hc
    cases h
    have hbounds : '0'.toNat ≤ c.ord ∧ c.ord ≤ '9'.toNat := of_decide_eq_true hc
    change 48 ≤ c.ord ∧ c.ord ≤ 57 at hbounds
    omega
  isDigit_of_decimal := by
    intro c d h
    split_ifs at h with hc
    rw [PyChar.isIn, List.any_cons, hc]
    rfl
  isDigit_latin1 := fun _ _ => rfl
  decimal_latin1 := fun _ _ => rfl

end Digits

namespace Str

variable [Digits]

/-- `s.isdigit()`. -/
def isdigit (s : Str) : Bool := s ≠ [] ∧ s.all Digits.isDigit

/-- The number some decimal digits are written as. -/
def ofDecimals (ds : List ℕ) : ℕ := ds.foldl (fun n d => n * 10 + d) 0

/-- `int(s)` of a text of digits; `none` is the `ValueError` for a digit that is not decimal,
or for too many of them. -/
def intOfDigits? (s : Str) : Option ℕ :=
  if s.length ≤ maxStrDigits then (s.mapM Digits.decimal).map ofDecimals else none

/-- The `ValueError` of `int` on a text of digits. -/
theorem intOfDigits?_eq_none {s : Str} : s.intOfDigits? = none ↔
    maxStrDigits < s.length ∨ ∃ c ∈ s, Digits.decimal c = none := by
  unfold intOfDigits?
  split_ifs with hlength
  · have hmap : s.mapM Digits.decimal = none ↔ ∃ c ∈ s, Digits.decimal c = none := by
      induction s with
      | nil => simp
      | cons c s ih =>
          have hs : s.length ≤ maxStrDigits := by
            rw [List.length_cons] at hlength
            omega
          rw [List.mapM_cons]
          cases hc : Digits.decimal c with
          | none => simp [hc]
          | some d =>
              cases hrest : s.mapM Digits.decimal with
              | none =>
                  obtain ⟨c', hc', hnone⟩ := (ih hs).mp hrest
                  simp only [Option.bind_eq_bind, Option.bind_some, Option.bind_none, true_iff]
                  exact ⟨c', List.mem_cons_of_mem _ hc', hnone⟩
              | some ds =>
                  have hall := mt (ih hs).mpr (by rw [hrest]; exact Option.some_ne_none ds)
                  simp only [Option.bind_eq_bind, Option.bind_some, Option.pure_def, reduceCtorEq,
                    List.mem_cons, exists_eq_or_imp, hc, false_or, false_iff]
                  exact hall
    rw [Option.map_eq_none_iff, hmap]
    simp [not_lt.mpr hlength]
  · simp [not_le.mp hlength]

end Str

/-! ## `int(raw, 16)` -/

/-- What a map that may fail makes of a list. -/
theorem mapM_eq_some_iff {α β : Type} {f : α → Option β} {xs : List α} {ys : List β} :
    xs.mapM f = some ys ↔ List.Forall₂ (fun x y => f x = some y) xs ys := by
  induction xs generalizing ys with
  | nil => cases ys <;> simp
  | cons x xs ih =>
      cases ys with
      | nil => simp [Option.bind_eq_some_iff]
      | cons y ys => simp [Option.bind_eq_some_iff, ih]

theorem exists_of_mapM_eq_some {α β : Type} {f : α → Option β} {xs : List α} {ys : List β}
    (h : xs.mapM f = some ys) {x : α} (hx : x ∈ xs) : ∃ y ∈ ys, f x = some y := by
  have hall := mapM_eq_some_iff.mp h
  clear h
  induction hall with
  | nil => cases hx
  | cons hy _ ih =>
      rcases List.mem_cons.mp hx with rfl | hx
      · exact ⟨_, List.mem_cons_self, hy⟩
      · obtain ⟨y, hmem, hfy⟩ := ih hx
        exact ⟨y, List.mem_cons_of_mem _ hmem, hfy⟩

namespace Bytes

/-- `raw.decode("latin-1")`. -/
def latin1 (s : Bytes) : Str := s.map Str.ofByte

theorem ord_lt_latin1 (s : Bytes) : ∀ c ∈ latin1 s, c.ord < 256 := by
  have hord : ∀ n < 256, (Char.ofNat n).toNat < 256 := by decide +kernel
  intro c hc
  obtain ⟨b, -, rfl⟩ := List.mem_map.mp hc
  exact hord b.toNat b.toNat_lt

/-- `raw.strip(characters)`. -/
def strip (characters s : Bytes) : Bytes :=
  (s.dropWhile characters.contains).rdropWhile characters.contains

/-- The white space of C. -/
def space : Bytes := [9, 10, 11, 12, 13, 32]

/-- `int(raw, 16)`; `none` is the `ValueError`. -/
def hexInt? (s : Bytes) : Option ℤ :=
  let value (t : Str) : Option ℤ :=
    (hexDigits? (fun _ => none) (dropHexPrefix t)).map fun ds =>
      ds.foldl (fun (n : ℤ) (d : ℕ) => n * 16 + d) 0
  match latin1 (strip space s) with
  | .scalar '-' :: rest => (value rest).map fun n => -n
  | .scalar '+' :: rest => value rest
  | t => value t

example : hexInt? [49, 95, 48] = some 16 := by decide

/-- The value of a hexadecimal digit. -/
def hexValue? (b : UInt8) : Option ℕ := Loads.hexValue? (Str.ofByte b)

/-- The number of one or more hexadecimal digits. -/
def hex? (s : Bytes) : Option ℕ :=
  if s = [] then none else (s.mapM hexValue?).map fun ds => ds.foldl (fun n d => n * 16 + d) 0

theorem forall_of_hex? {s : Bytes} {n : ℕ} (h : hex? s = some n) :
    s ≠ [] ∧ ∃ ds, s.mapM hexValue? = some ds ∧ ds.foldl (fun n d => n * 16 + d) 0 = n := by
  unfold hex? at h
  split_ifs at h with hne
  obtain ⟨ds, hds, hn⟩ := Option.map_eq_some_iff.mp h
  exact ⟨hne, ds, hds, hn⟩

/-- A hexadecimal digit is no space, no sign and no part of a prefix. -/
theorem hexValue?_spec {b : UInt8} {d : ℕ} (h : hexValue? b = some d) :
    b ∉ space ∧ ∀ c ∈ ['-', '+', 'x', 'X', '_'], Str.ofByte b ≠ .scalar c := by
  have hspace : space.all (fun b => hexValue? b = none) = true := by decide
  have hother : ['-', '+', 'x', 'X', '_'].all (fun c => Loads.hexValue? (.scalar c) = none) = true := by
    decide
  constructor
  · intro hmem
    rw [of_decide_eq_true (List.all_eq_true.mp hspace b hmem)] at h
    cases h
  · intro c hc heq
    rw [hexValue?, heq, of_decide_eq_true (List.all_eq_true.mp hother c hc)] at h
    cases h

theorem strip_eq_self {characters s : Bytes} (h : ∀ b ∈ s, b ∉ characters) :
    strip characters s = s := by
  have hdrop : ∀ t : Bytes, (∀ b ∈ t, b ∉ characters) → t.dropWhile characters.contains = t := by
    intro t ht
    cases t with
    | nil => rfl
    | cons b t =>
        rw [List.dropWhile_cons, if_neg]
        simp [ht b List.mem_cons_self]
  have hreverse : ∀ b ∈ s.reverse, b ∉ characters := fun b hb => h b (List.mem_reverse.mp hb)
  rw [strip, hdrop s h, List.rdropWhile, hdrop _ hreverse, List.reverse_reverse]

/-- `int(raw, 16)` of plain digits. -/
theorem hexInt?_of_hex? {s : Bytes} {n : ℕ} (h : hex? s = some n) :
    hexInt? s = some (n : ℤ) := by
  obtain ⟨hne, ds, hds, rfl⟩ := forall_of_hex? h
  have hspec : ∀ b ∈ s, b ∉ space ∧ ∀ c ∈ ['-', '+', 'x', 'X', '_'], Str.ofByte b ≠ .scalar c := by
    intro b hb
    obtain ⟨d, -, hd⟩ := exists_of_mapM_eq_some hds hb
    exact hexValue?_spec hd
  have hstrip : strip space s = s := strip_eq_self fun b hb => (hspec b hb).1
  have habsent : ∀ c ∈ ['-', '+', 'x', 'X', '_'], PyChar.scalar c ∉ latin1 s := by
    intro c hc hmem
    obtain ⟨b, hb, heq⟩ := List.mem_map.mp hmem
    exact (hspec b hb).2 c hc heq
  have hdrop : dropHexPrefix (latin1 s) = latin1 s := by
    unfold dropHexPrefix
    split
    · rename_i x rest heq
      rw [if_neg]
      rintro (rfl | rfl)
      · exact habsent 'x' (by decide) (by simp [heq])
      · exact habsent 'X' (by decide) (by simp [heq])
    · rfl
  have hfilter : (latin1 s).filter (· ≠ .scalar '_') = latin1 s :=
    List.filter_eq_self.mpr fun c hc => decide_eq_true fun heq => habsent '_' (by decide) (heq ▸ hc)
  have hmap : (latin1 s).mapM (hexDigit? fun _ => none) = some ds := by
    rw [mapM_eq_some_iff] at hds ⊢
    rw [latin1, List.forall₂_map_left_iff]
    refine hds.imp fun b d hd => ?_
    have hvalue : Loads.hexValue? (Str.ofByte b) = some d := hd
    rw [hexDigit?, hvalue]
    rfl
  have hdigits : hexDigits? (fun _ => none) (latin1 s) = some ds := by
    rw [hexDigits?, if_neg, hfilter, hmap]
    rintro (hnil | hhead | hlast | hdouble)
    · exact hne (List.map_eq_nil_iff.mp hnil)
    · exact habsent '_' (by decide) (List.mem_of_head? hhead)
    · exact habsent '_' (by decide) (List.mem_of_getLast? hlast)
    · exact habsent '_' (by decide) (hdouble.subset List.mem_cons_self)
  have hcast : ∀ (es : List ℕ) (m : ℕ), ((es.foldl (fun n d => n * 16 + d) m : ℕ) : ℤ) =
      es.foldl (fun (n : ℤ) (d : ℕ) => n * 16 + d) m := by
    intro es
    induction es with
    | nil => exact fun m => rfl
    | cons e es ih =>
        intro m
        rw [List.foldl_cons, List.foldl_cons, ih]
        push_cast
        rfl
  rw [hexInt?, hstrip]
  dsimp only
  split
  · rename_i rest heq
    exact absurd (by simp [heq]) (habsent '-' (by decide))
  · rename_i rest heq
    exact absurd (by simp [heq]) (habsent '+' (by decide))
  · rw [hdrop, hdigits, Option.map_some, hcast]
    rfl

end Bytes

end Python
