import FastapiEffects.Python.Json
import FastapiEffects.Python.Uuid
import Mathlib.Data.List.Sort

/-! # Writing JSON

`json.dumps` with `ensure_ascii=False`, `allow_nan=False`, `sort_keys=True` and the
separators `,` and `:`. Its only errors are a `ValueError` for a non-finite float
and for an integer of more than 4300 digits, here `none`.
-/

namespace Python

/-- Characters as a `str`. -/
def Str.ofChars (cs : List Char) : Str := cs.map .scalar

/-! ## Numbers -/

/-- `str(n)` without the limit on digits. -/
def intText : ℤ → List Char
  | .ofNat n => Nat.toDigits 10 n
  | .negSucc n => '-' :: Nat.toDigits 10 (n + 1)

/-- The limit of `int` to `str` conversion, and back. -/
def maxStrDigits : ℕ := 4300

/-- `int.__repr__`; `none` is the `ValueError` for too many digits. -/
def intRepr (n : ℤ) : Option (List Char) :=
  if (Nat.toDigits 10 n.natAbs).length ≤ maxStrDigits then some (intText n) else none

/-- The decimal `d * 10 ^ e`. -/
structure Decimal where
  digits : ℕ
  exponent : ℤ
deriving DecidableEq

namespace Decimal

def value (x : Decimal) : ℚ := x.digits * 10 ^ x.exponent

/-- Without the zeros at the end. -/
def trim (d : ℕ) (e : ℤ) : ℕ → Decimal
  | 0 => ⟨d, e⟩
  | fuel + 1 => if d % 10 = 0 ∧ d ≠ 0 then trim (d / 10) (e + 1) fuel else ⟨d, e⟩

end Decimal

namespace Binary64

/-- The decimals of `n` digits next to a magnitude, the nearer one first, and on a
tie the even one. -/
def neighbours (q : ℚ) (n : ℕ) : List Decimal :=
  let e := Int.log 10 q + 1 - n
  let d := (⌊q / 10 ^ e⌋).toNat
  if roundHalfEven (q / 10 ^ e) = d then [⟨d, e⟩, ⟨d + 1, e⟩] else [⟨d + 1, e⟩, ⟨d, e⟩]

/-- The magnitude in full. -/
def exactDecimal (x : Binary64) : Decimal :=
  if 0 ≤ x.exponent then ⟨x.mantissa * 2 ^ x.exponent.toNat, 0⟩
  else ⟨x.mantissa * 5 ^ (-x.exponent).toNat, x.exponent⟩

/-- The shortest decimal that reads back as `x`, the nearest one if several do. -/
def shortest (x : Binary64) : Decimal :=
  let candidates := (List.range 17).flatMap fun n => neighbours x.magnitude (n + 1)
  let reads (d : Decimal) : Bool := round? x.negative d.value = some x
  ((candidates.find? reads).getD x.exactDecimal)

/-- The digits of a decimal with the point where `repr` puts it: exponent notation
below 10⁻⁴ and from 10¹⁶ on. -/
def pointText (d : Decimal) : List Char :=
  let digits := Nat.toDigits 10 d.digits
  let point : ℤ := digits.length + d.exponent
  if point ≤ -4 ∨ 16 < point then
    let tail := if digits.length = 1 then [] else '.' :: digits.tail
    let power := Nat.toDigits 10 (point - 1).natAbs
    let padded := if power.length = 1 then '0' :: power else power
    digits.take 1 ++ tail ++ 'e' :: (if point - 1 < 0 then '-' else '+') :: padded
  else if point ≤ 0 then '0' :: '.' :: List.replicate (-point).toNat '0' ++ digits
  else if digits.length ≤ point.toNat then
    digits ++ List.replicate (point.toNat - digits.length) '0' ++ ['.', '0']
  else digits.take point.toNat ++ '.' :: digits.drop point.toNat

/-- `float.__repr__` of a finite number. -/
def repr (x : Binary64) : List Char :=
  let d := x.shortest
  let text := if d.digits = 0 then ['0', '.', '0']
    else pointText (Decimal.trim d.digits d.exponent d.digits)
  if x.negative then '-' :: text else text

end Binary64

/-! ## Strings -/

/-- The escape sequence of a control character, a quote or a backslash; every other
code point stands for itself. -/
def escapeChar : PyChar → Str
  | .scalar '"' => "\\\""
  | .scalar '\\' => "\\\\"
  | .scalar '\n' => "\\n"
  | .scalar '\r' => "\\r"
  | .scalar '\t' => "\\t"
  | .scalar c =>
      if c = Char.ofNat 8 then "\\b"
      else if c = Char.ofNat 12 then "\\f"
      else if c.toNat < 32 then
        "\\u00" ++ Str.ofChars [hexDigit (c.toNat / 16), hexDigit (c.toNat % 16)]
      else [.scalar c]
  | c => [c]

/-- `encode_basestring`. -/
def quote (s : Str) : Str := "\"" ++ s.flatMap escapeChar ++ "\""

/-! ## Values -/

/-- Strings in the order of their code points. -/
def Str.le : Str → Str → Bool
  | [], _ => true
  | _ :: _, [] => false
  | c :: s, d :: t => c.ord < d.ord || (c.ord = d.ord && Str.le s t)

namespace Str

theorem le_total (s t : Str) : s.le t = true ∨ t.le s = true := by
  induction s generalizing t with
  | nil => exact Or.inl rfl
  | cons c s ih =>
      cases t with
      | nil => exact Or.inr rfl
      | cons d t =>
          have ih := ih t
          simp only [le, Bool.or_eq_true, Bool.and_eq_true, decide_eq_true_eq]
          rcases lt_trichotomy c.ord d.ord with h | h | h
          · exact Or.inl (Or.inl h)
          · exact ih.imp (fun hle => Or.inr ⟨h, hle⟩) fun hle => Or.inr ⟨h.symm, hle⟩
          · exact Or.inr (Or.inl h)

theorem le_trans {s t u : Str} (h : s.le t = true) (h' : t.le u = true) : s.le u = true := by
  induction s generalizing t u with
  | nil => rfl
  | cons c s ih =>
      cases t with
      | nil => cases h
      | cons d t =>
          cases u with
          | nil => cases h'
          | cons e u =>
              simp only [le, Bool.or_eq_true, Bool.and_eq_true, decide_eq_true_eq] at h h' ⊢
              rcases h with h | ⟨heq, h⟩ <;> rcases h' with h' | ⟨heq', h'⟩
              · exact Or.inl (h.trans h')
              · exact Or.inl (heq' ▸ h)
              · exact Or.inl (heq ▸ h')
              · exact Or.inr ⟨heq.trans heq', ih h h'⟩

/-- `tuple(sorted(set(items)))`. -/
def sortedSet (items : List Str) : List Str := items.dedup.insertionSort fun a b => a.le b

@[simp] theorem mem_sortedSet {items : List Str} {s : Str} : s ∈ sortedSet items ↔ s ∈ items := by
  simp [sortedSet]

theorem nodup_sortedSet (items : List Str) : (sortedSet items).Nodup :=
  (List.perm_insertionSort _ _).nodup_iff.mpr items.nodup_dedup

theorem length_sortedSet_le (items : List Str) : (sortedSet items).length ≤ items.length := by
  rw [sortedSet, List.length_insertionSort]
  exact items.dedup_sublist.length_le

/-- Sorting a sorted set changes nothing. -/
theorem sortedSet_sortedSet (items : List Str) : sortedSet (sortedSet items) = sortedSet items := by
  have htotal : Std.Total fun a b : Str => a.le b = true := ⟨le_total⟩
  have htrans : IsTrans Str fun a b => a.le b = true := ⟨fun _ _ _ => le_trans⟩
  rw [sortedSet, List.Nodup.dedup (nodup_sortedSet items)]
  exact (List.pairwise_insertionSort _ _).insertionSort_eq

end Str

namespace Json

/-- `sorted(members)`: by key. -/
def sortMembers (members : List (Str × Json)) : List (Str × Json) :=
  members.insertionSort fun a b => a.1.le b.1

theorem sortMembers_perm (members : List (Str × Json)) :
    (sortMembers members).Perm members := List.perm_insertionSort _ _

mutual

/-- The value with the members of every object in key order. -/
def sorted : Json → Json
  | .arr items => .arr (sortedItems items)
  | .obj members => .obj (sortMembers (sortedMembers members))
  | value => value

def sortedItems : List Json → List Json
  | [] => []
  | x :: xs => sorted x :: sortedItems xs

def sortedMembers : List (Str × Json) → List (Str × Json)
  | [] => []
  | (k, x) :: xs => (k, sorted x) :: sortedMembers xs

end

theorem keys_sortedMembers (members : List (Str × Json)) :
    (sortedMembers members).map Prod.fst = members.map Prod.fst := by
  induction members with
  | nil => rfl
  | cons m ms ih =>
      obtain ⟨k, x⟩ := m
      rw [sortedMembers, List.map_cons, List.map_cons, ih]

theorem find?_key_eq_some {members : List (Str × Json)} (h : (members.map Prod.fst).Nodup)
    {key : Str} {m : Str × Json} :
    members.find? (fun m => m.1 = key) = some m ↔ m ∈ members ∧ m.1 = key := by
  constructor
  · intro hfind
    exact ⟨List.mem_of_find?_eq_some hfind, by simpa using List.find?_some hfind⟩
  · rintro ⟨hm, rfl⟩
    induction members with
    | nil => cases hm
    | cons x xs ih =>
        rw [List.map_cons, List.nodup_cons] at h
        rcases List.mem_cons.mp hm with rfl | hm
        · simp
        · have hne : x.1 ≠ m.1 := fun heq => h.1 (heq ▸ List.mem_map_of_mem hm)
          rw [List.find?_cons_of_neg (by simp [hne])]
          exact ih h.2 hm

theorem find?_sortedMembers (members : List (Str × Json)) (key : Str) :
    (sortedMembers members).find? (fun m => m.1 = key) =
      (members.find? fun m => m.1 = key).map fun m => (m.1, m.2.sorted) := by
  induction members with
  | nil => rfl
  | cons m ms ih =>
      obtain ⟨k, x⟩ := m
      rw [sortedMembers, List.find?_cons, List.find?_cons, ih]
      by_cases h : k = key <;> simp [h]

theorem find?_sorted {members : List (Str × Json)} (h : (members.map Prod.fst).Nodup) (key : Str) :
    (sortMembers (sortedMembers members)).find? (fun m => m.1 = key) =
      (members.find? fun m => m.1 = key).map fun m => (m.1, m.2.sorted) := by
  have hperm := sortMembers_perm (sortedMembers members)
  have hkeys := keys_sortedMembers members
  have hnodup : ((sortedMembers members).map Prod.fst).Nodup := hkeys ▸ h
  have hnodup' := (hperm.map Prod.fst).nodup_iff.mpr hnodup
  rw [← find?_sortedMembers]
  ext m
  rw [find?_key_eq_some hnodup', find?_key_eq_some hnodup, hperm.mem_iff]

/-- A member of the sorted value. -/
theorem get?_sorted {members : List (Str × Json)} (h : (members.map Prod.fst).Nodup) (key : Str) :
    (obj members).sorted.get? key = ((obj members).get? key).map sorted := by
  rw [sorted, get?, find?_sorted h, get?, Option.map_map, Option.map_map]
  rfl

mutual

/-- The text of a value, members in the order they stand. -/
def text : Json → Option Str
  | .null => some "null"
  | .bool true => some "true"
  | .bool false => some "false"
  | .int n => (intRepr n).map Str.ofChars
  | .float (.finite x) => some (Str.ofChars x.repr)
  | .float _ => none
  | .str s => some (quote s)
  | .arr items => (textItems items).map fun t => "[" ++ t ++ "]"
  | .obj members => (textMembers members).map fun t => "\x7b" ++ t ++ "\x7d"

def textItems : List Json → Option Str
  | [] => some []
  | [x] => text x
  | x :: y :: xs => do return (← text x) ++ "," ++ (← textItems (y :: xs))

def textMembers : List (Str × Json) → Option Str
  | [] => some []
  | [(k, x)] => (text x).map fun t => quote k ++ ":" ++ t
  | (k, x) :: y :: xs => do return quote k ++ ":" ++ (← text x) ++ "," ++ (← textMembers (y :: xs))

end

/-- `json.dumps`. -/
def dumps (value : Json) : Option Str := value.sorted.text

/-! ### Pieces of a text -/

theorem textItems_cons {x y : Json} {xs : List Json} {t : Str} :
    textItems (x :: y :: xs) = some t ↔
      ∃ tx, x.text = some tx ∧ ∃ txs, textItems (y :: xs) = some txs ∧
        tx ++ .scalar ',' :: txs = t := by
  rw [textItems]
  simp [Option.bind_eq_some_iff, Str.ofString]

theorem textMembers_cons {k : Str} {x : Json} {y : Str × Json} {xs : List (Str × Json)} {t : Str} :
    textMembers ((k, x) :: y :: xs) = some t ↔
      ∃ tx, x.text = some tx ∧ ∃ txs, textMembers (y :: xs) = some txs ∧
        quote k ++ .scalar ':' :: (tx ++ .scalar ',' :: txs) = t := by
  rw [textMembers]
  simp [Option.bind_eq_some_iff, Str.ofString]

theorem textMembers_singleton {k : Str} {x : Json} {t : Str} :
    textMembers [(k, x)] = some t ↔
      ∃ tx, x.text = some tx ∧ quote k ++ .scalar ':' :: tx = t := by
  rw [textMembers]
  simp [Str.ofString]

/-- The length of an object's text, without its braces and one comma. -/
theorem length_textMembers {m : Str × Json} {ms : List (Str × Json)} {t : Str}
    (h : textMembers (m :: ms) = some t) : t.length + 1 =
      ((m :: ms).map fun m => (quote m.1).length + (m.2.text.getD []).length + 2).sum := by
  induction ms generalizing m t with
  | nil =>
      obtain ⟨tx, htx, rfl⟩ := textMembers_singleton.mp h
      simp [htx]
      omega
  | cons y ms ih =>
      obtain ⟨tx, htx, txs, htxs, rfl⟩ := textMembers_cons.mp h
      have hrest := ih htxs
      simp only [List.length_append, List.length_cons, List.map_cons, List.sum_cons, htx,
        Option.getD_some] at hrest ⊢
      omega

theorem escapeChar_ascii : ∀ n < 128, Str.isAscii (escapeChar (.scalar (Char.ofNat n))) = true ∧
    (32 ≤ n → (escapeChar (.scalar (Char.ofNat n))).length ≤ 2) := by
  decide +kernel

/-- An ASCII character stays ASCII, and a printable one becomes at most two. -/
theorem escapeChar_spec {c : PyChar} (h : c.ord < 128) :
    Str.isAscii (escapeChar c) = true ∧ (32 ≤ c.ord → (escapeChar c).length ≤ 2) := by
  have hspec := escapeChar_ascii c.ord h
  rw [← PyChar.eq_ofNat_ord h] at hspec
  exact hspec

theorem isAscii_quote {s : Str} (h : s.isAscii = true) : (quote s).isAscii = true := by
  rw [Str.isAscii_iff] at h ⊢
  intro c hc
  simp only [quote, Str.ofString, List.mem_append, List.mem_flatMap] at hc
  rcases hc with (hc | ⟨d, hd, hc⟩) | hc
  · revert c
    decide
  · exact Str.ord_lt_of_isAscii (escapeChar_spec (h d hd)).1 c hc
  · revert c
    decide

theorem length_quote_le {s : Str} (h : ∀ c ∈ s, 32 ≤ c.ord ∧ c.ord < 128) :
    (quote s).length ≤ 2 * s.length + 2 := by
  have hbody : (s.flatMap escapeChar).length ≤ 2 * s.length := by
    induction s with
    | nil => simp
    | cons c s ih =>
        have hc := h c List.mem_cons_self
        have htwo := (escapeChar_spec hc.2).2 hc.1
        have hrest := ih fun d hd => h d (List.mem_cons_of_mem c hd)
        simp only [List.flatMap_cons, List.length_append, List.length_cons]
        omega
  simp only [quote, Str.ofString, List.length_append, List.length_map]
  change 1 + _ + 1 ≤ _
  omega

/-- The text of an object of ASCII pieces. -/
theorem isAscii_textMembers {ms : List (Str × Json)} {t : Str} (h : textMembers ms = some t)
    (hpieces : ∀ m ∈ ms, m.1.isAscii = true ∧ ∀ tx ∈ m.2.text, tx.isAscii = true) :
    t.isAscii = true := by
  have hcons : ∀ {c : PyChar} {s : Str}, c.ord < 128 → s.isAscii = true →
      Str.isAscii (c :: s) = true := fun hc hs => by simp_all [Str.isAscii]
  have happend : ∀ {s s' : Str}, s.isAscii = true → s'.isAscii = true →
      Str.isAscii (s ++ s') = true := fun hs hs' => by simp_all [Str.isAscii]
  induction ms generalizing t with
  | nil =>
      cases h
      rfl
  | cons m ms ih =>
      obtain ⟨hkey, hvalue⟩ := hpieces m List.mem_cons_self
      cases ms with
      | nil =>
          obtain ⟨tx, htx, rfl⟩ := textMembers_singleton.mp h
          exact happend (isAscii_quote hkey) (hcons (by decide) (hvalue tx htx))
      | cons y ms =>
          obtain ⟨tx, htx, txs, htxs, rfl⟩ := textMembers_cons.mp h
          have hrest := ih htxs fun m hm => hpieces m (List.mem_cons_of_mem _ hm)
          exact happend (isAscii_quote hkey) (hcons (by decide)
            (happend (hvalue tx htx) (hcons (by decide) hrest)))

theorem exists_textMembers {ms : List (Str × Json)} (h : ∀ m ∈ ms, ∃ tx, m.2.text = some tx) :
    ∃ t, textMembers ms = some t := by
  induction ms with
  | nil => exact ⟨[], rfl⟩
  | cons m ms ih =>
      obtain ⟨tx, htx⟩ := h m List.mem_cons_self
      obtain ⟨t, ht⟩ := ih fun m hm => h m (List.mem_cons_of_mem _ hm)
      cases ms with
      | nil => exact ⟨_, textMembers_singleton.mpr ⟨tx, htx, rfl⟩⟩
      | cons y ms => exact ⟨_, textMembers_cons.mpr ⟨tx, htx, t, ht, rfl⟩⟩

theorem mem_sortedMembers {members : List (Str × Json)} {m : Str × Json} :
    m ∈ sortedMembers members ↔ ∃ x ∈ members, (x.1, x.2.sorted) = m := by
  induction members with
  | nil => simp [sortedMembers]
  | cons x xs ih => simp [sortedMembers, ih, eq_comm]

theorem map_sortedMembers {β : Type} (f : Str × Json → β) (members : List (Str × Json)) :
    (sortedMembers members).map f = members.map fun m => f (m.1, m.2.sorted) := by
  induction members with
  | nil => rfl
  | cons x xs ih => rw [sortedMembers, List.map_cons, List.map_cons, ih]

/-- The text of an object whose members are written in ASCII: it is ASCII, and as long as
its pieces, in whatever order they stand. -/
theorem dumps_obj {members : List (Str × Json)} (hne : members ≠ [])
    (hpieces : ∀ m ∈ members, m.1.isAscii = true ∧ ∃ tx, m.2.dumps = some tx ∧ tx.isAscii = true) :
    ∃ t, (obj members).dumps = some t ∧ t.isAscii = true ∧ t.length =
      (members.map fun m => (quote m.1).length + (m.2.dumps.getD []).length + 2).sum + 1 := by
  have hperm := sortMembers_perm (sortedMembers members)
  have hsorted : ∀ m ∈ sortMembers (sortedMembers members), m.1.isAscii = true ∧
      ∃ tx, m.2.text = some tx ∧ tx.isAscii = true := by
    intro m hm
    obtain ⟨x, hx, rfl⟩ := mem_sortedMembers.mp (hperm.mem_iff.mp hm)
    exact hpieces x hx
  obtain ⟨t, ht⟩ := exists_textMembers fun m hm => (hsorted m hm).2.imp fun _ h => h.1
  have hascii := isAscii_textMembers ht fun m hm => by
    obtain ⟨hkey, tx, htx, hvalue⟩ := hsorted m hm
    refine ⟨hkey, fun tx' htx' => ?_⟩
    cases htx.symm.trans htx'
    exact hvalue
  refine ⟨"\x7b" ++ t ++ "\x7d", ?_, ?_, ?_⟩
  · rw [dumps, sorted, text, ht]
    rfl
  · simp only [Str.isAscii, Str.ofString, List.all_append, Bool.and_eq_true] at hascii ⊢
    exact ⟨⟨by decide, hascii⟩, by decide⟩
  · cases hcons : sortMembers (sortedMembers members) with
    | nil =>
        rw [hcons] at hperm
        have hkeys := keys_sortedMembers members
        rw [hperm.nil_eq.symm] at hkeys
        exact absurd (List.map_eq_nil_iff.mp hkeys.symm) hne
    | cons m ms =>
        rw [hcons] at ht hperm
        have hlength := length_textMembers ht
        rw [(hperm.map _).sum_eq, map_sortedMembers] at hlength
        simp only [Str.ofString, List.length_append, List.length_map]
        have hsum : t.length + 1 =
            (members.map fun m => (quote m.1).length + (m.2.dumps.getD []).length + 2).sum := hlength
        rw [← hsum]
        change 1 + t.length + 1 = _
        omega

end Json

end Python
