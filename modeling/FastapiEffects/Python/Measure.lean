import FastapiEffects.Python.Encodable

/-! # The size of a JSON text

How many bytes `json.dumps` writes of a value, and how deep the value nests, counted on the
value itself.
-/

namespace Python

/-- The bytes of a character in UTF-8. -/
def PyChar.utf8Size : PyChar → ℕ
  | .scalar c => c.utf8Size
  | .surrogate _ => 0

namespace Str

/-- The bytes of a text in UTF-8. -/
def utf8Size (s : Str) : ℕ := (s.map PyChar.utf8Size).sum

@[simp] theorem utf8Size_nil : utf8Size [] = 0 := rfl

@[simp] theorem utf8Size_cons (c : PyChar) (s : Str) :
    utf8Size (c :: s) = c.utf8Size + s.utf8Size := by
  simp [utf8Size]

@[simp] theorem utf8Size_append (s t : Str) : (s ++ t).utf8Size = s.utf8Size + t.utf8Size := by
  simp [utf8Size]

/-- A text that can be encoded has as many bytes. -/
theorem length_encode? {s : Str} {bs : Bytes} (h : s.encode? = some bs) :
    bs.length = s.utf8Size := by
  obtain ⟨cs, hcs, rfl⟩ := Option.map_eq_some_iff.mp h
  clear h
  induction s generalizing cs with
  | nil =>
      cases hcs
      rfl
  | cons c s ih =>
      rw [List.mapM_cons] at hcs
      obtain ⟨x, hx, hrest⟩ := Option.bind_eq_some_iff.mp hcs
      obtain ⟨xs, hxs, hcons⟩ := Option.bind_eq_some_iff.mp hrest
      cases hcons
      cases c with
      | scalar c =>
          cases hx
          rw [List.flatMap_cons, List.length_append, String.length_utf8EncodeChar, ih xs hxs,
            utf8Size_cons]
          rfl
      | surrogate n => cases hx

/-- ASCII text is one byte a character. -/
theorem utf8Size_ascii {s : Str} (h : s.isAscii = true) : s.utf8Size = s.length := by
  rw [← length_encode? (encode?_ascii h), List.length_map]

end Str

/-! ## Text that is written as it is -/

/-- The characters of printable ASCII that no escape stands for. -/
def PyChar.isVerbatim (c : PyChar) : Bool :=
  c.between ' ' '~' && decide (c ≠ .scalar '"') && decide (c ≠ .scalar '\\')

/-- What holds of the 128 characters of ASCII. -/
theorem PyChar.forall_ascii {p : PyChar → Prop} (h : ∀ n < 128, p (.scalar (Char.ofNat n)))
    {c : PyChar} (hc : c.ord < 128) : p c := by
  rw [PyChar.eq_ofNat_ord hc]
  exact h c.ord hc

theorem PyChar.ord_lt_of_isVerbatim {c : PyChar} (h : c.isVerbatim = true) : c.ord < 128 := by
  simp only [isVerbatim, between, Bool.and_eq_true, decide_eq_true_eq] at h
  exact h.1.1.2.trans_lt (by decide)

theorem escapeChar_verbatim {c : PyChar} (h : c.isVerbatim = true) : escapeChar c = [c] :=
  PyChar.forall_ascii (p := fun c => c.isVerbatim = true → escapeChar c = [c]) (by decide +kernel)
    (PyChar.ord_lt_of_isVerbatim h) h

/-- Such text only gets its quotes. -/
theorem quote_verbatim {s : Str} (h : ∀ c ∈ s, c.isVerbatim = true) :
    quote s = Str.ofString "\"" ++ s ++ Str.ofString "\"" := by
  have hself : s.flatMap escapeChar = s := by
    rw [List.flatMap_congr (g := fun c => [c]) fun c hc => ?_, List.flatMap_singleton']
    exact escapeChar_verbatim (h c hc)
  rw [quote, hself]

/-- The characters of keys, identities and times. -/
def PyChar.isPlain : PyChar → Bool :=
  PyChar.isIn [('a', 'z'), ('0', '9')] ['.', '_', '-', ':', '+', 'T']

theorem PyChar.isVerbatim_of_isPlain {c : PyChar} (h : c.isPlain = true) : c.isVerbatim = true :=
  forall_ascii (p := fun c => c.isPlain = true → c.isVerbatim = true) (by decide +kernel)
    (ord_lt_of_isIn (by decide) (by decide) h) h

/-- Plain text is written as it is, between quotes. -/
theorem quote_plain {s : Str} (h : ∀ c ∈ s, c.isPlain = true) :
    (quote s).length = s.length + 2 ∧ s.isAscii = true := by
  have hascii : ∀ c ∈ s, c.ord < 128 := fun c hc =>
    PyChar.ord_lt_of_isIn (by decide) (by decide) (h c hc)
  have hverbatim : ∀ c ∈ s, c.isVerbatim = true := fun c hc =>
    PyChar.isVerbatim_of_isPlain (h c hc)
  constructor
  · rw [quote_verbatim hverbatim]
    simp [Str.ofString]
  · exact Str.isAscii_iff.mpr hascii

namespace Json

/-! ## Size -/

mutual

/-- The bytes of the text of a value. -/
def size : Json → ℕ
  | .null => 4
  | .bool true => 4
  | .bool false => 5
  | .int n => (Str.ofChars (intText n)).utf8Size
  | .float (.finite x) => (Str.ofChars x.repr).utf8Size
  | .float _ => 0
  | .str s => (quote s).utf8Size
  | .arr items => 1 + max 1 (sizeItems items)
  | .obj members => 1 + max 1 (sizeMembers members)

def sizeItems : List Json → ℕ
  | [] => 0
  | x :: xs => size x + 1 + sizeItems xs

def sizeMembers : List (Str × Json) → ℕ
  | [] => 0
  | (k, x) :: ms => (quote k).utf8Size + 1 + size x + 1 + sizeMembers ms

end

@[simp] theorem sizeMembers_nil : sizeMembers [] = 0 := rfl

theorem sizeMembers_eq_sum (members : List (Str × Json)) :
    sizeMembers members = (members.map fun m => (quote m.1).utf8Size + 1 + m.2.size + 1).sum := by
  induction members with
  | nil => rfl
  | cons m ms ih =>
      obtain ⟨k, x⟩ := m
      rw [sizeMembers, ih, List.map_cons, List.sum_cons]

theorem sizeMembers_perm {ms ns : List (Str × Json)} (h : ms.Perm ns) :
    sizeMembers ms = sizeMembers ns := by
  rw [sizeMembers_eq_sum, sizeMembers_eq_sum, (h.map _).sum_eq]

theorem sizeMembers_append (ms ns : List (Str × Json)) :
    sizeMembers (ms ++ ns) = sizeMembers ms + sizeMembers ns := by
  rw [sizeMembers_eq_sum, sizeMembers_eq_sum, sizeMembers_eq_sum, List.map_append, List.sum_append]

/-- A member takes two bytes and more. -/
theorem length_le_sizeMembers (members : List (Str × Json)) :
    2 * members.length ≤ sizeMembers members := by
  induction members with
  | nil => exact Nat.zero_le _
  | cons m ms ih =>
      obtain ⟨k, x⟩ := m
      rw [sizeMembers, List.length_cons]
      omega

mutual

/-- The order of the members does not matter. -/
theorem size_sorted : ∀ v : Json, v.sorted.size = v.size
  | .null | .bool _ | .int _ | .float _ | .str _ => rfl
  | .arr items => by rw [sorted, size, size, sizeItems_sortedItems items]
  | .obj members => by
      rw [sorted, size, size, sizeMembers_perm (sortMembers_perm _),
        sizeMembers_sortedMembers members]

theorem sizeItems_sortedItems : ∀ items : List Json,
    sizeItems (sortedItems items) = sizeItems items
  | [] => rfl
  | x :: xs => by rw [sortedItems, sizeItems, sizeItems, size_sorted x, sizeItems_sortedItems xs]

theorem sizeMembers_sortedMembers : ∀ members : List (Str × Json),
    sizeMembers (sortedMembers members) = sizeMembers members
  | [] => rfl
  | (k, x) :: ms => by
      rw [sortedMembers, sizeMembers, sizeMembers, size_sorted x, sizeMembers_sortedMembers ms]

end

mutual

/-- A text has the size of its value. -/
theorem utf8Size_text : ∀ (v : Json) {t : Str}, v.text = some t → t.utf8Size = v.size
  | .null, _, h => by
      cases h
      rfl
  | .bool true, _, h => by
      cases h
      rfl
  | .bool false, _, h => by
      cases h
      rfl
  | .int n, _, h => by
      obtain ⟨cs, hcs, rfl⟩ := Option.map_eq_some_iff.mp h
      unfold intRepr at hcs
      split_ifs at hcs with hshort
      cases hcs
      rfl
  | .float (.finite x), _, h => by
      cases h
      rfl
  | .str s, _, h => by
      cases h
      rfl
  | .arr items, _, h => by
      obtain ⟨t, ht, rfl⟩ := Option.map_eq_some_iff.mp h
      have hopen : Str.utf8Size (Str.ofString "[") = 1 := by decide
      have hclose : Str.utf8Size (Str.ofString "]") = 1 := by decide
      rw [Str.utf8Size_append, Str.utf8Size_append, size, ← utf8Size_textItems items ht, hopen,
        hclose]
      omega
  | .obj members, _, h => by
      obtain ⟨t, ht, rfl⟩ := Option.map_eq_some_iff.mp h
      have hopen : Str.utf8Size (Str.ofString "\x7b") = 1 := by decide
      have hclose : Str.utf8Size (Str.ofString "\x7d") = 1 := by decide
      rw [Str.utf8Size_append, Str.utf8Size_append, size, ← utf8Size_textMembers members ht, hopen,
        hclose]
      omega

theorem utf8Size_textItems : ∀ (items : List Json) {t : Str}, textItems items = some t →
    t.utf8Size + 1 = max 1 (sizeItems items)
  | [], _, h => by
      cases h
      rfl
  | [x], _, h => by
      rw [textItems] at h
      rw [sizeItems, sizeItems, utf8Size_text x h]
      omega
  | x :: y :: xs, _, h => by
      obtain ⟨tx, htx, txs, htxs, rfl⟩ := textItems_cons.mp h
      have hrest := utf8Size_textItems (y :: xs) htxs
      have hcomma : PyChar.utf8Size (.scalar ',') = 1 := by decide
      rw [sizeItems] at hrest
      rw [sizeItems, sizeItems, ← utf8Size_text x htx, Str.utf8Size_append, Str.utf8Size_cons, hcomma]
      omega

theorem utf8Size_textMembers : ∀ (members : List (Str × Json)) {t : Str},
    textMembers members = some t → t.utf8Size + 1 = max 1 (sizeMembers members)
  | [], _, h => by
      cases h
      rfl
  | [(k, x)], _, h => by
      obtain ⟨tx, htx, rfl⟩ := textMembers_singleton.mp h
      have hcolon : PyChar.utf8Size (.scalar ':') = 1 := by decide
      rw [sizeMembers, sizeMembers, ← utf8Size_text x htx, Str.utf8Size_append, Str.utf8Size_cons,
        hcolon]
      omega
  | (k, x) :: (l, y) :: ms, _, h => by
      obtain ⟨tx, htx, txs, htxs, rfl⟩ := textMembers_cons.mp h
      have hrest := utf8Size_textMembers ((l, y) :: ms) htxs
      have hcolon : PyChar.utf8Size (.scalar ':') = 1 := by decide
      have hcomma : PyChar.utf8Size (.scalar ',') = 1 := by decide
      rw [sizeMembers] at hrest
      rw [sizeMembers, sizeMembers, ← utf8Size_text x htx, Str.utf8Size_append, Str.utf8Size_cons,
        Str.utf8Size_append, Str.utf8Size_cons, hcolon, hcomma]
      omega

end

/-- The bytes of a value are as many as its size says. -/
theorem length_encode?_dumps {v : Json} {bytes : Bytes} (h : v.dumps.bind Str.encode? = some bytes) :
    bytes.length = v.size := by
  obtain ⟨t, ht, hencode⟩ := Option.bind_eq_some_iff.mp h
  rw [Str.length_encode? hencode, utf8Size_text v.sorted ht, size_sorted]

/-! ## What has a text -/

mutual

/-- The leaves of a value with a text have texts. -/
theorem writes_of_text : ∀ (v : Json) {t : Str}, v.text = some t →
    v.everywhere (fun _ => true) leafWrites = true
  | .null, _, _ | .bool _, _, _ | .str _, _, _ => rfl
  | .int n, _, h => by
      obtain ⟨cs, hcs, -⟩ := Option.map_eq_some_iff.mp h
      unfold intRepr at hcs
      split_ifs at hcs with hshort
      exact decide_eq_true hshort
  | .float (.finite x), _, _ => rfl
  | .arr items, _, h => by
      obtain ⟨t, ht, -⟩ := Option.map_eq_some_iff.mp h
      exact writes_of_textItems items ht
  | .obj members, _, h => by
      obtain ⟨t, ht, -⟩ := Option.map_eq_some_iff.mp h
      exact writes_of_textMembers members ht

theorem writes_of_textItems : ∀ (items : List Json) {t : Str}, textItems items = some t →
    everywhereItems (fun _ => true) leafWrites items = true
  | [], _, _ => rfl
  | [x], _, h => by
      rw [textItems] at h
      rw [everywhereItems, writes_of_text x h]
      rfl
  | x :: y :: xs, _, h => by
      obtain ⟨tx, htx, txs, htxs, -⟩ := textItems_cons.mp h
      rw [everywhereItems, writes_of_text x htx, writes_of_textItems (y :: xs) htxs]
      rfl

theorem writes_of_textMembers : ∀ (members : List (Str × Json)) {t : Str},
    textMembers members = some t → everywhereMembers (fun _ => true) leafWrites members = true
  | [], _, _ => rfl
  | [(k, x)], _, h => by
      obtain ⟨tx, htx, -⟩ := textMembers_singleton.mp h
      rw [everywhereMembers, writes_of_text x htx]
      rfl
  | (k, x) :: y :: ms, _, h => by
      obtain ⟨tx, htx, txs, htxs, -⟩ := textMembers_cons.mp h
      rw [everywhereMembers, writes_of_text x htx, writes_of_textMembers (y :: ms) htxs]
      rfl

end

/-- Whether a value can be written in UTF-8: its numbers have texts, and its keys and strings
no lone surrogates. -/
def writable (v : Json) : Bool := v.everywhere Str.encodes fun x => leafWrites x && leafEncodes x

theorem writable_obj {members : List (Str × Json)} : (obj members).writable = true ↔
    ∀ m ∈ members, m.1.encodes = true ∧ m.2.writable = true :=
  everywhereMembers_iff

theorem writable_arr {items : List Json} : (arr items).writable = true ↔
    ∀ x ∈ items, x.writable = true :=
  everywhereItems_iff

@[simp] theorem writable_str (s : Str) : (str s).writable = s.encodes := Bool.true_and _

@[simp] theorem writable_int (n : ℤ) : (int n).writable = leafWrites (.int n) := Bool.and_true _

@[simp] theorem writable_float (x : PyFloat) : (float x).writable = x.isfinite := Bool.and_true _

theorem isSome_encode?_dumps {v : Json} :
    (∃ bytes, v.dumps.bind Str.encode? = some bytes) ↔ v.writable = true := by
  have hboth := @everywhere_and (fun _ => true) Str.encodes leafWrites leafEncodes v
  have hkeys : (fun k => true && Str.encodes k) = Str.encodes := by
    funext k
    rfl
  rw [hkeys] at hboth
  rw [writable, hboth, Bool.and_eq_true]
  constructor
  · rintro ⟨bytes, h⟩
    obtain ⟨t, ht, hencode⟩ := Option.bind_eq_some_iff.mp h
    have hwrites := writes_of_text v.sorted ht
    have hencodes := Str.isSome_encode? t
    rw [hencode, encodes_text v.sorted ht, everywhere_sorted] at hencodes
    rw [everywhere_sorted] at hwrites
    exact ⟨hwrites, hencodes.symm⟩
  · rintro ⟨hwrites, hencodes⟩
    rw [← everywhere_sorted] at hwrites
    obtain ⟨t, ht⟩ := exists_text v.sorted hwrites
    have hsome := Str.isSome_encode? t
    rw [encodes_text v.sorted ht, everywhere_sorted, hencodes] at hsome
    obtain ⟨bytes, hbytes⟩ := Option.isSome_iff_exists.mp hsome
    exact ⟨bytes, Option.bind_eq_some_iff.mpr ⟨t, ht, hbytes⟩⟩

/-! ## Nesting -/

mutual

/-- How many containers the innermost value of a tree stands in. -/
def height : Json → ℕ
  | .arr items => heightItems items
  | .obj members => heightMembers members
  | _ => 0

def heightItems : List Json → ℕ
  | [] => 0
  | x :: xs => max (x.height + 1) (heightItems xs)

def heightMembers : List (Str × Json) → ℕ
  | [] => 0
  | (_, x) :: ms => max (x.height + 1) (heightMembers ms)

end

theorem heightMembers_perm {ms ns : List (Str × Json)} (h : ms.Perm ns) :
    heightMembers ms = heightMembers ns := by
  induction h with
  | nil => rfl
  | cons m _ ih => rw [heightMembers, heightMembers, ih]
  | swap m n ms => rw [heightMembers, heightMembers, heightMembers, heightMembers, max_left_comm]
  | trans _ _ ih ih' => exact ih.trans ih'

mutual

/-- The order of members has no bearing on the height. -/
theorem height_sorted : ∀ v : Json, v.sorted.height = v.height
  | .null => rfl
  | .bool _ => rfl
  | .int _ => rfl
  | .float _ => rfl
  | .str _ => rfl
  | .arr items => heightItems_sortedItems items
  | .obj members => by
      rw [sorted, height, height, heightMembers_perm (sortMembers_perm _)]
      exact heightMembers_sortedMembers members

theorem heightItems_sortedItems : ∀ items : List Json,
    heightItems (sortedItems items) = heightItems items
  | [] => rfl
  | x :: xs => by
      rw [sortedItems, heightItems, heightItems, height_sorted x, heightItems_sortedItems xs]

theorem heightMembers_sortedMembers : ∀ members : List (Str × Json),
    heightMembers (sortedMembers members) = heightMembers members
  | [] => rfl
  | (k, x) :: ms => by
      rw [sortedMembers, heightMembers, heightMembers, height_sorted x,
        heightMembers_sortedMembers ms]

end

end Json

end Python
