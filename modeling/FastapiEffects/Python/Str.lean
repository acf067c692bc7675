import Mathlib.Data.List.DropRight
import Mathlib.Tactic.Common

/-! # Python strings and bytes

A `str` is a list of code points, lone surrogates included; `encode` and `decode`
are its UTF-8 codec, which refuses a lone surrogate.
-/

namespace Python

/-- A code point: a Unicode scalar value, or a surrogate that stands alone. -/
inductive PyChar where
  | scalar (c : Char)
  | surrogate (n : Fin 2048)
deriving DecidableEq, Repr

namespace PyChar

/-- `ord(c)`. -/
def ord : PyChar → ℕ
  | .scalar c => c.toNat
  | .surrogate n => 0xD800 + n

/-- Whether the code point lies in an ASCII range such as `a-z`. -/
def between (lo hi : Char) (c : PyChar) : Bool := lo.toNat ≤ c.ord ∧ c.ord ≤ hi.toNat

/-- Membership in a character class, given as ranges and single characters. -/
def isIn (ranges : List (Char × Char)) (singles : List Char) (c : PyChar) : Bool :=
  ranges.any (fun r => c.between r.1 r.2) || singles.any fun s => c = .scalar s

/-- A class of ASCII characters. -/
theorem ord_lt_of_isIn {ranges : List (Char × Char)} {singles : List Char} {c : PyChar} {n : ℕ}
    (hranges : ranges.all (fun r => r.2.toNat < n) = true)
    (hsingles : singles.all (fun s => s.toNat < n) = true)
    (h : c.isIn ranges singles = true) : c.ord < n := by
  rcases Bool.or_eq_true_iff.mp h with h | h
  · obtain ⟨r, hr, hc⟩ := List.any_eq_true.mp h
    have hbounds : r.1.toNat ≤ c.ord ∧ c.ord ≤ r.2.toNat := of_decide_eq_true hc
    exact hbounds.2.trans_lt (of_decide_eq_true (List.all_eq_true.mp hranges r hr))
  · obtain ⟨s, hs, hc⟩ := List.any_eq_true.mp h
    rw [of_decide_eq_true hc]
    exact of_decide_eq_true (List.all_eq_true.mp hsingles s hs)

/-- A class of printable characters. -/
theorem le_ord_of_isIn {ranges : List (Char × Char)} {singles : List Char} {c : PyChar} {n : ℕ}
    (hranges : ranges.all (fun r => n ≤ r.1.toNat) = true)
    (hsingles : singles.all (fun s => n ≤ s.toNat) = true)
    (h : c.isIn ranges singles = true) : n ≤ c.ord := by
  rcases Bool.or_eq_true_iff.mp h with h | h
  · obtain ⟨r, hr, hc⟩ := List.any_eq_true.mp h
    have hbounds : r.1.toNat ≤ c.ord ∧ c.ord ≤ r.2.toNat := of_decide_eq_true hc
    exact (of_decide_eq_true (List.all_eq_true.mp hranges r hr)).trans hbounds.1
  · obtain ⟨s, hs, hc⟩ := List.any_eq_true.mp h
    rw [of_decide_eq_true hc]
    exact of_decide_eq_true (List.all_eq_true.mp hsingles s hs)

/-- A smaller class. -/
theorem isIn_mono {ranges ranges' : List (Char × Char)} {singles singles' : List Char} {c : PyChar}
    (hranges : ranges ⊆ ranges') (hsingles : singles ⊆ singles')
    (h : c.isIn ranges singles = true) : c.isIn ranges' singles' = true := by
  rcases Bool.or_eq_true_iff.mp h with h | h
  · obtain ⟨r, hr, hc⟩ := List.any_eq_true.mp h
    exact Bool.or_eq_true_iff.mpr (Or.inl (List.any_eq_true.mpr ⟨r, hranges hr, hc⟩))
  · obtain ⟨s, hs, hc⟩ := List.any_eq_true.mp h
    exact Bool.or_eq_true_iff.mpr (Or.inr (List.any_eq_true.mpr ⟨s, hsingles hs, hc⟩))

/-- What `encode` makes of one code point. -/
def scalar? : PyChar → Option Char
  | .scalar c => some c
  | .surrogate _ => none

/-- An ASCII character is the one of its code point. -/
theorem eq_ofNat_ord {c : PyChar} (h : c.ord < 128) : c = .scalar (Char.ofNat c.ord) := by
  cases c with
  | scalar c => rw [ord, Char.ofNat_toNat]
  | surrogate n =>
      rw [ord] at h
      omega

/-- `c.isspace()`. -/
def isSpace (c : PyChar) : Bool :=
  c.isIn [(Char.ofNat 9, Char.ofNat 13), (Char.ofNat 28, ' '), (Char.ofNat 0x2000, Char.ofNat 0x200A),
      (Char.ofNat 0x2028, Char.ofNat 0x2029)]
    [Char.ofNat 0x85, Char.ofNat 0xA0, Char.ofNat 0x1680, Char.ofNat 0x202F, Char.ofNat 0x205F,
      Char.ofNat 0x3000]

/-- A printable ASCII character is no space. -/
theorem isSpace_of_between {c : PyChar} (h : c.between '!' '~' = true) : c.isSpace = false := by
  have hbounds : 33 ≤ c.ord ∧ c.ord ≤ 126 := of_decide_eq_true h
  have hout : ∀ lo hi : Char, hi.toNat ≤ 32 ∨ 127 ≤ lo.toNat → c.between lo hi = false := by
    intro lo hi hlohi
    refine decide_eq_false ?_
    omega
  have hne : ∀ s : Char, s.toNat ≤ 32 ∨ 127 ≤ s.toNat → c ≠ .scalar s := by
    rintro s hs rfl
    simp only [ord] at hbounds
    omega
  simp only [isSpace, isIn, List.any_cons, List.any_nil]
  rw [hout _ _ (by decide), hout _ _ (by decide), hout _ _ (by decide), hout _ _ (by decide),
    decide_eq_false (hne _ (by decide)), decide_eq_false (hne _ (by decide)),
    decide_eq_false (hne _ (by decide)), decide_eq_false (hne _ (by decide)),
    decide_eq_false (hne _ (by decide)), decide_eq_false (hne _ (by decide))]
  rfl

/-- `c.lower()` of an ASCII character. -/
def asciiLower (c : PyChar) : PyChar :=
  if c.between 'A' 'Z' then .scalar (Char.ofNat (c.ord + 32)) else c

end PyChar

/-- A Python `str`. -/
abbrev Str := List PyChar

instance : LawfulBEq Str := inferInstanceAs (LawfulBEq (List PyChar))

/-- A Python `bytes`. -/
abbrev Bytes := List UInt8

namespace Str

/-- The text of a literal. -/
def ofString (s : String) : Str := s.toList.map .scalar

instance : Coe String Str := ⟨ofString⟩

/-- `s.isascii()`. -/
def isAscii (s : Str) : Bool := s.all fun c => c.ord < 128

/-- `s.split()`. -/
def splitSpace (s : Str) : List Str := (s.splitOnP PyChar.isSpace).filter (· ≠ [])

/-- `s.strip()`. -/
def strip (s : Str) : Str := (s.dropWhile PyChar.isSpace).rdropWhile PyChar.isSpace

/-- Text without spaces is not stripped. -/
theorem strip_eq_self {s : Str} (h : ∀ c ∈ s, PyChar.isSpace c = false) : s.strip = s := by
  have hdrop : s.dropWhile PyChar.isSpace = s := by
    refine List.dropWhile_eq_self_iff.mpr fun hlen => ?_
    simp [h _ (List.getElem_mem hlen)]
  rw [strip, hdrop]
  refine List.rdropWhile_eq_self_iff.mpr fun hne => ?_
  simp [h _ (List.getLast_mem hne)]

/-- `s.encode("utf-8")`; `none` is a `UnicodeEncodeError`. -/
def encode? (s : Str) : Option Bytes :=
  (s.mapM PyChar.scalar?).map fun cs => cs.flatMap String.utf8EncodeChar

/-- `bytes(...).decode("utf-8")`; `none` is a `UnicodeDecodeError`. -/
def decode? (bs : Bytes) : Option Str :=
  bs.toByteArray.utf8Decode?.map fun cs => cs.toList.map .scalar

/-- `int(s)` of ASCII digits. -/
def digitsValue (s : Str) : ℕ := Nat.ofDigitChars 10 (s.filterMap PyChar.scalar?) 0

/-- `s.partition(sep)` of one character: what stands before it, and what stands after it
if it is there. -/
def partition (sep : PyChar) (s : Str) : Str × Option Str :=
  let head := s.takeWhile (· ≠ sep)
  (head, if head.length < s.length then some (s.drop (head.length + 1)) else none)

/-- `re.fullmatch` of one class for the first character and one, repeated at most
`most` times, for the rest. -/
def fullmatch (first rest : PyChar → Bool) (most : ℕ) : Str → Bool
  | [] => false
  | c :: cs => first c && cs.length ≤ most && cs.all rest

/-- Decoding undoes encoding. -/
theorem decode?_of_encode? {s : Str} {bs : Bytes} (h : s.encode? = some bs) :
    decode? bs = some s := by
  obtain ⟨cs, hcs, rfl⟩ := Option.map_eq_some_iff.mp h
  have hdecode : (cs.flatMap String.utf8EncodeChar).toByteArray.utf8Decode? = some cs.toArray :=
    List.utf8Decode?_utf8Encode
  have hs : s = cs.map .scalar := by
    clear h hdecode
    induction s generalizing cs with
    | nil =>
        cases hcs
        rfl
    | cons c s ih =>
        rw [List.mapM_cons] at hcs
        obtain ⟨x, hx, hrest⟩ := Option.bind_eq_some_iff.mp hcs
        obtain ⟨xs, hxs, hcons⟩ := Option.bind_eq_some_iff.mp hrest
        cases hcons
        cases c with
        | scalar c =>
            cases hx
            rw [List.map_cons, ← ih xs hxs]
        | surrogate n => cases hx
  rw [decode?, hdecode, hs]
  rfl

theorem ord_lt_of_isAscii {s : Str} (h : s.isAscii = true) : ∀ c ∈ s, c.ord < 128 := by
  simpa [isAscii] using h

theorem isAscii_iff {s : Str} : s.isAscii = true ↔ ∀ c ∈ s, c.ord < 128 := by
  simp [isAscii]

/-- ASCII text is one byte a character. -/
theorem encode?_ascii {s : Str} (h : s.isAscii = true) :
    s.encode? = some (s.map fun c => UInt8.ofNat c.ord) := by
  induction s with
  | nil => rfl
  | cons c s ih =>
      have hc := ord_lt_of_isAscii h c List.mem_cons_self
      have hs : isAscii s = true := by
        simp only [isAscii, List.all_cons, Bool.and_eq_true] at h
        exact h.2
      obtain ⟨cs, hcs, hbytes⟩ := Option.map_eq_some_iff.mp (ih hs)
      cases c with
      | surrogate n =>
          simp only [PyChar.ord] at hc
          omega
      | scalar c =>
          have hval : c.val.toNat ≤ 127 := Nat.le_of_lt_succ hc
          have hbyte : String.utf8EncodeChar c = [UInt8.ofNat c.toNat] := by
            simp only [String.utf8EncodeChar]
            rw [if_pos hval]
            rfl
          simp [encode?, PyChar.scalar?, hcs, List.mapM_cons, hbytes, hbyte, PyChar.ord]

/-- The character of a byte of ASCII text. -/
def ofByte (b : UInt8) : PyChar := .scalar (Char.ofNat b.toNat)

theorem ofByte_ord {c : PyChar} (h : c.ord < 128) : ofByte (UInt8.ofNat c.ord) = c := by
  cases c with
  | surrogate n =>
      simp only [PyChar.ord] at h
      omega
  | scalar c =>
      have hmod : c.toNat % 256 = c.toNat := Nat.mod_eq_of_lt (h.trans (by decide))
      simp [ofByte, PyChar.ord, hmod]

theorem map_ofByte {s : Str} (h : s.isAscii = true) :
    (s.map fun c => UInt8.ofNat c.ord).map ofByte = s := by
  rw [List.map_map]
  refine (List.map_congr_left fun c hc => ?_).trans s.map_id
  exact ofByte_ord (ord_lt_of_isAscii h c hc)

/-- Encoding is injective. -/
theorem encode?_inj {s t : Str} {bs : Bytes} (hs : s.encode? = some bs) (ht : t.encode? = some bs) :
    s = t :=
  Option.some.inj ((decode?_of_encode? hs).symm.trans (decode?_of_encode? ht))

/-- Words with single spaces between them are split again. -/
theorem splitSpace_intercalate {words : List Str}
    (h : ∀ w ∈ words, w ≠ [] ∧ ∀ c ∈ w, c.isSpace = false) :
    splitSpace ([.scalar ' '].intercalate words) = words := by
  induction words with
  | nil => rfl
  | cons w rest ih =>
      obtain ⟨⟨hne, hw⟩, hrest⟩ := List.forall_mem_cons.mp h
      cases rest with
      | nil =>
          simp [splitSpace, List.splitOnP_eq_singleton hw, hne]
      | cons w' rest =>
          have ih := ih hrest
          have hspace : PyChar.isSpace (.scalar ' ') = true := by decide
          rw [splitSpace] at ih ⊢
          rw [List.intercalate_cons_cons, List.append_assoc, List.singleton_append,
            List.splitOnP_append_cons_of_forall_mem hw _ hspace, List.filter_cons_of_pos (by simp [hne]), ih]

/-- What holds of both classes holds of every character. -/
theorem forall_of_fullmatch {first rest : PyChar → Bool} {most : ℕ} {s : Str} {p : PyChar → Prop}
    (hfirst : ∀ c, first c = true → p c) (hrest : ∀ c, rest c = true → p c)
    (h : s.fullmatch first rest most = true) : s.length ≤ most + 1 ∧ ∀ c ∈ s, p c := by
  cases s with
  | nil => cases h
  | cons c s =>
      simp only [fullmatch, Bool.and_eq_true, decide_eq_true_eq, List.all_eq_true] at h
      refine ⟨Nat.succ_le_succ h.1.2, fun d hd => ?_⟩
      rcases List.mem_cons.mp hd with rfl | hd
      · exact hfirst d h.1.1
      · exact hrest d (h.2 d hd)

theorem fullmatch_mono {first first' rest rest' : PyChar → Bool} {most most' : ℕ} {s : Str}
    (hfirst : ∀ c, first c = true → first' c = true) (hrest : ∀ c, rest c = true → rest' c = true)
    (hmost : most ≤ most') (h : s.fullmatch first rest most = true) :
    s.fullmatch first' rest' most' = true := by
  cases s with
  | nil => cases h
  | cons c s =>
      simp only [fullmatch, Bool.and_eq_true, decide_eq_true_eq, List.all_eq_true] at h ⊢
      exact ⟨⟨hfirst c h.1.1, h.1.2.trans hmost⟩, fun d hd => hrest d (h.2 d hd)⟩

theorem fullmatch_self {cls : PyChar → Bool} {most : ℕ} {s : Str} :
    s.fullmatch cls cls most = true ↔ s ≠ [] ∧ s.length ≤ most + 1 ∧ ∀ c ∈ s, cls c = true := by
  cases s with
  | nil => simp [fullmatch]
  | cons c s => simp [fullmatch]; tauto

theorem partition_append {sep : PyChar} {s t : Str} (h : sep ∉ s) :
    (s ++ sep :: t).partition sep = (s, some t) := by
  have hhead : (s ++ sep :: t).takeWhile (· ≠ sep) = s := by
    have hne : ∀ c ∈ s, decide (c ≠ sep) = true := by
      rintro c hc
      exact decide_eq_true fun heq => h (heq ▸ hc)
    rw [List.takeWhile_append_of_pos hne]
    simp
  have hlen : s.length < (s ++ sep :: t).length := by simp
  have hdrop : (s ++ sep :: t).drop (s.length + 1) = t := by simp
  simp only [partition, hhead, if_pos hlen, hdrop]

end Str

/-! ## Parts joined by a separator -/

section Joined

variable {α : Type} {sep : α}

/-- `longer` starts with `first` and `second`, and ends there or goes on with a separator. -/
def Continues (sep : α) (first second longer : List α) : Prop :=
  ∃ rest, longer = first ++ sep :: second ++ rest ∧ (rest = [] ∨ ∃ more, rest = sep :: more)

/-- What stands before the first separator of a text. -/
theorem append_sep_inj {b b' c c' : List α} (hb : sep ∉ b) (hb' : sep ∉ b')
    (h : b ++ sep :: c = b' ++ sep :: c') : b = b' ∧ c = c' := by
  induction b generalizing b' with
  | nil =>
      cases b' with
      | nil => exact ⟨rfl, (List.cons.inj h).2⟩
      | cons x b' =>
          obtain ⟨rfl, -⟩ := List.cons.inj h
          exact absurd List.mem_cons_self hb'
  | cons x b ih =>
      cases b' with
      | nil =>
          obtain ⟨rfl, -⟩ := List.cons.inj h
          exact absurd List.mem_cons_self hb
      | cons y b' =>
          obtain ⟨rfl, htail⟩ := List.cons.inj h
          obtain ⟨rfl, rfl⟩ :=
            ih (List.not_mem_of_not_mem_cons hb) (List.not_mem_of_not_mem_cons hb') htail
          exact ⟨rfl, rfl⟩

/-- A longer first part takes the second part of the other message with it. -/
theorem continues_of_append {a b c x b' c' : List α} (hb : sep ∉ b) (hx : x ≠ [])
    (h : a ++ sep :: b ++ sep :: c = a ++ x ++ sep :: b' ++ sep :: c') :
    Continues sep a b (a ++ x) := by
  simp only [List.append_assoc, List.cons_append, List.append_cancel_left_eq] at h
  cases x with
  | nil => exact absurd rfl hx
  | cons y x =>
      rw [List.cons_append] at h
      obtain ⟨rfl, htail⟩ := List.cons.inj h
      by_cases hmem : sep ∈ x
      · -- the first separator inside `x` is the one after `b`
        obtain ⟨u, v, rfl, hu⟩ := List.eq_append_cons_of_mem hmem
        rw [List.append_assoc, List.cons_append] at htail
        obtain ⟨rfl, -⟩ := append_sep_inj hb hu htail
        exact ⟨sep :: v, by simp, Or.inr ⟨v, rfl⟩⟩
      · obtain ⟨rfl, -⟩ := append_sep_inj hb hmem htail
        exact ⟨[], by simp, Or.inl rfl⟩

/-- Two joined texts are equal in all three parts, or one first part continues the other. -/
theorem append_sep_sep_cases {a b c a' b' c' : List α} (hb : sep ∉ b) (hb' : sep ∉ b')
    (h : a ++ sep :: b ++ sep :: c = a' ++ sep :: b' ++ sep :: c') :
    (a = a' ∧ b = b' ∧ c = c') ∨ Continues sep a b a' ∨ Continues sep a' b' a := by
  have hsplit := h
  rw [List.append_assoc, List.append_assoc, List.append_eq_append_iff] at hsplit
  rcases hsplit with ⟨x, rfl, -⟩ | ⟨x, rfl, -⟩
  · rcases eq_or_ne x [] with rfl | hx
    · simp only [List.append_nil, List.append_assoc, List.append_cancel_left_eq,
        List.cons_append] at h ⊢
      obtain ⟨-, h⟩ := List.cons.inj h
      exact Or.inl ⟨trivial, append_sep_inj hb hb' h⟩
    · exact Or.inr (Or.inl (continues_of_append hb hx h))
  · rcases eq_or_ne x [] with rfl | hx
    · simp only [List.append_nil, List.append_assoc, List.append_cancel_left_eq,
        List.cons_append] at h ⊢
      obtain ⟨-, h⟩ := List.cons.inj h
      exact Or.inl ⟨trivial, append_sep_inj hb hb' h⟩
    · exact Or.inr (Or.inr (continues_of_append hb' hx h.symm))

/-- A text that continues another can be joined to the same text. -/
theorem Continues.exists_eq {a b a' : List α} (h : Continues sep a b a') (b' c' : List α) :
    ∃ c, a ++ sep :: b ++ sep :: c = a' ++ sep :: b' ++ sep :: c' := by
  rcases h with ⟨rest, rfl, rfl | ⟨more, rfl⟩⟩
  · exact ⟨b' ++ sep :: c', by simp⟩
  · exact ⟨more ++ sep :: b' ++ sep :: c', by simp⟩

theorem Continues.map {β : Type} {a b a' : List α} (h : Continues sep a b a') (f : α → β) :
    Continues (f sep) (a.map f) (b.map f) (a'.map f) := by
  rcases h with ⟨rest, rfl, rfl | ⟨more, rfl⟩⟩
  · exact ⟨[], by simp, Or.inl rfl⟩
  · exact ⟨f sep :: more.map f, by simp, Or.inr ⟨_, rfl⟩⟩

/-- A text without separators continues nothing. -/
theorem Continues.mem {a b a' : List α} (h : Continues sep a b a') : sep ∈ a' := by
  rcases h with ⟨rest, rfl, -⟩
  simp

theorem Continues.ne {a b a' : List α} (h : Continues sep a b a') : a ≠ a' := by
  rintro rfl
  rcases h with ⟨rest, h, -⟩
  have hlen := congrArg List.length h
  simp at hlen

end Joined

/-- `hmac.new(key, message, hash).digest()` of a hash with blocks of 64 bytes. -/
def hmacDigest (hash : Bytes → Vector UInt8 32) (key message : Bytes) : Vector UInt8 32 :=
  let short := if 64 < key.length then (hash key).toList else key
  let block := short ++ List.replicate (64 - short.length) 0
  hash (block.map (· ^^^ 0x5C) ++ (hash (block.map (· ^^^ 0x36) ++ message)).toList)

end Python
