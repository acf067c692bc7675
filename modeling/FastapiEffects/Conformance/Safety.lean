import FastapiEffects.Python.Equal
import FastapiEffects.Python.Members
import FastapiEffects.Sqlalchemy.Canonical

/-! # Safe evidence

`safe_json`: what a conformance report keeps of arbitrary evidence. Texts are cleaned and cut,
containers are cut, members with sensitive names are redacted, and nothing is deeper than a bound.
What it leaves it leaves alone the next time, unless a container had to be cut.
-/

namespace FastapiEffects

open Python

/-! ## Texts and names -/

/-- `_CONTROL`. -/
def isUnsafeControl (c : PyChar) : Bool :=
  c.ord ≤ 8 ∨ c.ord = 11 ∨ c.ord = 12 ∨ (14 ≤ c.ord ∧ c.ord ≤ 31) ∨ c.ord = 127

/-- `clean_text`. -/
def cleanText (value : Str) (maximum : ℕ := 2048) : Str :=
  (value.map fun c => if isUnsafeControl c then .scalar ' ' else c).take maximum

/-- The words of `_SENSITIVE`, those with a separator that may be left out in each spelling. -/
def sensitiveWords : List String :=
  ["authorization", "cookie", "password", "passwd", "secret", "token", "signature",
    "private_key", "private-key", "privatekey", "api_key", "api-key", "apikey",
    "refresh_token", "refresh-token", "refreshtoken", "access_token", "access-token",
    "accesstoken", "session"]

/-- Whether a character matches a letter or separator of the pattern, under `re.IGNORECASE`. -/
def matchesLetter (letter : Char) (c : PyChar) : Bool :=
  c.asciiLower = .scalar letter ∨ (letter = 'i' ∧ (c.ord = 0x130 ∨ c.ord = 0x131)) ∨
    (letter = 's' ∧ c.ord = 0x17F) ∨ (letter = 'k' ∧ c.ord = 0x212A)

/-- `[_-]`. -/
def isSeparator (c : PyChar) : Bool := c = .scalar '_' ∨ c = .scalar '-'

/-- Whether a word stands at the start of a text, with `([_-]|$)` after it. -/
def wordStarts : List Char → Str → Bool
  | [], rest => rest = [] ∨ rest = [.scalar '\n'] ∨ rest.head?.any isSeparator
  | _ :: _, [] => false
  | letter :: word, c :: rest => matchesLetter letter c && wordStarts word rest

/-- `_SENSITIVE.search`, from a place where a word may start or not. -/
def searchSensitive (start : Bool) : Str → Bool
  | [] => start && sensitiveWords.any fun word => wordStarts word.toList []
  | c :: rest => (start && sensitiveWords.any fun word => wordStarts word.toList (c :: rest)) ||
      searchSensitive (isSeparator c) rest

/-- `_SAFE_SENSITIVE_NAMES`. -/
def safeSensitiveNames : List Str := ["key_id", "credential_ref", "secret_set_id", "token_id"]

section Names

variable [Platform]

/-- `is_sensitive_key`. -/
def isSensitiveKey (key : Str) : Bool :=
  let normalized := Platform.lower key
  normalized ∉ safeSensitiveNames ∧ searchSensitive true normalized

end Names

open Checksum in
example : isSensitiveKey "X-Api-Key" = true ∧ isSensitiveKey "tokens" = false ∧
    isSensitiveKey "token_id" = false := by decide +kernel

/-! ## Evidence -/

/-- A Python object as `safe_json` tells them apart, by the first of its tests that holds. -/
inductive Evidence where
  | none
  | bool (b : Bool)
  | int (n : ℤ)
  | float (x : PyFloat)
  | str (s : Str)
  /-- `bytes`, `bytearray` or `memoryview`, by its length -/
  | bytes (length : ℕ)
  /-- a date by its `isoformat`, or a `UUID` or a `Path` by its `str` -/
  | text (s : Str)
  /-- a member of an `Enum`, by its value -/
  | enum (value : Evidence)
  /-- an instance of a dataclass, by the items of its `asdict` -/
  | dataclass (fields : List (Str × Evidence))
  /-- a `Mapping`, by its items with the `str` of each key -/
  | mapping (items : List (Str × Evidence))
  | sequence (items : List Evidence)
  /-- another object, by the module and the name of its type -/
  | other (typeName : Str)

/-- What stands for bytes of a length. -/
def bytesText (length : ℕ) : Str := Str.ofChars ('<' :: intText length ++ " bytes>".toList)

/-- `_MAX_DEPTH` and `_MAX_ITEMS`. -/
def maxEvidenceDepth : ℕ := 8
def maxEvidenceItems : ℕ := 128

/-- `"<maximum-depth>"`. -/
def tooDeep : Json := .str "<maximum-depth>"

/-- The first test of `safe_json`. -/
def withinDepth (depth : ℕ) (value : Json) : Json :=
  if maxEvidenceDepth < depth then tooDeep else value

/-- The member that counts `rest` members that are left out. -/
def truncated (rest : ℕ) : List (Str × Json) :=
  if 0 < rest then [("<truncated>", .int rest)] else []

/-- The item that counts `rest` items that are left out. -/
def moreItems (rest : ℕ) : List Json :=
  if 0 < rest then [.str (Str.ofChars ('<' :: intText rest ++ " more items>".toList))] else []

/-- The members of a mapping that are kept, of those that have been made safe: a key that comes
again takes its last value, and the last member counts what is left out. -/
def safeMapping (members : List (Str × Json)) : Json :=
  .obj (dictOf (members.take maxEvidenceItems ++ truncated (members.length - maxEvidenceItems)))

/-- The items of a sequence that are kept. -/
def safeSequence (items : List Json) : Json :=
  .arr (items.take maxEvidenceItems ++ moreItems (items.length - maxEvidenceItems))

section Safe

variable [Platform]

mutual

/-- `safe_json`. -/
def safeJson (depth : ℕ) : Evidence → Json
  | .none => withinDepth depth .null
  | .bool b => withinDepth depth (.bool b)
  | .int n => withinDepth depth (.int n)
  | .float x => withinDepth depth (if x.isfinite then .float x else .str "<non-finite>")
  | .str s => withinDepth depth (.str (cleanText s))
  | .bytes length => withinDepth depth (.str (bytesText length))
  | .text s => withinDepth depth (.str s)
  | .enum value => withinDepth depth (safeJson (depth + 1) value)
  | .dataclass fields =>
      withinDepth depth (withinDepth (depth + 1) (safeMapping (safeMembers (depth + 2) fields)))
  | .mapping items => withinDepth depth (safeMapping (safeMembers (depth + 1) items))
  | .sequence items => withinDepth depth (safeSequence (safeItems (depth + 1) items))
  | .other typeName => withinDepth depth (.str ("<" ++ typeName ++ ">"))

def safeMembers (depth : ℕ) : List (Str × Evidence) → List (Str × Json)
  | [] => []
  | (rawKey, item) :: rest =>
      let key := cleanText rawKey 128
      (key, if isSensitiveKey key then .str "<redacted>" else safeJson depth item) ::
        safeMembers depth rest

def safeItems (depth : ℕ) : List Evidence → List Json
  | [] => []
  | item :: rest => safeJson depth item :: safeItems depth rest

end

end Safe

mutual

/-- What `json.loads` returns, as evidence. -/
def Evidence.ofJson : Json → Evidence
  | .null => .none
  | .bool b => .bool b
  | .int n => .int n
  | .float x => .float x
  | .str s => .str s
  | .arr items => .sequence (ofJsonItems items)
  | .obj members => .mapping (ofJsonMembers members)

def Evidence.ofJsonItems : List Json → List Evidence
  | [] => []
  | x :: xs => Evidence.ofJson x :: ofJsonItems xs

def Evidence.ofJsonMembers : List (Str × Json) → List (Str × Evidence)
  | [] => []
  | (key, x) :: rest => (key, Evidence.ofJson x) :: ofJsonMembers rest

end

mutual

/-- No container has more entries than are kept, and `clean_text` would leave the texts alone that
`safe_json` does not clean. -/
def Evidence.Bounded : Evidence → Prop
  | .bytes length => cleanText (bytesText length) = bytesText length
  | .text s => cleanText s = s
  | .enum value => value.Bounded
  | .dataclass fields => fields.length ≤ maxEvidenceItems ∧ BoundedMembers fields
  | .mapping items => items.length ≤ maxEvidenceItems ∧ BoundedMembers items
  | .sequence items => items.length ≤ maxEvidenceItems ∧ BoundedItems items
  | .other typeName => cleanText ("<" ++ typeName ++ ">") = "<" ++ typeName ++ ">"
  | _ => True

def Evidence.BoundedMembers : List (Str × Evidence) → Prop
  | [] => True
  | (_, item) :: rest => item.Bounded ∧ BoundedMembers rest

def Evidence.BoundedItems : List Evidence → Prop
  | [] => True
  | item :: rest => item.Bounded ∧ BoundedItems rest

end

/-! ## What is left -/

section Left

variable [Platform]

mutual

/-- What `safe_json` leaves at a depth, whatever it is given: finite numbers, containers with few
entries and none too deep, names that are clean, and no value under a sensitive one. -/
def SafeAt (depth : ℕ) : Json → Prop
  | .float x => x.isfinite = true
  | .arr items => depth ≤ maxEvidenceDepth ∧ items.length ≤ maxEvidenceItems + 1 ∧
      SafeItemsAt (depth + 1) items
  | .obj members => depth ≤ maxEvidenceDepth ∧ members.length ≤ maxEvidenceItems + 1 ∧
      (members.map Prod.fst).Nodup ∧ SafeMembersAt (depth + 1) members
  | _ => True

def SafeItemsAt (depth : ℕ) : List Json → Prop
  | [] => True
  | x :: xs => SafeAt depth x ∧ SafeItemsAt depth xs

def SafeMembersAt (depth : ℕ) : List (Str × Json) → Prop
  | [] => True
  | (key, x) :: rest => (cleanText key 128 = key ∧
      (isSensitiveKey key = true → x = .str "<redacted>") ∧ SafeAt depth x) ∧
        SafeMembersAt depth rest

end

mutual

/-- What `safe_json` leaves alone at a depth. -/
def StableAt (depth : ℕ) : Json → Prop
  | .str s => (maxEvidenceDepth < depth → s = "<maximum-depth>") ∧ cleanText s = s
  | .float x => depth ≤ maxEvidenceDepth ∧ x.isfinite = true
  | .arr items => depth ≤ maxEvidenceDepth ∧ items.length ≤ maxEvidenceItems ∧
      StableItemsAt (depth + 1) items
  | .obj members => depth ≤ maxEvidenceDepth ∧ members.length ≤ maxEvidenceItems ∧
      (members.map Prod.fst).Nodup ∧ StableMembersAt (depth + 1) members
  | _ => depth ≤ maxEvidenceDepth

def StableItemsAt (depth : ℕ) : List Json → Prop
  | [] => True
  | x :: xs => StableAt depth x ∧ StableItemsAt depth xs

def StableMembersAt (depth : ℕ) : List (Str × Json) → Prop
  | [] => True
  | (key, x) :: rest => (cleanText key 128 = key ∧
      if isSensitiveKey key then x = .str "<redacted>" else StableAt depth x) ∧
        StableMembersAt depth rest

end

theorem safeItemsAt_iff {depth : ℕ} {items : List Json} :
    SafeItemsAt depth items ↔ ∀ x ∈ items, SafeAt depth x := by
  induction items with
  | nil => simp [SafeItemsAt]
  | cons x xs ih => simp [SafeItemsAt, ih]

theorem safeMembersAt_iff {depth : ℕ} {members : List (Str × Json)} :
    SafeMembersAt depth members ↔ ∀ m ∈ members, cleanText m.1 128 = m.1 ∧
      (isSensitiveKey m.1 = true → m.2 = .str "<redacted>") ∧ SafeAt depth m.2 := by
  induction members with
  | nil => simp [SafeMembersAt]
  | cons m ms ih =>
      obtain ⟨key, x⟩ := m
      simp [SafeMembersAt, ih]

theorem stableItemsAt_iff {depth : ℕ} {items : List Json} :
    StableItemsAt depth items ↔ ∀ x ∈ items, StableAt depth x := by
  induction items with
  | nil => simp [StableItemsAt]
  | cons x xs ih => simp [StableItemsAt, ih]

theorem stableMembersAt_iff {depth : ℕ} {members : List (Str × Json)} :
    StableMembersAt depth members ↔ ∀ m ∈ members, cleanText m.1 128 = m.1 ∧
      if isSensitiveKey m.1 then m.2 = .str "<redacted>" else StableAt depth m.2 := by
  induction members with
  | nil => simp [StableMembersAt]
  | cons m ms ih =>
      obtain ⟨key, x⟩ := m
      simp [StableMembersAt, ih]

/-! ## Cleaning -/

omit [Platform] in
/-- A clean text is short and has none of the controls. -/
theorem cleanText_eq_self {s : Str} {maximum : ℕ} : cleanText s maximum = s ↔
    s.length ≤ maximum ∧ ∀ c ∈ s, isUnsafeControl c = false := by
  have hspace : isUnsafeControl (.scalar ' ') = false := by decide
  unfold cleanText
  constructor
  · intro h
    have hlength := congrArg List.length h
    rw [List.length_take, List.length_map, min_eq_right_iff] at hlength
    refine ⟨hlength, ?_⟩
    rw [List.take_of_length_le (by rwa [List.length_map])] at h
    intro c hc
    have hclean := List.map_inj_left.mp (h.trans (List.map_id s).symm) c hc
    by_contra hunsafe
    rw [if_pos (Bool.of_not_eq_false hunsafe)] at hclean
    rw [← show PyChar.scalar ' ' = c from hclean] at hunsafe
    exact hunsafe hspace
  · rintro ⟨hlength, hclean⟩
    rw [List.take_of_length_le (by rwa [List.length_map])]
    refine (List.map_congr_left fun c hc => ?_).trans (List.map_id s)
    rw [hclean c hc]
    rfl

omit [Platform] in
theorem cleanText_cleanText (s : Str) (maximum : ℕ) :
    cleanText (cleanText s maximum) maximum = cleanText s maximum := by
  have hspace : isUnsafeControl (.scalar ' ') = false := by decide
  refine cleanText_eq_self.mpr ⟨?_, ?_⟩
  · exact List.length_take_le _ _
  · intro c hc
    obtain ⟨d, -, rfl⟩ := List.mem_map.mp (List.mem_of_mem_take hc)
    split_ifs with hunsafe
    · exact hspace
    · exact Bool.of_not_eq_true hunsafe

/-! ## What is left is safe -/

/-- The name of the member that counts what is left out is no sensitive one. -/
theorem isSensitiveKey_truncated : isSensitiveKey "<truncated>" = false := by
  have hlower : Platform.lower "<truncated>" = "<truncated>" := by
    rw [Platform.lower_ascii _ (by decide)]
    decide
  rw [isSensitiveKey, hlower]
  decide +kernel

theorem safeJson_of_deep {depth : ℕ} (h : maxEvidenceDepth < depth) (e : Evidence) :
    safeJson depth e = tooDeep := by
  cases e <;> exact if_pos h

mutual

/-- What is safe below a depth is safe there. -/
theorem SafeAt.of_succ : ∀ (v : Json) {depth : ℕ}, SafeAt (depth + 1) v → SafeAt depth v
  | .null, _, _ | .bool _, _, _ | .int _, _, _ | .str _, _, _ => trivial
  | .float _, _, h => h
  | .arr items, _, h => ⟨Nat.le_of_succ_le h.1, h.2.1, safeItemsAt_of_succ items h.2.2⟩
  | .obj members, _, h =>
      ⟨Nat.le_of_succ_le h.1, h.2.1, h.2.2.1, safeMembersAt_of_succ members h.2.2.2⟩

theorem safeItemsAt_of_succ : ∀ (items : List Json) {depth : ℕ},
    SafeItemsAt (depth + 1) items → SafeItemsAt depth items
  | [], _, h => h
  | x :: xs, _, h => ⟨SafeAt.of_succ x h.1, safeItemsAt_of_succ xs h.2⟩

theorem safeMembersAt_of_succ : ∀ (members : List (Str × Json)) {depth : ℕ},
    SafeMembersAt (depth + 1) members → SafeMembersAt depth members
  | [], _, h => h
  | (_, x) :: rest, _, h =>
      ⟨⟨h.1.1, h.1.2.1, SafeAt.of_succ x h.1.2.2⟩, safeMembersAt_of_succ rest h.2⟩

end

theorem withinDepth_safeAt {depth : ℕ} {v : Json}
    (h : depth ≤ maxEvidenceDepth → SafeAt depth v) : SafeAt depth (withinDepth depth v) := by
  unfold withinDepth
  split_ifs with hdepth
  · trivial
  · exact h (Nat.le_of_not_lt hdepth)

theorem safeMapping_safeAt {depth : ℕ} {members : List (Str × Json)}
    (hdepth : depth ≤ maxEvidenceDepth) (h : SafeMembersAt (depth + 1) members) :
    SafeAt depth (safeMapping members) := by
  have htake : (members.take maxEvidenceItems).length ≤ maxEvidenceItems :=
    List.length_take_le _ _
  have htruncated : ∀ rest, (truncated rest).length ≤ 1 := by
    intro rest
    unfold truncated
    split_ifs <;> simp
  have hlength := length_dictOf_le (members.take maxEvidenceItems ++
    truncated (members.length - maxEvidenceItems))
  rw [List.length_append] at hlength
  refine ⟨hdepth, ?_, nodup_dictOf _, safeMembersAt_iff.mpr fun m hm => ?_⟩
  · exact hlength.trans (Nat.add_le_add htake (htruncated _))
  · rcases List.mem_append.mp (mem_of_mem_dictOf hm) with hkept | hcount
    · exact safeMembersAt_iff.mp h m (List.mem_of_mem_take hkept)
    · unfold truncated at hcount
      split_ifs at hcount
      · have hclean : cleanText "<truncated>" 128 = "<truncated>" := by decide
        rw [List.mem_singleton.mp hcount]
        refine ⟨hclean, fun hsensitive => ?_, trivial⟩
        rw [isSensitiveKey_truncated] at hsensitive
        cases hsensitive
      · cases hcount

omit [Platform] in
theorem moreItems_length_le (rest : ℕ) : (moreItems rest).length ≤ 1 := by
  unfold moreItems
  split_ifs <;> simp

theorem safeSequence_safeAt {depth : ℕ} {items : List Json}
    (hdepth : depth ≤ maxEvidenceDepth) (h : SafeItemsAt (depth + 1) items) :
    SafeAt depth (safeSequence items) := by
  have htake : (items.take maxEvidenceItems).length ≤ maxEvidenceItems :=
    List.length_take_le _ _
  refine ⟨hdepth, ?_, safeItemsAt_iff.mpr fun x hx => ?_⟩
  · rw [List.length_append]
    exact Nat.add_le_add htake (moreItems_length_le _)
  · rcases List.mem_append.mp hx with hkept | hcount
    · exact safeItemsAt_iff.mp h x (List.mem_of_mem_take hkept)
    · unfold moreItems at hcount
      split_ifs at hcount
      · rw [List.mem_singleton.mp hcount]
        trivial
      · cases hcount

mutual

theorem safeJson_safeAt : ∀ (e : Evidence) (depth : ℕ), SafeAt depth (safeJson depth e)
  | .none, _ | .bool _, _ | .int _, _ | .str _, _ | .bytes _, _ | .text _, _ | .other _, _ =>
      withinDepth_safeAt fun _ => trivial
  | .float x, _ => by
      refine withinDepth_safeAt fun _ => ?_
      split_ifs with hfinite
      · exact hfinite
      · trivial
  | .enum value, depth =>
      withinDepth_safeAt fun _ => SafeAt.of_succ _ (safeJson_safeAt value (depth + 1))
  | .dataclass fields, depth => by
      refine withinDepth_safeAt fun _ => SafeAt.of_succ _ (withinDepth_safeAt fun hdepth => ?_)
      exact safeMapping_safeAt hdepth (safeMembers_safeAt fields (depth + 2))
  | .mapping items, depth =>
      withinDepth_safeAt fun hdepth => safeMapping_safeAt hdepth
        (safeMembers_safeAt items (depth + 1))
  | .sequence items, depth =>
      withinDepth_safeAt fun hdepth => safeSequence_safeAt hdepth
        (safeItems_safeAt items (depth + 1))

theorem safeMembers_safeAt : ∀ (members : List (Str × Evidence)) (depth : ℕ),
    SafeMembersAt depth (safeMembers depth members)
  | [], _ => trivial
  | (rawKey, item) :: rest, depth => by
      refine ⟨⟨cleanText_cleanText rawKey 128, fun hsensitive => if_pos hsensitive, ?_⟩,
        safeMembers_safeAt rest depth⟩
      split_ifs
      · trivial
      · exact safeJson_safeAt item depth

theorem safeItems_safeAt : ∀ (items : List Evidence) (depth : ℕ),
    SafeItemsAt depth (safeItems depth items)
  | [], _ => trivial
  | item :: rest, depth => ⟨safeJson_safeAt item depth, safeItems_safeAt rest depth⟩

end

/-! ## What is left is left alone -/

mutual

theorem StableAt.of_succ : ∀ (v : Json) {depth : ℕ}, StableAt (depth + 1) v → StableAt depth v
  | .null, _, h | .bool _, _, h | .int _, _, h => Nat.le_of_succ_le h
  | .str _, _, h => ⟨fun hdeep => h.1 (Nat.lt_succ_of_lt hdeep), h.2⟩
  | .float _, _, h => ⟨Nat.le_of_succ_le h.1, h.2⟩
  | .arr items, _, h => ⟨Nat.le_of_succ_le h.1, h.2.1, stableItemsAt_of_succ items h.2.2⟩
  | .obj members, _, h =>
      ⟨Nat.le_of_succ_le h.1, h.2.1, h.2.2.1, stableMembersAt_of_succ members h.2.2.2⟩

theorem stableItemsAt_of_succ : ∀ (items : List Json) {depth : ℕ},
    StableItemsAt (depth + 1) items → StableItemsAt depth items
  | [], _, h => h
  | x :: xs, _, h => ⟨StableAt.of_succ x h.1, stableItemsAt_of_succ xs h.2⟩

theorem stableMembersAt_of_succ : ∀ (members : List (Str × Json)) {depth : ℕ},
    StableMembersAt (depth + 1) members → StableMembersAt depth members
  | [], _, h => h
  | (key, x) :: rest, depth, h => by
      refine ⟨⟨h.1.1, ?_⟩, stableMembersAt_of_succ rest h.2⟩
      have hvalue := h.1.2
      split_ifs at hvalue ⊢
      · exact hvalue
      · exact StableAt.of_succ x hvalue

end

theorem withinDepth_stableAt {depth : ℕ} {v : Json}
    (h : depth ≤ maxEvidenceDepth → StableAt depth v) : StableAt depth (withinDepth depth v) := by
  unfold withinDepth
  split_ifs with hdepth
  · exact ⟨fun _ => rfl, by decide⟩
  · exact h (Nat.le_of_not_lt hdepth)

/-- A text that is clean is left alone wherever a text is looked at. -/
theorem str_stableAt {depth : ℕ} {s : Str} (hdepth : depth ≤ maxEvidenceDepth)
    (h : cleanText s = s) : StableAt depth (.str s) :=
  ⟨fun hdeep => absurd hdepth (Nat.not_le_of_lt hdeep), h⟩

theorem safeMapping_stableAt {depth : ℕ} {members : List (Str × Json)}
    (hdepth : depth ≤ maxEvidenceDepth) (hlength : members.length ≤ maxEvidenceItems)
    (h : StableMembersAt (depth + 1) members) : StableAt depth (safeMapping members) := by
  have hall : safeMapping members = .obj (dictOf members) := by
    rw [safeMapping, List.take_of_length_le hlength, Nat.sub_eq_zero_of_le hlength]
    exact congrArg _ (congrArg _ (List.append_nil members))
  rw [hall]
  refine ⟨hdepth, (length_dictOf_le members).trans hlength, nodup_dictOf members, ?_⟩
  exact stableMembersAt_iff.mpr fun m hm => stableMembersAt_iff.mp h m (mem_of_mem_dictOf hm)

theorem safeSequence_stableAt {depth : ℕ} {items : List Json}
    (hdepth : depth ≤ maxEvidenceDepth) (hlength : items.length ≤ maxEvidenceItems)
    (h : StableItemsAt (depth + 1) items) : StableAt depth (safeSequence items) := by
  have hall : safeSequence items = .arr items := by
    rw [safeSequence, List.take_of_length_le hlength, Nat.sub_eq_zero_of_le hlength]
    exact congrArg _ (List.append_nil items)
  rw [hall]
  exact ⟨hdepth, hlength, h⟩

theorem length_safeMembers (depth : ℕ) (members : List (Str × Evidence)) :
    (safeMembers depth members).length = members.length := by
  induction members with
  | nil => rfl
  | cons m ms ih => simp [safeMembers, ih]

theorem length_safeItems (depth : ℕ) (items : List Evidence) :
    (safeItems depth items).length = items.length := by
  induction items with
  | nil => rfl
  | cons x xs ih => simp [safeItems, ih]

mutual

/-- Of evidence whose containers are all kept whole, what is left is left alone. -/
theorem safeJson_stableAt : ∀ (e : Evidence) (depth : ℕ), e.Bounded →
    StableAt depth (safeJson depth e)
  | .none, _, _ | .bool _, _, _ | .int _, _, _ => withinDepth_stableAt fun hdepth => hdepth
  | .float x, depth, _ => by
      refine withinDepth_stableAt fun hdepth => ?_
      split_ifs with hfinite
      · exact ⟨hdepth, hfinite⟩
      · exact str_stableAt hdepth (by decide)
  | .str s, _, _ => withinDepth_stableAt fun hdepth => str_stableAt hdepth (cleanText_cleanText s _)
  | .bytes _, _, h | .text _, _, h | .other _, _, h =>
      withinDepth_stableAt fun hdepth => str_stableAt hdepth h
  | .enum value, depth, h =>
      withinDepth_stableAt fun _ => StableAt.of_succ _ (safeJson_stableAt value (depth + 1) h)
  | .dataclass fields, depth, h => by
      refine withinDepth_stableAt fun _ => StableAt.of_succ _
        (withinDepth_stableAt fun hdepth => ?_)
      exact safeMapping_stableAt hdepth (length_safeMembers _ fields ▸ h.1)
        (safeMembers_stableAt fields (depth + 2) h.2)
  | .mapping items, depth, h =>
      withinDepth_stableAt fun hdepth =>
        safeMapping_stableAt hdepth (length_safeMembers _ items ▸ h.1)
          (safeMembers_stableAt items (depth + 1) h.2)
  | .sequence items, depth, h =>
      withinDepth_stableAt fun hdepth =>
        safeSequence_stableAt hdepth (length_safeItems _ items ▸ h.1)
          (safeItems_stableAt items (depth + 1) h.2)

theorem safeMembers_stableAt : ∀ (members : List (Str × Evidence)) (depth : ℕ),
    Evidence.BoundedMembers members → StableMembersAt depth (safeMembers depth members)
  | [], _, _ => trivial
  | (rawKey, item) :: rest, depth, h => by
      refine ⟨⟨cleanText_cleanText rawKey 128, ?_⟩, safeMembers_stableAt rest depth h.2⟩
      split_ifs
      · rfl
      · exact safeJson_stableAt item depth h.1

theorem safeItems_stableAt : ∀ (items : List Evidence) (depth : ℕ),
    Evidence.BoundedItems items → StableItemsAt depth (safeItems depth items)
  | [], _, _ => trivial
  | item :: rest, depth, h => ⟨safeJson_stableAt item depth h.1, safeItems_stableAt rest depth h.2⟩

end

omit [Platform] in
theorem withinDepth_of_le {depth : ℕ} (h : depth ≤ maxEvidenceDepth) (v : Json) :
    withinDepth depth v = v :=
  if_neg (Nat.not_lt_of_le h)

mutual

theorem safeJson_of_stableAt : ∀ (v : Json) {depth : ℕ}, StableAt depth v →
    safeJson depth (Evidence.ofJson v) = v
  | .null, _, h | .bool _, _, h | .int _, _, h => withinDepth_of_le h _
  | .float x, _, h => by
      rw [Evidence.ofJson, safeJson, withinDepth_of_le h.1, if_pos h.2]
  | .str s, depth, h => by
      rw [Evidence.ofJson, safeJson, h.2, withinDepth]
      split_ifs with hdeep
      · rw [h.1 hdeep]
        rfl
      · rfl
  | .arr items, _, h => by
      rw [Evidence.ofJson, safeJson, withinDepth_of_le h.1, safeItems_of_stableAt items h.2.2,
        safeSequence, List.take_of_length_le h.2.1, Nat.sub_eq_zero_of_le h.2.1]
      exact congrArg _ (List.append_nil items)
  | .obj members, _, h => by
      rw [Evidence.ofJson, safeJson, withinDepth_of_le h.1, safeMembers_of_stableAt members h.2.2.2,
        safeMapping, List.take_of_length_le h.2.1, Nat.sub_eq_zero_of_le h.2.1]
      exact congrArg _ ((congrArg _ (List.append_nil members)).trans (dictOf_of_nodup h.2.2.1))

theorem safeMembers_of_stableAt : ∀ (members : List (Str × Json)) {depth : ℕ},
    StableMembersAt depth members → safeMembers depth (Evidence.ofJsonMembers members) = members
  | [], _, _ => rfl
  | (key, x) :: rest, depth, h => by
      have hvalue := h.1.2
      rw [Evidence.ofJsonMembers, safeMembers, safeMembers_of_stableAt rest h.2, h.1.1]
      split_ifs at hvalue with hsensitive
      · rw [if_pos hsensitive, hvalue]
      · rw [if_neg hsensitive, safeJson_of_stableAt x hvalue]

theorem safeItems_of_stableAt : ∀ (items : List Json) {depth : ℕ}, StableItemsAt depth items →
    safeItems depth (Evidence.ofJsonItems items) = items
  | [], _, _ => rfl
  | x :: xs, _, h => by
      rw [Evidence.ofJsonItems, safeItems, safeJson_of_stableAt x h.1, safeItems_of_stableAt xs h.2]

end

mutual

/-- A stable value has every key once, and its numbers are finite. -/
theorem plain_of_stableAt : ∀ (v : Json) {depth : ℕ}, StableAt depth v → v.Plain
  | .null, _, _ | .bool _, _, _ | .int _, _, _ | .str _, _, _ => trivial
  | .float _, _, h => h.2
  | .arr items, _, h => plainItems_of_stableAt items h.2.2
  | .obj members, _, h => ⟨h.2.2.1, plainMembers_of_stableAt members h.2.2.2⟩

theorem plainItems_of_stableAt : ∀ (items : List Json) {depth : ℕ}, StableItemsAt depth items →
    Json.PlainItems items
  | [], _, _ => trivial
  | x :: xs, _, h => ⟨plain_of_stableAt x h.1, plainItems_of_stableAt xs h.2⟩

theorem plainMembers_of_stableAt : ∀ (members : List (Str × Json)) {depth : ℕ},
    StableMembersAt depth members → Json.PlainMembers members
  | [], _, _ => trivial
  | (_, x) :: rest, _, h => by
      have hvalue := h.1.2
      refine ⟨?_, plainMembers_of_stableAt rest h.2⟩
      split_ifs at hvalue
      · rw [hvalue]
        trivial
      · exact plain_of_stableAt x hvalue

end

mutual

/-- The members may stand in any order. -/
theorem stableAt_sorted : ∀ (v : Json) {depth : ℕ}, StableAt depth v → StableAt depth v.sorted
  | .null, _, h | .bool _, _, h | .int _, _, h | .str _, _, h | .float _, _, h => h
  | .arr items, _, h => by
      obtain ⟨hlength, hitems⟩ := stableItemsAt_sorted items h.2.2
      exact ⟨h.1, hlength ▸ h.2.1, hitems⟩
  | .obj members, _, h => by
      have hperm := Json.sortMembers_perm (Json.sortedMembers members)
      have hkeys := Json.keys_sortedMembers members
      have hlength : (Json.sortMembers (Json.sortedMembers members)).length = members.length := by
        have hlengths := congrArg List.length hkeys
        rw [List.length_map, List.length_map] at hlengths
        rw [hperm.length_eq, hlengths]
      have hmembers := stableMembersAt_iff.mp (stableMembersAt_sorted members h.2.2.2)
      refine ⟨h.1, hlength ▸ h.2.1, (hperm.map Prod.fst).nodup_iff.mpr (hkeys ▸ h.2.2.1), ?_⟩
      exact stableMembersAt_iff.mpr fun m hm => hmembers m (hperm.mem_iff.mp hm)

theorem stableItemsAt_sorted : ∀ (items : List Json) {depth : ℕ}, StableItemsAt depth items →
    (Json.sortedItems items).length = items.length ∧
      StableItemsAt depth (Json.sortedItems items)
  | [], _, _ => ⟨rfl, trivial⟩
  | x :: xs, _, h => by
      obtain ⟨hlength, hrest⟩ := stableItemsAt_sorted xs h.2
      exact ⟨congrArg (· + 1) hlength, stableAt_sorted x h.1, hrest⟩

theorem stableMembersAt_sorted : ∀ (members : List (Str × Json)) {depth : ℕ},
    StableMembersAt depth members → StableMembersAt depth (Json.sortedMembers members)
  | [], _, _ => trivial
  | (_, x) :: rest, _, h => by
      have hvalue := h.1.2
      refine ⟨⟨h.1.1, ?_⟩, stableMembersAt_sorted rest h.2⟩
      split_ifs at hvalue ⊢
      · rw [hvalue]
        rfl
      · exact stableAt_sorted x hvalue

end

/-! ## What is redacted leaves no trace -/

mutual

/-- The evidence without the values under sensitive names. -/
def Evidence.redacted : Evidence → Evidence
  | .enum value => .enum value.redacted
  | .dataclass fields => .dataclass (redactedMembers fields)
  | .mapping items => .mapping (redactedMembers items)
  | .sequence items => .sequence (redactedItems items)
  | e => e

def Evidence.redactedMembers : List (Str × Evidence) → List (Str × Evidence)
  | [] => []
  | (rawKey, item) :: rest =>
      (rawKey, if isSensitiveKey (cleanText rawKey 128) then .none else item.redacted) ::
        redactedMembers rest

def Evidence.redactedItems : List Evidence → List Evidence
  | [] => []
  | item :: rest => item.redacted :: redactedItems rest

end

mutual

/-- What is left does not depend on the values under sensitive names. -/
theorem safeJson_redacted : ∀ (e : Evidence) (depth : ℕ),
    safeJson depth e.redacted = safeJson depth e
  | .none, _ | .bool _, _ | .int _, _ | .float _, _ | .str _, _ | .bytes _, _ | .text _, _
  | .other _, _ => rfl
  | .enum value, depth => by
      rw [Evidence.redacted, safeJson, safeJson, safeJson_redacted value]
  | .dataclass fields, depth => by
      rw [Evidence.redacted, safeJson, safeJson, safeMembers_redacted fields]
  | .mapping items, depth => by
      rw [Evidence.redacted, safeJson, safeJson, safeMembers_redacted items]
  | .sequence items, depth => by
      rw [Evidence.redacted, safeJson, safeJson, safeItems_redacted items]

theorem safeMembers_redacted : ∀ (members : List (Str × Evidence)) (depth : ℕ),
    safeMembers depth (Evidence.redactedMembers members) = safeMembers depth members
  | [], _ => rfl
  | (rawKey, item) :: rest, depth => by
      rw [Evidence.redactedMembers, safeMembers, safeMembers, safeMembers_redacted rest]
      by_cases hsensitive : isSensitiveKey (cleanText rawKey 128) = true
      · simp only [if_pos hsensitive]
      · simp only [if_neg hsensitive, safeJson_redacted item]

theorem safeItems_redacted : ∀ (items : List Evidence) (depth : ℕ),
    safeItems depth (Evidence.redactedItems items) = safeItems depth items
  | [], _ => rfl
  | item :: rest, depth => by
      rw [Evidence.redactedItems, safeItems, safeItems, safeJson_redacted item,
        safeItems_redacted rest]

end

end Left

/-! ## A run -/

namespace Observed

open Checksum

/-- The evidence of a request, with a credential in it. -/
def request : Evidence := .mapping [("path", .str "/invoices"),
  ("headers", .mapping [("authorization", .str "Bearer t0ken"), ("accept", .str "*/*")]),
  ("attempts", .sequence [.int 1, .int 2]), ("elapsed", .float .nan)]

-- a container that was cut is cut once more
example : safeJson 0 (.ofJson (safeJson 0 (.sequence (List.replicate 130 .none)))) ≠
    safeJson 0 (.sequence (List.replicate 130 .none)) := by decide +kernel

end Observed

end FastapiEffects
