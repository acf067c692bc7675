import FastapiEffects.Python.Sorted

/-! # Values that can be written in UTF-8

`json.dumps` followed by `encode("utf-8")` fails on a number without a text and on a string or a
key with a lone surrogate. `Json.everywhere` says what holds of every key and every leaf of a value.
-/

namespace Python

/-! ## Text that can be encoded -/

namespace Str

/-- Text without lone surrogates. -/
def encodes (s : Str) : Bool := s.all fun c => c.scalar?.isSome

theorem isSome_encode? (s : Str) : s.encode?.isSome = s.encodes := by
  have hmapM : (s.mapM PyChar.scalar?).isSome = s.encodes := by
    induction s with
    | nil => rfl
    | cons c s ih =>
        rw [encodes, List.all_cons, List.mapM_cons]
        cases c with
        | scalar c =>
            rw [← encodes, ← ih]
            cases hs : s.mapM PyChar.scalar? <;> simp [PyChar.scalar?]
        | surrogate n => rfl
  rw [encode?, Option.isSome_map, hmapM]

theorem encodes_append (s t : Str) : encodes (s ++ t) = (s.encodes && t.encodes) :=
  List.all_append

theorem encodes_cons (c : PyChar) (s : Str) : encodes (c :: s) = (c.scalar?.isSome && s.encodes) := rfl

@[simp] theorem encodes_ofChars (cs : List Char) : (ofChars cs).encodes = true := by
  simp [encodes, ofChars, PyChar.scalar?]

@[simp] theorem encodes_ofString (s : String) : (ofString s).encodes = true :=
  encodes_ofChars s.toList

end Str

theorem encodes_escapeChar (c : PyChar) : (escapeChar c).encodes = c.scalar?.isSome := by
  unfold escapeChar
  split
  all_goals first | exact Str.encodes_ofString _ | skip
  · split_ifs
    · exact Str.encodes_ofString _
    · exact Str.encodes_ofString _
    · rw [Str.encodes_append, Str.encodes_ofString, Str.encodes_ofChars]
      rfl
    · rfl
  · rw [Str.encodes_cons]
    exact Bool.and_true _

theorem encodes_quote (s : Str) : (quote s).encodes = s.encodes := by
  have hbody : Str.encodes (s.flatMap escapeChar) = s.encodes := by
    induction s with
    | nil => rfl
    | cons c s ih => rw [List.flatMap_cons, Str.encodes_append, encodes_escapeChar, ih, Str.encodes_cons]
  rw [quote, Str.encodes_append, Str.encodes_append, hbody, Str.encodes_ofString,
    Bool.true_and, Bool.and_true]

/-! ## Keys and leaves -/

namespace Json

mutual

/-- Whether `key` holds of every key, and `leaf` of every value that holds no others. -/
def everywhere (key : Str → Bool) (leaf : Json → Bool) : Json → Bool
  | .arr items => everywhereItems key leaf items
  | .obj members => everywhereMembers key leaf members
  | value => leaf value

def everywhereItems (key : Str → Bool) (leaf : Json → Bool) : List Json → Bool
  | [] => true
  | x :: xs => everywhere key leaf x && everywhereItems key leaf xs

def everywhereMembers (key : Str → Bool) (leaf : Json → Bool) : List (Str × Json) → Bool
  | [] => true
  | (k, x) :: ms => key k && everywhere key leaf x && everywhereMembers key leaf ms

end

variable {key key' : Str → Bool} {leaf leaf' : Json → Bool}

theorem everywhereItems_iff {items : List Json} : everywhereItems key leaf items = true ↔
    ∀ x ∈ items, x.everywhere key leaf = true := by
  induction items with
  | nil => simp [everywhereItems]
  | cons x xs ih => rw [everywhereItems, Bool.and_eq_true, ih, List.forall_mem_cons]

theorem everywhereMembers_iff {members : List (Str × Json)} :
    everywhereMembers key leaf members = true ↔
      ∀ m ∈ members, key m.1 = true ∧ m.2.everywhere key leaf = true := by
  induction members with
  | nil => simp [everywhereMembers]
  | cons m ms ih =>
      rw [everywhereMembers, Bool.and_eq_true, Bool.and_eq_true, ih, List.forall_mem_cons]

mutual

/-- The order of members does not matter. -/
theorem everywhere_sorted : ∀ v : Json, v.sorted.everywhere key leaf = v.everywhere key leaf
  | .null => rfl
  | .bool _ => rfl
  | .int _ => rfl
  | .float _ => rfl
  | .str _ => rfl
  | .arr items => by
      rw [sorted, everywhere, everywhere]
      exact everywhereItems_sortedItems items
  | .obj members => by
      rw [sorted, everywhere, everywhere, ← everywhereMembers_sortedMembers members, Bool.eq_iff_iff,
        everywhereMembers_iff, everywhereMembers_iff]
      simp only [(sortMembers_perm _).mem_iff]

theorem everywhereItems_sortedItems : ∀ items : List Json,
    everywhereItems key leaf (sortedItems items) = everywhereItems key leaf items
  | [] => rfl
  | x :: xs => by
      rw [sortedItems, everywhereItems, everywhereItems, everywhere_sorted x,
        everywhereItems_sortedItems xs]

theorem everywhereMembers_sortedMembers : ∀ members : List (Str × Json),
    everywhereMembers key leaf (sortedMembers members) = everywhereMembers key leaf members
  | [] => rfl
  | (k, x) :: ms => by
      rw [sortedMembers, everywhereMembers, everywhereMembers, everywhere_sorted x,
        everywhereMembers_sortedMembers ms]

end

mutual

/-- Two things that hold everywhere. -/
theorem everywhere_and : ∀ v : Json,
    v.everywhere (fun k => key k && key' k) (fun x => leaf x && leaf' x) =
      (v.everywhere key leaf && v.everywhere key' leaf')
  | .null => rfl
  | .bool _ => rfl
  | .int _ => rfl
  | .float _ => rfl
  | .str _ => rfl
  | .arr items => everywhereItems_and items
  | .obj members => everywhereMembers_and members

theorem everywhereItems_and : ∀ items : List Json,
    everywhereItems (fun k => key k && key' k) (fun x => leaf x && leaf' x) items =
      (everywhereItems key leaf items && everywhereItems key' leaf' items)
  | [] => rfl
  | x :: xs => by
      rw [everywhereItems, everywhere_and x, everywhereItems_and xs, everywhereItems, everywhereItems]
      ac_rfl

theorem everywhereMembers_and : ∀ members : List (Str × Json),
    everywhereMembers (fun k => key k && key' k) (fun x => leaf x && leaf' x) members =
      (everywhereMembers key leaf members && everywhereMembers key' leaf' members)
  | [] => rfl
  | (k, x) :: ms => by
      rw [everywhereMembers, everywhere_and x, everywhereMembers_and ms, everywhereMembers,
        everywhereMembers]
      ac_rfl

end

theorem everywhere_mono {v : Json} (hkey : ∀ k, key k = true → key' k = true)
    (hleaf : ∀ x, leaf x = true → leaf' x = true) (h : v.everywhere key leaf = true) :
    v.everywhere key' leaf' = true := by
  have hkeys : (fun k => key k && key' k) = key :=
    funext fun k => Bool.and_eq_left_iff_imp.mpr (hkey k)
  have hleaves : (fun x => leaf x && leaf' x) = leaf :=
    funext fun x => Bool.and_eq_left_iff_imp.mpr (hleaf x)
  have hboth := @everywhere_and key key' leaf leaf' v
  rw [hkeys, hleaves, h, Bool.true_and] at hboth
  exact hboth.symm

/-! ## The text of a value -/

/-- A leaf with a text: no long integer and no float that is not finite. -/
def leafWrites : Json → Bool
  | .int n => (Nat.toDigits 10 n.natAbs).length ≤ maxStrDigits
  | .float x => x.isfinite
  | _ => true

/-- A leaf whose text can be encoded. -/
def leafEncodes : Json → Bool
  | .str s => s.encodes
  | _ => true

/-- Whether no key of a value has a lone surrogate. -/
def keysEncode (v : Json) : Bool := v.everywhere Str.encodes fun _ => true

mutual

/-- A value has a text when its leaves do. -/
theorem exists_text : ∀ v : Json, v.everywhere (fun _ => true) leafWrites = true →
    ∃ t, v.text = some t
  | .null, _ => ⟨_, rfl⟩
  | .bool true, _ => ⟨_, rfl⟩
  | .bool false, _ => ⟨_, rfl⟩
  | .int n, h => by
      have hshort : (Nat.toDigits 10 n.natAbs).length ≤ maxStrDigits := of_decide_eq_true h
      rw [text, intRepr, if_pos hshort]
      exact ⟨_, rfl⟩
  | .float (.finite x), _ => ⟨_, rfl⟩
  | .str s, _ => ⟨_, rfl⟩
  | .arr items, h => by
      obtain ⟨t, ht⟩ := exists_textItems items h
      rw [text, ht]
      exact ⟨_, rfl⟩
  | .obj members, h => by
      obtain ⟨t, ht⟩ := exists_textMembers (exists_textValues members h)
      rw [text, ht]
      exact ⟨_, rfl⟩

theorem exists_textItems : ∀ items : List Json,
    everywhereItems (fun _ => true) leafWrites items = true → ∃ t, textItems items = some t
  | [], _ => ⟨_, rfl⟩
  | [x], h => by
      rw [everywhereItems, Bool.and_eq_true] at h
      rw [textItems]
      exact exists_text x h.1
  | x :: y :: xs, h => by
      rw [everywhereItems, Bool.and_eq_true] at h
      obtain ⟨tx, htx⟩ := exists_text x h.1
      obtain ⟨txs, htxs⟩ := exists_textItems (y :: xs) h.2
      exact ⟨_, textItems_cons.mpr ⟨tx, htx, txs, htxs, rfl⟩⟩

theorem exists_textValues : ∀ members : List (Str × Json),
    everywhereMembers (fun _ => true) leafWrites members = true →
      ∀ m ∈ members, ∃ t, m.2.text = some t
  | [], _ => by simp
  | (k, x) :: ms, h => by
      rw [everywhereMembers, Bool.true_and, Bool.and_eq_true] at h
      exact List.forall_mem_cons.mpr ⟨exists_text x h.1, exists_textValues ms h.2⟩

end

mutual

/-- A text can be encoded when the keys and the strings in it can. -/
theorem encodes_text : ∀ (v : Json) {t : Str}, v.text = some t →
    t.encodes = v.everywhere Str.encodes leafEncodes
  | .null, _, h => by
      cases h
      exact Str.encodes_ofString _
  | .bool true, _, h => by
      cases h
      exact Str.encodes_ofString _
  | .bool false, _, h => by
      cases h
      exact Str.encodes_ofString _
  | .int n, _, h => by
      obtain ⟨cs, -, rfl⟩ := Option.map_eq_some_iff.mp h
      exact Str.encodes_ofChars _
  | .float (.finite x), _, h => by
      cases h
      exact Str.encodes_ofChars _
  | .str s, _, h => by
      cases h
      exact encodes_quote s
  | .arr items, _, h => by
      obtain ⟨t, ht, rfl⟩ := Option.map_eq_some_iff.mp h
      rw [Str.encodes_append, Str.encodes_append, Str.encodes_ofString, Str.encodes_ofString,
        Bool.true_and, Bool.and_true]
      exact encodes_textItems items ht
  | .obj members, _, h => by
      obtain ⟨t, ht, rfl⟩ := Option.map_eq_some_iff.mp h
      rw [Str.encodes_append, Str.encodes_append, Str.encodes_ofString, Str.encodes_ofString,
        Bool.true_and, Bool.and_true]
      exact encodes_textMembers members ht

theorem encodes_textItems : ∀ (items : List Json) {t : Str}, textItems items = some t →
    t.encodes = everywhereItems Str.encodes leafEncodes items
  | [], _, h => by
      cases h
      rfl
  | [x], _, h => by
      rw [everywhereItems, everywhereItems, Bool.and_true]
      exact encodes_text x h
  | x :: y :: xs, _, h => by
      obtain ⟨tx, htx, txs, htxs, rfl⟩ := textItems_cons.mp h
      rw [Str.encodes_append, Str.encodes_cons, encodes_text x htx, encodes_textItems (y :: xs) htxs,
        everywhereItems]
      rfl

theorem encodes_textMembers : ∀ (members : List (Str × Json)) {t : Str},
    textMembers members = some t →
      t.encodes = everywhereMembers Str.encodes leafEncodes members
  | [], _, h => by
      cases h
      rfl
  | [(k, x)], _, h => by
      obtain ⟨tx, htx, rfl⟩ := textMembers_singleton.mp h
      rw [Str.encodes_append, Str.encodes_cons, encodes_quote, encodes_text x htx, everywhereMembers,
        everywhereMembers, Bool.and_true]
      rfl
  | (k, x) :: y :: ms, _, h => by
      obtain ⟨tx, htx, txs, htxs, rfl⟩ := textMembers_cons.mp h
      rw [Str.encodes_append, Str.encodes_cons, Str.encodes_append, Str.encodes_cons, encodes_quote,
        encodes_text x htx, encodes_textMembers (y :: ms) htxs]
      have hmembers : everywhereMembers Str.encodes leafEncodes ((k, x) :: y :: ms) =
          (k.encodes && x.everywhere Str.encodes leafEncodes &&
            everywhereMembers Str.encodes leafEncodes (y :: ms)) := rfl
      rw [hmembers, Bool.and_assoc]
      rfl

end

end Json

end Python
