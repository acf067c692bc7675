import FastapiEffects.Python.Encodable
import FastapiEffects.Python.Loads

/-! # What `json.loads` returns and raises

The scanners read a text from its front. No integer they return has more than 4300 digits, and where
they raise the plain `ValueError` of such an integer the text has one.
-/

namespace Python

namespace Loads

variable {ε : Type}

/-- An integer that was read is no long one. -/
def leafRead : Json → Bool
  | .int n => (Nat.toDigits 10 n.natAbs).length ≤ maxStrDigits
  | _ => true

/-- A text with an integer of more than 4300 digits in it. -/
def HasLongInteger (s : Str) : Prop :=
  ∃ before ds after, s = before ++ Str.ofChars ds ++ after ∧ (∀ c ∈ ds, c.isDigit = true) ∧
    maxStrDigits < ds.length

theorem HasLongInteger.of_suffix {s s' : Str} (h : HasLongInteger s') (hsuffix : s' <:+ s) :
    HasLongInteger s := by
  obtain ⟨before, ds, after, rfl, hds, hlong⟩ := h
  obtain ⟨front, rfl⟩ := hsuffix
  exact ⟨front ++ before, ds, after, by simp only [List.append_assoc], hds, hlong⟩

/-- A scanner reads from the front of a text, what it returns has `p`, what a hook raises in it has
`r`, and it raises the plain `ValueError` at a long integer only. -/
structure Scanned {α : Type} (r : ε → Prop) (p : α → Prop) (s : Str)
    (result : Except (LoadError ε) (α × Str)) : Prop where
  ok : ∀ v rest, result = .ok (v, rest) → p v ∧ rest <:+ s
  hook : ∀ e, result = .error (.hook e) → r e
  value : result = .error .value → HasLongInteger s

section Scanned

variable {α β : Type} {r : ε → Prop} {p : α → Prop} {q : β → Prop} {s s' : Str}
  {result : Except (LoadError ε) (α × Str)}

theorem Scanned.of_ok {v : α} {rest : Str} (hv : p v) (hsuffix : rest <:+ s) :
    Scanned r p s (.ok (v, rest)) where
  ok := by
    rintro v' rest' heq
    cases heq
    exact ⟨hv, hsuffix⟩
  hook := fun e h => by cases h
  value := fun h => by cases h

theorem Scanned.malformed : Scanned r p s (.error .malformed) where
  ok := fun v rest h => by cases h
  hook := fun e h => by cases h
  value := fun h => by cases h

theorem Scanned.raised {e : ε} (he : r e) : Scanned r p s (.error (.hook e)) where
  ok := fun v rest h => by cases h
  hook := by
    rintro e' heq
    cases heq
    exact he
  value := fun h => by cases h

theorem Scanned.of_suffix (h : Scanned r p s' result) (hsuffix : s' <:+ s) :
    Scanned r p s result where
  ok := fun v rest heq => (h.ok v rest heq).imp_right fun hrest => hrest.trans hsuffix
  hook := h.hook
  value := fun heq => (h.value heq).of_suffix hsuffix

/-- One scanner after the other. -/
theorem Scanned.bind {f : α × Str → Except (LoadError ε) (β × Str)} (h : Scanned r p s result)
    (hf : ∀ v rest, p v → Scanned r q rest (f (v, rest))) : Scanned r q s (result >>= f) := by
  cases result with
  | error e =>
      constructor
      · intro v rest heq
        cases heq
      · intro e' heq
        cases heq
        exact h.hook e' rfl
      · intro heq
        cases heq
        exact h.value rfl
  | ok read =>
      obtain ⟨v, rest⟩ := read
      obtain ⟨hv, hsuffix⟩ := h.ok v rest rfl
      exact (hf v rest hv).of_suffix hsuffix

theorem Scanned.map {f : α × Str → β × Str} (h : Scanned r p s result)
    (hf : ∀ v rest, p v → q (f (v, rest)).1 ∧ (f (v, rest)).2 <:+ rest) :
    Scanned r q s (result.map f) := by
  have hbind : result.map f = result >>= fun read => .ok (f read) := by
    cases result <;> rfl
  rw [hbind]
  exact h.bind fun v rest hv => .of_ok (hf v rest hv).1 (hf v rest hv).2

end Scanned

/-! ### Pieces -/

theorem skipSpace_suffix (s : Str) : skipSpace s <:+ s := List.dropWhile_suffix _

theorem spanDigits_spec (s : Str) :
    s = Str.ofChars (spanDigits s).1 ++ (spanDigits s).2 ∧
      ∀ c ∈ (spanDigits s).1, c.isDigit = true := by
  induction s with
  | nil => exact ⟨rfl, by simp [spanDigits]⟩
  | cons c s ih =>
      cases c with
      | surrogate n => exact ⟨rfl, by simp [spanDigits]⟩
      | scalar c =>
          rw [spanDigits]
          split_ifs with hdigit
          · exact ⟨congrArg (PyChar.scalar c :: ·) ih.1, List.forall_mem_cons.mpr ⟨hdigit, ih.2⟩⟩
          · exact ⟨rfl, by simp⟩

/-- An integer is a run of digits. -/
theorem scanInteger_spec {s rest : Str} {ds : List Char} (h : scanInteger s = some (ds, rest)) :
    s = Str.ofChars ds ++ rest ∧ ∀ c ∈ ds, c.isDigit = true := by
  obtain ⟨htext, hdigits⟩ := spanDigits_spec s
  unfold scanInteger at h
  split at h
  · cases h
  · next hspan =>
      cases h
      rw [hspan] at htext
      rw [htext]
      exact ⟨rfl, by simp⟩
  · next hspan =>
      cases h
      rw [hspan] at htext hdigits
      exact ⟨htext, hdigits⟩

theorem scanFraction_suffix (s : Str) : (scanFraction s).2 <:+ s := by
  unfold scanFraction
  split
  · next rest =>
      obtain ⟨htext, -⟩ := spanDigits_spec rest
      split
      · exact List.suffix_rfl
      · next ds rest' _ hspan =>
          rw [hspan] at htext
          rw [htext]
          exact (List.suffix_append _ _).trans (List.suffix_cons _ _)
  · exact List.suffix_rfl

theorem scanSign_suffix (s : Str) : (scanSign s).2 <:+ s := by
  unfold scanSign
  split
  · exact List.suffix_cons _ _
  · exact List.suffix_cons _ _
  · exact List.suffix_rfl

theorem scanExponent_suffix (s : Str) : (scanExponent s).2 <:+ s := by
  unfold scanExponent
  split
  · next c rest =>
      obtain ⟨htext, -⟩ := spanDigits_spec (scanSign rest).2
      by_cases hc : c = 'e' ∨ c = 'E'
      · rw [if_pos hc]
        split
        · exact List.suffix_rfl
        · next ds rest' _ hspan =>
            rw [hspan] at htext
            have hrest : rest' <:+ (scanSign rest).2 := by
              rw [htext]
              exact List.suffix_append _ _
            exact (hrest.trans (scanSign_suffix rest)).trans (List.suffix_cons _ _)
      · rw [if_neg hc]
  · exact List.suffix_rfl

/-- The number of a run of digits has at most as many. -/
theorem length_toDigits_ofDigitChars {ds : List Char} (hdigits : ∀ c ∈ ds, c.isDigit = true)
    {most : ℕ} (hpos : 0 < most) (h : ds.length ≤ most) :
    (Nat.toDigits 10 (Nat.ofDigitChars 10 ds 0)).length ≤ most := by
  have hlt : ∀ {cs : List Char} {init : ℕ}, (∀ c ∈ cs, c.isDigit = true) →
      Nat.ofDigitChars 10 cs init < (init + 1) * 10 ^ cs.length := by
    intro cs
    induction cs with
    | nil =>
        intro init _
        simp
    | cons c cs ih =>
        intro init hcs
        obtain ⟨hc, hcs⟩ := List.forall_mem_cons.mp hcs
        have hbounds : 48 ≤ c.toNat ∧ c.toNat ≤ 57 := Char.isDigit_iff_toNat.mp hc
        have hrest := @ih (10 * init + (c.toNat - '0'.toNat)) hcs
        rw [Nat.ofDigitChars_cons, List.length_cons, pow_succ]
        refine hrest.trans_le ?_
        have hzero : '0'.toNat = 48 := rfl
        calc (10 * init + (c.toNat - '0'.toNat) + 1) * 10 ^ cs.length
            ≤ ((init + 1) * 10) * 10 ^ cs.length := Nat.mul_le_mul_right _ (by omega)
          _ = (init + 1) * (10 ^ cs.length * 10) := by ring
  rw [Nat.length_toDigits_le_iff (by norm_num) hpos]
  have hbound := @hlt _ 0 hdigits
  rw [zero_add, one_mul] at hbound
  exact hbound.trans_le (Nat.pow_le_pow_right (by norm_num) h)

/-- A value of which every integer was read. -/
def Read (v : Json) : Prop := v.everywhere (fun _ => true) leafRead = true

theorem scanNumber_scanned {r : ε → Prop} {negative : Bool} {s : Str}
    {result : Except (LoadError ε) (Json × Str)} (h : scanNumber negative s = some result) :
    Scanned r Read s result := by
  obtain ⟨⟨ds, rest⟩, hinteger, rfl⟩ := Option.map_eq_some_iff.mp h
  obtain ⟨htext, hdigits⟩ := scanInteger_spec hinteger
  have hrest : rest <:+ s := by
    rw [htext]
    exact List.suffix_append _ _
  have hend : (scanExponent (scanFraction rest).2).2 <:+ s :=
    ((scanExponent_suffix _).trans (scanFraction_suffix rest)).trans hrest
  dsimp only
  by_cases hwhole : (scanFraction rest).1 = none ∧ (scanExponent (scanFraction rest).2).1 = none
  swap
  · rw [if_neg hwhole]
    exact .of_ok rfl hend
  rw [if_pos hwhole]
  by_cases hshort : ds.length ≤ maxStrDigits
  swap
  · rw [if_neg hshort]
    refine ⟨fun v rest heq => (by cases heq), fun e heq => (by cases heq), fun _ => ?_⟩
    exact ⟨[], ds, rest, htext, hdigits, not_le.mp hshort⟩
  rw [if_pos hshort]
  refine .of_ok (decide_eq_true ?_) hend
  have hread := length_toDigits_ofDigitChars hdigits (by decide) hshort
  cases negative with
  | true => rwa [if_pos rfl, Int.natAbs_neg, Int.natAbs_natCast]
  | false => exact hread

theorem scanUnits_scanned (r : ε → Prop) (s : Str) :
    Scanned r (fun _ : List (Bool × PyChar) => True) s (scanUnits s) := by
  fun_induction scanUnits (ε := ε) s with
  | case1 => exact .malformed
  | case2 rest => exact .of_ok trivial (List.suffix_cons _ _)
  | case3 a b c d rest h => exact .malformed
  | case4 a b c d rest u h ih =>
      refine Scanned.of_suffix (ih.map fun _ _ _ => ⟨trivial, List.suffix_rfl⟩) ?_
      exact ⟨_ :: _ :: a :: b :: c :: [d], rfl⟩
  | case5 c rest _ h => exact .malformed
  | case6 c rest _ x h ih =>
      refine Scanned.of_suffix (ih.map fun _ _ _ => ⟨trivial, List.suffix_rfl⟩) ?_
      exact ⟨[_, c], rfl⟩
  | case7 => exact .malformed
  | case8 c rest _ _ _ h ih =>
      exact Scanned.of_suffix (ih.map fun _ _ _ => ⟨trivial, List.suffix_rfl⟩) (List.suffix_cons _ _)

theorem scanString_scanned (r : ε → Prop) (s : Str) :
    Scanned r (fun _ : Str => True) s (scanString s) :=
  (scanUnits_scanned r s).map fun _ _ _ => ⟨trivial, List.suffix_rfl⟩

theorem afterLiteral_suffix {literal : String} {s rest : Str}
    (h : afterLiteral literal s = some rest) : rest <:+ s := by
  unfold afterLiteral at h
  dsimp only at h
  split_ifs at h
  cases h
  exact List.drop_suffix _ _

/-! ### Values -/

/-- Hooks that keep what was read, and raise what has `r`. -/
structure HooksRead (r : ε → Prop) (hooks : Hooks ε) : Prop where
  object : ∀ pairs v, hooks.object pairs = .ok v → (∀ m ∈ pairs, Read m.2) → Read v
  object_error : ∀ pairs e, hooks.object pairs = .error e → r e
  constant : ∀ x v, hooks.constant x = .ok v → Read v
  constant_error : ∀ x e, hooks.constant x = .error e → r e

/-- What a hook makes of what was read. -/
theorem ofHook_scanned {r : ε → Prop} {x : Except ε Json} {s : Str} (h : ∀ v, x = .ok v → Read v)
    (herror : ∀ e, x = .error e → r e) : Scanned r Read s ((ofHook x).map fun v => (v, s)) := by
  cases x with
  | ok v => exact .of_ok (h v rfl) List.suffix_rfl
  | error e => exact .raised (herror e rfl)

theorem suffix_of_skipSpace {s rest : Str} {c : PyChar} (h : skipSpace s = c :: rest) :
    rest <:+ s :=
  (List.suffix_cons c rest).trans (h ▸ skipSpace_suffix s)

section Values

variable {r : ε → Prop} {hooks : Hooks ε} (hhooks : HooksRead r hooks)

include hhooks

theorem scanScalar_scanned (s : Str) : Scanned r Read s (scanScalar hooks s) := by
  have hconstant : ∀ {x : PyFloat} {rest : Str}, rest <:+ s →
      Scanned r Read s ((ofHook (hooks.constant x)).map fun v => (v, rest)) := fun hsuffix =>
    (ofHook_scanned (hhooks.constant _) (hhooks.constant_error _)).of_suffix hsuffix
  unfold scanScalar
  extract_lets constant number
  have hnumber : ∀ result, number = some result → Scanned r Read s result := by
    intro result h
    unfold number at h
    split at h
    · exact (scanNumber_scanned h).of_suffix (List.suffix_cons _ _)
    · exact scanNumber_scanned h
  clear_value number
  cases number with
  | some result => exact hnumber result rfl
  | none =>
      dsimp only
      split
      · next h => exact .of_ok rfl (afterLiteral_suffix h)
      · next h _ => exact .of_ok rfl (afterLiteral_suffix h)
      · next h _ _ => exact .of_ok rfl (afterLiteral_suffix h)
      · split
        · next h => exact hconstant (afterLiteral_suffix h)
        · next h _ => exact hconstant (afterLiteral_suffix h)
        · next h _ _ => exact hconstant (afterLiteral_suffix h)
        · exact .malformed

/-- The three scanners, one level of nesting after the other. -/
theorem scan_scanned (fuel : ℕ) : (∀ s, Scanned r Read s (scanOnce hooks fuel s)) ∧
    (∀ s, Scanned r (fun members => ∀ m ∈ members, Read m.2) s (scanMembers hooks fuel s)) ∧
      ∀ s, Scanned r (fun items => ∀ x ∈ items, Read x) s (scanItems hooks fuel s) := by
  induction fuel with
  | zero => exact ⟨fun _ => .malformed, fun _ => .malformed, fun _ => .malformed⟩
  | succ fuel ih =>
      obtain ⟨honce, hmembers, hitems⟩ := ih
      refine ⟨fun s => ?_, fun s => ?_, fun s => ?_⟩
      · unfold scanOnce
        split
        · next rest =>
            refine Scanned.of_suffix ((scanString_scanned r rest).map fun _ _ _ => ?_) (List.suffix_cons _ _)
            exact ⟨rfl, List.suffix_rfl⟩
        · next rest =>
            refine Scanned.of_suffix ?_ (List.suffix_cons _ rest)
            split
            · next rest' h =>
                exact (ofHook_scanned (fun v hv => hhooks.object [] v hv (by simp))
                  (hhooks.object_error [])).of_suffix (suffix_of_skipSpace h)
            · refine ((hmembers (skipSpace rest)).bind fun members rest'' hread => ?_).of_suffix
                (skipSpace_suffix rest)
              dsimp only
              cases h : hooks.object members with
              | ok v => exact .of_ok (hhooks.object members v h hread) List.suffix_rfl
              | error e => exact .raised (hhooks.object_error members e h)
        · next rest =>
            refine Scanned.of_suffix ?_ (List.suffix_cons _ rest)
            split
            · next rest' h => exact .of_ok rfl (suffix_of_skipSpace h)
            · refine ((hitems (skipSpace rest)).map fun items rest'' hread => ?_).of_suffix
                (skipSpace_suffix rest)
              exact ⟨Json.everywhereItems_iff.mpr hread, List.suffix_rfl⟩
        · exact scanScalar_scanned hhooks s
      · unfold scanMembers
        split
        · next rest =>
            refine Scanned.of_suffix ((scanString_scanned r rest).bind fun key afterKey _ => ?_)
              (List.suffix_cons _ rest)
            dsimp only
            split
            · next afterColon h =>
                refine Scanned.of_suffix (((honce (skipSpace afterColon)).bind
                  fun value afterValue hvalue => ?_).of_suffix (skipSpace_suffix afterColon))
                  (suffix_of_skipSpace h)
                dsimp only
                split
                · next rest' h' =>
                    exact .of_ok (List.forall_mem_singleton.mpr hvalue) (suffix_of_skipSpace h')
                · next rest' h' =>
                    refine Scanned.of_suffix (((hmembers (skipSpace rest')).bind
                      fun members rest'' hread => ?_).of_suffix (skipSpace_suffix rest'))
                      (suffix_of_skipSpace h')
                    exact .of_ok (List.forall_mem_cons.mpr ⟨hvalue, hread⟩) List.suffix_rfl
                · exact .malformed
            · exact .malformed
        · exact .malformed
      · unfold scanItems
        refine (honce s).bind fun value afterValue hvalue => ?_
        dsimp only
        split
        · next rest' h => exact .of_ok (List.forall_mem_singleton.mpr hvalue) (suffix_of_skipSpace h)
        · next rest' h =>
            refine Scanned.of_suffix (((hitems (skipSpace rest')).bind
              fun items rest'' hread => ?_).of_suffix (skipSpace_suffix rest')) (suffix_of_skipSpace h)
            exact .of_ok (List.forall_mem_cons.mpr ⟨hvalue, hread⟩) List.suffix_rfl
        · exact .malformed

/-- What `json.loads` returns has no long integer, and its plain `ValueError` is at one. -/
theorem loadsWith_scanned (text : Str) :
    (∀ v, Json.loadsWith hooks text = .ok v → Read v) ∧
      (∀ e, Json.loadsWith hooks text = .error (.hook e) → r e) ∧
        (Json.loadsWith hooks text = .error .value → HasLongInteger text) := by
  have hscanned := (scan_scanned hhooks (text.length + 1)).1 (skipSpace text)
  unfold Json.loadsWith
  split_ifs
  · exact ⟨fun v h => (by cases h), fun e h => (by cases h), fun h => (by cases h)⟩
  · split
    · next e h =>
        refine ⟨fun v h => (by cases h), fun e heq => ?_, fun heq => ?_⟩
        · cases heq
          exact hscanned.hook e h
        · cases heq
          exact (hscanned.value h).of_suffix (skipSpace_suffix text)
    · next v rest h =>
        refine ⟨fun v' heq => ?_, fun e heq => ?_, fun heq => ?_⟩
        · split_ifs at heq
          cases heq
          exact (hscanned.ok v rest h).1
        · split_ifs at heq
          cases heq
        · split_ifs at heq
          cases heq

end Values

end Loads

end Python
