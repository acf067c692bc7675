import FastapiEffects.Python.RoundTrip

/-! # Writing JSON with indentation

`json.dumps` with `indent=2`, `ensure_ascii=False`, `allow_nan=False` and
`sort_keys=True`: every item and every member stands on a line of its own. The scanner
skips the space between the pieces, so it reads the same value as from the compact text.
-/

namespace Python

namespace Json

/-- The line break before an item at a level of nesting. -/
def newlineIndent (level : ℕ) : Str := .scalar '\n' :: List.replicate (2 * level) (.scalar ' ')

mutual

/-- The text of a value at a level of nesting, members in the order they stand. -/
def textIndented (level : ℕ) : Json → Option Str
  | .arr [] => some "[]"
  | .arr (x :: xs) =>
      (textItemsIndented (level + 1) (x :: xs)).map fun t =>
        .scalar '[' :: (newlineIndent (level + 1) ++ (t ++ (newlineIndent level ++ [.scalar ']'])))
  | .obj [] => some "\x7b\x7d"
  | .obj (m :: ms) =>
      (textMembersIndented (level + 1) (m :: ms)).map fun t =>
        .scalar '{' :: (newlineIndent (level + 1) ++ (t ++ (newlineIndent level ++ [.scalar '}'])))
  | value => text value

def textItemsIndented (level : ℕ) : List Json → Option Str
  | [] => some []
  | [x] => textIndented level x
  | x :: y :: xs => do
      return (← textIndented level x) ++
        .scalar ',' :: (newlineIndent level ++ (← textItemsIndented level (y :: xs)))

def textMembersIndented (level : ℕ) : List (Str × Json) → Option Str
  | [] => some []
  | [(k, x)] => (textIndented level x).map fun t => quote k ++ .scalar ':' :: .scalar ' ' :: t
  | (k, x) :: y :: xs => do
      return quote k ++ .scalar ':' :: .scalar ' ' :: ((← textIndented level x) ++
        .scalar ',' :: (newlineIndent level ++ (← textMembersIndented level (y :: xs))))

end

/-- `json.dumps(value, indent=2)`. -/
def dumpsIndented (value : Json) : Option Str := value.sorted.textIndented 0

/-! ## Pieces of a text -/

@[simp] theorem length_newlineIndent (level : ℕ) : (newlineIndent level).length =
    2 * level + 1 := by
  simp [newlineIndent]

theorem textItemsIndented_cons {level : ℕ} {x y : Json} {xs : List Json} {t : Str} :
    textItemsIndented level (x :: y :: xs) = some t ↔
      ∃ tx, x.textIndented level = some tx ∧ ∃ txs, textItemsIndented level (y :: xs) = some txs ∧
        tx ++ .scalar ',' :: (newlineIndent level ++ txs) = t := by
  rw [textItemsIndented]
  simp [Option.bind_eq_some_iff]

theorem textMembersIndented_singleton {level : ℕ} {k : Str} {x : Json} {t : Str} :
    textMembersIndented level [(k, x)] = some t ↔
      ∃ tx, x.textIndented level = some tx ∧
        quote k ++ .scalar ':' :: .scalar ' ' :: tx = t := by
  rw [textMembersIndented]
  simp

theorem textMembersIndented_cons {level : ℕ} {k : Str} {x : Json} {y : Str × Json}
    {xs : List (Str × Json)} {t : Str} :
    textMembersIndented level ((k, x) :: y :: xs) = some t ↔
      ∃ tx, x.textIndented level = some tx ∧
        ∃ txs, textMembersIndented level (y :: xs) = some txs ∧
          quote k ++ .scalar ':' :: .scalar ' ' ::
            (tx ++ .scalar ',' :: (newlineIndent level ++ txs)) = t := by
  rw [textMembersIndented]
  simp [Option.bind_eq_some_iff]

end Json

/-! ## What is written is read back -/

namespace Loads

open Json (newlineIndent)

/-- The space of a line break is skipped. -/
theorem skipSpace_newlineIndent (level : ℕ) (s : Str) :
    skipSpace (newlineIndent level ++ s) = skipSpace s := by
  have hspace : ∀ c ∈ newlineIndent level, PyChar.isIn [] [' ', '\t', '\n', '\r'] c = true := by
    intro c hc
    rcases List.mem_cons.mp hc with rfl | hc
    · rfl
    · rw [List.eq_of_mem_replicate hc]
      rfl
  rw [skipSpace, List.dropWhile_append_of_pos hspace]
  rfl

theorem skipSpace_blank (s : Str) : skipSpace (.scalar ' ' :: s) = skipSpace s := rfl

theorem endsNumber_newlineIndent (level : ℕ) (rest : Str) :
    EndsNumber (newlineIndent level ++ rest) :=
  endsNumber_cons (by decide) _

section

variable {ε : Type} (hooks : Hooks ε)

theorem starts_textIndented {level : ℕ} {v : Json} {t : Str} (h : v.textIndented level = some t) :
    Starts t := by
  unfold Json.textIndented at h
  split at h
  · cases h
    exact ⟨'[', _, rfl, by decide⟩
  · obtain ⟨t', -, rfl⟩ := Option.map_eq_some_iff.mp h
    exact ⟨'[', _, rfl, by decide⟩
  · cases h
    exact ⟨'{', _, rfl, by decide⟩
  · obtain ⟨t', -, rfl⟩ := Option.map_eq_some_iff.mp h
    exact ⟨'{', _, rfl, by decide⟩
  · exact starts_text h

theorem starts_textItemsIndented {level : ℕ} {x : Json} {xs : List Json} {t : Str}
    (h : Json.textItemsIndented level (x :: xs) = some t) : Starts t := by
  cases xs with
  | nil => exact starts_textIndented h
  | cons y xs =>
      obtain ⟨tx, htx, txs, -, rfl⟩ := Json.textItemsIndented_cons.mp h
      obtain ⟨c, t', rfl, hc⟩ := starts_textIndented htx
      exact ⟨c, _, rfl, hc⟩

theorem starts_textMembersIndented {level : ℕ} {m : Str × Json} {ms : List (Str × Json)} {t : Str}
    (h : Json.textMembersIndented level (m :: ms) = some t) : Starts t := by
  obtain ⟨k, x⟩ := m
  cases ms with
  | nil =>
      obtain ⟨tx, -, rfl⟩ := Json.textMembersIndented_singleton.mp h
      exact ⟨'"', _, by rw [quote_append], by decide⟩
  | cons y xs =>
      obtain ⟨tx, -, txs, -, rfl⟩ := Json.textMembersIndented_cons.mp h
      exact ⟨'"', _, by rw [quote_append], by decide⟩

/-- After a line break the next piece starts. -/
theorem Starts.skipSpace_newline {t : Str} (h : Starts t) (level : ℕ) (rest : Str) :
    Loads.skipSpace (newlineIndent level ++ (t ++ rest)) = t ++ rest := by
  rw [skipSpace_newlineIndent, h.skipSpace]

mutual

/-- The scanner takes the indented text of a value off its input. -/
theorem scanOnce_textIndented : ∀ (v : Json) {level : ℕ} {t rest : Str} {fuel : ℕ},
    v.textIndented level = some t → Kept hooks v → EndsNumber rest → t.length ≤ fuel →
      scanOnce hooks fuel (t ++ rest) = .ok (v, rest)
  | v, _, t, rest, 0, h, _, _, hfuel => by
      obtain ⟨c, t', rfl, -⟩ := starts_textIndented h
      cases hfuel
  | .null, _, _, rest, fuel + 1, h, _, _, _ => by
      cases h
      exact scanOnce_literal hooks fuel rest (Or.inl ⟨rfl, rfl⟩)
  | .bool true, _, _, rest, fuel + 1, h, _, _, _ => by
      cases h
      exact scanOnce_literal hooks fuel rest (Or.inr (Or.inl ⟨rfl, rfl⟩))
  | .bool false, _, _, rest, fuel + 1, h, _, _, _ => by
      cases h
      exact scanOnce_literal hooks fuel rest (Or.inr (Or.inr ⟨rfl, rfl⟩))
  | .int n, _, _, rest, fuel + 1, h, _, hends, _ => by
      obtain ⟨cs, hcs, rfl⟩ := Option.map_eq_some_iff.mp h
      exact scanOnce_int hooks hcs hends fuel
  | .float (.finite x), _, _, rest, fuel + 1, h, _, hends, _ => by
      cases h
      exact scanOnce_float hooks x hends fuel
  | .float .nan, _, _, _, _ + 1, h, _, _, _ => by cases h
  | .float (.inf _), _, _, _, _ + 1, h, _, _, _ => by cases h
  | .str s, _, _, rest, fuel + 1, h, _, _, _ => by
      cases h
      exact scanOnce_quote hooks s rest fuel
  | .arr [], _, _, rest, fuel + 1, h, _, _, _ => by
      cases h
      rfl
  | .arr (x :: xs), level, _, rest, fuel + 1, h, hkept, _, hfuel => by
      obtain ⟨t, ht, rfl⟩ := Option.map_eq_some_iff.mp h
      simp only [List.length_cons, List.length_append, Json.length_newlineIndent] at hfuel
      simp only [List.cons_append, List.append_assoc, List.nil_append]
      rw [scanOnce_array hooks (starts_textItemsIndented ht)
          ((starts_textItemsIndented ht).skipSpace_newline _ _),
        scanItems_textIndented x xs ht hkept (by omega)]
      rfl
  | .obj [], _, _, rest, fuel + 1, h, hkept, _, _ => by
      cases h
      have hhook : ofHook (hooks.object []) = .ok (.obj []) := by rw [hkept.1]; rfl
      have hbrace : scanOnce hooks (fuel + 1) (.scalar '{' :: .scalar '}' :: rest) =
          (ofHook (hooks.object [])).map fun v => (v, rest) := rfl
      rw [hhook] at hbrace
      exact hbrace
  | .obj (m :: ms), level, _, rest, fuel + 1, h, hkept, _, hfuel => by
      obtain ⟨t, ht, rfl⟩ := Option.map_eq_some_iff.mp h
      have hhook : ofHook (hooks.object (m :: ms)) = .ok (.obj (m :: ms)) := by rw [hkept.1]; rfl
      simp only [List.length_cons, List.length_append, Json.length_newlineIndent] at hfuel
      simp only [List.cons_append, List.append_assoc, List.nil_append]
      rw [scanOnce_object hooks (starts_textMembersIndented ht)
          ((starts_textMembersIndented ht).skipSpace_newline _ _),
        scanMembers_textIndented m ms ht hkept.2 (by omega)]
      simp only [bind, Except.bind, hhook]
      rfl
termination_by structural _ _ _ _ fuel => fuel

theorem scanItems_textIndented : ∀ (x : Json) (xs : List Json) {level below : ℕ} {t rest : Str}
    {fuel : ℕ}, Json.textItemsIndented level (x :: xs) = some t → KeptItems hooks (x :: xs) →
      t.length + 1 ≤ fuel →
        scanItems hooks fuel (t ++ (newlineIndent below ++ .scalar ']' :: rest)) =
          .ok (x :: xs, rest)
  | _, _, _, _, _, _, 0, _, _, hfuel => by omega
  | x, [], level, below, t, rest, fuel + 1, h, hkept, hfuel => by
      refine scanItems_last hooks (scanOnce_textIndented x h hkept.1
        (endsNumber_newlineIndent below _) (by omega)) ?_
      rw [skipSpace_newlineIndent]
      rfl
  | x, y :: ys, level, below, _, rest, fuel + 1, h, hkept, hfuel => by
      obtain ⟨tx, htx, txs, htxs, rfl⟩ := Json.textItemsIndented_cons.mp h
      simp only [List.length_append, List.length_cons] at hfuel
      rw [List.append_assoc, List.cons_append, List.append_assoc]
      refine scanItems_next hooks (scanOnce_textIndented x htx hkept.1
        (endsNumber_cons (by decide) _) (by omega)) rfl ?_
      rw [(starts_textItemsIndented htxs).skipSpace_newline]
      exact scanItems_textIndented y ys htxs hkept.2 (by omega)
termination_by structural _ _ _ _ _ _ fuel => fuel

theorem scanMembers_textIndented : ∀ (m : Str × Json) (ms : List (Str × Json)) {level below : ℕ}
    {t rest : Str} {fuel : ℕ}, Json.textMembersIndented level (m :: ms) = some t →
      KeptMembers hooks (m :: ms) → t.length + 1 ≤ fuel →
        scanMembers hooks fuel (t ++ (newlineIndent below ++ .scalar '}' :: rest)) =
          .ok (m :: ms, rest)
  | _, _, _, _, _, _, 0, _, _, hfuel => by omega
  | (k, x), [], level, below, _, rest, fuel + 1, h, hkept, hfuel => by
      obtain ⟨tx, htx, rfl⟩ := Json.textMembersIndented_singleton.mp h
      simp only [List.length_append, List.length_cons] at hfuel
      rw [List.append_assoc, List.cons_append, List.cons_append]
      have hvalue : scanOnce hooks fuel (skipSpace (.scalar ' ' :: (tx ++ (newlineIndent below ++
          .scalar '}' :: rest)))) = .ok (x, newlineIndent below ++ .scalar '}' :: rest) := by
        rw [skipSpace_blank, (starts_textIndented htx).skipSpace]
        exact scanOnce_textIndented x htx hkept.1 (endsNumber_newlineIndent below _) (by omega)
      refine scanMembers_last hooks hvalue ?_
      rw [skipSpace_newlineIndent]
      rfl
  | (k, x), m :: ms, level, below, _, rest, fuel + 1, h, hkept, hfuel => by
      obtain ⟨tx, htx, txs, htxs, rfl⟩ := Json.textMembersIndented_cons.mp h
      simp only [List.length_append, List.length_cons] at hfuel
      simp only [List.append_assoc, List.cons_append]
      have hvalue : scanOnce hooks fuel (skipSpace (.scalar ' ' :: (tx ++ .scalar ',' ::
          (newlineIndent level ++ (txs ++ (newlineIndent below ++ .scalar '}' :: rest)))))) =
            .ok (x, .scalar ',' :: (newlineIndent level ++ (txs ++ (newlineIndent below ++
              .scalar '}' :: rest)))) := by
        rw [skipSpace_blank, (starts_textIndented htx).skipSpace]
        exact scanOnce_textIndented x htx hkept.1 (endsNumber_cons (by decide) _) (by omega)
      refine scanMembers_next hooks hvalue rfl ?_
      rw [(starts_textMembersIndented htxs).skipSpace_newline]
      exact scanMembers_textIndented m ms htxs hkept.2 (by omega)
termination_by structural _ _ _ _ _ _ fuel => fuel

end

end

end Loads

/-- What `json.dumps` writes with indentation, and a line break after it, `json.loads` reads
back, with the members in key order. -/
theorem Json.loadsWith_dumpsIndented {ε : Type} (hooks : Hooks ε) {v : Json} {t : Str}
    (h : v.dumpsIndented = some t) (hkept : Loads.Kept hooks v.sorted) :
    Json.loadsWith hooks (t ++ [.scalar '\n']) = .ok v.sorted := by
  have hstarts := Loads.starts_textIndented h
  have hlength : t.length ≤ (t ++ [PyChar.scalar '\n']).length + 1 := by
    rw [List.length_append]
    omega
  have hscan := Loads.scanOnce_textIndented hooks v.sorted h hkept
    (Loads.endsNumber_cons (c := '\n') (by decide) []) hlength
  have hspace := hstarts.skipSpace [.scalar '\n']
  obtain ⟨c, t', rfl, hc⟩ := hstarts
  have hmark : ¬ ((.scalar c :: t' ++ [.scalar '\n'] : Str).head? =
      some (.scalar (Char.ofNat 0xFEFF))) := by
    intro hmark
    cases hmark
    revert hc
    decide
  rw [Json.loadsWith, if_neg hmark, hspace, hscan]
  rfl

end Python
