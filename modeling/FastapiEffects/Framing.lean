import Mathlib.Data.List.Infix

/-! # Lines and blank lines

Text in lines that two marks end, `cr` and `lf`, up to its first blank line: `splitBlank` finds
the end of the lines, and `lines` takes them apart. Lines that hold no `cr` and are not empty are
read back, whatever follows the blank line.
-/

namespace Framing

variable {α : Type} [DecidableEq α] (cr lf : α)

omit [DecidableEq α] in
/-- What holds of the parts and of the separator holds of all of a text. -/
theorem forall_mem_intercalate {sep : List α} {parts : List (List α)} {p : α → Prop}
    (hsep : ∀ c ∈ sep, p c) (hparts : ∀ part ∈ parts, ∀ c ∈ part, p c) :
    ∀ c ∈ sep.intercalate parts, p c := by
  induction parts with
  | nil => exact fun c hc => absurd hc List.not_mem_nil
  | cons part rest ih =>
      obtain ⟨hpart, hrest⟩ := List.forall_mem_cons.mp hparts
      cases rest with
      | nil => simpa using hpart
      | cons part' rest =>
          rw [List.intercalate_cons_cons]
          intro c hc
          rcases List.mem_append.mp hc with hc | hc
          · rcases List.mem_append.mp hc with hc | hc
            · exact hpart c hc
            · exact hsep c hc
          · exact ih hrest c hc

/-- Put `c` in front of the first line. -/
def push (c : α) : List (List α) → List (List α)
  | [] => [[c]]
  | line :: rest => (c :: line) :: rest

/-- The lines of a text. -/
def lines : List α → List (List α)
  | [] => [[]]
  | [c] => [[c]]
  | c :: d :: rest =>
      if c = cr ∧ d = lf then [] :: lines rest else push c (lines (d :: rest))

/-- What stands before the first blank line, and what follows it. -/
def splitBlank : List α → Option (List α × List α)
  | [] => none
  | c :: rest =>
      if [cr, lf, cr, lf].isPrefixOf (c :: rest) then some ([], rest.drop 3)
      else (splitBlank rest).map fun parts => (c :: parts.1, parts.2)

variable {cr lf} {line rest body : List α} {ls : List (List α)}

theorem lines_append (h : cr ∉ line) :
    lines cr lf (line ++ cr :: lf :: rest) = line :: lines cr lf rest := by
  induction line with
  | nil => rw [List.nil_append, lines, if_pos ⟨rfl, rfl⟩]
  | cons c line ih =>
      have hc : c ≠ cr := fun heq => h (heq ▸ List.mem_cons_self)
      have ih := ih (List.not_mem_of_not_mem_cons h)
      cases line with
      | nil =>
          rw [List.nil_append] at ih
          rw [List.singleton_append, lines, if_neg fun heq => hc heq.1, ih]
          rfl
      | cons d line =>
          rw [List.cons_append] at ih
          rw [List.cons_append, List.cons_append, lines, if_neg fun heq => hc heq.1, ih]
          rfl

theorem lines_eq_singleton (h : cr ∉ line) : lines cr lf line = [line] := by
  induction line with
  | nil => rfl
  | cons c line ih =>
      have hc : c ≠ cr := fun heq => h (heq ▸ List.mem_cons_self)
      have ih := ih (List.not_mem_of_not_mem_cons h)
      cases line with
      | nil => rfl
      | cons d line =>
          rw [lines, if_neg fun heq => hc heq.1, ih]
          rfl

/-- Lines that are joined are taken apart again. -/
theorem lines_intercalate (hne : ls ≠ []) (h : ∀ line ∈ ls, cr ∉ line) :
    lines cr lf ([cr, lf].intercalate ls) = ls := by
  induction ls with
  | nil => exact absurd rfl hne
  | cons line rest ih =>
      obtain ⟨hline, hrest⟩ := List.forall_mem_cons.mp h
      cases rest with
      | nil => simpa using lines_eq_singleton hline
      | cons line' rest =>
          have ih := ih (List.cons_ne_nil _ _) hrest
          rw [List.intercalate_cons_cons, List.append_assoc]
          show lines cr lf (line ++ cr :: lf :: [cr, lf].intercalate (line' :: rest)) = _
          rw [lines_append hline, ih]

/-- There is no blank line inside a line. -/
theorem splitBlank_append (h : cr ∉ line) :
    splitBlank cr lf (line ++ rest) =
      (splitBlank cr lf rest).map fun parts => (line ++ parts.1, parts.2) := by
  induction line with
  | nil => simp
  | cons c line ih =>
      have hc : cr ≠ c := fun heq => h (heq ▸ List.mem_cons_self)
      have ih := ih (List.not_mem_of_not_mem_cons h)
      have hprefix : [cr, lf, cr, lf].isPrefixOf (c :: (line ++ rest)) = false := by
        simp [List.isPrefixOf, hc]
      rw [List.cons_append, splitBlank, hprefix, if_neg Bool.false_ne_true, ih, Option.map_map]
      rfl

/-- Nor between a line and the next one. -/
theorem splitBlank_crlf {c : α} (hmarks : cr ≠ lf) (hc : c ≠ cr) :
    splitBlank cr lf (cr :: lf :: c :: rest) =
      (splitBlank cr lf (c :: rest)).map fun parts => (cr :: lf :: parts.1, parts.2) := by
  have hfirst : [cr, lf, cr, lf].isPrefixOf (cr :: lf :: c :: rest) = false := by
    simp [List.isPrefixOf, hc.symm]
  have hsecond : [cr, lf, cr, lf].isPrefixOf (lf :: c :: rest) = false := by
    simp [List.isPrefixOf, hmarks]
  rw [splitBlank, hfirst, if_neg Bool.false_ne_true, splitBlank, hsecond,
    if_neg Bool.false_ne_true, Option.map_map]
  rfl

omit [DecidableEq α] in
theorem intercalate_append_eq_cons (h : cr ∉ line) (hne : line ≠ []) :
    ∃ c tail, [cr, lf].intercalate (line :: ls) ++ rest = c :: tail ∧ c ≠ cr := by
  obtain ⟨c, tail, rfl⟩ := List.exists_cons_of_ne_nil hne
  have hc : c ≠ cr := fun heq => h (heq ▸ List.mem_cons_self)
  cases ls with
  | nil => exact ⟨c, tail ++ rest, by simp, hc⟩
  | cons line' ls =>
      refine ⟨c, tail ++ [cr, lf] ++ [cr, lf].intercalate (line' :: ls) ++ rest, ?_, hc⟩
      rw [List.intercalate_cons_cons]
      simp

/-- A head of lines that are not empty ends with its blank line. -/
theorem splitBlank_intercalate (hmarks : cr ≠ lf) (hne : ls ≠ [])
    (h : ∀ line ∈ ls, cr ∉ line ∧ line ≠ []) :
    splitBlank cr lf ([cr, lf].intercalate ls ++ cr :: lf :: cr :: lf :: body) =
      some ([cr, lf].intercalate ls, body) := by
  have hblank : splitBlank cr lf (cr :: lf :: cr :: lf :: body) = some ([], body) := by
    rw [splitBlank, if_pos (by simp [List.isPrefixOf])]
    rfl
  induction ls with
  | nil => exact absurd rfl hne
  | cons line rest ih =>
      obtain ⟨⟨hline, -⟩, hrest⟩ := List.forall_mem_cons.mp h
      cases rest with
      | nil =>
          have hone : [cr, lf].intercalate [line] = line := by simp
          rw [hone, splitBlank_append hline, hblank, Option.map_some, List.append_nil]
      | cons line' rest =>
          have ih := ih (List.cons_ne_nil _ _) hrest
          -- the next line starts with something else than a mark
          obtain ⟨hline', hne'⟩ := hrest line' List.mem_cons_self
          obtain ⟨c, tail, hcons, hc⟩ := intercalate_append_eq_cons hline' hne'
          rw [List.intercalate_cons_cons, List.append_assoc, List.append_assoc,
            splitBlank_append hline]
          show (splitBlank cr lf (cr :: lf ::
            ([cr, lf].intercalate (line' :: rest) ++ cr :: lf :: cr :: lf :: body))).map _ = _
          rw [hcons, splitBlank_crlf hmarks hc, ← hcons, ih]
          simp

end Framing
