import Mathlib.Data.List.Nodup
import Mathlib.Tactic.Common

/-! # Tables with a primary key

A table holds its rows in a list, in some physical order, and carries the proof
that no two rows share a primary key. Reading by key, replacing a row and
removing a row are the only operations; every later proof about a table goes
through `get_put`, `get_erase` and the membership lemmas below.
-/

namespace ReadCommitted

/-- What a schema says of a row: its primary key, and which pairs of rows a
further unique constraint keeps from being stored together. -/
class Schema (κ : outParam Type) (ρ : Type) where
  key : ρ → κ
  clash : ρ → ρ → Bool
  clash_comm : ∀ r r', clash r r' = clash r' r

/-- `r` has the primary key of `r₀` and the columns the unique constraints are about. -/
def Schema.Keeps {κ ρ : Type} [Schema κ ρ] (r₀ r : ρ) : Prop :=
  (Schema.key r : κ) = Schema.key r₀ ∧ ∀ r', Schema.clash r r' = Schema.clash r₀ r'

/-- The rows of a database, no two with the same primary key. -/
structure Table (κ ρ : Type) [Schema κ ρ] where
  rows : List ρ
  nodup : (rows.map Schema.key).Nodup

namespace Table

variable {κ ρ : Type} [DecidableEq κ] [Schema κ ρ]

/-- The table without rows. -/
def empty : Table κ ρ := ⟨[], List.nodup_nil⟩

/-- The row stored under a key. -/
def get (t : Table κ ρ) (x : κ) : Option ρ :=
  t.rows.find? fun r => Schema.key r = x

/-- Replace the row with the key of `r`, or add `r` when there is none. -/
def put (t : Table κ ρ) (r : ρ) : Table κ ρ where
  rows := r :: t.rows.filter fun r' => Schema.key r' ≠ Schema.key r
  nodup := by
    rw [List.map_cons, List.nodup_cons]
    refine ⟨?_, (List.filter_sublist.map _).nodup t.nodup⟩
    intro hmem
    obtain ⟨r', hr', hkey⟩ := List.mem_map.mp hmem
    simpa [hkey] using List.of_mem_filter hr'

/-- Remove the row under a key. -/
def erase (t : Table κ ρ) (x : κ) : Table κ ρ where
  rows := t.rows.filter fun r => Schema.key r ≠ x
  nodup := (List.filter_sublist.map _).nodup t.nodup

theorem key_of_get {t : Table κ ρ} {x : κ} {r : ρ} (h : t.get x = some r) :
    Schema.key r = x := by
  simpa using List.find?_some h

theorem mem_of_get {t : Table κ ρ} {x : κ} {r : ρ} (h : t.get x = some r) : r ∈ t.rows :=
  List.mem_of_find?_eq_some h

/-- A key finds exactly the row that carries it. -/
theorem mem_iff_get {t : Table κ ρ} {r : ρ} : r ∈ t.rows ↔ t.get (Schema.key r) = some r := by
  constructor
  · intro hr
    rw [get, List.find?_eq_some_iff_append]
    obtain ⟨as, bs, hsplit⟩ := List.append_of_mem hr
    refine ⟨by simp, as, bs, hsplit, ?_⟩
    intro a ha
    have hnodup := t.nodup
    rw [hsplit, List.map_append, List.map_cons, List.nodup_middle] at hnodup
    have hne : Schema.key r ∉ (as ++ bs).map Schema.key := by
      simpa using (List.nodup_cons.mp hnodup).1
    have hka : Schema.key a ≠ Schema.key r := by
      intro heq
      exact hne (List.mem_map.mpr ⟨a, List.mem_append_left _ ha, heq⟩)
    simpa using hka
  · exact mem_of_get

theorem get_eq_none_iff {t : Table κ ρ} {x : κ} :
    t.get x = none ↔ ∀ r ∈ t.rows, Schema.key r ≠ x := by
  simp [get, List.find?_eq_none]

theorem eq_of_key_eq {t : Table κ ρ} {r r' : ρ} (hr : r ∈ t.rows) (hr' : r' ∈ t.rows)
    (h : (Schema.key r : κ) = Schema.key r') : r = r' := by
  have h1 := mem_iff_get.mp hr
  rw [h, mem_iff_get.mp hr'] at h1
  exact (Option.some.inj h1).symm

@[simp] theorem get_empty (x : κ) : (empty : Table κ ρ).get x = none := rfl

@[simp] theorem mem_put {t : Table κ ρ} {r r' : ρ} :
    r' ∈ (t.put r).rows ↔ r' = r ∨ (r' ∈ t.rows ∧ (Schema.key r' : κ) ≠ Schema.key r) := by
  simp [put]

@[simp] theorem mem_erase {t : Table κ ρ} {x : κ} {r : ρ} :
    r ∈ (t.erase x).rows ↔ r ∈ t.rows ∧ Schema.key r ≠ x := by
  simp [erase]

/-- Reading after a replacement. -/
theorem get_put (t : Table κ ρ) (r : ρ) (x : κ) :
    (t.put r).get x = if Schema.key r = x then some r else t.get x := by
  by_cases hx : Schema.key r = x
  · simp [get, put, hx]
  · simp only [get, put, List.find?_cons, hx, decide_false, if_false]
    rw [List.find?_filter]
    congr 1
    funext r'
    by_cases hr' : Schema.key r' = x
    · have hne : x ≠ Schema.key r := fun h => hx h.symm
      simp [hr', hne]
    · simp [hr']

/-- Reading after a removal. -/
theorem get_erase (t : Table κ ρ) (x y : κ) :
    (t.erase x).get y = if y = x then none else t.get y := by
  by_cases hy : y = x
  · subst hy
    simp [get_eq_none_iff]
  · simp only [get, erase, hy, if_false]
    rw [List.find?_filter]
    congr 1
    funext r'
    by_cases hr' : Schema.key r' = y
    · simp [hr', hy]
    · simp [hr']

@[simp] theorem get_put_self (t : Table κ ρ) (r : ρ) : (t.put r).get (Schema.key r) = some r := by
  simp [get_put]

/-- Remove the rows under some keys. -/
def eraseAll (t : Table κ ρ) (xs : List κ) : Table κ ρ := xs.foldl erase t

@[simp] theorem eraseAll_nil (t : Table κ ρ) : t.eraseAll [] = t := rfl

@[simp] theorem mem_eraseAll {t : Table κ ρ} {xs : List κ} {r : ρ} :
    r ∈ (t.eraseAll xs).rows ↔ r ∈ t.rows ∧ Schema.key r ∉ xs := by
  induction xs generalizing t with
  | nil => simp
  | cons x xs ih =>
      change r ∈ ((t.erase x).eraseAll xs).rows ↔ _
      rw [ih, mem_erase, List.mem_cons, not_or, and_assoc]

theorem length_eraseAll_le (t : Table κ ρ) (xs : List κ) :
    (t.eraseAll xs).rows.length ≤ t.rows.length := by
  induction xs generalizing t with
  | nil => exact Nat.le_refl _
  | cons x xs ih => exact Nat.le_trans (ih (t.erase x)) (List.length_filter_le _ _)

/-- Removing a stored row makes a table smaller. -/
theorem length_eraseAll_lt {t : Table κ ρ} {xs : List κ} {r : ρ} (hr : r ∈ t.rows)
    (hx : Schema.key r ∈ xs) : (t.eraseAll xs).rows.length < t.rows.length := by
  induction xs generalizing t with
  | nil => cases hx
  | cons x xs ih =>
      change ((t.erase x).eraseAll xs).rows.length < _
      by_cases hkey : (Schema.key r : κ) = x
      · have herased : (t.erase x).rows.length < t.rows.length := by
          refine List.length_filter_lt_length_iff_exists.mpr ⟨r, hr, ?_⟩
          simp [hkey]
        exact Nat.lt_of_le_of_lt (length_eraseAll_le _ xs) herased
      · have hlater : Schema.key r ∈ xs := (List.mem_cons.mp hx).resolve_left hkey
        exact Nat.lt_of_lt_of_le (ih (mem_erase.mpr ⟨hr, hkey⟩) hlater) (List.length_filter_le _ _)

end Table

/-- One pending change of a transaction. -/
inductive Write (κ ρ : Type) where
  | put (r : ρ)
  | erase (x : κ)

namespace Write

variable {κ ρ : Type} [DecidableEq κ] [Schema κ ρ]

/-- The key of the row a change touches. -/
def target : Write κ ρ → κ
  | .put r => Schema.key r
  | .erase x => x

/-- Install one change. -/
def apply (t : Table κ ρ) : Write κ ρ → Table κ ρ
  | .put r => t.put r
  | .erase x => t.erase x

end Write

namespace Table

variable {κ ρ : Type} [DecidableEq κ] [Schema κ ρ]

/-- Install the changes of a transaction in the order it made them. -/
def install (t : Table κ ρ) (ws : List (Write κ ρ)) : Table κ ρ :=
  ws.foldl Write.apply t

@[simp] theorem install_nil (t : Table κ ρ) : t.install [] = t := rfl

@[simp] theorem install_append (t : Table κ ρ) (ws vs : List (Write κ ρ)) :
    t.install (ws ++ vs) = (t.install ws).install vs := by
  simp [install, List.foldl_append]

@[simp] theorem install_put (t : Table κ ρ) (r : ρ) (ws : List (Write κ ρ)) :
    t.install (.put r :: ws) = (t.put r).install ws := rfl

@[simp] theorem install_erase (t : Table κ ρ) (x : κ) (ws : List (Write κ ρ)) :
    t.install (.erase x :: ws) = (t.erase x).install ws := rfl

/-- Changes to other rows leave a row as it is. -/
theorem get_install_of_forall_ne {t : Table κ ρ} {ws : List (Write κ ρ)} {x : κ}
    (h : ∀ w ∈ ws, w.target ≠ x) : (t.install ws).get x = t.get x := by
  induction ws generalizing t with
  | nil => rfl
  | cons w ws ih =>
      have hw : w.target ≠ x := h w (by simp)
      have hws : ∀ v ∈ ws, v.target ≠ x := fun v hv => h v (by simp [hv])
      cases w with
      | put r =>
          rw [install_put, ih hws, get_put]
          simp only [Write.target] at hw
          simp [hw]
      | erase y =>
          rw [install_erase, ih hws, get_erase]
          simp only [Write.target] at hw
          simp [Ne.symm hw]

/-- What a transaction sees of a row is determined by the row and its changes. -/
theorem get_install_congr {t t' : Table κ ρ} {x : κ} (h : t.get x = t'.get x)
    (ws : List (Write κ ρ)) : (t.install ws).get x = (t'.install ws).get x := by
  induction ws generalizing t t' with
  | nil => exact h
  | cons w ws ih =>
      cases w with
      | put r => exact ih (by simp only [Write.apply, get_put, h])
      | erase y => exact ih (by simp only [Write.apply, get_erase, h])

/-- What a transaction sees of a row it changed does not depend on the stored row. -/
theorem get_install_of_mem {t t' : Table κ ρ} {x : κ} {ws : List (Write κ ρ)}
    (h : ∃ w ∈ ws, w.target = x) : (t.install ws).get x = (t'.install ws).get x := by
  induction ws generalizing t t' with
  | nil => simp at h
  | cons w ws ih =>
      by_cases hlater : ∃ v ∈ ws, v.target = x
      · exact ih hlater
      · have hw : w.target = x := by
          obtain ⟨v, hv, hx⟩ := h
          rcases List.mem_cons.mp hv with rfl | hv
          · exact hx
          · exact absurd ⟨v, hv, hx⟩ hlater
        subst hw
        cases w with
        | put r => exact get_install_congr (by simp [Write.apply, Write.target]) ws
        | erase y => exact get_install_congr (by simp [Write.apply, get_erase, Write.target]) ws

end Table

end ReadCommitted
