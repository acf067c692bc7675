import FastapiEffects.Python.Sorted
import FastapiEffects.Python.RoundTrip

/-! # Equality of JSON values

`==` on what `json.loads` returns: numbers are compared by value across their types, and
the order of the members of an object does not matter.
-/

namespace Python

namespace Json

/-- The value of a finite number; a `bool` is one. -/
def number? : Json → Option ℚ
  | .bool b => some (if b then 1 else 0)
  | .int n => some n
  | .float (.finite x) => some x.toRat
  | _ => none

mutual

/-- `a == b`. -/
def equals : Json → Json → Bool
  | .null, .null => true
  | .str a, .str b => a = b
  | .float (.inf a), .float (.inf b) => a = b
  | .arr a, .arr b => equalsItems a b
  | .obj a, .obj b => a.length = b.length && equalsMembers a b
  | a, b => a.number?.isSome && a.number? = b.number?

def equalsItems : List Json → List Json → Bool
  | [], [] => true
  | x :: xs, y :: ys => equals x y && equalsItems xs ys
  | _, _ => false

/-- Whether every member of the one object has an equal one in the other. -/
def equalsMembers : List (Str × Json) → List (Str × Json) → Bool
  | [], _ => true
  | (k, x) :: ms, ns => (ns.find? fun n => n.1 = k).any (fun n => equals x n.2)
      && equalsMembers ms ns

end

mutual

/-- No key stands twice in one object, and every float is finite. -/
def Plain : Json → Prop
  | .float x => x.isfinite = true
  | .arr items => PlainItems items
  | .obj members => (members.map Prod.fst).Nodup ∧ PlainMembers members
  | _ => True

def PlainItems : List Json → Prop
  | [] => True
  | x :: xs => Plain x ∧ PlainItems xs

def PlainMembers : List (Str × Json) → Prop
  | [] => True
  | (_, x) :: ms => Plain x ∧ PlainMembers ms

end

theorem plainItems_iff {items : List Json} : PlainItems items ↔ ∀ x ∈ items, x.Plain := by
  induction items with
  | nil => simp [PlainItems]
  | cons x xs ih => simp [PlainItems, ih]

theorem plainMembers_iff {members : List (Str × Json)} :
    PlainMembers members ↔ ∀ m ∈ members, m.2.Plain := by
  induction members with
  | nil => simp [PlainMembers]
  | cons m ms ih => simp [PlainMembers, ih]

theorem equalsMembers_iff {ms ns : List (Str × Json)} : equalsMembers ms ns = true ↔
    ∀ m ∈ ms, ∃ n, ns.find? (fun n => n.1 = m.1) = some n ∧ equals m.2 n.2 = true := by
  induction ms with
  | nil => simp [equalsMembers]
  | cons m ms ih =>
      obtain ⟨k, x⟩ := m
      simp only [equalsMembers, Bool.and_eq_true, Option.any_eq_true, ih, List.forall_mem_cons]

theorem equalsItems_iff {xs ys : List Json} : equalsItems xs ys = true ↔
    List.Forall₂ (fun x y => x.equals y = true) xs ys := by
  induction xs generalizing ys with
  | nil => cases ys <;> simp [equalsItems]
  | cons x xs ih => cases ys <;> simp [equalsItems, ih]

mutual

theorem equals_refl : ∀ v : Json, v.Plain → v.equals v = true
  | .null, _ => rfl
  | .bool b, _ => by simp [equals, number?]
  | .int n, _ => by simp [equals, number?]
  | .float (.finite x), _ => by simp [equals, number?]
  | .float (.inf b), _ => by simp [equals]
  | .float .nan, h => by cases h
  | .str s, _ => by simp [equals]
  | .arr items, h => by
      rw [equals]
      exact equalsItems_refl items h
  | .obj members, h => by
      have hmembers : equalsMembers members members = true :=
        equalsMembers_of_subset members members h.2 h.1 fun m hm => hm
      simp [equals, hmembers]

theorem equalsItems_refl : ∀ items : List Json, PlainItems items → equalsItems items items = true
  | [], _ => rfl
  | x :: xs, h => by
      rw [equalsItems, equals_refl x h.1, equalsItems_refl xs h.2]
      rfl

/-- Members of an object, each the member of that key. -/
theorem equalsMembers_of_subset : ∀ ms ns : List (Str × Json), PlainMembers ms →
    (ns.map Prod.fst).Nodup → (∀ m ∈ ms, m ∈ ns) → equalsMembers ms ns = true
  | [], _, _, _, _ => rfl
  | (k, x) :: ms, ns, h, hnodup, hsub => by
      have hfind : ns.find? (fun n => n.1 = k) = some (k, x) :=
        (find?_key_eq_some hnodup).mpr ⟨hsub _ List.mem_cons_self, rfl⟩
      have hrest := equalsMembers_of_subset ms ns h.2 hnodup
        fun m hm => hsub m (List.mem_cons_of_mem _ hm)
      rw [equalsMembers, hfind, hrest, Option.any_some, equals_refl x h.1]
      rfl

end

mutual

/-- The order of the members of the second value does not matter. -/
theorem equals_sorted : ∀ a b : Json, b.Plain → a.equals b.sorted = a.equals b
  | .null, b, _ => by cases b <;> rfl
  | .bool _, b, _ => by cases b <;> rfl
  | .int _, b, _ => by cases b <;> rfl
  | .float x, b, _ => by cases x <;> cases b <;> rfl
  | .str _, b, _ => by cases b <;> rfl
  | .arr items, b, h => by
      cases b with
      | arr items' => exact equalsItems_sorted items items' h
      | _ => rfl
  | .obj members, b, h => by
      cases b with
      | obj members' =>
          have hlength : (sortMembers (sortedMembers members')).length = members'.length := by
            have hkeys := congrArg List.length (keys_sortedMembers members')
            rw [List.length_map, List.length_map] at hkeys
            rw [(sortMembers_perm _).length_eq, hkeys]
          rw [sorted, equals, equals, hlength, equalsMembers_sorted members members' h]
      | _ => rfl

theorem equalsItems_sorted : ∀ as bs : List Json, PlainItems bs →
    equalsItems as (sortedItems bs) = equalsItems as bs
  | [], bs, _ => by cases bs <;> rfl
  | a :: as, [], _ => rfl
  | a :: as, b :: bs, h => by
      rw [sortedItems, equalsItems, equalsItems, equals_sorted a b h.1,
          equalsItems_sorted as bs h.2]

theorem equalsMembers_sorted : ∀ ms ns : List (Str × Json), (obj ns).Plain →
    equalsMembers ms (sortMembers (sortedMembers ns)) = equalsMembers ms ns
  | [], _, _ => rfl
  | (k, x) :: ms, ns, h => by
      have hfind := find?_sorted h.1 k
      rw [equalsMembers, equalsMembers, hfind, equalsMembers_sorted ms ns h]
      cases hmem : ns.find? fun n => n.1 = k with
      | none => rfl
      | some n =>
          have hn := plainMembers_iff.mp h.2 n (List.mem_of_find?_eq_some hmem)
          simp only [Option.map_some, Option.any_some, equals_sorted x n.2 hn]

end

/-! ## Members in key order -/

/-- The members of an object, and those below, in key order. -/
def inKeyOrder (members : List (Str × Json)) : List (Str × Json) :=
  sortMembers (sortedMembers members)

theorem sorted_obj (members : List (Str × Json)) : (obj members).sorted =
    obj (inKeyOrder members) :=
  rfl

theorem inKeyOrder_inKeyOrder (members : List (Str × Json)) :
    inKeyOrder (inKeyOrder members) = inKeyOrder members :=
  obj.inj (sorted_sorted (obj members))

theorem keys_inKeyOrder (members : List (Str × Json)) :
    ((inKeyOrder members).map Prod.fst).Perm (members.map Prod.fst) := by
  have hperm := (sortMembers_perm (sortedMembers members)).map Prod.fst
  rwa [keys_sortedMembers] at hperm

/-- A look-up finds the value in key order. -/
theorem getD_inKeyOrder {members : List (Str × Json)} (h : (members.map Prod.fst).Nodup) {key : Str}
    {value value' : Json} (hget : (obj members).get? key = some value)
    (hvalue : value.sorted = value') :
    ((obj (inKeyOrder members)).get? key).getD .null = value' := by
  have hsorted : (obj (inKeyOrder members)).get? key = ((obj members).get? key).map sorted :=
    get?_sorted h key
  rw [hsorted, hget, ← hvalue]
  rfl

/-! ## Sorting keeps a value plain -/

mutual

theorem plain_sorted : ∀ v : Json, v.Plain → v.sorted.Plain
  | .null, h => h
  | .bool _, h => h
  | .int _, h => h
  | .float _, h => h
  | .str _, h => h
  | .arr items, h => plainItems_sorted items h
  | .obj members, h => by
      have hperm := sortMembers_perm (sortedMembers members)
      have hmembers := plainMembers_iff.mp (plainMembers_sorted members h.2)
      refine ⟨(hperm.map Prod.fst).nodup_iff.mpr (keys_sortedMembers members ▸ h.1), ?_⟩
      exact plainMembers_iff.mpr fun m hm => hmembers m (hperm.mem_iff.mp hm)

theorem plainItems_sorted : ∀ items : List Json, PlainItems items → PlainItems (sortedItems items)
  | [], h => h
  | x :: xs, h => ⟨plain_sorted x h.1, plainItems_sorted xs h.2⟩

theorem plainMembers_sorted : ∀ members : List (Str × Json), PlainMembers members →
    PlainMembers (sortedMembers members)
  | [], h => h
  | (_, x) :: ms, h => ⟨plain_sorted x h.1, plainMembers_sorted ms h.2⟩

end

/-- A value is equal to itself with its members in key order. -/
theorem sorted_equals {v : Json} (h : v.Plain) : v.sorted.equals v = true := by
  rw [← equals_sorted _ _ h]
  exact equals_refl _ (plain_sorted v h)

end Json

namespace Loads

variable {ε : Type} {hooks : Hooks ε}

mutual

/-- A hook that takes every object of different keys takes every object of a plain value. -/
theorem kept_of_plain (hobject : ∀ ms : List (Str × Json), (ms.map Prod.fst).Nodup →
    hooks.object ms = .ok (.obj ms)) : ∀ v : Json, v.Plain → Kept hooks v
  | .null, _ => trivial
  | .bool _, _ => trivial
  | .int _, _ => trivial
  | .float _, _ => trivial
  | .str _, _ => trivial
  | .arr items, h => keptItems_of_plain hobject items h
  | .obj members, h => ⟨hobject members h.1, keptMembers_of_plain hobject members h.2⟩

theorem keptItems_of_plain (hobject : ∀ ms : List (Str × Json), (ms.map Prod.fst).Nodup →
    hooks.object ms = .ok (.obj ms)) : ∀ items : List Json, Json.PlainItems items →
      KeptItems hooks items
  | [], _ => trivial
  | x :: xs, h => ⟨kept_of_plain hobject x h.1, keptItems_of_plain hobject xs h.2⟩

theorem keptMembers_of_plain (hobject : ∀ ms : List (Str × Json), (ms.map Prod.fst).Nodup →
    hooks.object ms = .ok (.obj ms)) : ∀ members : List (Str × Json), Json.PlainMembers members →
      KeptMembers hooks members
  | [], _ => trivial
  | (_, x) :: ms, h => ⟨kept_of_plain hobject x h.1, keptMembers_of_plain hobject ms h.2⟩

end

end Loads

end Python
