import FastapiEffects.Python.Str
import FastapiEffects.Python.Float

/-! # JSON values

What `json.loads` returns and `json.dumps` accepts. An object lists its members in
insertion order, and reading a text keeps a key that stands twice at its first place.
-/

namespace Python

/-- A JSON value as Python holds it. -/
inductive Json where
  | null
  | bool (b : Bool)
  | int (n : ℤ)
  | float (x : PyFloat)
  | str (s : Str)
  | arr (items : List Json)
  | obj (members : List (Str × Json))

namespace Json

/-! ## Decidable equality -/

mutual

/-- Equality of two values, member for member. -/
def beq : Json → Json → Bool
  | .null, .null => true
  | .bool a, .bool b => a = b
  | .int a, .int b => a = b
  | .float a, .float b => a = b
  | .str a, .str b => a = b
  | .arr a, .arr b => beqItems a b
  | .obj a, .obj b => beqMembers a b
  | _, _ => false

def beqItems : List Json → List Json → Bool
  | [], [] => true
  | x :: xs, y :: ys => beq x y && beqItems xs ys
  | _, _ => false

def beqMembers : List (Str × Json) → List (Str × Json) → Bool
  | [], [] => true
  | (k, x) :: xs, (l, y) :: ys => decide (k = l) && beq x y && beqMembers xs ys
  | _, _ => false

end

mutual

theorem beq_iff : ∀ a b : Json, a.beq b = true ↔ a = b
  | .null, b => by cases b <;> simp [beq]
  | .bool a, b => by cases b <;> simp [beq]
  | .int a, b => by cases b <;> simp [beq]
  | .float a, b => by cases b <;> simp [beq]
  | .str a, b => by cases b <;> simp [beq]
  | .arr a, b => by cases b <;> simp [beq, beqItems_iff a]
  | .obj a, b => by cases b <;> simp [beq, beqMembers_iff a]

theorem beqItems_iff : ∀ a b : List Json, beqItems a b = true ↔ a = b
  | [], b => by cases b <;> simp [beqItems]
  | x :: xs, b => by cases b <;> simp [beqItems, beq_iff x, beqItems_iff xs]

theorem beqMembers_iff : ∀ a b : List (Str × Json), beqMembers a b = true ↔ a = b
  | [], b => by cases b <;> simp [beqMembers]
  | (k, x) :: xs, b => by
      rcases b with _ | ⟨⟨l, y⟩, ys⟩ <;>
        simp [beqMembers, beq_iff x, beqMembers_iff xs]

end

instance : DecidableEq Json := fun a b => decidable_of_iff _ (beq_iff a b)

/-! ## Reading a value -/

/-- `value[key]` of an object; `none` when there is no such member. -/
def get? : Json → Str → Option Json
  | .obj members, key => (members.find? fun m => m.1 = key).map (·.2)
  | _, _ => none

end Json

end Python
