import FastapiEffects.Python.Str
import Mathlib.Algebra.Ring.Nat

/-! # UUIDs -/

namespace Python

/-- A `UUID`; the order is that of the 128-bit number. -/
abbrev UUID := BitVec 128

/-- The lower-case hexadecimal digit of a number below 16. -/
def hexDigit (n : ℕ) : Char := Char.ofNat (if n < 10 then 48 + n else 87 + n)

/-- `n.to_bytes(length, "big")`. -/
def toBytesBig (length n : ℕ) : Bytes :=
  (List.range length).map fun i => UInt8.ofNat (n / 256 ^ (length - 1 - i))

namespace UUID

/-- `u.bytes`. -/
def bytes (u : UUID) : Bytes := toBytesBig 16 u.toNat

/-- `u.hex`: 32 digits. -/
def hex (u : UUID) : Str :=
  (List.range 32).map fun i => .scalar (hexDigit (u.toNat / 16 ^ (31 - i) % 16))

/-- `str(u)`: the digits in groups of 8, 4, 4, 4 and 12. -/
def str (u : UUID) : Str :=
  let h := u.hex
  h.take 8 ++ "-" ++ (h.drop 8).take 4 ++ "-" ++ (h.drop 12).take 4 ++ "-" ++
    (h.drop 16).take 4 ++ "-" ++ h.drop 20

@[simp] theorem length_hex (u : UUID) : u.hex.length = 32 := by simp [hex]

@[simp] theorem length_str (u : UUID) : u.str.length = 36 := by
  simp [str, Str.ofString]

end UUID

end Python
