import FastapiEffects.Python.Dumps

/-! # Reading JSON

`json.loads`: the scanner of the standard library with its two hooks, one for the
members of an object in the order they stand and one for `NaN` and the infinities.
`fuel` bounds the nesting of calls; the length of the text is always enough.
-/

namespace Python

/-- Why `json.loads` raises: `JSONDecodeError`, the `ValueError` of an integer of
more than 4300 digits, or what a hook raised. -/
inductive LoadError (ε : Type) where
  | malformed
  | value
  | hook (e : ε)
deriving DecidableEq

/-- `object_pairs_hook` and `parse_constant`. -/
structure Hooks (ε : Type) where
  object : List (Str × Json) → Except ε Json
  constant : PyFloat → Except ε Json

namespace Loads

variable {ε : Type}

/-- What a hook answers. -/
def ofHook {α : Type} : Except ε α → Except (LoadError ε) α
  | .ok a => .ok a
  | .error e => .error (.hook e)

/-! ## Strings -/

/-- The value of a hexadecimal digit. -/
def hexValue? (c : PyChar) : Option ℕ :=
  if c.between '0' '9' then some (c.ord - 48)
  else if c.between 'a' 'f' then some (c.ord - 87)
  else if c.between 'A' 'F' then some (c.ord - 55)
  else none

/-- The code unit of `\uXXXX`. -/
def hex4? (a b c d : PyChar) : Option ℕ := do
  return ((← hexValue? a) * 16 + (← hexValue? b)) * 256 + ((← hexValue? c) * 16 + (← hexValue? d))

/-- The code point of a code unit that stands alone. -/
def unitChar (u : ℕ) : PyChar :=
  if h : 0xD800 ≤ u ∧ u < 0xE000 then .surrogate ⟨u - 0xD800, by omega⟩ else .scalar (Char.ofNat u)

/-- Two escaped surrogates that form a pair are one code point. The flag marks the
code points that came from `\uXXXX`. -/
def joinPairs : List (Bool × PyChar) → Str
  | (true, .surrogate hi) :: (true, .surrogate lo) :: rest =>
      if hi.val < 0x400 ∧ 0x400 ≤ lo.val then
        .scalar (Char.ofNat (0x10000 + hi * 0x400 + (lo - 0x400))) :: joinPairs rest
      else .surrogate hi :: joinPairs ((true, .surrogate lo) :: rest)
  | (_, c) :: rest => c :: joinPairs rest
  | [] => []

/-- What a simple escape stands for. -/
def unescape? : PyChar → Option Char
  | .scalar '"' => some '"'
  | .scalar '\\' => some '\\'
  | .scalar '/' => some '/'
  | .scalar 'b' => some (Char.ofNat 8)
  | .scalar 'f' => some (Char.ofNat 12)
  | .scalar 'n' => some '\n'
  | .scalar 'r' => some '\r'
  | .scalar 't' => some '\t'
  | _ => none

/-- The code points before the closing quote, and the rest. -/
def scanUnits : Str → Except (LoadError ε) (List (Bool × PyChar) × Str)
  | [] => .error .malformed
  | .scalar '"' :: rest => .ok ([], rest)
  | .scalar '\\' :: .scalar 'u' :: a :: b :: c :: d :: rest =>
      match hex4? a b c d with
      | none => .error .malformed
      | some u => (scanUnits rest).map fun r => ((true, unitChar u) :: r.1, r.2)
  | .scalar '\\' :: c :: rest =>
      match unescape? c with
      | none => .error .malformed
      | some x => (scanUnits rest).map fun r => ((false, .scalar x) :: r.1, r.2)
  | c :: rest =>
      if c.ord < 32 ∨ c = .scalar '\\' then .error .malformed
      else (scanUnits rest).map fun r => ((false, c) :: r.1, r.2)

/-- `scanstring`: the text before the closing quote, and the rest. -/
def scanString (s : Str) : Except (LoadError ε) (Str × Str) :=
  (scanUnits s).map fun r => (joinPairs r.1, r.2)

/-! ## Numbers -/

/-- The leading ASCII digits of a text, and the rest. -/
def spanDigits : Str → List Char × Str
  | .scalar c :: rest =>
      if c.isDigit then ((c :: (spanDigits rest).1), (spanDigits rest).2) else ([], .scalar c :: rest)
  | rest => ([], rest)

/-- `0|[1-9][0-9]*`. -/
def scanInteger (s : Str) : Option (List Char × Str) :=
  match spanDigits s with
  | ([], _) => none
  | ('0' :: _, _) => some (['0'], s.tail)
  | (ds, rest) => some (ds, rest)

/-- `(\.[0-9]+)?`: the digits of the fraction. -/
def scanFraction : Str → Option (List Char) × Str
  | .scalar '.' :: rest =>
      match spanDigits rest with
      | ([], _) => (none, .scalar '.' :: rest)
      | (ds, rest') => (some ds, rest')
  | s => (none, s)

/-- The sign of an exponent. -/
def scanSign : Str → Bool × Str
  | .scalar '-' :: rest => (true, rest)
  | .scalar '+' :: rest => (false, rest)
  | s => (false, s)

/-- `([eE][-+]?[0-9]+)?`: the exponent. -/
def scanExponent : Str → Option ℤ × Str
  | .scalar c :: rest =>
      if c = 'e' ∨ c = 'E' then
        match spanDigits (scanSign rest).2 with
        | ([], _) => (none, .scalar c :: rest)
        | (ds, rest') =>
            let n : ℤ := Nat.ofDigitChars 10 ds 0
            (some (if (scanSign rest).1 then -n else n), rest')
      else (none, .scalar c :: rest)
  | s => (none, s)

/-- `match_number`, after an optional minus sign. -/
def scanNumber (negative : Bool) (s : Str) : Option (Except (LoadError ε) (Json × Str)) :=
  (scanInteger s).map fun (ds, rest) =>
    let (fraction, rest') := scanFraction rest
    let (exponent, rest'') := scanExponent rest'
    if fraction = none ∧ exponent = none then
      if ds.length ≤ maxStrDigits then
        let n : ℤ := Nat.ofDigitChars 10 ds 0
        .ok (.int (if negative then -n else n), rest'')
      else .error .value
    else
      let fs := fraction.getD []
      let d : Decimal := ⟨Nat.ofDigitChars 10 (ds ++ fs) 0, exponent.getD 0 - fs.length⟩
      .ok (.float (.nearest negative d.value), rest'')

/-! ## Values -/

/-- `WHITESPACE.match`. -/
def skipSpace (s : Str) : Str := s.dropWhile fun c => c.isIn [] [' ', '\t', '\n', '\r']

/-- The rest of a text after a literal. -/
def afterLiteral (literal : String) (s : Str) : Option Str :=
  let l : Str := literal
  if l.isPrefixOf s then some (s.drop l.length) else none

variable (hooks : Hooks ε)

/-- `null`, `true`, `false`, a number, or a constant. -/
def scanScalar (s : Str) : Except (LoadError ε) (Json × Str) :=
  let constant (x : PyFloat) (rest : Str) : Except (LoadError ε) (Json × Str) :=
    (ofHook (hooks.constant x)).map fun v => (v, rest)
  let number : Option (Except (LoadError ε) (Json × Str)) :=
    match s with
    | .scalar '-' :: rest => scanNumber true rest
    | _ => scanNumber false s
  match number with
  | some r => r
  | none =>
      match afterLiteral "null" s, afterLiteral "true" s, afterLiteral "false" s with
      | some rest, _, _ => .ok (.null, rest)
      | _, some rest, _ => .ok (.bool true, rest)
      | _, _, some rest => .ok (.bool false, rest)
      | none, none, none =>
          match afterLiteral "NaN" s, afterLiteral "Infinity" s, afterLiteral "-Infinity" s with
          | some rest, _, _ => constant .nan rest
          | _, some rest, _ => constant (.inf false) rest
          | _, _, some rest => constant (.inf true) rest
          | none, none, none => .error .malformed

mutual

/-- `scan_once`. -/
def scanOnce : ℕ → Str → Except (LoadError ε) (Json × Str)
  | 0, _ => .error .malformed
  | fuel + 1, s =>
      match s with
      | .scalar '"' :: rest => (scanString rest).map fun r => (.str r.1, r.2)
      | .scalar '{' :: rest =>
          match skipSpace rest with
          | .scalar '}' :: rest' => (ofHook (hooks.object [])).map fun v => (v, rest')
          | rest' => do
              let (members, rest'') ← scanMembers fuel rest'
              return (← ofHook (hooks.object members), rest'')
      | .scalar '[' :: rest =>
          match skipSpace rest with
          | .scalar ']' :: rest' => .ok (.arr [], rest')
          | rest' => (scanItems fuel rest').map fun r => (.arr r.1, r.2)
      | _ => scanScalar hooks s

/-- The members of an object up to its closing brace; at least one. -/
def scanMembers : ℕ → Str → Except (LoadError ε) (List (Str × Json) × Str)
  | 0, _ => .error .malformed
  | fuel + 1, s =>
      match s with
      | .scalar '"' :: rest => do
          let (key, afterKey) ← scanString rest
          match skipSpace afterKey with
          | .scalar ':' :: afterColon => do
              let (value, afterValue) ← scanOnce fuel (skipSpace afterColon)
              match skipSpace afterValue with
              | .scalar '}' :: rest' => return ([(key, value)], rest')
              | .scalar ',' :: rest' => do
                  let (members, rest'') ← scanMembers fuel (skipSpace rest')
                  return ((key, value) :: members, rest'')
              | _ => .error .malformed
          | _ => .error .malformed
      | _ => .error .malformed

/-- The items of an array up to its closing bracket; at least one. -/
def scanItems : ℕ → Str → Except (LoadError ε) (List Json × Str)
  | 0, _ => .error .malformed
  | fuel + 1, s => do
      let (value, afterValue) ← scanOnce fuel s
      match skipSpace afterValue with
      | .scalar ']' :: rest' => return ([value], rest')
      | .scalar ',' :: rest' => do
          let (items, rest'') ← scanItems fuel (skipSpace rest')
          return (value :: items, rest'')
      | _ => .error .malformed

end

end Loads

/-- `dict(pairs)`: a key keeps its first place and takes its last value. -/
def dictOf (pairs : List (Str × Json)) : List (Str × Json) :=
  pairs.foldl (fun members p =>
    if members.any fun m => m.1 = p.1 then
      members.map fun m => if m.1 = p.1 then p else m
    else members ++ [p]) []

/-- `json.loads(text, object_pairs_hook=..., parse_constant=...)`. -/
def Json.loadsWith {ε : Type} (hooks : Hooks ε) (text : Str) : Except (LoadError ε) Json :=
  if text.head? = some (.scalar (Char.ofNat 0xFEFF)) then .error .malformed
  else
    match Loads.scanOnce hooks (text.length + 1) (Loads.skipSpace text) with
    | .error e => .error e
    | .ok (value, rest) => if Loads.skipSpace rest = [] then .ok value else .error .malformed

/-- `json.loads(text)`. -/
def Json.loads (text : Str) : Except (LoadError Unit) Json :=
  Json.loadsWith ⟨fun pairs => .ok (.obj (dictOf pairs)), fun x => .ok (.float x)⟩ text

end Python
