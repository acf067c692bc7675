import FastapiEffects.Python.Uuid

/-! # SHA-1 and the UUIDs of names

`hashlib.sha1`, and `uuid5`, which names a text within a namespace.
-/

namespace Python

namespace Sha1

/-- A message with a one bit, zeros and its length in bits behind it. -/
def padded (message : Bytes) : Bytes :=
  message ++ 0x80 :: List.replicate ((119 - message.length % 64) % 64) 0 ++
    toBytesBig 8 (8 * message.length)

/-- A word of four bytes, the most significant first. -/
def word (bs : Bytes) : BitVec 32 := BitVec.ofNat 32 (bs.foldl (fun n b => 256 * n + b.toNat) 0)

/-- The words of a block. -/
def blockWords (block : Bytes) : List (BitVec 32) :=
  (List.range 16).map fun i => word ((block.drop (4 * i)).take 4)

/-- The schedule up to `n` more words, the last of them first. -/
def extend : ℕ → List (BitVec 32) → List (BitVec 32)
  | 0, ws => ws
  | n + 1, ws =>
      extend n ((ws.getD 2 0 ^^^ ws.getD 7 0 ^^^ ws.getD 13 0 ^^^ ws.getD 15 0).rotateLeft 1 :: ws)

/-- The 80 words of a block. -/
def schedule (block : Bytes) : List (BitVec 32) := (extend 64 (blockWords block).reverse).reverse

/-- The chaining value. -/
structure State where
  a : BitVec 32
  b : BitVec 32
  c : BitVec 32
  d : BitVec 32
  e : BitVec 32
deriving DecidableEq

def State.start : State := ⟨0x67452301, 0xEFCDAB89, 0x98BADCFE, 0x10325476, 0xC3D2E1F0⟩

/-- The function and the constant of a round. -/
def State.mix (s : State) (t : ℕ) : BitVec 32 :=
  if t < 20 then (s.b &&& s.c ||| ~~~s.b &&& s.d) + 0x5A827999
  else if t < 40 then (s.b ^^^ s.c ^^^ s.d) + 0x6ED9EBA1
  else if t < 60 then (s.b &&& s.c ||| s.b &&& s.d ||| s.c &&& s.d) + 0x8F1BBCDC
  else (s.b ^^^ s.c ^^^ s.d) + 0xCA62C1D6

def State.round (s : State) (t : ℕ) (w : BitVec 32) : State :=
  ⟨s.a.rotateLeft 5 + s.mix t + s.e + w, s.a, s.b.rotateLeft 30, s.c, s.d⟩

def State.add (s s' : State) : State :=
  ⟨s.a + s'.a, s.b + s'.b, s.c + s'.c, s.d + s'.d, s.e + s'.e⟩

/-- The rounds of a block. -/
def State.compress (s : State) (block : Bytes) : State :=
  s.add ((schedule block).zipIdx.foldl (fun s w => s.round w.2 w.1) s)

def State.bytes (s : State) : Bytes :=
  [s.a, s.b, s.c, s.d, s.e].flatMap fun w => toBytesBig 4 w.toNat

/-- `hashlib.sha1(message).digest()`. -/
def digest (message : Bytes) : Bytes :=
  let p := padded message
  ((List.range (p.length / 64)).foldl
    (fun s i => s.compress ((p.drop (64 * i)).take 64)) State.start).bytes

end Sha1

/-- `NAMESPACE_URL`. -/
def namespaceUrl : UUID := 0x6ba7b8119dad11d180b400c04fd430c8

/-- `uuid5(namespace, name)`; a name that UTF-8 cannot encode raises. No proof looks into it. -/
@[irreducible] def uuid5 (space : UUID) (name : Str) : Option UUID :=
  name.encode?.map fun bytes =>
    let digest := (Sha1.digest (space.bytes ++ bytes)).take 16
    -- the version and the variant take the place of six bits of the digest
    let number : UUID := BitVec.ofNat 128 (digest.foldl (fun n b => 256 * n + b.toNat) 0)
    number &&& ~~~0xF000C000000000000000 ||| 0x50008000000000000000

end Python
