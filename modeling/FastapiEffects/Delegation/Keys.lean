import FastapiEffects.Delegation.Audit
import FastapiEffects.ReadCommitted.Table

/-! # The delegation key ring

`SigningKey` and `InMemoryKeyRing`: one active key signs, a rotation lets the old key
verify for a bounded overlap, and a revocation ends it. The ring's `dict` is a table
whose key is the key ID.
-/

namespace FastapiEffects

open Python ReadCommitted

/-! ## Keys -/

/-- `_KEY_ID`. -/
def isKeyId (s : Str) : Bool :=
  s.fullmatch (PyChar.isIn [('A', 'Z'), ('a', 'z'), ('0', '9')] [])
    (PyChar.isIn [('A', 'Z'), ('a', 'z'), ('0', '9')] ['.', '_', '-']) 127

/-- `SigningKeyState`. -/
inductive SigningKeyState where
  | active
  | retiring
  | revoked
deriving DecidableEq, Repr

/-- The arguments of `SigningKey(...)`. -/
structure SigningKeyArgs where
  keyId : Str
  secret : Bytes
  state : SigningKeyState := .active
  retiredAt : Option Datetime := none
  verifyUntil : Option Datetime := none
deriving DecidableEq

/-- `SigningKey.__post_init__`. -/
def SigningKeyArgs.postInit (k : SigningKeyArgs) : Except PyError Unit := do
  check (isKeyId k.keyId) (.configuration "Delegation signing key ID is invalid.")
  check (32 ≤ k.secret.length ∧ k.secret.length ≤ 128)
    (.configuration "Delegation signing key material is invalid.")
  check (k.state ≠ .retiring ∨ ∃ retired ∈ k.retiredAt, ∃ until_ ∈ k.verifyUntil, retired < until_)
    (.configuration "A retiring key requires a valid overlap interval.")
  check (k.state = .retiring ∨ (k.retiredAt = none ∧ k.verifyUntil = none))
    (.configuration "Only retiring keys accept retirement times.")

/-- `SigningKey`. -/
structure SigningKey extends SigningKeyArgs where
  valid : toSigningKeyArgs.postInit = .ok ()
deriving DecidableEq

namespace SigningKey

/-- `SigningKey(...)`. -/
def make (k : SigningKeyArgs) : Except PyError SigningKey :=
  match h : k.postInit with
  | .ok () => .ok ⟨k, h⟩
  | .error e => .error e

theorem make_eq_ok {k : SigningKeyArgs} {key : SigningKey} (h : make k = .ok key) :
    key.toSigningKeyArgs = k := by
  unfold make at h
  split at h
  · cases h
    rfl
  · cases h

end SigningKey

instance : Schema Str SigningKey := ⟨fun k => k.keyId, fun _ _ => false, fun _ _ => rfl⟩

/-- `keys[key_id]` after an assignment. -/
theorem get_put_key (keys : Table Str SigningKey) (key : SigningKey) (keyId : Str) :
    (keys.put key).get keyId = if key.keyId = keyId then some key else keys.get keyId :=
  Table.get_put keys key keyId

/-! ## The ring -/

/-- `InMemoryKeyRing`. -/
structure InMemoryKeyRing where
  keys : Table Str SigningKey
  maximumOverlap : Timedelta

/-- An hour. -/
def maxKeyOverlap : Timedelta := 3600000000

/-- The longest ring. -/
def maxRingKeys : ℕ := 16

namespace InMemoryKeyRing

/-- `InMemoryKeyRing(...)`. -/
def make (keys : List SigningKey) (maximumOverlap : Timedelta := 600000000) :
    Except PyError InMemoryKeyRing := do
  check (keys ≠ [] ∧ keys.length ≤ maxRingKeys)
    (.configuration "Delegation key ring size is invalid.")
  let keyed ← orRaise
    (if h : (keys.map Schema.key).Nodup then some (⟨keys, h⟩ : Table Str SigningKey) else none)
    (.configuration "Delegation key ring repeats a key ID.")
  check (keys.countP (·.state = .active) = 1)
    (.configuration "Delegation key ring requires exactly one active key.")
  check (1000000 ≤ maximumOverlap ∧ maximumOverlap ≤ maxKeyOverlap)
    (.configuration "Delegation key overlap policy is invalid.")
  check (keys.all fun k => k.state ≠ .retiring ∨ ∀ retired ∈ k.retiredAt,
      ∀ until_ ∈ k.verifyUntil, until_ - retired ≤ maximumOverlap)
    (.configuration "Delegation retiring key overlap is excessive.")
  return ⟨keyed, maximumOverlap⟩

/-- `ring.signing_key(now)`. -/
def signingKey (ring : InMemoryKeyRing) : Except PyError SigningKey :=
  match ring.keys.rows.filter (·.state = .active) with
  | [key] => .ok key
  | _ => .error (.configuration "Delegation signing is disabled without an active key.")

/-- `ring.verification_key(key_id, now)`. -/
def verificationKey (ring : InMemoryKeyRing) (keyId : Str) (now : Datetime) : Option SigningKey :=
  match ring.keys.get keyId with
  | none => none
  | some key =>
      if key.state = .revoked then none
      else if key.state = .retiring ∧ ∃ until_ ∈ key.verifyUntil, until_ ≤ now then none
      else some key

/-- `_key_event`. -/
def keyEvent (now : Datetime) (outcome : DelegationAuditOutcome) (keyId : Str)
    (traceId : Option Str) : DelegationAuditEvent where
  occurredAt := now
  outcome := outcome
  tenantId := none
  subjectId := none
  audience := "delegation-keyring"
  targetId := keyId
  scopes := []
  keyId := some keyId
  traceId := traceId

/-- The keys after a rotation. -/
def rotated (ring : InMemoryKeyRing) (newKey : SigningKey) (now : Datetime) (overlap : Timedelta) :
    Except PyError InMemoryKeyRing := do
  check (newKey.state = .active ∧ (ring.keys.get newKey.keyId).isNone)
    (.configuration "Delegation rotation key is invalid or repeated.")
  check (ring.keys.rows.length < maxRingKeys)
    (.configuration "Delegation key ring size is invalid.")
  check (1000000 ≤ overlap ∧ overlap ≤ ring.maximumOverlap)
    (.configuration "Delegation rotation overlap is invalid.")
  let old ← ring.signingKey
  let until_ ← orRaise (Datetime.add? now overlap) .overflow
  let retired ← SigningKey.make {
    old.toSigningKeyArgs with
    state := .retiring, retiredAt := some now, verifyUntil := some until_ }
  return { ring with keys := (ring.keys.put retired).put newKey }

/-- The keys after a revocation. -/
def revoked (ring : InMemoryKeyRing) (keyId : Str) : Except PyError InMemoryKeyRing := do
  let key ← orRaise (ring.keys.get keyId)
    (.configuration "Delegation revocation key is unknown.")
  let dead ← SigningKey.make {
    key.toSigningKeyArgs with state := .revoked, retiredAt := none, verifyUntil := none }
  return { ring with keys := ring.keys.put dead }

/-- A change of the ring and its audit event, which may raise when the change is made. -/
def audited (ring : InMemoryKeyRing) (change : Except PyError InMemoryKeyRing)
    (event : DelegationAuditEvent) : Except PyError Unit × InMemoryKeyRing :=
  match change with
  | .ok ring' => (event.postInit, ring')
  | .error e => (.error e, ring)

/-- `ring.rotate(...)`: what it returns, and the ring it leaves. -/
def rotate (ring : InMemoryKeyRing) (newKey : SigningKey) (now : Datetime) (overlap : Timedelta)
    (traceId : Option Str) : Except PyError Unit × InMemoryKeyRing :=
  ring.audited (ring.rotated newKey now overlap) (keyEvent now .keyRotated newKey.keyId traceId)

/-- `ring.revoke(...)`; a key that is revoked already is no event. -/
def revoke (ring : InMemoryKeyRing) (keyId : Str) (now : Datetime) (traceId : Option Str) :
    Except PyError Unit × InMemoryKeyRing :=
  if (ring.keys.get keyId).any (·.state = .revoked) then (.ok (), ring)
  else ring.audited (ring.revoked keyId) (keyEvent now .keyRevoked keyId traceId)

end InMemoryKeyRing

/-- The calls that change a ring. -/
inductive KeyCall where
  | rotate (newKey : SigningKey) (now : Datetime) (overlap : Timedelta) (traceId : Option Str)
  | revoke (keyId : Str) (now : Datetime) (traceId : Option Str)

/-- The ring after a call, whether it raises or not. -/
def KeyCall.run (ring : InMemoryKeyRing) : KeyCall → InMemoryKeyRing
  | .rotate newKey now overlap traceId => (ring.rotate newKey now overlap traceId).2
  | .revoke keyId now traceId => (ring.revoke keyId now traceId).2

/-- The ring after a sequence of calls. -/
def InMemoryKeyRing.run (ring : InMemoryKeyRing) (calls : List KeyCall) : InMemoryKeyRing :=
  calls.foldl KeyCall.run ring

/-! ## What a call does -/

namespace InMemoryKeyRing

variable {ring ring' : InMemoryKeyRing}

/-- The key that signs is the only active one. -/
theorem signingKey_eq_ok {key : SigningKey} (h : ring.signingKey = .ok key) :
    ring.keys.get key.keyId = some key ∧ key.state = .active ∧
      ∀ k ∈ ring.keys.rows, k.state = .active → k = key := by
  have hactive : ring.keys.rows.filter (·.state = .active) = [key] := by
    unfold signingKey at h
    split at h
    · rename_i k hfilter
      cases h
      exact hfilter
    · cases h
  have hiff : ∀ k, k ∈ ring.keys.rows ∧ k.state = .active ↔ k = key := by
    intro k
    have hmem : k ∈ ring.keys.rows.filter (·.state = .active) ↔ k ∈ [key] := by rw [hactive]
    simpa using hmem
  obtain ⟨hmem, hstate⟩ := (hiff key).mpr rfl
  exact ⟨Table.mem_iff_get.mp hmem, hstate, fun k hk hactive => (hiff k).mp ⟨hk, hactive⟩⟩

/-- A rotation that is made. -/
structure Rotates (ring ring' : InMemoryKeyRing) (newKey : SigningKey) (now : Datetime)
    (overlap : Timedelta) (old retired : SigningKey) : Prop where
  active : newKey.state = .active
  fresh : ring.keys.get newKey.keyId = none
  short : overlap ≤ ring.maximumOverlap
  signing : ring.signingKey = .ok old
  retires : retired.toSigningKeyArgs = {
    old.toSigningKeyArgs with
    state := .retiring, retiredAt := some now, verifyUntil := some (now + overlap) }
  result : ring' = { ring with keys := (ring.keys.put retired).put newKey }

theorem rotated_eq_ok {newKey : SigningKey} {now : Datetime} {overlap : Timedelta}
    (h : ring.rotated newKey now overlap = .ok ring') :
    ∃ old retired, Rotates ring ring' newKey now overlap old retired := by
  simp only [rotated, bind_eq_ok, check_eq_ok, decide_eq_true_eq, orRaise_eq_ok,
    Option.isNone_iff_eq_none] at h
  obtain ⟨-, ⟨hactive, hfresh⟩, -, -, -, ⟨-, hshort⟩, old, hsigning, until_, huntil, retired,
    hretired, hring⟩ := h
  cases hring
  rw [Datetime.add?_eq_some huntil] at hretired
  exact ⟨old, retired, hactive, hfresh, hshort, hsigning, SigningKey.make_eq_ok hretired, rfl⟩

/-- A revocation that is made. -/
structure Revokes (ring ring' : InMemoryKeyRing) (key dead : SigningKey) : Prop where
  known : ring.keys.get key.keyId = some key
  dies : dead.toSigningKeyArgs = {
    key.toSigningKeyArgs with state := .revoked, retiredAt := none, verifyUntil := none }
  result : ring' = { ring with keys := ring.keys.put dead }

/-- One key at most is active, and no key outlives its retirement by more than the longest
overlap. -/
structure Inv (ring : InMemoryKeyRing) : Prop where
  active : ∀ k ∈ ring.keys.rows, ∀ k' ∈ ring.keys.rows, k.state = .active → k'.state = .active →
    k = k'
  overlap : ∀ k ∈ ring.keys.rows, k.state = .retiring → ∀ retired ∈ k.retiredAt,
    ∀ until_ ∈ k.verifyUntil, until_ ≤ retired + ring.maximumOverlap

/-- The keys after a rotation. -/
theorem Rotates.mem {newKey old retired : SigningKey} {now : Datetime} {overlap : Timedelta}
    (h : Rotates ring ring' newKey now overlap old retired) {k : SigningKey}
    (hk : k ∈ ring'.keys.rows) :
    k = newKey ∨ k = retired ∨ (k ∈ ring.keys.rows ∧ k.keyId ≠ old.keyId) := by
  have hid : retired.keyId = old.keyId := by rw [h.retires]
  rw [h.result] at hk
  rcases Table.mem_put.mp hk with rfl | ⟨hk, -⟩
  · exact Or.inl rfl
  · rcases Table.mem_put.mp hk with rfl | ⟨hk, hne⟩
    · exact Or.inr (Or.inl rfl)
    · exact Or.inr (Or.inr ⟨hk, hid ▸ hne⟩)

/-- A key keeps its material; once it retires it stays as it is until it is revoked, and a
revoked key stays revoked. -/
structure Ages (k k' : SigningKey) : Prop where
  keyId : k'.keyId = k.keyId
  secret : k'.secret = k.secret
  revoked : k.state = .revoked → k'.state = .revoked
  retiring : k.state = .retiring → k' = k ∨ k'.state = .revoked

theorem Ages.refl (k : SigningKey) : Ages k k := ⟨rfl, rfl, id, fun _ => Or.inl rfl⟩

theorem Ages.trans {k k' k'' : SigningKey} (h : Ages k k') (h' : Ages k' k'') : Ages k k'' := by
  refine ⟨h'.keyId.trans h.keyId, h'.secret.trans h.secret, fun hr => h'.revoked (h.revoked hr), ?_⟩
  intro hretiring
  rcases h.retiring hretiring with rfl | hrevoked
  · exact h'.retiring hretiring
  · exact Or.inr (h'.revoked hrevoked)

end InMemoryKeyRing

/-! ## The lifecycle of the keys -/

section Lifecycle

open InMemoryKeyRing

/-- A key verifies by its own state and time. -/
theorem InMemoryKeyRing.verificationKey_of_get {ring : InMemoryKeyRing} {keyId : Str}
    {k : SigningKey} (h : ring.keys.get keyId = some k) (t : Datetime) :
    ring.verificationKey keyId t = if k.state = .revoked then none
      else if k.state = .retiring ∧ ∃ until_ ∈ k.verifyUntil, until_ ≤ t then none
      else some k := by
  rw [verificationKey, h]

/-- A ring of one key, which a second one replaces before it is revoked. -/
def TwoKeys.first : SigningKey := ⟨{ keyId := "k1", secret := List.replicate 32 1 }, by decide⟩

def TwoKeys.second : SigningKey := ⟨{ keyId := "k2", secret := List.replicate 32 2 }, by decide⟩

def TwoKeys.ring : InMemoryKeyRing := ⟨⟨[first], List.nodup_singleton _⟩, 600000000⟩

end Lifecycle

end FastapiEffects
