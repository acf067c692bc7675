import FastapiEffects.Delegation.Keys

/-! # Key operations and what they record

`rotate` and `revoke` with the audit sink of the ring, which may raise. Both change the ring
first and build and record their event afterwards, so a call that raises leaves the ring alone
exactly when its own checks refuse it, or when nothing after the change raises.
-/

namespace FastapiEffects

open Python ReadCommitted

namespace InMemoryKeyRing

/-- A change of the ring, and the event that is built and recorded once it is made. -/
def recorded (sink : DelegationAuditEvent → Except PyError Unit) (ring : InMemoryKeyRing)
    (change : Except PyError InMemoryKeyRing) (event : DelegationAuditEvent) :
    Except PyError Unit × InMemoryKeyRing :=
  match change with
  | .error e => (.error e, ring)
  | .ok ring' => (event.postInit >>= fun _ => sink event, ring')

/-- `_aware`; a time without a zone is `none`. -/
def aware (now : Option Datetime) : Except PyError Datetime :=
  orRaise now (.configuration "Delegation key operation time must be timezone-aware.")

/-- `ring.rotate(...)` of a ring with an audit sink. -/
def rotateRecorded (sink : DelegationAuditEvent → Except PyError Unit) (ring : InMemoryKeyRing)
    (newKey : SigningKey) (now : Option Datetime) (overlap : Timedelta) (traceId : Option Str) :
    Except PyError Unit × InMemoryKeyRing :=
  match aware now with
  | .error e => (.error e, ring)
  | .ok now => ring.recorded sink (ring.rotated newKey now overlap)
      (keyEvent now .keyRotated newKey.keyId traceId)

/-- `ring.revoke(...)` of a ring with an audit sink. -/
def revokeRecorded (sink : DelegationAuditEvent → Except PyError Unit) (ring : InMemoryKeyRing)
    (keyId : Str) (now : Option Datetime) (traceId : Option Str) :
    Except PyError Unit × InMemoryKeyRing :=
  match aware now with
  | .error e => (.error e, ring)
  | .ok now =>
      if (ring.keys.get keyId).any (·.state = .revoked) then (.ok (), ring)
      else ring.recorded sink (ring.revoked keyId) (keyEvent now .keyRevoked keyId traceId)

/-- With the default sink they are the operations of the ring. -/
theorem rotateRecorded_noOp (ring : InMemoryKeyRing) (newKey : SigningKey) (now : Datetime)
    (overlap : Timedelta) (traceId : Option Str) :
    ring.rotateRecorded (fun _ => .ok ()) newKey (some now) overlap traceId =
      ring.rotate newKey now overlap traceId := by
  simp only [rotateRecorded, aware, orRaise, recorded, rotate, audited]
  rcases ring.rotated newKey now overlap with e | ring'
  · rfl
  · rcases (keyEvent now .keyRotated newKey.keyId traceId).postInit with e | _ <;> rfl

theorem revokeRecorded_noOp (ring : InMemoryKeyRing) (keyId : Str) (now : Datetime)
    (traceId : Option Str) : ring.revokeRecorded (fun _ => .ok ()) keyId (some now) traceId =
      ring.revoke keyId now traceId := by
  simp only [revokeRecorded, aware, orRaise, recorded, revoke, audited]
  split_ifs
  · rfl
  · rcases ring.revoked keyId with e | ring'
    · rfl
    · rcases (keyEvent now .keyRevoked keyId traceId).postInit with e | _ <;> rfl

end InMemoryKeyRing

/-! ## Requests -/

/-- A call of `rotate` or `revoke` with what the caller supplies. -/
inductive KeyRequest where
  | rotate (newKey : SigningKey) (now : Option Datetime) (overlap : Timedelta)
      (traceId : Option Str)
  | revoke (keyId : Str) (now : Option Datetime) (traceId : Option Str)

namespace KeyRequest

/-- What a call returns, and the ring it leaves. -/
def perform (sink : DelegationAuditEvent → Except PyError Unit) (ring : InMemoryKeyRing) :
    KeyRequest → Except PyError Unit × InMemoryKeyRing
  | rotate newKey now overlap traceId => ring.rotateRecorded sink newKey now overlap traceId
  | revoke keyId now traceId => ring.revokeRecorded sink keyId now traceId

def now : KeyRequest → Option Datetime
  | rotate _ now _ _ => now
  | revoke _ now _ => now

def traceId : KeyRequest → Option Str
  | rotate _ _ _ traceId => traceId
  | revoke _ _ traceId => traceId

/-- The event of a call at a time. -/
def event (now : Datetime) : KeyRequest → DelegationAuditEvent
  | rotate newKey _ _ traceId => InMemoryKeyRing.keyEvent now .keyRotated newKey.keyId traceId
  | revoke keyId _ traceId => InMemoryKeyRing.keyEvent now .keyRevoked keyId traceId

/-- What the call looks at before it changes the ring, and a second revocation. -/
def Refused (ring : InMemoryKeyRing) : KeyRequest → Prop
  | rotate newKey now overlap _ =>
      (∀ t ∈ now, ¬ Datetime.Valid (t + overlap)) ∨ newKey.state ≠ .active ∨
        (ring.keys.get newKey.keyId).isSome = true ∨ maxRingKeys ≤ ring.keys.rows.length ∨
        overlap < 1000000 ∨ ring.maximumOverlap < overlap ∨
        ring.keys.rows.countP (·.state = .active) ≠ 1
  | revoke keyId now _ =>
      now = none ∨ (ring.keys.get keyId).all (·.state = .revoked) = true

/-- Nothing that follows the change raises. -/
def Recordable (sink : DelegationAuditEvent → Except PyError Unit) (r : KeyRequest) : Prop :=
  r.traceId.all isDelegationIdentifier = true ∧ ∀ t ∈ r.now, sink (r.event t) = .ok ()

end KeyRequest

/-- A key is still one its constructor accepts when its state and times are other ones that fit. -/
theorem SigningKey.exists_make (key : SigningKey) {k : SigningKeyArgs} (hid : k.keyId = key.keyId)
    (hsecret : k.secret = key.secret)
    (hstate : (k.state = .revoked ∧ k.retiredAt = none ∧ k.verifyUntil = none) ∨
      ∃ retired until_, k.state = .retiring ∧ k.retiredAt = some retired ∧
        k.verifyUntil = some until_ ∧ retired < until_) :
    ∃ made, SigningKey.make k = .ok made := by
  have hvalid : k.postInit = .ok () := by
    have hkey := key.valid
    simp only [SigningKeyArgs.postInit, bind_eq_ok, check_eq_ok, decide_eq_true_eq] at hkey ⊢
    obtain ⟨-, hkeyId, -, hlength, -⟩ := hkey
    rw [← hid] at hkeyId
    rw [← hsecret] at hlength
    rcases hstate with ⟨hstate, hretired, huntil⟩ | ⟨retired, until_, hstate, hretired, huntil, hlt⟩
    · exact ⟨(), hkeyId, (), hlength, (), Or.inl (by simp [hstate]), Or.inr ⟨hretired, huntil⟩⟩
    · exact ⟨(), hkeyId, (), hlength, (), Or.inr ⟨retired, hretired, until_, huntil, hlt⟩,
        Or.inl hstate⟩
  unfold SigningKey.make
  split
  · exact ⟨_, rfl⟩
  · rename_i e herr
    rw [hvalid] at herr
    cases herr

namespace KeyRequest

variable {ring : InMemoryKeyRing} {sink : DelegationAuditEvent → Except PyError Unit}

/-- A key identity is one the events accept. -/
theorem isDelegationIdentifier_keyId (key : SigningKey) : isDelegationIdentifier key.keyId = true := by
  have hkey := key.valid
  simp only [SigningKeyArgs.postInit, bind_eq_ok, check_eq_ok] at hkey
  obtain ⟨-, hkeyId, -⟩ := hkey
  refine Str.fullmatch_mono (fun _ h => h) (fun c h => ?_) (by norm_num) hkeyId
  exact PyChar.isIn_mono (by simp) (by simp) h

/-- The event of a key is built exactly when its trace identity is one the events accept. -/
theorem postInit_keyEvent {now : Datetime} {outcome : DelegationAuditOutcome} {key : SigningKey}
    {traceId : Option Str} :
    (InMemoryKeyRing.keyEvent now outcome key.keyId traceId).postInit = .ok () ↔
      traceId.all isDelegationIdentifier = true := by
  have haudience : isDelegationIdentifier "delegation-keyring" = true := by decide
  simp [DelegationAuditEvent.postInit, InMemoryKeyRing.keyEvent, bind_eq_ok,
    isDelegationIdentifier_keyId, haudience]

/-! ## Changes that are made -/

/-- The ring has a key that signs when exactly one is active. -/
theorem exists_signingKey : (∃ old, ring.signingKey = .ok old) ↔
    ring.keys.rows.countP (·.state = .active) = 1 := by
  rw [List.countP_eq_length_filter]
  unfold InMemoryKeyRing.signingKey
  constructor
  · rintro ⟨old, hold⟩
    split at hold
    · rename_i key hfilter
      rw [hfilter]
      rfl
    · cases hold
  · intro hlength
    obtain ⟨key, hkey⟩ := List.length_eq_one_iff.mp hlength
    rw [hkey]
    exact ⟨key, rfl⟩

/-- A rotation is made unless it is refused. -/
theorem exists_rotated {newKey : SigningKey} {now : Datetime} {overlap : Timedelta}
    {traceId : Option Str} : (∃ ring', ring.rotated newKey now overlap = .ok ring') ↔
      ¬ Refused ring (.rotate newKey (some now) overlap traceId) := by
  simp only [Refused, InMemoryKeyRing.rotated, bind_eq_ok, check_eq_ok, decide_eq_true_eq,
    orRaise_eq_ok, not_or, not_lt, not_le, not_not, Option.mem_def, Option.some.injEq, forall_eq',
    ← exists_signingKey, Option.isNone_iff_eq_none, Bool.not_eq_true, Option.isSome_eq_false_iff,
    Datetime.add?_eq_some_iff]
  constructor
  · rintro ⟨ring', -, ⟨hactive, hfresh⟩, -, hroom, -, ⟨hlow, hhigh⟩, old, hold, -, ⟨hvalid, -⟩, -⟩
    exact ⟨hvalid, hactive, hfresh, hroom, hlow, hhigh, old, hold⟩
  · rintro ⟨hvalid, hactive, hfresh, hroom, hlow, hhigh, old, hold⟩
    obtain ⟨retired, hretired⟩ := old.exists_make (k := {
      old.toSigningKeyArgs with
      state := .retiring, retiredAt := some now, verifyUntil := some (now + overlap) }) rfl rfl
      (Or.inr ⟨now, now + overlap, rfl, rfl, rfl, Int.lt_add_of_pos_right now (lt_of_lt_of_le (by decide) hlow)⟩)
    exact ⟨_, (), ⟨hactive, hfresh⟩, (), hroom, (), ⟨hlow, hhigh⟩, old, hold, _, ⟨hvalid, rfl⟩,
      retired, hretired, rfl⟩

/-- A known key is revoked. -/
theorem exists_revoked {keyId : Str} :
    (∃ ring', ring.revoked keyId = .ok ring') ↔ (ring.keys.get keyId).isSome = true := by
  simp only [InMemoryKeyRing.revoked, bind_eq_ok, orRaise_eq_ok]
  constructor
  · rintro ⟨ring', key, hkey, -⟩
    rw [hkey]
    rfl
  · intro hsome
    obtain ⟨key, hkey⟩ := Option.isSome_iff_exists.mp hsome
    obtain ⟨dead, hdead⟩ := key.exists_make (k := {
      key.toSigningKeyArgs with state := .revoked, retiredAt := none, verifyUntil := none }) rfl rfl
      (Or.inl ⟨rfl, rfl, rfl⟩)
    exact ⟨_, key, hkey, dead, hdead, rfl⟩

/-- What returns of a change that is made. -/
theorem recorded_ok (sink : DelegationAuditEvent → Except PyError Unit) (ring : InMemoryKeyRing)
    {ring' : InMemoryKeyRing} {change : Except PyError InMemoryKeyRing}
    (h : change = .ok ring') (event : DelegationAuditEvent) :
    (ring.recorded sink change event).2 = ring' ∧
      ((ring.recorded sink change event).1 = .ok () ↔
        event.postInit = .ok () ∧ sink event = .ok ()) := by
  rw [h]
  refine ⟨rfl, ?_⟩
  simp only [InMemoryKeyRing.recorded, bind_eq_ok]
  constructor
  · rintro ⟨⟨⟩, hbuilt, hsink⟩
    exact ⟨hbuilt, hsink⟩
  · rintro ⟨hbuilt, hsink⟩
    exact ⟨(), hbuilt, hsink⟩

/-- What a call can do: it is refused and leaves the ring, or it changes the ring and returns
what building and recording the event does. -/
theorem perform_cases (sink : DelegationAuditEvent → Except PyError Unit) (ring : InMemoryKeyRing)
    (r : KeyRequest) :
    (Refused ring r ∧ (r.perform sink ring).2 = ring) ∨
      (¬ Refused ring r ∧ (r.perform sink ring).2 ≠ ring ∧
        ((r.perform sink ring).1 = .ok () ↔ r.Recordable sink)) := by
  by_cases hrefused : Refused ring r
  · left
    refine ⟨hrefused, ?_⟩
    rcases r with ⟨newKey, _ | now, overlap, traceId⟩ | ⟨keyId, _ | now, traceId⟩
    · rfl
    · rcases hrotated : ring.rotated newKey now overlap with e | ring'
      · simp [perform, InMemoryKeyRing.rotateRecorded, InMemoryKeyRing.aware, orRaise,
          InMemoryKeyRing.recorded, hrotated]
      · exact absurd hrefused (exists_rotated.mp ⟨ring', hrotated⟩)
    · rfl
    · simp only [perform, InMemoryKeyRing.revokeRecorded, InMemoryKeyRing.aware, orRaise]
      split_ifs with hrevoked
      · rfl
      · rcases hkey : ring.keys.get keyId with _ | key
        · simp [InMemoryKeyRing.recorded, InMemoryKeyRing.revoked, orRaise, hkey, bind, Except.bind]
        · -- a key that is known and not revoked is no reason to refuse
          simp [Refused, hkey] at hrefused
          simp [hkey, hrefused] at hrevoked
  · right
    refine ⟨hrefused, ?_⟩
    rcases r with ⟨newKey, _ | now, overlap, traceId⟩ | ⟨keyId, _ | now, traceId⟩
    · simp [Refused] at hrefused
    · obtain ⟨ring', hrotated⟩ := exists_rotated.mpr hrefused
      obtain ⟨hleaves, hreturns⟩ := recorded_ok sink ring hrotated
        (InMemoryKeyRing.keyEvent now .keyRotated newKey.keyId traceId)
      obtain ⟨old, retired, h⟩ := InMemoryKeyRing.rotated_eq_ok hrotated
      have hnew : ring'.keys.get newKey.keyId = some newKey := by
        rw [h.result, get_put_key, if_pos rfl]
      refine ⟨?_, ?_⟩
      · rintro heq
        have hsame : ring' = ring := hleaves.symm.trans heq
        rw [hsame, h.fresh] at hnew
        cases hnew
      · refine hreturns.trans ?_
        rw [postInit_keyEvent]
        simp [Recordable, KeyRequest.traceId, KeyRequest.now, event]
    · simp [Refused] at hrefused
    · simp only [Refused, reduceCtorEq, false_or] at hrefused
      rcases hkey : ring.keys.get keyId with _ | key
      · simp [hkey] at hrefused
      · have halive : key.state ≠ .revoked := by simpa [hkey] using hrefused
        have hid : key.keyId = keyId := Table.key_of_get hkey
        obtain ⟨ring', hrevoked⟩ : ∃ ring', ring.revoked keyId = .ok ring' :=
          exists_revoked.mpr (by rw [hkey]; rfl)
        obtain ⟨hleaves, hreturns⟩ := recorded_ok sink ring hrevoked
          (InMemoryKeyRing.keyEvent now .keyRevoked keyId traceId)
        have hperform : perform sink ring (.revoke keyId (some now) traceId) =
            ring.recorded sink (ring.revoked keyId)
              (InMemoryKeyRing.keyEvent now .keyRevoked keyId traceId) := by
          simp [perform, InMemoryKeyRing.revokeRecorded, InMemoryKeyRing.aware, orRaise, hkey, halive]
        have hdead : ∃ dead : SigningKey, dead.state = .revoked ∧ ring'.keys.get keyId = some dead := by
          simp only [InMemoryKeyRing.revoked, bind_eq_ok, orRaise_eq_ok] at hrevoked
          obtain ⟨key', hkey', dead, hmake, hring⟩ := hrevoked
          rw [hkey] at hkey'
          cases hkey'
          cases hring
          have hfields := SigningKey.make_eq_ok hmake
          refine ⟨dead, congrArg SigningKeyArgs.state hfields, ?_⟩
          rw [get_put_key, if_pos ((congrArg SigningKeyArgs.keyId hfields).trans hid)]
        rw [hperform]
        refine ⟨?_, ?_⟩
        · intro heq
          have hsame : ring' = ring := hleaves.symm.trans heq
          obtain ⟨dead, hstate, hget⟩ := hdead
          rw [hsame, hkey] at hget
          cases hget
          exact halive hstate
        · refine hreturns.trans ?_
          rw [← hid, postInit_keyEvent, hid]
          simp [Recordable, KeyRequest.traceId, KeyRequest.now, event]

/-- A call that raises leaves the ring as it was when its own checks refuse it or when nothing
after the change raises, and otherwise not. -/
theorem key_request_atomic (sink : DelegationAuditEvent → Except PyError Unit)
    (ring : InMemoryKeyRing) (r : KeyRequest) :
    (∀ e, (r.perform sink ring).1 = .error e → (r.perform sink ring).2 = ring) ↔
      Refused ring r ∨ r.Recordable sink := by
  rcases perform_cases sink ring r with ⟨hrefused, hsame⟩ | ⟨hmade, hchanged, hok⟩
  · exact ⟨fun _ => Or.inl hrefused, fun _ _ _ => hsame⟩
  · constructor
    · intro hatomic
      rcases hresult : (r.perform sink ring).1 with e | _
      · exact absurd (hatomic e hresult) hchanged
      · exact Or.inr (hok.mp hresult)
    · rintro (hrefused | hrecordable) e herr
      · exact absurd hrefused hmade
      · rw [hok.mpr hrecordable] at herr
        cases herr

/-- A rotation whose trace identity has a space in it: the event is refused after the change, and
the new key stays in the ring. -/
theorem rotation_half_done : ¬ ∀ ring r e,
    (perform (fun _ => .ok ()) ring r).1 = .error e →
      (perform (fun _ => .ok ()) ring r).2 = ring := by
  intro h
  have hsame := h TwoKeys.ring (.rotate TwoKeys.second (some 1000000) 60000000 (some "a b"))
    (.configuration "Delegation audit identity is invalid.") (by decide +kernel)
  have hlength := congrArg (fun ring : InMemoryKeyRing => ring.keys.rows.length) hsame
  revert hlength
  decide +kernel

end KeyRequest

end FastapiEffects
