import FastapiEffects.Python.Time
import FastapiEffects.Sqlalchemy.Canonical

/-! # Delegation audit events

`DelegationAuditEvent` and its checks, which every delegation operation runs after its
own work. The default sink drops the events, so a check that raises is all they do.
-/

namespace FastapiEffects

open Python

/-- `_VALUE`, which is also `_IDENTIFIER`. -/
def isDelegationIdentifier (s : Str) : Bool :=
  s.fullmatch (PyChar.isIn [('A', 'Z'), ('a', 'z'), ('0', '9')] [])
    (PyChar.isIn [('A', 'Z'), ('a', 'z'), ('0', '9')] ['.', '_', ':', '/', '-']) 255

/-- `DelegationAuditOutcome`. -/
inductive DelegationAuditOutcome where
  | issued
  | allowed
  | denied
  | keyRotated
  | keyRevoked
deriving DecidableEq, Repr

/-- `DelegationAuditEvent`. -/
structure DelegationAuditEvent where
  occurredAt : Datetime
  outcome : DelegationAuditOutcome
  tenantId : Option UUID
  subjectId : Option Str
  audience : Str
  targetId : Str
  scopes : List Str
  keyId : Option Str
  actorId : Option Str := none
  clientId : Option Str := none
  tokenId : Option UUID := none
  delegationDepth : Option ℤ := none
  traceId : Option Str := none
deriving DecidableEq

/-- `DelegationAuditEvent.__post_init__`. -/
def DelegationAuditEvent.postInit (e : DelegationAuditEvent) : Except PyError Unit := do
  check ([e.subjectId, e.actorId, e.clientId, some e.audience, some e.targetId, e.keyId,
      e.traceId].all fun value => value.all isDelegationIdentifier)
    (.configuration "Delegation audit identity is invalid.")
  check (e.scopes.length ≤ 128 ∧ e.scopes.all isDelegationIdentifier)
    (.configuration "Delegation audit scopes are invalid.")
  check (e.delegationDepth.all fun depth => 1 ≤ depth ∧ depth ≤ 16)
    (.configuration "Delegation audit depth is invalid.")

/-- `s.encode("utf-8", errors="replace")`: a lone surrogate becomes a question mark. -/
def encodeReplace (s : Str) : Bytes :=
  s.flatMap fun c => String.utf8EncodeChar (c.scalar?.getD '?')

/-- `digest.hex()`. -/
def hexBytes (bs : Bytes) : Str :=
  bs.flatMap fun b => [.scalar (hexDigit (b.toNat / 16)), .scalar (hexDigit (b.toNat % 16))]

/-- `delegation_target_id`. -/
def delegationTargetId [Platform] (method path : Str) : Str :=
  "target:" ++ hexBytes (Platform.sha256
    (encodeReplace (method ++ .scalar (Char.ofNat 0) :: path))).toList

/-! ## Accepted events -/

theorem isDelegationIdentifier_hexDigit (n : ℕ) (h : n < 16) :
    PyChar.isIn [('A', 'Z'), ('a', 'z'), ('0', '9')] ['.', '_', ':', '/', '-']
      (.scalar (hexDigit n)) = true := by
  revert n
  decide

/-- A target identity is one the events accept. -/
theorem isDelegationIdentifier_targetId [Platform] (method path : Str) :
    isDelegationIdentifier (delegationTargetId method path) = true := by
  obtain ⟨digest, hdigest⟩ : ∃ digest : Bytes, digest = (Platform.sha256
    (encodeReplace (method ++ .scalar (Char.ofNat 0) :: path))).toList := ⟨_, rfl⟩
  have hlen : digest.length = 32 := by simp [hdigest]
  have hhex : ∀ c ∈ hexBytes digest, PyChar.isIn [('A', 'Z'), ('a', 'z'), ('0', '9')]
      ['.', '_', ':', '/', '-'] c = true := by
    intro c hc
    obtain ⟨b, -, hb⟩ := List.mem_flatMap.mp hc
    have hlt := b.toNat_lt
    rcases List.mem_cons.mp hb with rfl | hb
    · exact isDelegationIdentifier_hexDigit _ (by omega)
    · rw [List.mem_singleton.mp hb]
      exact isDelegationIdentifier_hexDigit _ (by omega)
  have hcount : (hexBytes digest).length = 64 := by
    rw [hexBytes, List.length_flatMap]
    simp [hlen]
  have hprefix : ∀ c ∈ Str.ofString "arget:", PyChar.isIn [('A', 'Z'), ('a', 'z'), ('0', '9')]
      ['.', '_', ':', '/', '-'] c = true := by decide
  have htext : delegationTargetId method path =
      .scalar 't' :: (Str.ofString "arget:" ++ hexBytes digest) := by
    rw [hdigest]
    rfl
  have hfirst : PyChar.isIn [('A', 'Z'), ('a', 'z'), ('0', '9')] [] (.scalar 't') = true := by
    decide
  have hcap : (Str.ofString "arget:" ++ hexBytes digest).length ≤ 255 := by
    rw [List.length_append, hcount]
    decide
  rw [htext, isDelegationIdentifier, Str.fullmatch, hfirst, decide_eq_true hcap, Bool.true_and,
    Bool.true_and, List.all_eq_true]
  intro c hc
  rcases List.mem_append.mp hc with hc | hc
  · exact hprefix c hc
  · exact hhex c hc

end FastapiEffects
