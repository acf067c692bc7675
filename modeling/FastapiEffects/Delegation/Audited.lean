import FastapiEffects.Delegation.Verified
import FastapiEffects.Python.UuidText

/-! # What a verification records

`DelegationVerifier.verify` with the audit events it hands to a sink that does not raise, and the
trace identity that the FastAPI dependency reads out of a request. The events have checks of
their own, on values that the caller and the request supply.
-/

namespace FastapiEffects

open Python

section

variable [Platform]

namespace DelegationVerifier

/-- `self.audit.record(...)`: the event is built first, which may raise. -/
def record {α : Type} (event : DelegationAuditEvent) (result : Except PyError α) :
    Except PyError α × List DelegationAuditEvent :=
  match event.postInit with
  | .error e => (.error e, [])
  | .ok () => (result, [{ event with scopes := Str.sortedSet event.scopes }])

/-- `DelegationVerifier.verify`: what it returns or raises, and the events it records. -/
def verifyRecorded (v : DelegationVerifier) (now : Datetime) (token : Str) (t : DelegationTarget) :
    Except PyError DelegationClaims × List DelegationAuditEvent :=
  match v.verifyClaims now token t with
  | .ok claims => record (delegationAuditEvent claims now .allowed t.traceId) (.ok claims)
  | .error _ => record (deniedEvent now t (seenClaims token t)) (.error credentialRejected)

/-- What it returns or raises is what `verify` does. -/
theorem verifyRecorded_fst (v : DelegationVerifier) (now : Datetime) (token : Str)
    (t : DelegationTarget) : (v.verifyRecorded now token t).1 = v.verify now token t := by
  unfold verifyRecorded verify record
  rcases v.verifyClaims now token t with e | claims
  · simp only
    rcases (deniedEvent now t (seenClaims token t)).postInit with e | _ <;> rfl
  · simp only
    rcases (delegationAuditEvent claims now .allowed t.traceId).postInit with e | _ <;> rfl

end DelegationVerifier

/-- `_trace_id`: the second part of a `traceparent`, when it is 32 characters that `int` reads as
a number of base 16. -/
def headerTraceId (decimal : PyChar → Option ℕ) (header : Option Str) : Option Str :=
  match header.map fun value => value.splitOn (.scalar '-') with
  | some [_, trace, _, _] =>
      if trace.length = 32 ∧ (hexInt? decimal trace).isSome then some trace else none
  | _ => none

/-! ## The events of a verification -/

/-- What the audit events take of the arguments of `verify`. -/
structure Auditable (t : DelegationTarget) : Prop where
  trace : ∀ trace ∈ t.traceId, isDelegationIdentifier trace = true
  count : (∀ s ∈ t.requiredScopes, isScope s = true) → t.requiredScopes.length ≤ 128

/-- The event of a refusal is built when the trace and the number of scopes are ones the events
accept. -/
theorem deniedEvent_eq_ok {now : Datetime} {t : DelegationTarget} {seen : Option DelegationClaims} :
    (DelegationVerifier.deniedEvent now t seen).postInit = .ok () ↔ Auditable t := by
  have haudience : isDelegationIdentifier
      (if isDelegationIdentifier t.audience then t.audience else "invalid-audience") = true := by
    split_ifs with h
    · exact h
    · decide
  have hseen : (seen.map (·.subjectId)).all isDelegationIdentifier = true ∧
      (seen.bind (·.actorId)).all isDelegationIdentifier = true ∧
      (seen.bind (·.clientId)).all isDelegationIdentifier = true ∧
      (seen.map (·.keyId)).all isDelegationIdentifier = true ∧
      (seen.map (·.delegationDepth)).all (fun depth => 1 ≤ depth ∧ depth ≤ 16) = true := by
    cases seen with
    | none => exact ⟨rfl, rfl, rfl, rfl, rfl⟩
    | some claims =>
        have h := claims.accepted.1
        exact ⟨h.subject, (Option.all_eq_true _ _).mpr h.actor, (Option.all_eq_true _ _).mpr h.client,
          isDelegationIdentifier_of_isKeyId h.keyId, decide_eq_true h.depth⟩
  obtain ⟨hsubject, hactor, hclient, hkey, hdepth⟩ := hseen
  have hscopes : ∀ scopes : List Str, (∀ s ∈ scopes, isScope s = true) →
      ∀ s ∈ scopes, isDelegationIdentifier s = true :=
    fun scopes h s hs => isDelegationIdentifier_of_isScope (h s hs)
  simp only [DelegationAuditEvent.postInit, DelegationVerifier.deniedEvent, bind_eq_ok,
    check_eq_ok, List.all_cons, List.all_nil, Bool.and_eq_true, hsubject, hactor, hclient, hkey,
    hdepth, Option.all_some, haudience, isDelegationIdentifier_targetId, decide_eq_true_eq,
    List.all_eq_true, Option.all_eq_true, and_true, true_and]
  constructor
  · rintro ⟨-, htrace, -, hcount, -⟩
    refine ⟨htrace, fun hvalid => ?_⟩
    rwa [if_pos hvalid] at hcount
  · rintro ⟨htrace, hcount⟩
    refine ⟨(), htrace, (), ?_⟩
    split_ifs with hvalid
    · exact ⟨hcount hvalid, hscopes _ hvalid⟩
    · exact ⟨Nat.zero_le 128, by simp⟩

namespace DelegationVerifier

/-- The result is the one of two, and one event is recorded. -/
structure Audited (outcome : Except PyError DelegationClaims × List DelegationAuditEvent) :
    Prop where
  result : (∃ claims, outcome.1 = .ok claims) ∨ ∃ m, outcome.1 = .error (.authorizationDenied m)
  recorded : outcome.2.length = 1

omit [Platform] in
/-- A call that builds its event has one of the two outcomes, and the other calls have none. -/
theorem audited_record {event : DelegationAuditEvent} {result : Except PyError DelegationClaims}
    (h : (∃ claims, result = .ok claims) ∨ ∃ m, result = .error (.authorizationDenied m)) :
    Audited (record event result) ↔ event.postInit = .ok () := by
  unfold record
  rcases hevent : event.postInit with e | _
  · constructor
    · intro haudited
      cases haudited.recorded
    · rintro ⟨⟩
  · exact ⟨fun _ => rfl, fun _ => ⟨h, rfl⟩⟩

/-- A verification returns claims or is denied, and records one event, exactly when the trace
identity is one the audit events take and the required scopes, if they are scopes, are at most
128. -/
theorem verification_audited (v : DelegationVerifier) (now : Datetime) (token : Str)
    (t : DelegationTarget) : Audited (v.verifyRecorded now token t) ↔ Auditable t := by
  unfold verifyRecorded
  rcases hclaims : v.verifyClaims now token t with e | claims
  · refine (audited_record ?_).trans deniedEvent_eq_ok
    exact Or.inr ⟨_, rfl⟩
  · simp only
    rw [audited_record (Or.inl ⟨claims, rfl⟩), delegationAuditEvent_eq_ok]
    obtain ⟨-, ⟨hscopes, -⟩, -⟩ := verifyClaims_eq_ok.mp hclaims
    have hcount : t.requiredScopes.length ≤ 128 := (of_decide_eq_true hscopes).1
    exact ⟨fun htrace => ⟨htrace, fun _ => hcount⟩, fun h => h.trace⟩

end DelegationVerifier

end

namespace Hop

open Checksum

/-- The second part of this header is 31 zeros after a plus sign, which `int` reads as a number. -/
def signedHeader : Str := "00-+0000000000000000000000000000000-0000000000000001-01"

theorem headerTraceId_signed : headerTraceId (fun _ => none) (some signedHeader) =
    some "+0000000000000000000000000000000" := by
  decide +kernel

/-- The trace identity that the dependency reads out of a header may be one the events refuse. -/
theorem denial_not_recorded : ¬ ∀ (v : DelegationVerifier) (now : Datetime) (token : Str)
    (header : Str) (t : DelegationTarget), t.traceId = headerTraceId (fun _ => none) (some header) →
      DelegationVerifier.Audited (v.verifyRecorded now token t) := by
  intro h
  have haudited := h verifier 1000000 [] signedHeader
    { target with traceId := headerTraceId (fun _ => none) (some signedHeader) } rfl
  have hrecorded := haudited.recorded
  revert hrecorded
  decide +kernel

end Hop

end FastapiEffects
