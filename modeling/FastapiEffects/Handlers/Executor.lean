import FastapiEffects.Postgres.Leasing

/-! # Handlers and the authority they run with

`HandlerExecutor`: the principal a handler is given is made of the stored origin and of the
authority that the route snapshot has pinned.
-/

namespace FastapiEffects

open Python

/-- `AuthorizationMode.parse`. -/
def AuthorizationMode.parse (value : Json) : Except PyError AuthorizationMode :=
  orRaise ([.snapshot, .revalidate, .servicePolicy].find? fun mode : AuthorizationMode =>
    value = .str mode.text) (.configuration "Unsupported authorization mode.")

/-- `_string_list`. -/
def stringList (value : Json) : Except PyError (List Str) :=
  let text : Json → Option Str
    | .str s => some s
    | _ => none
  let texts : Json → Option (List Str)
    | .arr items => items.mapM text
    | _ => none
  orRaise (texts value) (.configuration "Authority scope snapshot is invalid.")

/-- `Principal.from_envelope`. -/
def Principal.fromEnvelope (e : PrincipalEnvelope) : Except PyError Principal :=
  Principal.make {
    tenantId := e.tenantId
    subjectId := e.subjectId
    scopes := e.scopes
    actorId := e.actorId
    clientId := e.clientId
    issuedAt := e.issuedAt
    authenticationTime := e.authenticationTime
    expiresAt := e.expiresAt
    credentialRef := e.credentialRef }

/-- `Event(...)`. -/
def Event.make (e : EventArgs) : Except PyError Event :=
  match h : e.postInit with
  | .ok () => .ok ⟨e, h⟩
  | .error err => .error err

/-- `EffectContext`. -/
structure EffectContext where
  event : Event
  principal : Principal
  deliveryId : UUID
  routeKey : Str
  routeVersion : ℤ
  attemptNumber : ℤ

/-- A handler: how its call ends, which a timeout may decide. -/
abbrev Handler := EffectContext → Except PyError Unit

/-- `HandlerExecutor`, with what its registry and its resolver answer. -/
structure HandlerExecutor where
  resolveHandler : Str → ℤ → Except PyError Handler
  authorizationResolver :
    Option (Principal → List Str → AuthorizationMode → Except PyError (List Str)) := none

namespace HandlerExecutor

/-- The scopes of `SNAPSHOT` and of `REVALIDATE`, before they are compared with the required ones. -/
def effectiveScopes (x : HandlerExecutor) (now : Datetime) (origin : Principal) (snapshot : Json)
    (required : List Str) (mode : AuthorizationMode) : Except PyError (List Str) :=
  match mode with
  | .revalidate => do
      let resolve ← orRaise x.authorizationResolver
        (.configuration "Revalidation requires an authorization resolver.")
      let current ← resolve origin required mode
      return required.filter fun s => s ∈ current ∧ s ∈ origin.scopes
  | _ =>
      match snapshot.get? "maximum_snapshot_age_seconds" with
      | some (.int maximumAge) => do
          let age ← orRaise (Timedelta.ofMicroseconds? (maximumAge * 1000000)) .overflow
          check (¬ age < now - origin.issuedAt)
            (.authorizationExpired "Snapshotted authority exceeded its maximum age.")
          return required.filter fun s => s ∈ origin.scopes
      | _ => .error (.configuration "Snapshot authority age is invalid.")

/-- The principal of a service policy. -/
def servicePrincipal (now : Datetime) (origin : Principal) (snapshot : Json) (required : List Str) :
    Except PyError Principal :=
  let capabilities := (snapshot.get? "service_capabilities").getD .null
  match snapshot.get? "service_policy" with
  | some (.str policy) => do
      check (capabilities ≠ .null) (.configuration "Service authority snapshot is invalid.")
      let granted ← stringList capabilities
      let effective := required.filter fun s => s ∈ granted
      check (required ⊆ effective)
        (.authorizationDenied "Service policy lacks required authority.")
      Principal.make {
        tenantId := origin.tenantId
        subjectId := "service:" ++ policy
        actorId := origin.subjectId
        clientId := origin.clientId
        scopes := effective
        issuedAt := now }
  | _ => .error (.configuration "Service authority snapshot is invalid.")

/-- `_effective_principal`. -/
def effectivePrincipal (x : HandlerExecutor) (now : Datetime) (origin : Principal) (snapshot : Json) :
    Except PyError Principal := do
  let invalid := PyError.configuration "Authority snapshot is invalid."
  let mode ← AuthorizationMode.parse (← orRaise (snapshot.get? "mode") invalid)
  let required := (← stringList (← orRaise (snapshot.get? "required_scopes") invalid)).dedup
  if mode = .servicePolicy then servicePrincipal now origin snapshot required
  else
    let effective ← x.effectiveScopes now origin snapshot required mode
    check (required ⊆ effective)
      (.authorizationDenied "Effective principal lacks required authority.")
    Principal.make { origin.toPrincipalArgs with scopes := effective, credentialRef := none }

section Execute

variable [Platform]

/-- `_text`. -/
def textOf : Option Json → Except PyError Str
  | some (.str text) => .ok text
  | _ => .error (.configuration "Handler destination is invalid.")

/-- The payload of a stored event. -/
def payloadOf (body : Bytes) : Except PyError Json := do
  check (canonicalPrefix <+: body)
    (.configuration "Event canonical payload revision is unsupported.")
  strictJsonLoads (body.drop canonicalPrefix.length)

/-- The part of `execute` before the handler is called. -/
def prepare (x : HandlerExecutor) (now : Datetime) (claim : ClaimedDelivery) :
    Except PyError (Handler × EffectContext) :=
  match claim.routeSnapshot.get? "destination", claim.routeSnapshot.get? "authority",
      claim.routeSnapshot.get? "retry" with
  | some (.obj destination), some (.obj authority), some (.obj retry) => do
      let key ← textOf (Json.get? (.obj destination) "key")
      let handler ← x.resolveHandler key claim.delivery.routeVersion
      let origin ← Principal.fromEnvelope claim.event.principal
      let effective ← x.effectivePrincipal now origin (.obj authority)
      let payload ← payloadOf claim.event.payloadCanonical
      let event ← Event.make {
        type := claim.event.eventType
        version := claim.event.eventVersion
        data := payload
        occurredAt := claim.event.occurredAt
        correlationId := claim.event.correlationId
        causationId := claim.event.causationId
        traceparent := claim.event.traceparent
        tracestate := claim.event.tracestate }
      let _ ← RetryPolicy.fromDict (.obj retry)
      return (handler, {
        event := event
        principal := effective
        deliveryId := claim.delivery.deliveryId
        routeKey := claim.delivery.routeKey
        routeVersion := claim.delivery.routeVersion
        attemptNumber := claim.attempt.attemptNumber })
  | some (.obj _), some (.obj _), _ =>
      .error (.configuration "Handler retry snapshot is invalid.")
  | _, _, _ => .error (.configuration "Handler delivery snapshot is invalid.")

/-- What an execution does: the calls of the handler, and how it ends. -/
structure Run where
  calls : List EffectContext
  outcome : Except PyError Unit

/-- `execute`. -/
def execute (x : HandlerExecutor) (now : Datetime) (claim : ClaimedDelivery) : Run :=
  match x.prepare now claim with
  | .ok (handler, context) => ⟨[context], handler context⟩
  | .error e => ⟨[], .error e⟩

end Execute

end HandlerExecutor

/-! ## What a handler may do -/

/-- What the principal of a handler is, in each of the modes. -/
structure Attenuated (x : HandlerExecutor) (now : Datetime) (origin : Principal) (snapshot : Json)
    (mode : AuthorizationMode) (required : List Str) (p : Principal) : Prop where
  tenant : p.tenantId = origin.tenantId
  credential : p.credentialRef = none
  scopes : ∀ s, s ∈ p.scopes ↔ s ∈ required
  snapshotted : mode = .snapshot → required ⊆ origin.scopes ∧ ∃ maximumAge,
    snapshot.get? "maximum_snapshot_age_seconds" = some (.int maximumAge) ∧
      now - origin.issuedAt ≤ maximumAge * 1000000
  revalidated : mode = .revalidate → required ⊆ origin.scopes ∧ ∃ resolve current,
    x.authorizationResolver = some resolve ∧ resolve origin required mode = .ok current ∧
      required ⊆ current
  service : mode = .servicePolicy → ∃ policy capabilities granted,
    snapshot.get? "service_policy" = some (.str policy) ∧ p.subjectId = "service:" ++ policy ∧
      p.actorId = some origin.subjectId ∧
      snapshot.get? "service_capabilities" = some capabilities ∧
      stringList capabilities = .ok granted ∧ required ⊆ granted

/-- A selection that has all of the required scopes has just these. -/
theorem mem_make_scopes {a : PrincipalArgs} {p : Principal} {required : List Str} {ok : Str → Bool}
    (hmake : Principal.make a = .ok p) (hscopes : a.scopes = required.filter ok)
    (hsubset : required ⊆ required.filter ok) : ∀ s, s ∈ p.scopes ↔ s ∈ required := by
  intro s
  have hp : p.scopes = (required.filter ok).dedup := by
    rw [Principal.make_eq_ok hmake, ← hscopes]
  rw [hp, List.mem_dedup]
  constructor
  · intro hs
    exact List.mem_of_mem_filter hs
  · intro hs
    exact hsubset hs

theorem effectivePrincipal_attenuated {x : HandlerExecutor} {now : Datetime} {origin p : Principal}
    {snapshot : Json} (h : x.effectivePrincipal now origin snapshot = .ok p) :
    ∃ value mode scopes texts, snapshot.get? "mode" = some value ∧
      AuthorizationMode.parse value = .ok mode ∧
      snapshot.get? "required_scopes" = some scopes ∧ stringList scopes = .ok texts ∧
      Attenuated x now origin snapshot mode texts.dedup p := by
  simp only [HandlerExecutor.effectivePrincipal, bind_eq_ok, orRaise_eq_ok] at h
  obtain ⟨value, hvalue, mode, hmode, scopes, hscopes, texts, htexts, h⟩ := h
  refine ⟨value, mode, scopes, texts, hvalue, hmode, hscopes, htexts, ?_⟩
  split_ifs at h with hservice
  · unfold HandlerExecutor.servicePrincipal at h
    split at h
    · rename_i policy hpolicy
      simp only [bind_eq_ok, check_eq_ok, decide_eq_true_eq] at h
      obtain ⟨_, hnull, granted, hgranted, _, hsubset, hmake⟩ := h
      have hp := Principal.make_eq_ok hmake
      have hcapabilities : snapshot.get? "service_capabilities" =
          some ((snapshot.get? "service_capabilities").getD .null) := by
        cases hget : snapshot.get? "service_capabilities" with
        | none =>
            rw [hget] at hnull
            exact absurd rfl hnull
        | some value => rfl
      refine ⟨by rw [hp], by rw [hp], mem_make_scopes hmake rfl hsubset, ?_, ?_, ?_⟩
      · intro heq
        cases hservice.symm.trans heq
      · intro heq
        cases hservice.symm.trans heq
      · intro _
        refine ⟨policy, _, granted, hpolicy, by rw [hp], by rw [hp], hcapabilities, hgranted, ?_⟩
        intro s hs
        simpa [hs] using hsubset hs
    · cases h
  · simp only [bind_eq_ok, check_eq_ok, decide_eq_true_eq] at h
    obtain ⟨effective, heffective, _, hsubset, hmake⟩ := h
    have hp := Principal.make_eq_ok hmake
    unfold HandlerExecutor.effectiveScopes at heffective
    split at heffective
    · simp only [bind_eq_ok, orRaise_eq_ok] at heffective
      obtain ⟨resolve, hresolve, current, hcurrent, heq⟩ := heffective
      cases heq
      have hboth : ∀ s ∈ texts.dedup, s ∈ current ∧ s ∈ origin.scopes := by
        intro s hs
        simpa [hs] using hsubset hs
      refine ⟨by rw [hp], by rw [hp], mem_make_scopes hmake rfl hsubset, ?_, ?_, ?_⟩
      · intro heq
        cases heq
      · intro _
        exact ⟨fun s hs => (hboth s hs).2, resolve, current, hresolve, hcurrent,
          fun s hs => (hboth s hs).1⟩
      · intro heq
        cases heq
    · rename_i hrevalidate
      split at heffective
      · rename_i maximumAge hage
        simp only [bind_eq_ok, orRaise_eq_ok, check_eq_ok, decide_eq_true_eq] at heffective
        obtain ⟨age, hduration, _, hyoung, heq⟩ := heffective
        cases heq
        have hduration : maximumAge * 1000000 = age := by
          unfold Timedelta.ofMicroseconds? at hduration
          split_ifs at hduration
          exact Option.some.inj hduration
        refine ⟨by rw [hp], by rw [hp], mem_make_scopes hmake rfl hsubset, ?_, ?_, ?_⟩
        · intro _
          have hscopes : texts.dedup ⊆ origin.scopes := by
            intro s hs
            simpa [hs] using hsubset hs
          refine ⟨hscopes, maximumAge, hage, ?_⟩
          rw [hduration]
          exact not_lt.mp hyoung
        · intro heq
          exact absurd heq hrevalidate
        · intro heq
          exact absurd heq hservice
      · cases heffective

/-- A handler is called at most once, with a principal that was made for the call. -/
theorem prepare_eq_ok [Platform] {x : HandlerExecutor} {now : Datetime} {claim : ClaimedDelivery}
    {handler : Handler} {context : EffectContext} (h : x.prepare now claim = .ok (handler, context)) :
    ∃ origin authority, Principal.fromEnvelope claim.event.principal = .ok origin ∧
      claim.routeSnapshot.get? "authority" = some authority ∧
      x.effectivePrincipal now origin authority = .ok context.principal := by
  unfold HandlerExecutor.prepare at h
  split at h
  · rename_i destination authority retry hdestination hauthority hretry
    simp only [bind_eq_ok] at h
    obtain ⟨key, -, handler', -, origin, horigin, effective, heffective, payload, -, event, -, _, -,
      heq⟩ := h
    cases heq
    exact ⟨origin, _, horigin, hauthority, heffective⟩
  · cases h
  · cases h

/-- The principal of a handler has exactly the required scopes, within the authority that its
mode allows; and a handler is called with such a principal only, or the execution raises. -/
theorem authority_never_expands [Platform] :
    (∀ (x : HandlerExecutor) (now : Datetime) (origin p : Principal) (snapshot : Json),
      x.effectivePrincipal now origin snapshot = .ok p →
        ∃ value mode scopes texts, snapshot.get? "mode" = some value ∧
          AuthorizationMode.parse value = .ok mode ∧
          snapshot.get? "required_scopes" = some scopes ∧ stringList scopes = .ok texts ∧
          Attenuated x now origin snapshot mode texts.dedup p) ∧
    ∀ (x : HandlerExecutor) (now : Datetime) (claim : ClaimedDelivery),
      (∀ context ∈ (x.execute now claim).calls, ∃ origin authority,
        Principal.fromEnvelope claim.event.principal = .ok origin ∧
          claim.routeSnapshot.get? "authority" = some authority ∧
          x.effectivePrincipal now origin authority = .ok context.principal) ∧
      ((x.execute now claim).calls = [] → ∃ e, (x.execute now claim).outcome = .error e) := by
  refine ⟨fun _ _ _ _ _ => effectivePrincipal_attenuated, fun x now claim => ?_⟩
  unfold HandlerExecutor.execute
  cases hprepare : x.prepare now claim with
  | error e => exact ⟨by simp, fun _ => ⟨e, rfl⟩⟩
  | ok call =>
      refine ⟨?_, by simp⟩
      intro context hcontext
      cases List.mem_singleton.mp hcontext
      exact prepare_eq_ok hprepare

end FastapiEffects
