import FastapiEffects.Core.Event
import FastapiEffects.Core.Principal

/-! # Routes and their snapshots

A `RouteSpecification` and the execution snapshot every delivery keeps of it.
-/

namespace FastapiEffects

open Python

/-- `AuthorizationMode`. -/
inductive AuthorizationMode where
  | snapshot
  | revalidate
  | servicePolicy
deriving DecidableEq, Repr

/-- `mode.value`. -/
def AuthorizationMode.text : AuthorizationMode → Str
  | .snapshot => "snapshot"
  | .revalidate => "revalidate"
  | .servicePolicy => "service_policy"

/-- The fields of a `RouteSpecification`. -/
structure RouteArgs where
  eventType : Str
  routeKey : Str
  version : ℤ
  destinationKind : Str
  destinationKey : Str
  requiredScopes : List Str
  authorization : AuthorizationMode
  servicePolicy : Option Str
  serviceCapabilities : Option (List Str)
  maximumSnapshotAgeSeconds : Option ℤ
  retryPolicy : RetryPolicy
  destinationMetadata : List (Str × Json)

/-- `_validate_key`. -/
def validateKey (name : String) (value : Str) : Except PyError Unit :=
  check (isStableKey value) (.configuration
    s!"{name} must use lower-case letters, digits, dots, underscores, or hyphens.")

/-- `_normalize_scopes`: sorted, each scope once. -/
def normalizeScopes (scopes : List Str) : Except PyError (List Str) := do
  let unique := scopes.dedup
  check (unique.length ≤ 256 ∧ unique.all isScope)
    (.configuration "Route contains invalid required scopes.")
  return unique.insertionSort fun a b => a.le b

variable [Platform]

/-- `json.loads` of the canonical form of destination metadata. -/
def normalizeMetadata (metadata : List (Str × Json)) : Except PyError (List (Str × Json)) := do
  let bytes ← canonicalJsonBytes (.obj metadata) (16 * 1024)
  match (Str.decode? bytes).map Json.loads with
  | some (.ok (.obj members)) => return members
  | some (.ok _) => throw (.configuration "Destination metadata must be a JSON object.")
  | _ => throw (.configuration "Destination metadata must be bounded JSON.")

/-- `RouteSpecification.__post_init__`: the fields it leaves in place. -/
def RouteArgs.postInit (r : RouteArgs) : Except PyError RouteArgs := do
  EventArgs.postInit { type := r.eventType, version := 1, data := .null, occurredAt := 0 }
  validateKey "Route key" r.routeKey
  check (0 < r.version) (.configuration "Route version must be a positive integer.")
  validateKey "Destination kind" r.destinationKind
  validateKey "Destination key" r.destinationKey
  let requiredScopes ← normalizeScopes r.requiredScopes
  match r.servicePolicy with
  | none => pure ()
  | some policy => validateKey "Service policy" policy
  let serviceCapabilities ← r.serviceCapabilities.mapM normalizeScopes
  check (r.maximumSnapshotAgeSeconds.all (0 < ·))
    (.configuration "Route snapshot maximum age must be positive.")
  let destinationMetadata ← normalizeMetadata r.destinationMetadata
  return { r with requiredScopes, serviceCapabilities, destinationMetadata }

/-- What `__post_init__` finds, with the scopes, the capabilities and the metadata it normalizes. -/
structure RouteArgs.Checked (r : RouteArgs) (scopes : List Str) (capabilities : Option (List Str))
    (metadata : List (Str × Json)) : Prop where
  event : EventArgs.postInit { type := r.eventType, version := 1, data := .null, occurredAt := 0 } =
    .ok ()
  routeKey : isStableKey r.routeKey = true
  version : 0 < r.version
  destinationKind : isStableKey r.destinationKind = true
  destinationKey : isStableKey r.destinationKey = true
  requiredScopes : normalizeScopes r.requiredScopes = .ok scopes
  servicePolicy : ∀ policy ∈ r.servicePolicy, isStableKey policy = true
  serviceCapabilities : r.serviceCapabilities.mapM normalizeScopes = .ok capabilities
  maximumAge : ∀ age ∈ r.maximumSnapshotAgeSeconds, 0 < age
  destinationMetadata : normalizeMetadata r.destinationMetadata = .ok metadata

theorem postInit_eq_ok {given made : RouteArgs} (h : given.postInit = .ok made) :
    ∃ scopes capabilities metadata, given.Checked scopes capabilities metadata ∧
      made = { given with
        requiredScopes := scopes
        serviceCapabilities := capabilities
        destinationMetadata := metadata } := by
  unfold RouteArgs.postInit validateKey at h
  obtain ⟨_, hevent, h⟩ := bind_eq_ok.mp h
  obtain ⟨_, hroute, h⟩ := bind_eq_ok.mp h
  obtain ⟨_, hversion, h⟩ := bind_eq_ok.mp h
  obtain ⟨_, hkind, h⟩ := bind_eq_ok.mp h
  obtain ⟨_, hkey, h⟩ := bind_eq_ok.mp h
  obtain ⟨scopes, hscopes, h⟩ := bind_eq_ok.mp h
  -- the service policy is checked where there is one
  have hpolicy : (∀ policy ∈ given.servicePolicy, isStableKey policy = true) ∧ (do
      let serviceCapabilities ← given.serviceCapabilities.mapM normalizeScopes
      check (given.maximumSnapshotAgeSeconds.all (0 < ·))
        (.configuration "Route snapshot maximum age must be positive.")
      let destinationMetadata ← normalizeMetadata given.destinationMetadata
      return { given with
        requiredScopes := scopes, serviceCapabilities, destinationMetadata }) =
      (.ok made : Except PyError RouteArgs) := by
    simp only at h
    split at h
    · next hnone =>
        refine ⟨fun policy hpolicy => ?_, h⟩
        rw [hnone] at hpolicy
        cases hpolicy
    · next policy hsome =>
        obtain ⟨_, hcheck, h⟩ := bind_eq_ok.mp h
        refine ⟨fun policy' hpolicy => ?_, h⟩
        cases hsome.symm.trans hpolicy
        exact check_eq_ok.mp hcheck
  obtain ⟨hpolicy, h⟩ := hpolicy
  obtain ⟨capabilities, hcapabilities, h⟩ := bind_eq_ok.mp h
  obtain ⟨_, hage, h⟩ := bind_eq_ok.mp h
  obtain ⟨metadata, hmetadata, h⟩ := bind_eq_ok.mp h
  rw [check_eq_ok] at hroute hversion hkind hkey hage
  refine ⟨scopes, capabilities, metadata, ?_, (Except.ok.inj h).symm⟩
  exact {
    event := hevent
    routeKey := hroute
    version := of_decide_eq_true hversion
    destinationKind := hkind
    destinationKey := hkey
    requiredScopes := hscopes
    servicePolicy := hpolicy
    serviceCapabilities := hcapabilities
    maximumAge := by
      intro age hmem
      rw [Option.mem_def] at hmem
      rw [hmem] at hage
      exact of_decide_eq_true hage
    destinationMetadata := hmetadata }

/-- What `RouteSpecification(...)` returns. -/
structure RouteSpecification extends RouteArgs where
  made : ∃ given : RouteArgs, given.postInit = .ok toRouteArgs

/-- `RouteSpecification(...)`. -/
def RouteSpecification.make (given : RouteArgs) : Except PyError RouteSpecification :=
  match h : given.postInit with
  | .ok r => .ok ⟨r, given, h⟩
  | .error e => .error e

omit [Platform] in
/-- An optional value as JSON. -/
def jsonOption {α : Type} (f : α → Json) : Option α → Json
  | none => .null
  | some a => f a

omit [Platform] in
def jsonTexts (texts : List Str) : Json := .arr (texts.map .str)

/-- `to_snapshot`: the complete execution specification. -/
def RouteSpecification.toSnapshot (r : RouteSpecification) : Except PyError Json := do
  return .obj [
    ("snapshot_version", .int 1),
    ("event_type", .str r.eventType),
    ("route_key", .str r.routeKey),
    ("route_version", .int r.version),
    ("destination", .obj (dictOf
      (("kind", .str r.destinationKind) :: ("key", .str r.destinationKey) ::
        r.destinationMetadata))),
    ("authority", .obj [
      ("mode", .str r.authorization.text),
      ("required_scopes", jsonTexts r.requiredScopes),
      ("service_policy", jsonOption .str r.servicePolicy),
      ("service_capabilities", jsonOption jsonTexts r.serviceCapabilities),
      ("maximum_snapshot_age_seconds", jsonOption .int r.maximumSnapshotAgeSeconds)]),
    ("retry", ← r.retryPolicy.toDict)]

/-- `snapshot_bytes`. -/
def RouteSpecification.snapshotBytes (r : RouteSpecification) : Except PyError Bytes := do
  canonicalJsonBytes (← r.toSnapshot) (32 * 1024)

end FastapiEffects
