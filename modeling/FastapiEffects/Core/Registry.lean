import FastapiEffects.Core.Routing
import FastapiEffects.Python.Dict
import FastapiEffects.Sqlalchemy.Normalize

/-! # The route registry

`RouteRegistry`: routes and handlers under their identities, the selection of the routes of
an event, and the same selection of the unit of work and of the command context.
-/

namespace FastapiEffects

open Python

variable [Platform]

/-- `RouteIdentity`. -/
abbrev RouteIdentity := Str × ℤ

/-- `(spec.route_key, spec.version)`. -/
def RouteSpecification.identity (spec : RouteSpecification) : RouteIdentity :=
  (spec.routeKey, spec.version)

omit [Platform] in
/-- A text in a message. -/
def shown (s : Str) : String := String.ofList (s.filterMap PyChar.scalar?)

/-! ## Selecting the routes of an event -/

/-- One round of the loop: the latest route of every key so far. -/
def keepLatest (eventType : Str) (latest : Dict Str RouteSpecification) (spec : RouteSpecification) :
    Dict Str RouteSpecification :=
  if spec.eventType ≠ eventType then latest
  else
    match latest.get spec.routeKey with
    | none => latest.set spec.routeKey spec
    | some current =>
        if current.version < spec.version then latest.set spec.routeKey spec else latest

/-- The order of `(route_key, destination_key)`. -/
def RouteSpecification.before (a b : RouteSpecification) : Bool :=
  if a.routeKey = b.routeKey then a.destinationKey.le b.destinationKey else a.routeKey.le b.routeKey

/-- The loop and the `sorted` of `matching` and of both `_matching_routes`. -/
def latestRoutes (specs : List RouteSpecification) (eventType : Str) : List RouteSpecification :=
  (specs.foldl (keepLatest eventType) Dict.empty).values.insertionSort fun a b => a.before b

/-- `_matching_routes` of the unit of work. -/
def UnitOfWork.matchingRoutes (routes : List RouteSpecification) (eventType : Str) :
    List RouteSpecification := latestRoutes routes eventType

/-- `_matching_routes` of the command context. -/
def CommandContext.matchingRoutes (routes : List RouteSpecification) (eventType : Str) :
    List RouteSpecification := latestRoutes routes eventType

/-! ## The registry -/

/-- `RouteRegistry`. Handlers are objects of a type `H`, told apart by `is`. -/
structure RouteRegistry (H : Type) where
  routes : Dict RouteIdentity RouteSpecification
  handlers : Dict RouteIdentity H
  frozen : Bool

namespace RouteRegistry

variable {H : Type} [DecidableEq H]

/-- A new registry. -/
def new : RouteRegistry H := ⟨Dict.empty, Dict.empty, false⟩

omit [Platform] [DecidableEq H] in
/-- What a method leaves: the registry, and its result. -/
abbrev Call (H : Type) := RouteRegistry H × Except PyError Unit

/-- `_require_mutable`. -/
def requireMutable (r : RouteRegistry H) : Except PyError Unit :=
  check (!r.frozen) (.configuration "Route registry is frozen; registration is closed.")

/-- The checks of `register_handler`. -/
def handlerChecks (isAsync : H → Bool) (r : RouteRegistry H) (key : Str) (version : ℤ) (handler : H) :
    Except PyError Unit := do
  r.requireMutable
  validateKey "Handler key" key
  check (isAsync handler) (.configuration "Handlers must be asynchronous callables.")
  check (0 < version) (.configuration "Handler version must be a positive integer.")
  check ((r.handlers.get (key, version)).all (· = handler))
    (.configuration s!"Duplicate handler registration: {shown key}@{version}.")

/-- `register_handler`. -/
def registerHandler (isAsync : H → Bool) (r : RouteRegistry H) (key : Str) (version : ℤ)
    (handler : H) : Call H :=
  match r.handlerChecks isAsync key version handler with
  | .error e => (r, .error e)
  | .ok () => ({ r with handlers := r.handlers.set (key, version) handler }, .ok ())

/-- The checks of `register_route` before it registers the handler. -/
def routeChecks (r : RouteRegistry H) (spec : RouteSpecification) : Except PyError Unit := do
  r.requireMutable
  check (r.routes.get spec.identity).isNone (.configuration
    s!"Duplicate route registration: {shown spec.routeKey}@{spec.version}.")
  let prior := r.routes.values.filter fun prior => prior.routeKey = spec.routeKey
  check (prior.all fun prior => prior.eventType = spec.eventType)
    (.configuration s!"Route key \x27{shown spec.routeKey}\x27 cannot change its event type.")
  check (¬ prior.any fun prior => spec.version < prior.version)
    (.configuration s!"Route version downgrade is not allowed for \x27{shown spec.routeKey}\x27.")

/-- `register_route`. -/
def registerRoute (isAsync : H → Bool) (r : RouteRegistry H) (spec : RouteSpecification) (handler : H) :
    Call H :=
  match r.routeChecks spec with
  | .error e => (r, .error e)
  | .ok () =>
      match r.registerHandler isAsync spec.destinationKey spec.version handler with
      | (r', .error e) => (r', .error e)
      | (r', .ok ()) => ({ r' with routes := r'.routes.set spec.identity spec }, .ok ())

/-- One round of the loop of `snapshot_service_capabilities`. -/
def stageOne (r : RouteRegistry H) (identity : RouteIdentity) (capabilities : List Str) :
    Except PyError (RouteIdentity × RouteSpecification) := do
  let unknown := PyError.configuration "Service capabilities target an unknown service-policy route."
  let spec ← orRaise (r.routes.get identity) unknown
  check (spec.authorization = .servicePolicy) unknown
  let normalized ← normalizeScopes capabilities
  check (spec.requiredScopes ⊆ normalized)
    (.configuration "Named service policy lacks a required route capability.")
  let pinned ← RouteSpecification.make { spec.toRouteArgs with serviceCapabilities := some normalized }
  return (identity, pinned)

/-- `snapshot_service_capabilities`. -/
def snapshotServiceCapabilities (r : RouteRegistry H) (snapshots : Dict RouteIdentity (List Str)) :
    Call H :=
  let staged : Except PyError (List (RouteIdentity × RouteSpecification)) := do
    r.requireMutable
    snapshots.items.mapM fun m => r.stageOne m.1 m.2
  match staged with
  | .error e => (r, .error e)
  | .ok staged => ({ r with routes := r.routes.update staged }, .ok ())

/-- The checks of `freeze`. -/
def freezeChecks (r : RouteRegistry H) : List RouteSpecification → Except PyError Unit
  | [] => .ok ()
  | spec :: rest => do
      check (r.handlers.get (spec.destinationKey, spec.version)).isSome
        (.configuration s!"Route {shown spec.routeKey}@{spec.version} has no registered handler.")
      check (spec.authorization = .servicePolicy → spec.serviceCapabilities.isSome)
        (.configuration "Service-policy route has no resolved capability snapshot.")
      r.freezeChecks rest

/-- `freeze`. -/
def freeze (r : RouteRegistry H) : Call H :=
  if r.frozen then (r, .ok ())
  else
    match r.freezeChecks r.routes.values with
    | .error e => (r, .error e)
    | .ok () => ({ r with frozen := true }, .ok ())

/-- `matching`. -/
def matching (r : RouteRegistry H) (eventType : Str) : Except PyError (List RouteSpecification) := do
  EventArgs.postInit { type := eventType, version := 1, data := .null, occurredAt := 0 }
  return latestRoutes r.routes.values eventType

/-- The order of `(event_type, route_key, version)`. -/
def listed (a b : RouteSpecification) : Bool :=
  if a.eventType = b.eventType then
    if a.routeKey = b.routeKey then a.version ≤ b.version else a.routeKey.le b.routeKey
  else a.eventType.le b.eventType

/-- `specifications`. -/
def specifications (r : RouteRegistry H) : List RouteSpecification :=
  r.routes.values.insertionSort fun a b => listed a b

/-- `resolve_handler`. -/
def resolveHandler (r : RouteRegistry H) (key : Str) (version : ℤ) : Except PyError H := do
  check r.frozen (.configuration "Route registry must be frozen before execution.")
  orRaise (r.handlers.get (key, version))
    (.configuration "Delivery references an unknown handler identity.")

end RouteRegistry

/-! ## What is selected -/

section Selection

/-- The dictionary of the loop after the specifications `seen`. -/
structure Selects (eventType : Str) (seen : List RouteSpecification)
    (latest : Dict Str RouteSpecification) : Prop where
  sound : ∀ k s, latest.get k = some s → s ∈ seen ∧ s.eventType = eventType ∧ s.routeKey = k
  highest : ∀ k s, latest.get k = some s → ∀ s' ∈ seen, s'.eventType = eventType →
    s'.routeKey = k → s'.version ≤ s.version
  total : ∀ s ∈ seen, s.eventType = eventType → ∃ s', latest.get s.routeKey = some s'

theorem selects_empty (eventType : Str) : Selects eventType [] Dict.empty := by
  constructor
  · intro k s h
    cases h
  · intro k s h
    cases h
  · intro s hs
    cases hs

/-- A specification that is left out, because a later one is there or it is of another type. -/
theorem Selects.skip {eventType : Str} {seen : List RouteSpecification}
    {latest : Dict Str RouteSpecification} {x : RouteSpecification} (h : Selects eventType seen latest)
    (hx : x.eventType = eventType → ∃ s, latest.get x.routeKey = some s ∧ x.version ≤ s.version) :
    Selects eventType (seen ++ [x]) latest := by
  constructor
  · intro k s hs
    obtain ⟨hmem, htype, hkey⟩ := h.sound k s hs
    exact ⟨List.mem_append_left _ hmem, htype, hkey⟩
  · intro k s hs s' hs' htype hkey
    rcases List.mem_append.mp hs' with hs' | hs'
    · exact h.highest k s hs s' hs' htype hkey
    · cases List.mem_singleton.mp hs'
      obtain ⟨s'', hget, hle⟩ := hx htype
      rw [hkey, hs] at hget
      cases hget
      exact hle
  · intro s hs htype
    rcases List.mem_append.mp hs with hs | hs
    · exact h.total s hs htype
    · cases List.mem_singleton.mp hs
      obtain ⟨s', hget, -⟩ := hx htype
      exact ⟨s', hget⟩

/-- A specification that is the latest of its key. -/
theorem Selects.take {eventType : Str} {seen : List RouteSpecification}
    {latest : Dict Str RouteSpecification} {x : RouteSpecification} (h : Selects eventType seen latest)
    (htype : x.eventType = eventType)
    (hx : ∀ s, latest.get x.routeKey = some s → s.version < x.version) :
    Selects eventType (seen ++ [x]) (latest.set x.routeKey x) := by
  have hall : ∀ s' ∈ seen, s'.eventType = eventType → s'.routeKey = x.routeKey →
      s'.version ≤ x.version := by
    intro s' hs' htype' hkey
    obtain ⟨s, hs⟩ := h.total s' hs' htype'
    rw [hkey] at hs
    exact (h.highest _ s hs s' hs' htype' hkey).trans (hx s hs).le
  constructor
  · intro k s hs
    rw [Dict.get_set] at hs
    split_ifs at hs with hk
    · cases hs
      exact ⟨List.mem_append_right _ List.mem_cons_self, htype, hk.symm⟩
    · obtain ⟨hmem, htype', hkey⟩ := h.sound k s hs
      exact ⟨List.mem_append_left _ hmem, htype', hkey⟩
  · intro k s hs s' hs' htype' hkey
    rw [Dict.get_set] at hs
    split_ifs at hs with hk
    · cases hs
      rcases List.mem_append.mp hs' with hs' | hs'
      · exact hall s' hs' htype' (hkey.trans hk)
      · cases List.mem_singleton.mp hs'
        exact le_refl _
    · rcases List.mem_append.mp hs' with hs' | hs'
      · exact h.highest k s hs s' hs' htype' hkey
      · cases List.mem_singleton.mp hs'
        exact absurd hkey.symm hk
  · intro s hs htype'
    rw [Dict.get_set]
    split_ifs with hk
    · exact ⟨x, rfl⟩
    · rcases List.mem_append.mp hs with hs | hs
      · exact h.total s hs htype'
      · cases List.mem_singleton.mp hs
        exact absurd rfl hk

/-- One round of the loop. -/
theorem Selects.step {eventType : Str} {seen : List RouteSpecification}
    {latest : Dict Str RouteSpecification} (h : Selects eventType seen latest) (x : RouteSpecification) :
    Selects eventType (seen ++ [x]) (keepLatest eventType latest x) := by
  unfold keepLatest
  split_ifs with htype
  · exact h.skip fun heq => absurd heq htype
  · have htype : x.eventType = eventType := not_not.mp htype
    split
    · rename_i hnone
      refine h.take htype fun s hs => ?_
      cases hnone.symm.trans hs
    · rename_i current hcurrent
      split_ifs with hlt
      · refine h.take htype fun s hs => ?_
        cases hcurrent.symm.trans hs
        exact hlt
      · exact h.skip fun _ => ⟨current, hcurrent, not_lt.mp hlt⟩

/-- The whole loop. -/
theorem Selects.run {eventType : Str} {seen : List RouteSpecification}
    {latest : Dict Str RouteSpecification} (h : Selects eventType seen latest)
    (specs : List RouteSpecification) :
    Selects eventType (seen ++ specs) (specs.foldl (keepLatest eventType) latest) := by
  induction specs generalizing seen latest with
  | nil => simpa using h
  | cons x rest ih =>
      have hrest := ih (h.step x)
      rwa [List.append_assoc] at hrest

theorem selects_foldl (eventType : Str) (specs : List RouteSpecification) :
    Selects eventType specs (specs.foldl (keepLatest eventType) Dict.empty) :=
  (selects_empty eventType).run specs

/-- The highest version of its key among the routes of an event type. -/
def IsLatest (specs : List RouteSpecification) (eventType : Str) (s : RouteSpecification) : Prop :=
  s ∈ specs ∧ s.eventType = eventType ∧
    ∀ s' ∈ specs, s'.eventType = eventType → s'.routeKey = s.routeKey → s'.version ≤ s.version

theorem mem_latestRoutes {specs : List RouteSpecification} {eventType : Str} {s : RouteSpecification}
    (hnodup : (specs.map RouteSpecification.identity).Nodup) :
    s ∈ latestRoutes specs eventType ↔ IsLatest specs eventType s := by
  have hselects := selects_foldl eventType specs
  rw [latestRoutes, List.mem_insertionSort, Dict.mem_values]
  constructor
  · rintro ⟨k, hk⟩
    obtain ⟨hmem, htype, hkey⟩ := hselects.sound k s hk
    refine ⟨hmem, htype, fun s' hs' htype' hkey' => ?_⟩
    exact hselects.highest k s hk s' hs' htype' (hkey'.trans hkey)
  · rintro ⟨hmem, htype, hhighest⟩
    obtain ⟨s', hs'⟩ := hselects.total s hmem htype
    obtain ⟨hmem', htype', hkey'⟩ := hselects.sound _ s' hs'
    have hversion : s'.version = s.version :=
      le_antisymm (hhighest s' hmem' htype' hkey') (hselects.highest _ s' hs' s hmem htype rfl)
    have hsame : s = s' := List.inj_on_of_nodup_map hnodup hmem hmem' (by
      rw [RouteSpecification.identity, RouteSpecification.identity, hkey', hversion])
    exact ⟨s.routeKey, hsame ▸ hs'⟩

/-- One route for each key. -/
theorem nodup_latestRoutes (specs : List RouteSpecification) (eventType : Str) :
    ((latestRoutes specs eventType).map fun s => s.routeKey).Nodup := by
  have hselects := selects_foldl eventType specs
  have hkeys : (specs.foldl (keepLatest eventType) Dict.empty).values.map (fun s => s.routeKey) =
      (specs.foldl (keepLatest eventType) Dict.empty).items.map Prod.fst := by
    rw [Dict.values, List.map_map]
    refine List.map_congr_left fun m hm => ?_
    exact (hselects.sound m.1 m.2 (Dict.get_eq_some.mpr hm)).2.2
  have hperm := (List.perm_insertionSort (fun a b : RouteSpecification => a.before b)
    (specs.foldl (keepLatest eventType) Dict.empty).values).map fun s => s.routeKey
  rw [hkeys] at hperm
  exact hperm.nodup_iff.mpr (Dict.nodup _)

omit [Platform] in
theorem Str.le_refl (s : Str) : s.le s = true := (Str.le_total s s).elim id id

theorem before_total (a b : RouteSpecification) : a.before b = true ∨ b.before a = true := by
  unfold RouteSpecification.before
  by_cases hkey : a.routeKey = b.routeKey
  · rw [if_pos hkey, if_pos hkey.symm]
    exact Str.le_total _ _
  · rw [if_neg hkey, if_neg (Ne.symm hkey)]
    exact Str.le_total _ _

theorem key_le_of_before {a b : RouteSpecification} (h : a.before b = true) :
    a.routeKey.le b.routeKey = true := by
  unfold RouteSpecification.before at h
  split_ifs at h with hkey
  · rw [hkey]
    exact Str.le_refl _
  · exact h

theorem before_trans {a b c : RouteSpecification} (h : a.before b = true) (h' : b.before c = true) :
    a.before c = true := by
  have hab := key_le_of_before h
  have hbc := key_le_of_before h'
  unfold RouteSpecification.before at h h' ⊢
  split_ifs with hkey
  · -- the key between two that are the same is the same
    have hsame : a.routeKey = b.routeKey := Str.le_antisymm hab (hkey ▸ hbc)
    rw [if_pos hsame] at h
    rw [if_pos (hsame.symm.trans hkey)] at h'
    exact Str.le_trans h h'
  · exact Str.le_trans hab hbc

/-- The selection does not depend on the order in which the routes are listed. -/
theorem latestRoutes_perm {specs specs' : List RouteSpecification} (hperm : specs.Perm specs')
    (hnodup : (specs.map RouteSpecification.identity).Nodup) (eventType : Str) :
    latestRoutes specs eventType = latestRoutes specs' eventType := by
  have htotal : Std.Total fun a b : RouteSpecification => a.before b = true := ⟨before_total⟩
  have htrans : IsTrans RouteSpecification fun a b => a.before b = true := ⟨fun _ _ _ => before_trans⟩
  have hnodup' : (specs'.map RouteSpecification.identity).Nodup :=
    (hperm.map RouteSpecification.identity).nodup_iff.mp hnodup
  have hmem : ∀ s, s ∈ latestRoutes specs eventType ↔ s ∈ latestRoutes specs' eventType := by
    intro s
    rw [mem_latestRoutes hnodup, mem_latestRoutes hnodup', IsLatest, IsLatest, hperm.mem_iff]
    refine and_congr_right fun _ => and_congr_right fun _ => ?_
    exact ⟨fun h s' hs' => h s' (hperm.mem_iff.mpr hs'), fun h s' hs' => h s' (hperm.mem_iff.mp hs')⟩
  have hkeys := nodup_latestRoutes specs eventType
  refine ((List.perm_ext_iff_of_nodup hkeys.of_map (nodup_latestRoutes specs' eventType).of_map).mpr
    hmem).eq_of_pairwise ?_ (List.pairwise_insertionSort _ _) (List.pairwise_insertionSort _ _)
  intro a b ha hb hab hba
  have hkey := Str.le_antisymm (key_le_of_before hab) (key_le_of_before hba)
  exact List.inj_on_of_nodup_map hkeys ha ((hmem b).mpr hb) hkey

end Selection

/-! ## What the constructor keeps -/

omit [Platform] in
/-- Normalizing scopes neither drops one nor adds one. -/
theorem mem_normalizeScopes {scopes normalized : List Str} (h : normalizeScopes scopes = .ok normalized)
    {s : Str} : s ∈ normalized ↔ s ∈ scopes := by
  unfold normalizeScopes at h
  obtain ⟨-, -, h⟩ := bind_eq_ok.mp h
  cases h
  rw [List.mem_insertionSort, List.mem_dedup]

/-- What `__post_init__` leaves of the fields a registry reads. -/
structure RouteArgs.Keeps (given made : RouteArgs) : Prop where
  eventType : made.eventType = given.eventType
  routeKey : made.routeKey = given.routeKey
  version : made.version = given.version
  destinationKey : made.destinationKey = given.destinationKey
  requiredScopes : ∀ s, s ∈ made.requiredScopes ↔ s ∈ given.requiredScopes

theorem postInit_keeps {given made : RouteArgs} (h : given.postInit = .ok made) :
    given.Keeps made ∧ ∀ capabilities, given.serviceCapabilities = some capabilities →
      ∃ kept, made.serviceCapabilities = some kept ∧ ∀ s, s ∈ kept ↔ s ∈ capabilities := by
  obtain ⟨scopes, capabilities, metadata, hchecked, rfl⟩ := postInit_eq_ok h
  refine ⟨⟨rfl, rfl, rfl, rfl, fun s => mem_normalizeScopes hchecked.requiredScopes⟩, ?_⟩
  intro raw hraw
  have hcapabilities := hchecked.serviceCapabilities
  rw [hraw] at hcapabilities
  obtain ⟨kept, hkept, hsome⟩ := map_eq_ok.mp hcapabilities
  exact ⟨kept, hsome.symm, fun s => mem_normalizeScopes hkept⟩

/-- The event type of a route passes the check of `matching`. -/
theorem eventType_checked {given made : RouteArgs} (h : given.postInit = .ok made) :
    EventArgs.postInit { type := made.eventType, version := 1, data := .null, occurredAt := 0 } =
      .ok () := by
  obtain ⟨_, _, _, hchecked, rfl⟩ := postInit_eq_ok h
  exact hchecked.event

theorem make_eq_ok {given : RouteArgs} {spec : RouteSpecification}
    (h : RouteSpecification.make given = .ok spec) : given.postInit = .ok spec.toRouteArgs := by
  unfold RouteSpecification.make at h
  split at h
  · cases h
    assumption
  · cases h

/-! ## Runs of a registry -/

section Runs

variable {H : Type} [DecidableEq H]

/-- A call of one of the methods that change the registry. -/
inductive RegistryCall (H : Type) where
  | registerHandler (key : Str) (version : ℤ) (handler : H)
  | registerRoute (spec : RouteSpecification) (handler : H)
  | snapshotServiceCapabilities (snapshots : Dict RouteIdentity (List Str))
  | freeze

/-- The call on a registry. -/
def RegistryCall.run (isAsync : H → Bool) (r : RouteRegistry H) : RegistryCall H → RouteRegistry.Call H
  | .registerHandler key version handler => r.registerHandler isAsync key version handler
  | .registerRoute spec handler => r.registerRoute isAsync spec handler
  | .snapshotServiceCapabilities snapshots => r.snapshotServiceCapabilities snapshots
  | .freeze => r.freeze

/-- The registry after a sequence of calls on a new one, those that raised included. -/
def afterCalls (isAsync : H → Bool) (calls : List (RegistryCall H)) : RouteRegistry H :=
  calls.foldl (fun r call => (call.run isAsync r).1) .new

/-- What a run has done: the routes registered with their handlers, and the identities pinned. -/
structure Registered (H : Type) where
  routes : List (RouteSpecification × H)
  pinned : List RouteIdentity

/-- What a call that returned adds. -/
def RegistryCall.adds (done : Registered H) : RegistryCall H → Registered H
  | .registerRoute spec handler => { done with routes := done.routes ++ [(spec, handler)] }
  | .snapshotServiceCapabilities snapshots =>
      { done with pinned := done.pinned ++ snapshots.items.map Prod.fst }
  | _ => done

/-- What the calls of a sequence that returned have done. -/
def registered (isAsync : H → Bool) (r : RouteRegistry H) (done : Registered H) :
    List (RegistryCall H) → Registered H
  | [] => done
  | call :: rest =>
      registered isAsync (call.run isAsync r).1
        (if (call.run isAsync r).2.isOk then call.adds done else done) rest

section Raises

variable {isAsync : H → Bool} {r : RouteRegistry H} {e : PyError}

theorem registerHandler_error {key : Str} {version : ℤ} {handler : H}
    (h : (r.registerHandler isAsync key version handler).2 = .error e) :
    (r.registerHandler isAsync key version handler).1 = r := by
  unfold RouteRegistry.registerHandler at h ⊢
  cases hchecks : r.handlerChecks isAsync key version handler with
  | error e' => rfl
  | ok u =>
      rw [hchecks] at h
      cases h

theorem registerRoute_error {spec : RouteSpecification} {handler : H}
    (h : (r.registerRoute isAsync spec handler).2 = .error e) :
    (r.registerRoute isAsync spec handler).1 = r := by
  unfold RouteRegistry.registerRoute at h ⊢
  cases hchecks : r.routeChecks spec with
  | error e' => rfl
  | ok u =>
      rw [hchecks] at h
      -- the route is stored after the handler, which may still be refused
      cases hhandler : r.registerHandler isAsync spec.destinationKey spec.version handler with
      | mk r' result =>
          simp only [hhandler] at h ⊢
          cases result with
          | error e' =>
              have hsame := registerHandler_error (congrArg Prod.snd hhandler)
              rw [hhandler] at hsame
              exact hsame
          | ok u => cases h

omit [DecidableEq H] in
theorem snapshotServiceCapabilities_error {snapshots : Dict RouteIdentity (List Str)}
    (h : (r.snapshotServiceCapabilities snapshots).2 = .error e) :
    (r.snapshotServiceCapabilities snapshots).1 = r := by
  unfold RouteRegistry.snapshotServiceCapabilities at h ⊢
  simp only at h ⊢
  split at h
  · rfl
  · cases h

omit [DecidableEq H] in
theorem freeze_error (h : r.freeze.2 = .error e) : r.freeze.1 = r := by
  unfold RouteRegistry.freeze at h ⊢
  by_cases hfrozen : r.frozen = true
  · rw [if_pos hfrozen]
  · rw [if_neg hfrozen] at h ⊢
    cases hchecks : r.freezeChecks r.routes.values with
    | error e' => rfl
    | ok u =>
        rw [hchecks] at h
        cases h

/-- A method that raises has not touched the registry. -/
theorem run_error {call : RegistryCall H} (h : (call.run isAsync r).2 = .error e) :
    (call.run isAsync r).1 = r := by
  cases call with
  | registerHandler key version handler => exact registerHandler_error h
  | registerRoute spec handler => exact registerRoute_error h
  | snapshotServiceCapabilities snapshots => exact snapshotServiceCapabilities_error h
  | freeze => exact freeze_error h

end Raises

/-- What a run has registered and pinned is what the registry holds. -/
structure Holds (done : Registered H) (r : RouteRegistry H) : Prop where
  keyed : ∀ identity s, r.routes.get identity = some s → s.identity = identity
  typed : ∀ s ∈ r.routes.values, ∀ s' ∈ r.routes.values, s.routeKey = s'.routeKey →
    s.eventType = s'.eventType
  origin : ∀ s ∈ r.routes.values, ∃ m ∈ done.routes, m.1.identity = s.identity
  kept : ∀ m ∈ done.routes, r.handlers.get (m.1.destinationKey, m.1.version) = some m.2 ∧
    ∃ s, r.routes.get m.1.identity = some s ∧ s.destinationKey = m.1.destinationKey ∧
      (m.1.identity ∉ done.pinned → s = m.1)
  pinned : ∀ identity ∈ done.pinned, ∃ s capabilities, r.routes.get identity = some s ∧
    s.serviceCapabilities = some capabilities ∧ s.requiredScopes ⊆ capabilities

omit [DecidableEq H] in
theorem holds_new : Holds (H := H) ⟨[], []⟩ .new := by
  constructor <;> simp [RouteRegistry.new, Dict.get, Dict.values, Dict.empty]

section Steps

variable {isAsync : H → Bool} {r r' : RouteRegistry H} {done : Registered H}

/-- A handler is never replaced by another. -/
theorem registerHandler_ok {key : Str} {version : ℤ} {handler : H}
    (h : r.registerHandler isAsync key version handler = (r', .ok ())) :
    r'.routes = r.routes ∧ r'.handlers.get (key, version) = some handler ∧
      ∀ identity h, r.handlers.get identity = some h → r'.handlers.get identity = some h := by
  unfold RouteRegistry.registerHandler at h
  cases hchecks : r.handlerChecks isAsync key version handler with
  | error e =>
      rw [hchecks] at h
      cases h
  | ok u =>
      rw [hchecks] at h
      cases h
      unfold RouteRegistry.handlerChecks at hchecks
      obtain ⟨-, -, hchecks⟩ := bind_eq_ok.mp hchecks
      obtain ⟨-, -, hchecks⟩ := bind_eq_ok.mp hchecks
      obtain ⟨-, -, hchecks⟩ := bind_eq_ok.mp hchecks
      obtain ⟨-, -, hchecks⟩ := bind_eq_ok.mp hchecks
      have hexisting := check_eq_ok.mp hchecks
      refine ⟨rfl, ?_, fun identity h hget => ?_⟩
      · rw [Dict.get_set, if_pos rfl]
      · rw [Dict.get_set]
        split_ifs with hidentity
        · rw [hidentity] at hget
          rw [hget] at hexisting
          simp only [Option.all_some, decide_eq_true_eq] at hexisting
          rw [hexisting]
        · exact hget

omit [DecidableEq H] in
theorem Holds.handlers (hr : Holds done r) (hroutes : r'.routes = r.routes)
    (hhandlers : ∀ identity h, r.handlers.get identity = some h → r'.handlers.get identity = some h) :
    Holds done r' := by
  constructor
  · rw [hroutes]
    exact hr.keyed
  · rw [hroutes]
    exact hr.typed
  · rw [hroutes]
    exact hr.origin
  · intro m hm
    rw [hroutes]
    obtain ⟨hget, hkept⟩ := hr.kept m hm
    exact ⟨hhandlers _ _ hget, hkept⟩
  · rw [hroutes]
    exact hr.pinned

omit [DecidableEq H] in
/-- What the checks of `register_route` see to. -/
theorem routeChecks_ok {spec : RouteSpecification}
    (h : r.routeChecks spec = .ok ()) :
    r.routes.get spec.identity = none ∧
      ∀ s ∈ r.routes.values, s.routeKey = spec.routeKey → s.eventType = spec.eventType := by
  unfold RouteRegistry.routeChecks at h
  obtain ⟨_, -, h⟩ := bind_eq_ok.mp h
  obtain ⟨_, hnone, h⟩ := bind_eq_ok.mp h
  obtain ⟨_, htypes, -⟩ := bind_eq_ok.mp h
  have htypes := List.all_eq_true.mp (check_eq_ok.mp htypes)
  refine ⟨Option.isNone_iff_eq_none.mp (check_eq_ok.mp hnone), fun s hs hkey => ?_⟩
  have hprior := htypes s (List.mem_filter.mpr ⟨hs, decide_eq_true hkey⟩)
  exact of_decide_eq_true hprior

omit [DecidableEq H] in
/-- A new route, under an identity that is free. -/
theorem Holds.route (hr : Holds done r) {spec : RouteSpecification} {handler : H}
    (hfree : r.routes.get spec.identity = none)
    (htypes : ∀ s ∈ r.routes.values, s.routeKey = spec.routeKey → s.eventType = spec.eventType)
    (hhandler : r.handlers.get (spec.destinationKey, spec.version) = some handler) :
    Holds { done with routes := done.routes ++ [(spec, handler)] }
      { r with routes := r.routes.set spec.identity spec } := by
  have hother : ∀ identity s, r.routes.get identity = some s →
      (r.routes.set spec.identity spec).get identity = some s := by
    intro identity s hs
    rw [Dict.get_set, if_neg]
    · exact hs
    · rintro rfl
      cases hfree.symm.trans hs
  have hvalues : ∀ s ∈ (r.routes.set spec.identity spec).values, s = spec ∨ s ∈ r.routes.values := by
    intro s hs
    obtain ⟨identity, hget⟩ := Dict.mem_values.mp hs
    rw [Dict.get_set] at hget
    split_ifs at hget
    · cases hget
      exact Or.inl rfl
    · exact Or.inr (Dict.mem_values.mpr ⟨identity, hget⟩)
  constructor
  · intro identity s hs
    rw [Dict.get_set] at hs
    split_ifs at hs with heq
    · cases hs
      exact heq.symm
    · exact hr.keyed identity s hs
  · intro s hs s' hs' hkey
    rcases hvalues s hs with heq | hold <;> rcases hvalues s' hs' with heq' | hold'
    · rw [heq, heq']
    · rw [heq] at hkey ⊢
      exact (htypes s' hold' hkey.symm).symm
    · rw [heq'] at hkey ⊢
      exact htypes s hold hkey
    · exact hr.typed s hold s' hold' hkey
  · intro s hs
    rcases hvalues s hs with rfl | hs
    · exact ⟨(s, handler), List.mem_append_right _ List.mem_cons_self, rfl⟩
    · obtain ⟨m, hm, hidentity⟩ := hr.origin s hs
      exact ⟨m, List.mem_append_left _ hm, hidentity⟩
  · intro m hm
    rcases List.mem_append.mp hm with hm | hm
    · obtain ⟨hget, s, hs, hkept⟩ := hr.kept m hm
      exact ⟨hget, s, hother _ s hs, hkept⟩
    · cases List.mem_singleton.mp hm
      refine ⟨hhandler, spec, ?_, rfl, fun _ => rfl⟩
      rw [Dict.get_set, if_pos rfl]
  · intro identity hidentity
    obtain ⟨s, capabilities, hs, hpinned⟩ := hr.pinned identity hidentity
    exact ⟨s, capabilities, hother identity s hs, hpinned⟩

omit [DecidableEq H] in
/-- One round of the loop of `snapshot_service_capabilities`. -/
theorem stageOne_ok {identity : RouteIdentity} {capabilities : List Str}
    {staged : RouteIdentity × RouteSpecification} (h : r.stageOne identity capabilities = .ok staged) :
    staged.1 = identity ∧ ∃ spec kept, r.routes.get identity = some spec ∧
      spec.toRouteArgs.Keeps staged.2.toRouteArgs ∧ staged.2.serviceCapabilities = some kept ∧
      staged.2.requiredScopes ⊆ kept := by
  unfold RouteRegistry.stageOne at h
  obtain ⟨spec, hspec, h⟩ := bind_eq_ok.mp h
  obtain ⟨-, -, h⟩ := bind_eq_ok.mp h
  obtain ⟨normalized, -, h⟩ := bind_eq_ok.mp h
  obtain ⟨_, hcovered, h⟩ := bind_eq_ok.mp h
  obtain ⟨pinned, hmake, h⟩ := bind_eq_ok.mp h
  cases h
  have hcovered := of_decide_eq_true (check_eq_ok.mp hcovered)
  obtain ⟨hkeeps, hkept⟩ := postInit_keeps (make_eq_ok hmake)
  obtain ⟨kept, hkept, hsame⟩ := hkept normalized rfl
  refine ⟨rfl, spec, kept, orRaise_eq_ok.mp hspec, ?_, hkept, fun s hs => ?_⟩
  · -- the fields of `replace(spec, ...)` are those of `spec`
    exact ⟨hkeeps.eventType, hkeeps.routeKey, hkeeps.version, hkeeps.destinationKey,
      hkeeps.requiredScopes⟩
  · exact (hsame s).mpr (hcovered ((hkeeps.requiredScopes s).mp hs))

omit [DecidableEq H] in
/-- What `update` with the staged routes makes of every identity. -/
theorem get_update_staged {snapshots : Dict RouteIdentity (List Str)}
    {staged : List (RouteIdentity × RouteSpecification)}
    (h : snapshots.items.mapM (fun m => r.stageOne m.1 m.2) = .ok staged) (identity : RouteIdentity) :
    (identity ∈ snapshots.items.map Prod.fst ∧ ∃ spec s kept, r.routes.get identity = some spec ∧
      (r.routes.update staged).get identity = some s ∧ spec.toRouteArgs.Keeps s.toRouteArgs ∧
      s.serviceCapabilities = some kept ∧ s.requiredScopes ⊆ kept) ∨
    (identity ∉ snapshots.items.map Prod.fst ∧
      (r.routes.update staged).get identity = r.routes.get identity) := by
  have hkeys : staged.map Prod.fst = snapshots.items.map Prod.fst :=
    map_of_mapM h fun m staged hstaged => (stageOne_ok hstaged).1
  rw [← hkeys]
  by_cases hmem : identity ∈ staged.map Prod.fst
  · refine Or.inl ⟨hmem, ?_⟩
    obtain ⟨m, hm, rfl⟩ := List.mem_map.mp hmem
    obtain ⟨given, -, hone⟩ := mem_of_mapM h m hm
    obtain ⟨hidentity, spec, kept, hspec, hpinned⟩ := stageOne_ok hone
    refine ⟨spec, m.2, kept, hidentity ▸ hspec, ?_, hpinned⟩
    exact Dict.get_update_of_mem (hkeys ▸ snapshots.nodup) hm
  · refine Or.inr ⟨hmem, Dict.get_update_of_ne fun m hm heq => hmem ?_⟩
    exact heq ▸ List.mem_map_of_mem hm

omit [DecidableEq H] in
/-- The staged routes take the places of those they are made from. -/
theorem Holds.pin (hr : Holds done r) {snapshots : Dict RouteIdentity (List Str)}
    {staged : List (RouteIdentity × RouteSpecification)}
    (h : snapshots.items.mapM (fun m => r.stageOne m.1 m.2) = .ok staged) :
    Holds { done with pinned := done.pinned ++ snapshots.items.map Prod.fst }
      { r with routes := r.routes.update staged } := by
  -- every route of the new dictionary comes from one of the same identity and event type
  have hold : ∀ identity s, (r.routes.update staged).get identity = some s →
      ∃ spec, r.routes.get identity = some spec ∧ s.identity = spec.identity ∧
        s.eventType = spec.eventType := by
    intro identity s hs
    rcases get_update_staged h identity with ⟨-, spec, s', kept, hspec, hs', hkeeps, -⟩ | ⟨-, heq⟩
    · cases hs.symm.trans hs'
      refine ⟨spec, hspec, ?_, hkeeps.eventType⟩
      rw [RouteSpecification.identity, RouteSpecification.identity, hkeeps.routeKey, hkeeps.version]
    · exact ⟨s, heq ▸ hs, rfl, rfl⟩
  constructor
  · intro identity s hs
    obtain ⟨spec, hspec, hidentity, -⟩ := hold identity s hs
    exact hidentity.trans (hr.keyed identity spec hspec)
  · intro s hs s' hs' hkey
    obtain ⟨identity, hget⟩ := Dict.mem_values.mp hs
    obtain ⟨identity', hget'⟩ := Dict.mem_values.mp hs'
    obtain ⟨spec, hspec, hsame, htype⟩ := hold identity s hget
    obtain ⟨spec', hspec', hsame', htype'⟩ := hold identity' s' hget'
    rw [htype, htype']
    refine hr.typed spec (Dict.mem_values.mpr ⟨_, hspec⟩) spec' (Dict.mem_values.mpr ⟨_, hspec'⟩) ?_
    exact (congrArg Prod.fst hsame).symm.trans (hkey.trans (congrArg Prod.fst hsame'))
  · intro s hs
    obtain ⟨identity, hget⟩ := Dict.mem_values.mp hs
    obtain ⟨spec, hspec, hsame, -⟩ := hold identity s hget
    obtain ⟨m, hm, hidentity⟩ := hr.origin spec (Dict.mem_values.mpr ⟨_, hspec⟩)
    exact ⟨m, hm, hidentity.trans hsame.symm⟩
  · intro m hm
    obtain ⟨hhandler, s, hs, hdestination, hkept⟩ := hr.kept m hm
    refine ⟨hhandler, ?_⟩
    rcases get_update_staged h m.1.identity with ⟨hin, spec, s', kept, hspec, hs', hkeeps, -⟩ | ⟨-, heq⟩
    · cases hs.symm.trans hspec
      refine ⟨s', hs', hkeeps.destinationKey.trans hdestination, fun hout => ?_⟩
      exact absurd (List.mem_append_right _ hin) hout
    · refine ⟨s, heq.trans hs, hdestination, fun hout => hkept fun hin => hout ?_⟩
      exact List.mem_append_left _ hin
  · intro identity hidentity
    rcases get_update_staged h identity with ⟨-, spec, s, kept, -, hs, -, hpinned⟩ | ⟨hout, heq⟩
    · exact ⟨s, kept, hs, hpinned⟩
    · rcases List.mem_append.mp hidentity with hidentity | hin
      · obtain ⟨s, kept, hs, hpinned⟩ := hr.pinned identity hidentity
        exact ⟨s, kept, heq.trans hs, hpinned⟩
      · exact absurd hin hout

/-- One call. -/
theorem Holds.step (hr : Holds done r) (call : RegistryCall H) :
    Holds (if (call.run isAsync r).2.isOk then call.adds done else done) (call.run isAsync r).1 := by
  cases hrun : (call.run isAsync r).2 with
  | error e =>
      rw [run_error hrun]
      exact hr
  | ok u =>
      change Holds (call.adds done) (call.run isAsync r).1
      cases call with
      | registerHandler key version handler =>
          obtain ⟨hroutes, -, hhandlers⟩ := registerHandler_ok (Prod.ext rfl hrun :
            r.registerHandler isAsync key version handler = (_, .ok ()))
          exact hr.handlers hroutes hhandlers
      | registerRoute spec handler =>
          change (r.registerRoute isAsync spec handler).2 = _ at hrun
          change Holds _ (r.registerRoute isAsync spec handler).1
          unfold RouteRegistry.registerRoute at hrun ⊢
          cases hchecks : r.routeChecks spec with
          | error e =>
              rw [hchecks] at hrun
              cases hrun
          | ok u =>
              simp only [hchecks] at hrun ⊢
              obtain ⟨hfree, htypes⟩ := routeChecks_ok hchecks
              cases hhandler : r.registerHandler isAsync spec.destinationKey spec.version handler with
              | mk r' result =>
                  simp only [hhandler] at hrun ⊢
                  cases result with
                  | error e => cases hrun
                  | ok u =>
                      obtain ⟨hroutes, hget, hhandlers⟩ := registerHandler_ok hhandler
                      refine (hr.handlers hroutes hhandlers).route ?_ ?_ hget
                      · rw [hroutes]
                        exact hfree
                      · rw [hroutes]
                        exact htypes
      | snapshotServiceCapabilities snapshots =>
          change (r.snapshotServiceCapabilities snapshots).2 = _ at hrun
          change Holds _ (r.snapshotServiceCapabilities snapshots).1
          unfold RouteRegistry.snapshotServiceCapabilities at hrun ⊢
          simp only at hrun ⊢
          split at hrun <;> rename_i hstaged
          · cases hrun
          · obtain ⟨-, -, hstaged⟩ := bind_eq_ok.mp hstaged
            exact hr.pin hstaged
      | freeze =>
          change Holds done r.freeze.1
          unfold RouteRegistry.freeze
          split_ifs
          · exact hr
          · split
            · exact hr
            · exact hr.handlers rfl fun _ _ h => h

/-- A run from a registry that holds what was done before. -/
theorem Holds.run (hr : Holds done r) (calls : List (RegistryCall H)) :
    Holds (registered isAsync r done calls)
      (calls.foldl (fun r call => (call.run isAsync r).1) r) := by
  induction calls generalizing r done with
  | nil => exact hr
  | cons call rest ih => exact ih (hr.step call)

end Steps

omit [DecidableEq H] in
theorem mem_specifications {r : RouteRegistry H} {s : RouteSpecification} :
    s ∈ r.specifications ↔ s ∈ r.routes.values :=
  List.mem_insertionSort _

omit [DecidableEq H] in
/-- A route stands under its own identity. -/
theorem Holds.get {r : RouteRegistry H} {done : Registered H} (hr : Holds done r)
    {s : RouteSpecification} : s ∈ r.specifications ↔ r.routes.get s.identity = some s := by
  rw [mem_specifications, Dict.mem_values]
  constructor
  · rintro ⟨identity, hget⟩
    rw [hr.keyed identity s hget]
    exact hget
  · intro hget
    exact ⟨s.identity, hget⟩

omit [DecidableEq H] in
theorem Holds.nodup {r : RouteRegistry H} {done : Registered H} (hr : Holds done r) :
    (r.routes.values.map RouteSpecification.identity).Nodup := by
  have hkeys : r.routes.values.map RouteSpecification.identity = r.routes.items.map Prod.fst := by
    rw [Dict.values, List.map_map]
    refine List.map_congr_left fun m hm => ?_
    exact hr.keyed m.1 m.2 (Dict.get_eq_some.mpr hm)
  rw [hkeys]
  exact r.routes.nodup

omit [DecidableEq H] in
/-- The selection of the registry is that of its users, from its specifications. -/
theorem Holds.selected {r : RouteRegistry H} {done : Registered H} (hr : Holds done r)
    {eventType : Str} {selected : List RouteSpecification} (h : r.matching eventType = .ok selected) :
    selected = latestRoutes r.specifications eventType := by
  unfold RouteRegistry.matching at h
  obtain ⟨-, -, h⟩ := bind_eq_ok.mp h
  cases h
  exact latestRoutes_perm (List.perm_insertionSort _ _).symm hr.nodup eventType

omit [DecidableEq H] in
theorem Holds.resolves {r : RouteRegistry H} {done : Registered H} (hr : Holds done r)
    {m : RouteSpecification × H} (hm : m ∈ done.routes) {s : RouteSpecification}
    (hs : s ∈ r.specifications) (hidentity : m.1.identity = s.identity) (hfrozen : r.frozen) :
    r.resolveHandler s.destinationKey s.version = .ok m.2 := by
  obtain ⟨hhandler, s', hs', hdestination, -⟩ := hr.kept m hm
  rw [hidentity] at hs'
  cases (hr.get.mp hs).symm.trans hs'
  have hversion : m.1.version = s.version := congrArg Prod.snd hidentity
  rw [← hdestination, hversion] at hhandler
  unfold RouteRegistry.resolveHandler
  refine bind_eq_ok.mpr ⟨(), check_eq_ok.mpr hfrozen, ?_⟩
  exact orRaise_eq_ok.mpr hhandler

/-- After any sequence of calls the registry is consistent, and no call that raises changes it. -/
theorem registry_consistent (isAsync : H → Bool) (calls : List (RegistryCall H)) :
    (∀ (r : RouteRegistry H) (call : RegistryCall H) (e : PyError),
      (call.run isAsync r).2 = .error e → (call.run isAsync r).1 = r) ∧
    let r := afterCalls isAsync calls
    let done := registered isAsync .new ⟨[], []⟩ calls
    (∀ s ∈ r.specifications, ∀ s' ∈ r.specifications, s.routeKey = s'.routeKey →
      s.eventType = s'.eventType) ∧
    (∀ s ∈ r.specifications, ∃ selected, r.matching s.eventType = .ok selected) ∧
    (∀ eventType selected, r.matching eventType = .ok selected →
      selected = UnitOfWork.matchingRoutes r.specifications eventType ∧
      selected = CommandContext.matchingRoutes r.specifications eventType ∧
      (selected.map fun s => s.routeKey).Nodup ∧
      ∀ s, s ∈ selected ↔ IsLatest r.specifications eventType s) ∧
    (∀ s ∈ r.specifications, (∃ m ∈ done.routes, m.1.identity = s.identity) ∧
      ∀ m ∈ done.routes, m.1.identity = s.identity →
        (s.identity ∉ done.pinned → s = m.1) ∧
        (r.frozen → r.resolveHandler s.destinationKey s.version = .ok m.2)) ∧
    (∀ m ∈ done.routes, ∃ s ∈ r.specifications, s.identity = m.1.identity) ∧
    ∀ identity ∈ done.pinned, ∃ s ∈ r.specifications, s.identity = identity ∧
      ∃ capabilities, s.serviceCapabilities = some capabilities ∧ s.requiredScopes ⊆ capabilities := by
  refine ⟨fun r call e => run_error, ?_⟩
  intro r done
  have hr : Holds done r := holds_new.run calls
  have hnodup : (r.specifications.map RouteSpecification.identity).Nodup :=
    ((List.perm_insertionSort _ _).map _).nodup_iff.mpr hr.nodup
  refine ⟨?typed, ?total, ?selected, ?origin, ?kept, ?pinned⟩
  case typed =>
    intro s hs s' hs' hkey
    exact hr.typed s (mem_specifications.mp hs) s' (mem_specifications.mp hs') hkey
  case total =>
    intro s hs
    obtain ⟨given, hgiven⟩ := s.made
    exact ⟨_, bind_eq_ok.mpr ⟨(), eventType_checked hgiven, rfl⟩⟩
  case selected =>
    intro eventType selected hmatching
    rw [hr.selected hmatching]
    exact ⟨rfl, rfl, nodup_latestRoutes _ _, fun s => mem_latestRoutes hnodup⟩
  case origin =>
    intro s hs
    refine ⟨hr.origin s (mem_specifications.mp hs), fun m hm hidentity => ⟨fun hout => ?_, ?_⟩⟩
    · obtain ⟨-, s', hs', -, hsame⟩ := hr.kept m hm
      rw [hidentity] at hs' hsame
      cases (hr.get.mp hs).symm.trans hs'
      exact hsame hout
    · exact hr.resolves hm hs hidentity
  case kept =>
    intro m hm
    obtain ⟨-, s, hs, -⟩ := hr.kept m hm
    have hidentity := hr.keyed _ _ hs
    refine ⟨s, hr.get.mpr ?_, hidentity⟩
    rw [hidentity]
    exact hs
  case pinned =>
    intro identity hidentity
    obtain ⟨s, capabilities, hs, hpinned⟩ := hr.pinned identity hidentity
    have hkeyed := hr.keyed _ _ hs
    refine ⟨s, hr.get.mpr ?_, hkeyed, capabilities, hpinned⟩
    rw [hkeyed]
    exact hs

end Runs

end FastapiEffects
