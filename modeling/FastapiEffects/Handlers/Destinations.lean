import FastapiEffects.Core.Snapshots
import FastapiEffects.Handlers.Executor

/-! # What a snapshot says of its route

The metadata of a destination is merged into the object that has its kind and its key. Where a member
of the metadata has one of these two names the snapshot is that of another route, and the executor
resolves the handler of that one.
-/

namespace FastapiEffects

open Python

/-! ## Routes that are the same -/

/-- Policies with the same fields, their numbers compared as floats. -/
structure RetryPolicy.SameAs (p q : RetryPolicy) : Prop where
  name : p.name = q.name
  version : p.version = q.version
  maxAttempts : p.maxAttempts = q.maxAttempts
  maximumElapsed : p.maximumElapsedSeconds = q.maximumElapsedSeconds
  baseDelay : p.baseDelaySeconds.toFloat? = q.baseDelaySeconds.toFloat?
  maximumDelay : p.maximumDelaySeconds.toFloat? = q.maximumDelaySeconds.toFloat?
  handlerTimeout : p.handlerTimeoutSeconds.toFloat? = q.handlerTimeoutSeconds.toFloat?
  leaseDuration : p.leaseDurationSeconds.toFloat? = q.leaseDurationSeconds.toFloat?
  jitter : p.jitter = q.jitter

section Routes

variable [Platform]

namespace RouteSpecification

/-- Routes that differ in their metadata only. -/
structure SameFields (r r' : RouteSpecification) : Prop where
  eventType : r.eventType = r'.eventType
  routeKey : r.routeKey = r'.routeKey
  version : r.version = r'.version
  destinationKind : r.destinationKind = r'.destinationKind
  destinationKey : r.destinationKey = r'.destinationKey
  requiredScopes : r.requiredScopes = r'.requiredScopes
  authorization : r.authorization = r'.authorization
  servicePolicy : r.servicePolicy = r'.servicePolicy
  serviceCapabilities : r.serviceCapabilities = r'.serviceCapabilities
  maximumAge : r.maximumSnapshotAgeSeconds = r'.maximumSnapshotAgeSeconds
  retryPolicy : r.retryPolicy.SameAs r'.retryPolicy

/-- Equal routes. -/
def Same (r r' : RouteSpecification) : Prop :=
  r.SameFields r' ∧ r.destinationMetadata = r'.destinationMetadata

/-! ## Faithful snapshots -/

/-- The snapshot has the kind and the key of the route, and the executor resolves the handler of
that key. -/
structure Faithful (r : RouteSpecification) : Prop where
  names : ∃ snapshot destination, r.toSnapshot = .ok snapshot ∧
    snapshot.get? "destination" = some destination ∧
    destination.get? "kind" = some (.str r.destinationKind) ∧
    destination.get? "key" = some (.str r.destinationKey)
  resolves : ∀ (x : HandlerExecutor) now claim handler context,
    r.toSnapshot = .ok claim.routeSnapshot → x.prepare now claim = .ok (handler, context) →
      x.resolveHandler r.destinationKey claim.delivery.routeVersion = .ok handler

/-- Where the metadata has a member `kind` or `key`, it repeats the route's own. -/
structure RepeatsItself (r : RouteSpecification) : Prop where
  kind : ∀ value, (Json.obj r.destinationMetadata).get? "kind" = some value →
    value = .str r.destinationKind
  key : ∀ value, (Json.obj r.destinationMetadata).get? "key" = some value →
    value = .str r.destinationKey

/-- The metadata of two routes that are otherwise the same has the members `kind` and `key` in both
or in neither. -/
def TellsApart (r r' : RouteSpecification) : Prop :=
  r.SameFields r' → r.plainMetadata = r'.plainMetadata → ∀ k ∈ ([("kind" : Str), "key"] : List Str),
    ((Json.obj r.destinationMetadata).get? k).isSome =
      ((Json.obj r'.destinationMetadata).get? k).isSome

end RouteSpecification

/-! ## The destination -/

/-- The value under a name of the identity. -/
def RouteSpecification.identityValue (r : RouteSpecification) (name : Str) (own : Str) : Json :=
  ((Json.obj r.destinationMetadata).get? name).getD (.str own)

theorem get?_destination (r : RouteSpecification) :
    (Json.obj r.destination).get? "kind" = some (r.identityValue "kind" r.destinationKind) ∧
    (Json.obj r.destination).get? "key" = some (r.identityValue "key" r.destinationKey) := by
  have hdiffer : (Str.ofString "kind") ≠ Str.ofString "key" := by decide
  rw [destination_eq]
  constructor
  · rw [Json.get?_cons, if_pos rfl]
    rfl
  · rw [Json.get?_cons, if_neg hdiffer, Json.get?_cons, if_pos rfl]
    rfl

theorem repeatsItself_iff (r : RouteSpecification) : r.RepeatsItself ↔
    r.identityValue "kind" r.destinationKind = .str r.destinationKind ∧
      r.identityValue "key" r.destinationKey = .str r.destinationKey := by
  have hvalue : ∀ (x : Option Json) (own : Json), (∀ value, x = some value → value = own) ↔
      x.getD own = own := by
    intro x own
    cases x with
    | none => simp
    | some value => simp
  constructor
  · intro h
    exact ⟨(hvalue _ _).mp h.kind, (hvalue _ _).mp h.key⟩
  · rintro ⟨hkind, hkey⟩
    exact ⟨(hvalue _ _).mpr hkind, (hvalue _ _).mpr hkey⟩

/-- The executor looks the handler up under the key of the destination. -/
theorem prepare_resolves {r : RouteSpecification} {x : HandlerExecutor} {now : Datetime}
    {claim : ClaimedDelivery} {handler : Handler} {context : EffectContext}
    (hkey : r.identityValue "key" r.destinationKey = .str r.destinationKey)
    (hsnapshot : claim.routeSnapshot = r.document)
    (h : x.prepare now claim = .ok (handler, context)) :
    x.resolveHandler r.destinationKey claim.delivery.routeVersion = .ok handler := by
  have hdestination : claim.routeSnapshot.get? "destination" = some (.obj r.destination) := by
    rw [hsnapshot]
    rfl
  unfold HandlerExecutor.prepare at h
  split at h
  · next destination authority retry hfound _ _ =>
      cases hfound.symm.trans hdestination
      simp only [bind_eq_ok] at h
      obtain ⟨key, htext, found, hresolved, _, -, _, -, _, -, _, -, _, -, heq⟩ := h
      rw [(get?_destination r).2, hkey] at htext
      cases htext
      cases heq
      exact hresolved
  · cases h
  · cases h

theorem faithful_iff (r : RouteSpecification) : r.Faithful ↔ r.RepeatsItself := by
  obtain ⟨hkind, hkey⟩ := get?_destination r
  rw [repeatsItself_iff]
  constructor
  · intro h
    obtain ⟨snapshot, destination, hsnapshot, hdestination, hkind', hkey'⟩ := h.names
    rw [r.toSnapshot_eq] at hsnapshot
    cases hsnapshot
    have hsame : destination = .obj r.destination := (Option.some.inj hdestination).symm
    rw [hsame, hkind] at hkind'
    rw [hsame, hkey] at hkey'
    exact ⟨Option.some.inj hkind', Option.some.inj hkey'⟩
  · rintro ⟨hownKind, hownKey⟩
    constructor
    · refine ⟨r.document, .obj r.destination, r.toSnapshot_eq, rfl, ?_, ?_⟩
      · rw [hkind, hownKind]
      · rw [hkey, hownKey]
    · intro x now claim handler context hsnapshot hprepare
      rw [r.toSnapshot_eq] at hsnapshot
      exact prepare_resolves hownKey (Except.ok.inj hsnapshot).symm hprepare

/-! ## Metadata in the order of its keys -/

/-- Accepted metadata is in the order of its keys, at every level. -/
theorem metadata_sorted (r : RouteSpecification) :
    (r.destinationMetadata.map Prod.fst).Nodup ∧
    Json.sortMembers r.destinationMetadata = r.destinationMetadata ∧
    ∀ m ∈ r.destinationMetadata, m.2.sorted = m.2 := by
  have haccepted := r.accepted.destinationMetadata
  have hsorted : Json.sortMembers (Json.sortedMembers r.destinationMetadata) =
      r.destinationMetadata := Json.obj.inj haccepted.sorted
  refine ⟨(members_of_normalize haccepted.normal).1, ?_, fun m hm => ?_⟩
  · rw [← hsorted, Json.sortMembers_sortMembers, hsorted]
  · rw [← hsorted] at hm
    obtain ⟨x, -, rfl⟩ := Json.mem_sortedMembers.mp ((Json.sortMembers_perm _).mem_iff.mp hm)
    exact Json.sorted_sorted x.2

theorem plainMetadata_sorted (r : RouteSpecification) :
    Json.sortMembers r.plainMetadata = r.plainMetadata := by
  have hpairwise := Json.pairwise_sortMembers r.destinationMetadata
  rw [(metadata_sorted r).2.1] at hpairwise
  exact (hpairwise.sublist List.filter_sublist).insertionSort_eq

theorem nodup_destination (r : RouteSpecification) : (r.destination.map Prod.fst).Nodup := by
  have hplain : (r.plainMetadata.map Prod.fst).Nodup :=
    (metadata_sorted r).1.sublist (List.filter_sublist.map _)
  have hdiffer : (Str.ofString "kind") ≠ Str.ofString "key" := by decide
  rw [destination_eq, List.map_cons, List.map_cons, List.nodup_cons, List.nodup_cons]
  refine ⟨?_, ?_, hplain⟩
  · simp [RouteSpecification.plainMetadata, hdiffer]
  · simp [RouteSpecification.plainMetadata]

/-- The members of a destination are sorted in themselves. -/
theorem sortedMembers_destination (r : RouteSpecification) :
    Json.sortedMembers r.destination = r.destination := by
  have hself : ∀ m ∈ r.destination, m.2.sorted = m.2 := by
    intro m hm
    rcases mem_destination.mp hm with hm | ⟨hm, -⟩
    · exact (metadata_sorted r).2.2 m hm
    · exact forall_ownIdentity (p := fun m => m.2.sorted = m.2) (fun _ _ _ _ => rfl) m hm
  have hmap := Json.map_sortedMembers id r.destination
  rw [List.map_id] at hmap
  rw [hmap]
  refine (List.map_congr_left fun m hm => ?_).trans (List.map_id _)
  rw [hself m hm]

/-- A destination is what its sorted object says. -/
theorem destination_inj {r r' : RouteSpecification}
    (h : (Json.obj r.destination).sorted = (Json.obj r'.destination).sorted) :
    r.identityValue "kind" r.destinationKind = r'.identityValue "kind" r'.destinationKind ∧
    r.identityValue "key" r.destinationKey = r'.identityValue "key" r'.destinationKey ∧
    r.plainMetadata = r'.plainMetadata := by
  have hmembers := Json.obj.inj h
  rw [sortedMembers_destination, sortedMembers_destination] at hmembers
  have hperm : r.destination.Perm r'.destination :=
    (Json.sortMembers_perm _).symm.trans (hmembers ▸ Json.sortMembers_perm _)
  have hvalue : ∀ {key : Str} {value value' : Json}, (Json.obj r.destination).get? key = some value →
      (Json.obj r'.destination).get? key = some value' → value = value' := by
    intro key value value' hget hget'
    have hmem := hperm.mem_iff.mp ((Json.get?_eq_some (nodup_destination r)).mp hget)
    rw [(Json.get?_eq_some (nodup_destination r')).mpr hmem] at hget'
    exact Option.some.inj hget'
  obtain ⟨hkind, hkey⟩ := get?_destination r
  obtain ⟨hkind', hkey'⟩ := get?_destination r'
  have hsameKind := hvalue hkind hkind'
  have hsameKey := hvalue hkey hkey'
  refine ⟨hsameKind, hsameKey, ?_⟩
  have hplain : r.plainMetadata.Perm r'.plainMetadata := by
    unfold RouteSpecification.identityValue at hsameKind hsameKey
    rw [destination_eq, destination_eq, hsameKind, hsameKey] at hperm
    exact hperm.cons_inv.cons_inv
  have hnodup : (r.plainMetadata.map Prod.fst).Nodup :=
    (metadata_sorted r).1.sublist (List.filter_sublist.map _)
  rw [← plainMetadata_sorted r, ← plainMetadata_sorted r', Json.sortMembers_congr hnodup hplain]

/-! ## The whole snapshot -/

omit [Platform] in
theorem get?_sorted_congr {ms ns : List (Str × Json)}
    (h : (Json.obj ms).sorted = (Json.obj ns).sorted) (hms : (ms.map Prod.fst).Nodup)
    (hns : (ns.map Prod.fst).Nodup) (key : Str) :
    ((Json.obj ms).get? key).map Json.sorted = ((Json.obj ns).get? key).map Json.sorted := by
  rw [← Json.get?_sorted hms, ← Json.get?_sorted hns, h]

omit [Platform] in
theorem asFloat_inj {p q : RetryPolicy} {a b : Number} (ha : a ∈ p.floats) (hb : b ∈ q.floats)
    (h : RetryPolicy.asFloat a = RetryPolicy.asFloat b) : a.toFloat? = b.toFloat? := by
  have hsome : ∀ {p : RetryPolicy} {a : Number}, a ∈ p.floats →
      a.toFloat? = some (RetryPolicy.asFloat a) := by
    intro p a ha
    obtain ⟨x, hx, heq⟩ := RetryPolicy.floatField_eq_ok (p.accepted.2.2 a ha).1
    rw [hx, RetryPolicy.asFloat, hx]
    rfl
  rw [hsome ha, hsome hb, h]

omit [Platform] in
/-- Policies with one snapshot are the same as floats. -/
theorem policy_inj {p q : RetryPolicy} (h : p.document.sorted = q.document.sorted) : p.SameAs q := by
  have hkeys : (List.map Str.ofString ["name", "version", "max_attempts", "maximum_elapsed_seconds",
      "base_delay_seconds", "maximum_delay_seconds", "handler_timeout_seconds",
      "lease_duration_seconds", "jitter"]).Nodup := by
    decide
  have hget := get?_sorted_congr h hkeys hkeys
  have hfloat : ∀ {a b : Number}, a ∈ p.floats → b ∈ q.floats →
      some (Json.float (RetryPolicy.asFloat a)) = some (.float (RetryPolicy.asFloat b)) →
      a.toFloat? = b.toFloat? := by
    intro a b ha hb heq
    exact asFloat_inj ha hb (Json.float.inj (Option.some.inj heq))
  constructor
  · exact Json.str.inj (Option.some.inj (hget "name"))
  · exact Json.int.inj (Option.some.inj (hget "version"))
  · exact Json.int.inj (Option.some.inj (hget "max_attempts"))
  · exact Json.int.inj (Option.some.inj (hget "maximum_elapsed_seconds"))
  · exact hfloat (by simp [RetryPolicy.floats]) (by simp [RetryPolicy.floats])
      (hget "base_delay_seconds")
  · exact hfloat (by simp [RetryPolicy.floats]) (by simp [RetryPolicy.floats])
      (hget "maximum_delay_seconds")
  · exact hfloat (by simp [RetryPolicy.floats]) (by simp [RetryPolicy.floats])
      (hget "handler_timeout_seconds")
  · exact hfloat (by simp [RetryPolicy.floats]) (by simp [RetryPolicy.floats])
      (hget "lease_duration_seconds")
  · exact Json.str.inj (Option.some.inj (hget "jitter"))

omit [Platform] in
theorem jsonTexts_inj {texts texts' : List Str}
    (h : (jsonTexts texts).sorted = (jsonTexts texts').sorted) : texts = texts' := by
  have hsorted : ∀ texts : List Str, (jsonTexts texts).sorted = jsonTexts texts := by
    intro texts
    have hitems : Json.sortedItems (texts.map .str) = texts.map .str := by
      induction texts with
      | nil => rfl
      | cons s rest ih =>
          rw [List.map_cons, Json.sortedItems, ih]
          rfl
    rw [jsonTexts, Json.sorted, hitems]
  rw [hsorted, hsorted] at h
  exact List.map_injective_iff.mpr (fun _ _ => Json.str.inj) (Json.arr.inj h)

omit [Platform] in
/-- An optional value, where none of the values is `null`. -/
theorem jsonOption_inj {α : Type} {f : α → Json} (hnull : ∀ a, (f a).sorted ≠ .null)
    (hinj : ∀ a b, (f a).sorted = (f b).sorted → a = b) {x y : Option α}
    (h : (jsonOption f x).sorted = (jsonOption f y).sorted) : x = y := by
  cases x with
  | none =>
      cases y with
      | none => rfl
      | some b => exact absurd h.symm (hnull b)
  | some a =>
      cases y with
      | none => exact absurd h (hnull a)
      | some b => exact congrArg some (hinj a b h)

theorem authority_inj {r r' : RouteSpecification} (h : r.authority.sorted = r'.authority.sorted) :
    r.authorization = r'.authorization ∧ r.requiredScopes = r'.requiredScopes ∧
    r.servicePolicy = r'.servicePolicy ∧ r.serviceCapabilities = r'.serviceCapabilities ∧
    r.maximumSnapshotAgeSeconds = r'.maximumSnapshotAgeSeconds := by
  have hkeys : (List.map Str.ofString ["mode", "required_scopes", "service_policy",
      "service_capabilities", "maximum_snapshot_age_seconds"]).Nodup := by
    decide
  have hget := get?_sorted_congr h hkeys hkeys
  have hmode : r.authorization.text = r'.authorization.text :=
    Json.str.inj (Option.some.inj (hget "mode"))
  refine ⟨?_, ?_, ?_, ?_, ?_⟩
  · revert hmode
    cases r.authorization <;> cases r'.authorization <;> decide
  · exact jsonTexts_inj (Option.some.inj (hget "required_scopes"))
  · refine jsonOption_inj (f := .str) (by simp [Json.sorted]) (fun a b hab => Json.str.inj hab) ?_
    exact Option.some.inj (hget "service_policy")
  · refine jsonOption_inj (f := jsonTexts) (by simp [jsonTexts, Json.sorted]) (fun a b => jsonTexts_inj) ?_
    exact Option.some.inj (hget "service_capabilities")
  · refine jsonOption_inj (f := .int) (by simp [Json.sorted]) (fun a b hab => Json.int.inj hab) ?_
    exact Option.some.inj (hget "maximum_snapshot_age_seconds")

/-- Routes whose metadata adds nothing to the identity have one snapshot when they are the same
beside it. -/
theorem document_sorted_iff {r r' : RouteSpecification} (hr : r.RepeatsItself)
    (hr' : r'.RepeatsItself) : r.document.sorted = r'.document.sorted ↔
      r.SameFields r' ∧ r.plainMetadata = r'.plainMetadata := by
  rw [repeatsItself_iff] at hr hr'
  constructor
  · intro h
    have hkeys : (List.map Str.ofString ["snapshot_version", "event_type", "route_key",
        "route_version", "destination", "authority", "retry"]).Nodup := by
      decide
    have hget := get?_sorted_congr h hkeys hkeys
    obtain ⟨hkind, hkey, hplain⟩ := destination_inj (Option.some.inj (hget "destination"))
    rw [hr.1, hr'.1] at hkind
    rw [hr.2, hr'.2] at hkey
    obtain ⟨hmode, hscopes, hpolicy, hcapabilities, hage⟩ :=
      authority_inj (Option.some.inj (hget "authority"))
    refine ⟨?_, hplain⟩
    exact {
      eventType := Json.str.inj (Option.some.inj (hget "event_type"))
      routeKey := Json.str.inj (Option.some.inj (hget "route_key"))
      version := Json.int.inj (Option.some.inj (hget "route_version"))
      destinationKind := Json.str.inj hkind
      destinationKey := Json.str.inj hkey
      requiredScopes := hscopes
      authorization := hmode
      servicePolicy := hpolicy
      serviceCapabilities := hcapabilities
      maximumAge := hage
      retryPolicy := policy_inj (Option.some.inj (hget "retry")) }
  · rintro ⟨h, hplain⟩
    have hdestination : r.destination = r'.destination := by
      have hkind := hr.1
      have hkey := hr.2
      have hkind' := hr'.1
      have hkey' := hr'.2
      unfold RouteSpecification.identityValue at hkind hkey hkind' hkey'
      rw [destination_eq, destination_eq, hkind, hkey, hkind', hkey', h.destinationKind,
        h.destinationKey, hplain]
    have hretry : r.retryPolicy.document = r'.retryPolicy.document := by
      obtain ⟨hname, hversion, hattempts, helapsed, hbase, hmaximum, htimeout, hlease, hjitter⟩ :=
        h.retryPolicy
      simp only [RetryPolicy.document, RetryPolicy.asFloat, hname, hversion, hattempts, helapsed,
        hbase, hmaximum, htimeout, hlease, hjitter]
    rw [RouteSpecification.document, RouteSpecification.document, RouteSpecification.authority,
      RouteSpecification.authority, hdestination, hretry, h.eventType, h.routeKey, h.version,
      h.requiredScopes, h.authorization, h.servicePolicy, h.serviceCapabilities, h.maximumAge]

theorem snapshotBytes_inj {r r' : RouteSpecification} {bytes bytes' : Bytes}
    (h : r.snapshotBytes = .ok bytes) (h' : r'.snapshotBytes = .ok bytes') :
    bytes = bytes' ↔ r.document.sorted = r'.document.sorted := by
  have hbytes : ∀ r : RouteSpecification,
      r.snapshotBytes = canonicalJsonBytes r.document (32 * 1024) := by
    intro r
    rw [RouteSpecification.snapshotBytes, r.toSnapshot_eq]
    rfl
  rw [hbytes] at h h'
  rw [canonicalJsonBytes_inj h h', same_iff_sorted _ _ (canonicalJsonBytes_spec h).1
    (canonicalJsonBytes_spec h').1]

/-- Metadata that adds nothing to the identity is told by its other members, and by which of the
identity it repeats. -/
theorem metadata_eq_iff {r r' : RouteSpecification} (hr : r.RepeatsItself) (hr' : r'.RepeatsItself)
    (hkind : r.destinationKind = r'.destinationKind) (hkey : r.destinationKey = r'.destinationKey)
    (hplain : r.plainMetadata = r'.plainMetadata) : r.destinationMetadata = r'.destinationMetadata ↔
      ∀ k ∈ ([("kind" : Str), "key"] : List Str),
        ((Json.obj r.destinationMetadata).get? k).isSome =
          ((Json.obj r'.destinationMetadata).get? k).isSome := by
  -- a member of the one is a member of the other
  have hsubset : ∀ {r r' : RouteSpecification}, r.RepeatsItself → r'.RepeatsItself →
      r.destinationKind = r'.destinationKind → r.destinationKey = r'.destinationKey →
      r.plainMetadata = r'.plainMetadata →
      (∀ k ∈ ([("kind" : Str), "key"] : List Str),
        ((Json.obj r.destinationMetadata).get? k).isSome =
          ((Json.obj r'.destinationMetadata).get? k).isSome) →
      r.destinationMetadata ⊆ r'.destinationMetadata := by
    intro r r' hr hr' hkind hkey hplain hsome m hm
    have hget := (Json.get?_eq_some (metadata_sorted r).1).mpr hm
    have hfound : ∀ own : Str, m.1 ∈ ([("kind" : Str), "key"] : List Str) → m.2 = .str own →
        (∀ value, (Json.obj r'.destinationMetadata).get? m.1 = some value → value = .str own) →
        m ∈ r'.destinationMetadata := by
      intro own hname hvalue hown
      have hthere := hsome m.1 hname
      rw [hget] at hthere
      obtain ⟨value, hvalue'⟩ := Option.isSome_iff_exists.mp hthere.symm
      have hmem := (Json.get?_eq_some (metadata_sorted r').1).mp hvalue'
      rw [hown value hvalue', ← hvalue] at hmem
      exact hmem
    by_cases hmkind : m.1 = Str.ofString "kind"
    · refine hfound r.destinationKind (by simp [hmkind]) ?_ ?_
      · exact hr.kind m.2 (hmkind ▸ hget)
      · rw [hmkind, hkind]
        exact hr'.kind
    · by_cases hmkey : m.1 = Str.ofString "key"
      · refine hfound r.destinationKey (by simp [hmkey]) ?_ ?_
        · exact hr.key m.2 (hmkey ▸ hget)
        · rw [hmkey, hkey]
          exact hr'.key
      · have hmem : m ∈ r.plainMetadata := by
          simp [RouteSpecification.plainMetadata, hm, hmkind, hmkey]
        rw [hplain] at hmem
        exact List.mem_of_mem_filter hmem
  constructor
  · intro heq
    rw [heq]
    exact fun _ _ => rfl
  · intro hsome
    have hperm : r.destinationMetadata.Perm r'.destinationMetadata :=
      (List.perm_ext_iff_of_nodup (metadata_sorted r).1.of_map (metadata_sorted r').1.of_map).mpr
        fun m => ⟨fun hm => hsubset hr hr' hkind hkey hplain hsome hm, fun hm =>
          hsubset hr' hr hkind.symm hkey.symm hplain.symm (fun k hk => (hsome k hk).symm) hm⟩
    rw [← (metadata_sorted r).2.1, ← (metadata_sorted r').2.1,
      Json.sortMembers_congr (metadata_sorted r).1 hperm]

/-- A snapshot is faithful when the metadata of the route has no member `kind` or `key`, or one that
repeats the route's own; and then the snapshots of two routes differ, but for routes that differ only in
whether their metadata repeats these members. -/
theorem route_snapshot_faithful : (∀ r : RouteSpecification, r.Faithful ↔ r.RepeatsItself) ∧
    ∀ (r r' : RouteSpecification) (bytes bytes' : Bytes), r.snapshotBytes = .ok bytes →
      r'.snapshotBytes = .ok bytes' →
        (((bytes = bytes' → r.Same r') ∧ r.Faithful ∧ r'.Faithful) ↔
          r.RepeatsItself ∧ r'.RepeatsItself ∧ r.TellsApart r') := by
  refine ⟨faithful_iff, fun r r' bytes bytes' hbytes hbytes' => ?_⟩
  rw [faithful_iff, faithful_iff, snapshotBytes_inj hbytes hbytes']
  constructor
  · rintro ⟨hsame, hr, hr'⟩
    refine ⟨hr, hr', fun hfields hplain => ?_⟩
    have hmetadata := (hsame ((document_sorted_iff hr hr').mpr ⟨hfields, hplain⟩)).2
    exact (metadata_eq_iff hr hr' hfields.destinationKind hfields.destinationKey hplain).mp hmetadata
  · rintro ⟨hr, hr', hapart⟩
    refine ⟨fun hsorted => ?_, hr, hr'⟩
    obtain ⟨hfields, hplain⟩ := (document_sorted_iff hr hr').mp hsorted
    refine ⟨hfields, ?_⟩
    exact (metadata_eq_iff hr hr' hfields.destinationKind hfields.destinationKey hplain).mpr
      (hapart hfields hplain)

end Routes

/-! ## Metadata in the place of the identity -/

section Overridden

open scoped Checksum

/-- A route of `invoice.created`. -/
def invoiceRoute (destinationKey : Str) (metadata : List (Str × Json)) : RouteArgs where
  eventType := "invoice.created"
  routeKey := "invoices"
  version := 1
  destinationKind := "handler"
  destinationKey := destinationKey
  requiredScopes := []
  authorization := .revalidate
  servicePolicy := none
  serviceCapabilities := none
  maximumSnapshotAgeSeconds := none
  retryPolicy := defaultHandler
  destinationMetadata := metadata

/-- A route to `invoices` whose metadata has the key `refunds`. -/
def overriddenRoute : Except PyError RouteSpecification :=
  RouteSpecification.make (invoiceRoute "invoices" [("key", .str "refunds")])

/-- A route to `refunds`. -/
def refundsRoute : Except PyError RouteSpecification :=
  RouteSpecification.make (invoiceRoute "refunds" [])

theorem overriddenRoute_bytes : (overriddenRoute.map fun r => r.destinationKey) = .ok "invoices" ∧
    (refundsRoute.map fun r => r.destinationKey) = .ok "refunds" ∧
    (overriddenRoute >>= RouteSpecification.snapshotBytes).isOk = true ∧
    (overriddenRoute >>= RouteSpecification.snapshotBytes) =
      (refundsRoute >>= RouteSpecification.snapshotBytes) := by
  decide +kernel

/-- Two routes to different handlers have one snapshot. -/
theorem snapshot_of_other_route : ¬ ((∀ (r r' : RouteSpecification) (bytes : Bytes),
    r.snapshotBytes = .ok bytes → r'.snapshotBytes = .ok bytes → r.Same r') ∧
      ∀ r : RouteSpecification, r.Faithful) := by
  rintro ⟨hinjective, -⟩
  obtain ⟨hkey, hkey', hok, hsame⟩ := overriddenRoute_bytes
  obtain ⟨r, hr, hinvoices⟩ := map_eq_ok.mp hkey
  obtain ⟨r', hr', hrefunds⟩ := map_eq_ok.mp hkey'
  rw [hr, hr'] at hsame
  rw [hr] at hok
  cases hbytes : r.snapshotBytes with
  | error e =>
      have hfailed : (Except.ok r >>= RouteSpecification.snapshotBytes) = .error e := hbytes
      rw [hfailed] at hok
      cases hok
  | ok bytes =>
      have hfields := (hinjective r r' bytes hbytes (hsame.symm.trans hbytes)).1
      have hsameKey := hfields.destinationKey
      rw [hinvoices, hrefunds] at hsameKey
      exact absurd hsameKey (by decide)

end Overridden

end FastapiEffects
